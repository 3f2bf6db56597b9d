import ModuleScaffold.Source.Statement

/-!
# Text that does not follow the grammar

Where no statement can be read, as much as possible is made out from the brackets. A statement
extends to its semicolon or to the end of its line, whichever comes first outside brackets;
variables and imports are recognised by their first words. In the registration of routes, the
members of objects and the items of arrays extend to the commas between them, so that one damaged
route does not spoil its neighbours. If the brackets do not match, the rest of the source is
unreadable.
-/

namespace ModuleScaffold

namespace Source

/-! ### Brackets -/

/-- The bracket that closes the given one. -/
def closingBracket (c : Char) : Option Char :=
  if c = '(' then some ')'
  else if c = '[' then some ']'
  else if c = '\x7b' then some '\x7d'
  else none

/-- Whether the character closes a bracket. -/
def isClosing (c : Char) : Bool :=
  c == ')' || c == ']' || c == '\x7d'

/-- What remains at the first of the `stops` outside brackets, comments and quoted texts; at the end
of the text if `atEnd`. The brackets in `opened` wait to be closed, the innermost first; at most
`fuel` pieces of text are passed. -/
def extentFrom (stops : List Char) (atEnd : Bool) : Nat → List Char → Chars → Option Chars
  | 0, _, _ => none
  | _ + 1, opened, [] => if opened.isEmpty && atEnd then some [] else none
  | fuel + 1, opened, c :: cs =>
    if opened.isEmpty && stops.contains c then some (c :: cs)
    else match comment? (c :: cs) with
      | some rest => extentFrom stops atEnd fuel opened rest
      | none =>
        match (stringHere (c :: cs)).or ((templateHere (fun _ => none) (c :: cs)).map (·.2)) with
        | some rest => extentFrom stops atEnd fuel opened rest
        | none =>
          match closingBracket c with
          | some d => extentFrom stops atEnd fuel (d :: opened) cs
          | none =>
            if isClosing c then
              match opened with
              | d :: opened => if c = d then extentFrom stops atEnd fuel opened cs else none
              | [] => none
            else extentFrom stops atEnd fuel opened cs

/-- What remains at the first of the given characters outside brackets. -/
def extent (stops : List Char) (atEnd : Bool) (cs : Chars) : Option Chars :=
  extentFrom stops atEnd (cs.length + 1) [] cs

/-- The fragment from a start to an end, without the blanks in front of the end. -/
def trimmed (start stop : Chars) : Fragment :=
  let kept := ((upTo start stop).reverse.dropWhile isSpace).length
  ⟨start, start.drop kept⟩

/-! ### Damaged lists -/

/-- Items between brackets, those that do not follow the grammar made by `damaged` from their
fragments; at most `fuel` items are read. -/
def damagedListFrom {α : Type} (item : Chars → Option (α × Chars)) (damaged : Fragment → α)
    (closing : Char) : Nat → Chars → Option (List α × Chars)
  | 0, _ => none
  | fuel + 1, cs =>
    match skip cs with
    | [] => none
    | c :: rest =>
      if c = closing then some ([], rest)
      else if c = ',' then damagedListFrom item damaged closing fuel rest
      else
        let ended (rest : Chars) : Bool :=
          (skip rest).head? == some ',' || (skip rest).head? == some closing
        match (item (c :: rest)).filter (ended ·.2) with
        | some (a, rest) =>
          (damagedListFrom item damaged closing fuel rest).map fun (as, rest) => (a :: as, rest)
        | none =>
          match extent [',', closing] false (c :: rest) with
          | none => none
          | some stop =>
            let found := damaged (trimmed (c :: rest) stop)
            (damagedListFrom item damaged closing fuel stop).map fun (as, rest) =>
              (found :: as, rest)

/-- Items between brackets, some of which do not follow the grammar. -/
def damagedList {α : Type} (item : Chars → Option (α × Chars)) (damaged : Fragment → α)
    (closing : Char) (cs : Chars) : Option (List α × Chars) :=
  damagedListFrom item damaged closing (cs.length + 1) cs

/-- What can be said of an item that does not follow the grammar. -/
def damagedItem (f : Fragment) : Expr :=
  let cs := f.chars
  if cs.head? = some '\x7b' && cs.getLast? = some '\x7d' then .damaged .object f
  else if cs.head? = some '[' && cs.getLast? = some ']' then .damaged .array f
  else .damaged .error f

/-- An array in which some items do not follow the grammar. -/
def damagedArray (r : Reader) (cs : Chars) : Option (Expr × Chars) :=
  match skip cs with
  | '[' :: rest => (damagedList (item r) damagedItem ']' rest).map fun (items, rest) =>
    (.array items ⟨skip cs, rest⟩, rest)
  | _ => none

/-- A member of which at least the key follows the grammar. -/
def keyedMember (r : Reader) (cs : Chars) : Option (Member × Chars) :=
  let start := skip cs
  match objectMember r start with
  | some (m, rest) => if endsMember rest then some (m, rest) else pair start
  | none => pair start
where
  /-- A pair whose value is an array with damaged items. -/
  pair (start : Chars) : Option (Member × Chars) := do
    let behind ← propertyNameEnd r start
    let (value, rest) ← (mark ":" behind).bind (damagedArray r)
    return (.pair ⟨keyKind start, ⟨start, behind⟩⟩ value ⟨start, rest⟩, rest)

/-- What can be said of a member that does not follow the grammar. -/
def damagedMember (r : Reader) (f : Fragment) : Member :=
  match propertyNameEnd r f.start with
  | some behind => .damaged ⟨keyKind f.start, ⟨f.start, behind⟩⟩ f
  | none => .other .error f

/-- An object in which some members do not follow the grammar. -/
def damagedObject (r : Reader) (cs : Chars) : Option (Expr × Chars) :=
  match skip cs with
  | '\x7b' :: rest =>
    (damagedList (keyedMember r) (damagedMember r) '\x7d' rest).map fun (members, rest) =>
      (.object members ⟨skip cs, rest⟩, rest)
  | _ => none

/-! ### Damaged statements -/

/-- An exported call with an object in which some members do not follow the grammar. -/
def damagedExport (r : Reader) (start : Chars) : Option (Item × Chars) := do
  let rest ← (keyword "export" start).bind (keyword "default")
  let callee ← anyWord rest
  let open_ ← mark "(" callee
  let (config, behind) ← damagedObject r open_
  let behind ← mark ")" (optional (mark ",") behind)
  let stop ← endStatement true behind
  let call : Expr := .call .identifier ⟨skip rest, callee⟩ false [config] ⟨skip rest, behind⟩
  return (.exported call ⟨start, stop⟩, stop)

/-- What remains behind a statement that does not follow the grammar: behind its semicolon, or at
the end of its line. -/
def damagedStatementEnd (start : Chars) : Option Chars :=
  match extent [';', '\n'] true start with
  | some (';' :: rest) => some rest
  | some stop => some (trimmed start stop).stop
  | none => none

/-- A variable whose initializer does not follow the grammar, behind its keyword. -/
def damagedVariable (exported : Bool) (start rest stop : Chars) : Option Item := do
  let behind ← anyWord rest
  let name : Fragment := ⟨skip rest, behind⟩
  let initial ← operatorMark "=" behind
  let value := trimmed (skip initial) stop
  let found := value.chars.filter (· != ';')
  let d : Declarator :=
    if found.isEmpty then ⟨some name, none, name⟩
    else ⟨some name, some (.damaged .error value), ⟨name.start, value.stop⟩⟩
  return .declaring exported false [d] ⟨start, stop⟩

/-- A statement that does not follow the grammar, from its first character on. -/
def damagedStatement (r : Reader) (start : Chars) : Item × Chars :=
  match damagedExport r start with
  | some found => found
  | none =>
    match damagedStatementEnd start with
    | none => (.unreadable (trimmed start []), [])
    | some stop =>
      let found : Item :=
        if (keyword "import" start).isSome then .importing .damaged ⟨start, stop⟩
        else
          let behind := keyword "export" start
          match keywordAmong ["const", "let", "var"] (behind.getD start) with
          | some rest => (damagedVariable behind.isSome start rest stop).getD (.damaged ⟨start, stop⟩)
          | none => .damaged ⟨start, stop⟩
      (found, stop)

end Source

end ModuleScaffold
