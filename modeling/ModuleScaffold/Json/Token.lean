import ModuleScaffold.Number.Product

/-!
# JSON texts

The parts of a JSON text, read from its start: blanks, the words for truth values and null, texts
with their escapes, numbers, and values that are only skipped. A text that breaks the rules of
JSON is malformed, one that ends too early is ended.

A number is an integer of 64 bits or a double. Skipped values are checked more loosely: their
numbers have no range, and escaped halves of characters may stand alone.
-/

namespace ModuleScaffold

namespace Json

/-- What remains of a JSON text. -/
abbrev Chars := List Char

/-- How a text fails to be JSON. -/
inductive Fault
  /-- It breaks the rules. -/
  | malformed
  /-- It ends too early. -/
  | ended
  deriving DecidableEq, Repr

/-- A blank of JSON. -/
def isBlank (c : Char) : Bool :=
  c == ' ' || c == '\n' || c == '\t' || c == '\r'

/-- What remains behind blanks. -/
def skipBlanks (cs : Chars) : Chars :=
  cs.dropWhile isBlank

/-- What remains behind the given characters. -/
def expect : Chars → Chars → Except Fault Chars
  | [], cs => .ok cs
  | _ :: _, [] => .error .ended
  | p :: ps, c :: cs => if p = c then expect ps cs else .error .malformed

/-! ### Texts -/

/-- The code unit written by four hexadecimal digits. -/
def hexUnit (cs : Chars) : Except Fault (Nat × Chars) :=
  let four := cs.take 4
  if (String.ofList four).utf8ByteSize < 4 then .error .ended
  else match Text.readNumber 16 four with
    | some n => if four.length = 4 then .ok (n, cs.drop 4) else .error .malformed
    | none => .error .malformed

/-- The second half of a character, in an escape of its own. -/
def lowHalf (cs : Chars) : Except Fault (Nat × Chars) := do
  let (n, rest) ← hexUnit (← expect ['\\', 'u'] cs)
  if 0xDC00 ≤ n ∧ n ≤ 0xDFFF then return (n, rest) else .error .malformed

/-- The character of an escape with hexadecimal digits, given in one or two halves. -/
def escapedUnit (cs : Chars) : Except Fault (Char × Chars) := do
  let (n, rest) ← hexUnit cs
  if 0xDC00 ≤ n ∧ n ≤ 0xDFFF then .error .malformed
  else if 0xD800 ≤ n ∧ n ≤ 0xDBFF then
    let (m, rest) ← lowHalf rest
    return (Char.ofNat ((n - 0xD800) * 0x400 + (m - 0xDC00) + 0x10000), rest)
  else return (Char.ofNat n, rest)

/-- The character meant by a backslash and one character. -/
def shortEscape (c : Char) : Option Char :=
  if c = '"' || c = '\\' || c = '/' then some c
  else if c = 'b' then some (Char.ofNat 8)
  else if c = 'f' then some (Char.ofNat 12)
  else if c = 'n' then some '\n'
  else if c = 'r' then some '\r'
  else if c = 't' then some '\t'
  else none

/-- The character of an escape behind its backslash. A text that is only skipped may hold halves of
characters. -/
def escape (strict : Bool) : Chars → Except Fault (Char × Chars)
  | [] => .error .ended
  | c :: cs =>
    if c = 'u' then
      if strict then escapedUnit cs
      else match hexUnit cs with
        | .ok (_, rest) => .ok ('u', rest)
        | .error e => .error e
    else match shortEscape c with
      | some d => .ok (d, cs)
      | none => .error .malformed

/-- The rest of a text behind its opening quote, read in at most `fuel` steps. -/
def stringFrom (strict : Bool) : Nat → Chars → Except Fault (Chars × Chars)
  | 0, _ => .error .ended
  | _ + 1, [] => .error .ended
  | fuel + 1, c :: cs =>
    if c = '"' then .ok ([], cs)
    else if c = '\\' then do
      let (d, rest) ← escape strict cs
      let (ds, rest) ← stringFrom strict fuel rest
      return (d :: ds, rest)
    else if c.toNat < 0x20 then .error .malformed
    else do
      let (ds, rest) ← stringFrom strict fuel cs
      return (c :: ds, rest)

/-- A text behind its opening quote. -/
def string (cs : Chars) : Except Fault (String × Chars) := do
  let (ds, rest) ← stringFrom true (cs.length + 1) cs
  return (String.ofList ds, rest)

/-- What remains behind a text whose opening quote has been read. -/
def skipString (cs : Chars) : Except Fault Chars := do
  return (← stringFrom false (cs.length + 1) cs).2

/-! ### Numbers -/

/-- A number. -/
inductive Numeral
  /-- An integer of 64 bits. -/
  | integer (value : Int)
  /-- A double. -/
  | double (value : Number.Double)
  deriving DecidableEq, Repr

/-- The largest integer that is taken in whole. -/
def integerBound : Nat := Nat.pow 2 64

/-- The digits of a number so far: those that are kept as a natural, and the power of ten that
the others and the point add. -/
structure Digits where
  /-- The kept digits. -/
  kept : Nat
  /-- Whether further digits are no longer kept. -/
  full : Bool
  /-- The power of ten of the last kept digit. -/
  exponent : Int

/-- Digits before the point. -/
def wholeDigits : Digits → Chars → Digits × Chars
  | d, [] => (d, [])
  | d, c :: cs =>
    if c.isDigit then
      let next := d.kept * 10 + (c.toNat - '0'.toNat)
      if d.full || integerBound ≤ next then
        wholeDigits ⟨d.kept, true, d.exponent + 1⟩ cs
      else wholeDigits ⟨next, false, d.exponent⟩ cs
    else (d, c :: cs)

/-- Digits behind the point. -/
def fractionDigits : Digits → Chars → Digits × Chars
  | d, [] => (d, [])
  | d, c :: cs =>
    if c.isDigit then
      let next := d.kept * 10 + (c.toNat - '0'.toNat)
      if d.full || integerBound ≤ next then
        fractionDigits ⟨d.kept, true, d.exponent⟩ cs
      else fractionDigits ⟨next, false, d.exponent - 1⟩ cs
    else (d, c :: cs)

/-- The double with the given digits, if it is finite. -/
def doubleOf (negative : Bool) (d : Digits) : Except Fault Numeral :=
  match Number.Double.ofSteps negative d.kept d.exponent with
  | some x => .ok (.double x)
  | none => .error .malformed

/-- The largest exponent that is taken in whole. -/
def exponentBound : Nat := Nat.pow 2 31

/-- A number from the mark of its exponent on. -/
def exponentNumber (negative : Bool) (d : Digits) (cs : Chars) :
    Except Fault (Numeral × Chars) :=
  let (down, cs) := match cs with
    | '-' :: rest => (true, rest)
    | '+' :: rest => (false, rest)
    | rest => (false, rest)
  let (power, rest) := cs.span Char.isDigit
  match cs with
  | [] => .error .ended
  | _ =>
    match Text.readNumber 10 power with
    | none => .error .malformed
    | some x =>
      if exponentBound ≤ x then
        if d.kept ≠ 0 && ! down then .error .malformed
        else .ok (.double (.ofRank negative 0), rest)
      else (doubleOf negative ⟨d.kept, d.full, d.exponent + (if down then -(x : Int) else x)⟩).map
        (·, rest)

/-- A number behind the digits before its point. -/
def numberRest (negative : Bool) (d : Digits) (cs : Chars) : Except Fault (Numeral × Chars) :=
  match cs with
  | '.' :: rest =>
    match rest with
    | [] => .error .ended
    | c :: _ =>
      if c.isDigit then
        let (d, rest) := fractionDigits ⟨d.kept, false, d.exponent⟩ rest
        match rest with
        | 'e' :: power | 'E' :: power => exponentNumber negative d power
        | _ => (doubleOf negative d).map (·, rest)
      else .error .malformed
  | 'e' :: power | 'E' :: power => exponentNumber negative d power
  | _ =>
    if d.full then (doubleOf negative d).map (·, cs)
    else if negative then
      if d.kept = 0 || Nat.pow 2 63 < d.kept then
        (doubleOf true d).map (·, cs)
      else .ok (.integer (-(d.kept : Int)), cs)
    else .ok (.integer d.kept, cs)

/-- A number behind its sign. -/
def number (negative : Bool) (cs : Chars) : Except Fault (Numeral × Chars) :=
  match cs with
  | [] => .error .ended
  | '0' :: rest =>
    if (rest.head?.map Char.isDigit).getD false then .error .malformed
    else numberRest negative ⟨0, false, 0⟩ rest
  | c :: _ =>
    if c.isDigit then
      let (d, rest) := wholeDigits ⟨0, false, 0⟩ cs
      numberRest negative d rest
    else .error .malformed

/-! ### Skipped values -/

/-- What remains behind one or more digits. -/
def skipDigits (cs : Chars) : Except Fault Chars :=
  match cs.span Char.isDigit with
  | ([], _) => .error .malformed
  | (_, rest) => .ok rest

/-- What remains behind an exponent, if there is one. -/
def skipExponent (cs : Chars) : Except Fault Chars :=
  match cs with
  | 'e' :: rest | 'E' :: rest =>
    match rest with
    | '+' :: rest | '-' :: rest => skipDigits rest
    | rest => skipDigits rest
  | rest => .ok rest

/-- What remains behind a number whose sign has been read. -/
def skipNumber (cs : Chars) : Except Fault Chars := do
  let rest ← match cs with
    | '0' :: rest =>
      if (rest.head?.map Char.isDigit).getD false then .error .malformed else pure rest
    | rest => skipDigits rest
  match rest with
  | '.' :: rest => skipExponent (← skipDigits rest)
  | rest => skipExponent rest

/-- What remains behind a key and its colon. -/
def skipKey (cs : Chars) : Except Fault Chars := do
  match skipBlanks cs with
  | [] => .error .ended
  | '"' :: rest =>
    match skipBlanks (← skipString rest) with
    | [] => .error .ended
    | ':' :: rest => return rest
    | _ => .error .malformed
  | _ => .error .malformed

mutual

/-- What remains behind a value, read in at most `fuel` steps. -/
def skipFrom : Nat → Chars → Except Fault Chars
  | 0, _ => .error .ended
  | fuel + 1, cs =>
    match skipBlanks cs with
    | [] => .error .ended
    | c :: rest =>
      if c = 'n' then expect "ull".toList rest
      else if c = 't' then expect "rue".toList rest
      else if c = 'f' then expect "alse".toList rest
      else if c = '-' then skipNumber rest
      else if c.isDigit then skipNumber (c :: rest)
      else if c = '"' then skipString rest
      else if c = '[' then
        match skipBlanks rest with
        | ']' :: rest => .ok rest
        | rest => skipItems ']' fuel rest
      else if c = '\x7b' then
        match skipBlanks rest with
        | '\x7d' :: rest => .ok rest
        | rest => skipItems '\x7d' fuel rest
      else .error .malformed

/-- What remains behind the items of a list or the members of an object, and their closing
bracket. -/
def skipItems (closing : Char) : Nat → Chars → Except Fault Chars
  | 0, _ => .error .ended
  | fuel + 1, cs => do
    let cs ← if closing = '\x7d' then skipKey cs else pure cs
    match skipBlanks (← skipFrom fuel cs) with
    | [] => .error .ended
    | c :: rest =>
      if c = ',' then skipItems closing fuel rest
      else if c = closing then return rest
      else .error .malformed

end

/-- What remains behind a value. -/
def skipValue (cs : Chars) : Except Fault Chars :=
  skipFrom (2 * cs.length + 2) cs

end Json

end ModuleScaffold
