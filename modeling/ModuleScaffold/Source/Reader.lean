import ModuleScaffold.Source.Lexeme
import ModuleScaffold.Source.Tree

/-!
# Readers

The rules of the grammar refer to each other at every depth. A rule is therefore written for a
`Reader` that holds the rules for what is nested in it, and the reader for a depth is made from
the reader for the depth below. Each nesting takes at least one character, so a text never needs
more levels than it has characters.

Repetition is bounded in the same way by the number of characters that remain.

A statement without a semicolon ends at the end of its line, if what follows cannot continue it
(`insertedEnd`); a comment on that line still belongs to it.
-/

namespace ModuleScaffold

namespace Source

/-- The rules for what is nested. Where it matters, a rule is told whether the end of a line may
end the statement it reads a part of. -/
structure Reader where
  /-- An expression without commas. -/
  expression : Bool → Chars → Option (Expr × Chars)
  /-- An operand with its prefix operators. -/
  operand : Bool → Chars → Option (Expr × Chars)
  /-- An expression without operators, calls and members. -/
  primary : Chars → Option (Expr × Chars)
  /-- What remains behind a type. -/
  typeEnd : Bool → Chars → Option Chars
  /-- What remains behind the pattern of a variable. -/
  patternEnd : Chars → Option Chars
  /-- What remains behind a statement. -/
  statementEnd : Chars → Option Chars

/-- The reader that reads nothing. -/
def Reader.none : Reader where
  expression _ _ := Option.none
  operand _ _ := Option.none
  primary _ := Option.none
  typeEnd _ _ := Option.none
  patternEnd _ := Option.none
  statementEnd _ := Option.none

/-! ### Repetition -/

/-- What remains behind as many steps as possible, at most `fuel` of them. -/
def manyFrom (step : Chars → Option Chars) : Nat → Chars → Chars
  | 0, cs => cs
  | fuel + 1, cs =>
    match step cs with
    | some rest => manyFrom step fuel rest
    | none => cs

/-- What remains behind as many steps as possible. -/
def many (step : Chars → Option Chars) (cs : Chars) : Chars :=
  manyFrom step (cs.length + 1) cs

/-- What remains behind a step, or the text itself. -/
def optional (step : Chars → Option Chars) (cs : Chars) : Chars :=
  (step cs).getD cs

/-- A value that is extended by as many steps as possible, at most `fuel` of them. -/
def extendFrom {α : Type} (step : α → Chars → Option (α × Chars)) : Nat → α → Chars → α × Chars
  | 0, a, cs => (a, cs)
  | fuel + 1, a, cs =>
    match step a cs with
    | some (b, rest) => extendFrom step fuel b rest
    | none => (a, cs)

/-- A value that is extended by as many steps as possible. -/
def extend {α : Type} (step : α → Chars → Option (α × Chars)) (a : α) (cs : Chars) : α × Chars :=
  extendFrom step (cs.length + 1) a cs

/-- Items separated by commas up to a closing mark, at most `fuel` of them; with `holes`, items
may be missing. -/
def listFrom {α : Type} (holes : Bool) (item : Chars → Option (α × Chars)) (closing : String) :
    Nat → Chars → Option (List α × Chars)
  | 0, _ => none
  | fuel + 1, cs =>
    match mark closing cs with
    | some rest => some ([], rest)
    | none =>
      match (if holes then mark "," cs else none) with
      | some rest => listFrom holes item closing fuel rest
      | none =>
        match item cs with
        | none => none
        | some (a, rest) =>
          match mark "," rest with
          | some rest =>
            match listFrom holes item closing fuel rest with
            | some (as, rest) => some (a :: as, rest)
            | none => none
          | none =>
            match mark closing rest with
            | some rest => some ([a], rest)
            | none => none

/-- Items separated by commas up to a closing mark. -/
def list {α : Type} (holes : Bool) (item : Chars → Option (α × Chars)) (closing : String)
    (cs : Chars) : Option (List α × Chars) :=
  listFrom holes item closing (cs.length + 1) cs

/-- What remains behind items separated by commas and a closing mark. -/
def listEnd (holes : Bool) (item : Chars → Option Chars) (closing : String) (cs : Chars) :
    Option Chars :=
  (list holes (fun cs => (item cs).map ((), ·)) closing cs).map (·.2)

/-- What remains behind one or more items separated by commas. -/
def separatedEnd (item : Chars → Option Chars) (cs : Chars) : Option Chars :=
  (item cs).map (many fun rest => (mark "," rest).bind item)

/-! ### The end of a statement -/

/-- A blank that does not start a new line. -/
def isInlineSpace (c : Char) : Bool :=
  c == ' ' || c == '\t' || c == '\r' || c.toNat == 0xB || c.toNat == 0xC

/-- Characters that continue a statement from the line before. -/
def continuations : List Char :=
  ['\u0060', ',', '.', ';', '*', '%', '>', '<', '=', '?', '^', '|', '&', '/', ':']

/-- Whether a line that starts with a word in `i` starts a new statement: it does unless the word
is one of the operators `in` and `instanceof`. -/
def startsAfterOperator (cs : Chars) : Bool :=
  match cs with
  | 'i' :: 'n' :: rest =>
    match rest with
    | [] => false
    | c :: _ =>
      if ! c.isAlpha then false
      else match exactly "stanceof".toList rest with
        | some behind => (behind.head?.map Char.isAlpha).getD false
        | none => true
  | _ => true

/-- Whether the given text, at the start of a line, starts a new statement. Brackets continue an
expression, and a sign does so unless it is doubled. -/
def startsStatement (afterExpression : Bool) (cs : Chars) : Bool :=
  match cs with
  | [] => true
  | c :: rest =>
    if continuations.contains c then false
    else if c = '(' || c = '[' then ! afterExpression
    else if c = '+' || c = '-' then rest.head? == some c
    else if c = '!' then rest.head? != some '='
    else if c = 'i' then startsAfterOperator cs
    else true

/-- Where a statement ends that has no semicolon, from `cs` on, after comments that belong to it;
at most `fuel` comments are read. -/
def insertedFrom (afterExpression : Bool) : Nat → Chars → Option Chars
  | 0, _ => none
  | fuel + 1, cs =>
    match cs.dropWhile isInlineSpace with
    | [] => some cs
    | c :: rest =>
      if c = '\x7d' then some cs
      else if c = '\n' then if startsStatement afterExpression (skip rest) then some cs else none
      else match comment? (c :: rest) with
        | some behind => insertedFrom afterExpression fuel behind
        | none => none

/-- Where a statement ends that has no semicolon, if it can end here: at the end of its line, of
its block or of the source. -/
def insertedEnd (afterExpression : Bool) (cs : Chars) : Option Chars :=
  insertedFrom afterExpression (cs.length + 1) cs

/-- Whether what follows continues the statement. -/
def continues (lineEnds : Bool) (cs : Chars) : Bool :=
  ! lineEnds || (insertedEnd false cs).isNone

/-- What remains behind the end of a statement, given by a semicolon or by the end of its line. -/
def endStatement (afterExpression : Bool) (cs : Chars) : Option Chars :=
  match mark ";" cs with
  | some rest => some rest
  | none => insertedEnd afterExpression cs

/-- What remains behind a declaration that may be followed by the end of its line. -/
def endBlock (cs : Chars) : Chars :=
  optional (insertedEnd false) cs

end Source

end ModuleScaffold
