import ModuleScaffold.Json.Token
import ModuleScaffold.Number.Shortest
import ModuleScaffold.Text.Shown

/-!
# Records in JSON

Readers of typed values: texts, truth values, lists, optional values, choices among named variants,
and records. A record is an object whose keys come in any order, or a list of the members in
their order. Other keys are skipped; a key that comes twice or is missing is a problem.

A reader works from left to right and stops at the first problem.
-/

namespace ModuleScaffold

namespace Json

/-- What stands where something else is wanted. -/
inductive Found
  /-- The word `null`. -/
  | null
  /-- A truth value. -/
  | boolean (value : Bool)
  /-- A number. -/
  | number (value : Numeral)
  /-- A text. -/
  | string (text : String)
  /-- A list. -/
  | sequence
  /-- An object. -/
  | map
  deriving DecidableEq, Repr

/-- The decimal text of an integer. -/
def integerText (n : Int) : String :=
  if n < 0 then "-" ++ Text.decimal n.natAbs else Text.decimal n.natAbs

/-- The found value in words. -/
def Found.text : Found → String
  | null => "null"
  | boolean true => "boolean `true`"
  | boolean false => "boolean `false`"
  | number (.integer value) => "integer `" ++ integerText value ++ "`"
  | number (.double value) => "floating point `" ++ value.toFloatText ++ "`"
  | string text => "string " ++ Text.shown text
  | sequence => "sequence"
  | map => "map"

/-- Why a text is not the wanted value. -/
inductive Problem
  /-- It is no JSON. -/
  | fault (reason : Fault)
  /-- It is a value of another type. -/
  | unexpected (found : Found) (wanted : String)
  /-- It is a list with too few members of a record. -/
  | tooShort (length : Nat) (record : String) (size : Nat)
  /-- It is not among the variants. -/
  | unknownVariant (name : String) (known : List String)
  /-- A record lacks a key. -/
  | missing (key : String)
  /-- A record has a key twice. -/
  | repeated (key : String)
  deriving DecidableEq, Repr

/-- The problem in words. -/
def Problem.message : Problem → String
  | fault .malformed => "the text is no JSON"
  | fault .ended => "the text ends too early"
  | unexpected found wanted => "invalid type: " ++ found.text ++ ", expected " ++ wanted
  | tooShort length record size =>
    "invalid length " ++ Text.decimal length ++ ", expected " ++ record ++ " with "
      ++ Text.decimal size ++ " elements"
  | unknownVariant name known =>
    "unknown variant `" ++ name ++ "`, expected one of "
      ++ ", ".intercalate (known.map fun k => "`" ++ k ++ "`")
  | missing key => "missing field `" ++ key ++ "`"
  | repeated key => "duplicate field `" ++ key ++ "`"

/-- A reader of a value, which gives the value and what remains behind it. -/
abbrev Reader (α : Type) := Chars → Except Problem (α × Chars)

/-- A step on the text of a value. -/
def scan {α : Type} (step : Except Fault α) : Except Problem α :=
  step.mapError .fault

/-! ### Single values -/

/-- The problem that another value stands where something is wanted. -/
def unexpected {α : Type} (wanted : String) (cs : Chars) : Except Problem α := do
  let found : Found ← match skipBlanks cs with
    | [] => .error (.fault .ended)
    | c :: rest =>
      if c = 'n' then do
        let _ ← scan (expect "ull".toList rest)
        pure .null
      else if c = 't' then do
        let _ ← scan (expect "rue".toList rest)
        pure (.boolean true)
      else if c = 'f' then do
        let _ ← scan (expect "alse".toList rest)
        pure (.boolean false)
      else if c = '-' then do
        let (n, _) ← scan (number true rest)
        pure (.number n)
      else if c.isDigit then do
        let (n, _) ← scan (number false (c :: rest))
        pure (.number n)
      else if c = '"' then do
        let (text, _) ← scan (string rest)
        pure (.string text)
      else if c = '[' then pure .sequence
      else if c = '\x7b' then pure .map
      else .error (.fault .malformed)
  .error (.unexpected found wanted)

/-- A text, under the name of what is wanted. -/
def readStringAs (wanted : String) : Reader String := fun cs =>
  match skipBlanks cs with
  | '"' :: rest => scan (string rest)
  | _ => unexpected wanted cs

/-- A text. -/
def readString : Reader String :=
  readStringAs "a string"

/-- A truth value. -/
def readBool : Reader Bool := fun cs =>
  match skipBlanks cs with
  | 't' :: rest => do return (true, ← scan (expect "rue".toList rest))
  | 'f' :: rest => do return (false, ← scan (expect "alse".toList rest))
  | _ => unexpected "a boolean" cs

/-- The word `null`. -/
def readNull : Reader Unit := fun cs =>
  match skipBlanks cs with
  | 'n' :: rest => do return ((), ← scan (expect "ull".toList rest))
  | _ => unexpected "unit" cs

/-- A value or the word `null`. -/
def readOption {α : Type} (read : Reader α) : Reader (Option α) := fun cs =>
  match skipBlanks cs with
  | 'n' :: rest => do return (none, ← scan (expect "ull".toList rest))
  | _ => do
    let (a, rest) ← read cs
    return (some a, rest)

/-! ### Lists -/

/-- What remains from the next item on, in a list or an object with the given closing bracket, or
nothing if it is closed here. -/
def nextItem (closing : Char) (first : Bool) (cs : Chars) : Except Problem (Option Chars) :=
  match skipBlanks cs with
  | [] => .error (.fault .ended)
  | c :: rest =>
    if c = closing then .ok none
    else if first then .ok (some (c :: rest))
    else if c = ',' then
      match skipBlanks rest with
      | [] => .error (.fault .ended)
      | d :: rest => if d = closing then .error (.fault .malformed) else .ok (some (d :: rest))
    else .error (.fault .malformed)

/-- What remains behind the closing bracket that stands here. -/
def close (cs : Chars) : Chars :=
  (skipBlanks cs).tail

/-- What remains behind the closing bracket of a list that has no further items. -/
def closeList (cs : Chars) : Except Problem Chars :=
  match skipBlanks cs with
  | [] => .error (.fault .ended)
  | c :: rest => if c = ']' then .ok rest else .error (.fault .malformed)

/-- The items of a list from here on, read in at most `fuel` steps. -/
def readItems {α : Type} (read : Reader α) : Nat → Bool → Reader (List α)
  | 0, _, _ => .error (.fault .ended)
  | fuel + 1, first, cs => do
    match ← nextItem ']' first cs with
    | none => return ([], close cs)
    | some item =>
      let (a, rest) ← read item
      let (items, rest) ← readItems read fuel false rest
      return (a :: items, rest)

/-- A list. -/
def readList {α : Type} (read : Reader α) : Reader (List α) := fun cs =>
  match skipBlanks cs with
  | '[' :: rest => readItems read (rest.length + 1) true rest
  | _ => unexpected "a sequence" cs

/-! ### Variants -/

/-- The variant that a text names. -/
def variantOf {α : Type} (variants : List (String × α)) (name : String) : Except Problem α :=
  match variants.lookup name with
  | some a => .ok a
  | none => .error (.unknownVariant name (variants.map Prod.fst))

/-- What remains behind a colon. -/
def colon (cs : Chars) : Except Problem Chars :=
  match skipBlanks cs with
  | [] => .error (.fault .ended)
  | c :: rest => if c = ':' then .ok rest else .error (.fault .malformed)

/-- A named variant: its name, or an object that maps the name to `null`. -/
def readVariant {α : Type} (variants : List (String × α)) : Reader α := fun cs =>
  match skipBlanks cs with
  | [] => .error (.fault .ended)
  | '"' :: rest => do
    let (name, rest) ← scan (string rest)
    return (← variantOf variants name, rest)
  | '\x7b' :: rest => do
    let (name, rest) ← readStringAs "variant identifier" rest
    let a ← variantOf variants name
    let ((), rest) ← readNull (← colon rest)
    match skipBlanks rest with
    | '\x7d' :: rest => return (a, rest)
    | [] => .error (.fault .ended)
    | _ => .error (.fault .malformed)
  | _ => .error (.fault .malformed)

/-! ### Records -/

/-- A member of a record. -/
structure Member (α : Type) where
  /-- Its key. -/
  key : String
  /-- Whether the record may lack it. -/
  optional : Bool
  /-- How it is read, as a change of the record. -/
  read : Reader (α → α)

/-- A member that is read as a value and put into the record. -/
def Member.of {α β : Type} (key : String) (optional : Bool) (read : Reader β)
    (put : β → α → α) : Member α :=
  ⟨key, optional, fun cs => do
    let (b, rest) ← read cs
    return (put b, rest)⟩

/-- The shape of a record. -/
structure Shape (α : Type) where
  /-- The name of the record in messages. -/
  name : String
  /-- The members in order. -/
  members : List (Member α)
  /-- The record before anything is read. -/
  blank : α

/-- The problem of the first member that is not optional and whose key has not been seen. -/
def checkMissing {α : Type} (seen : List String) : List (Member α) → Except Problem Unit
  | [] => .ok ()
  | m :: ms =>
    if m.optional || seen.contains m.key then checkMissing seen ms
    else .error (.missing m.key)

/-- The members of an object from here on, given the keys seen so far and the record with their
values. -/
def readMembers {α : Type} (shape : Shape α) :
    Nat → Bool → List String → α → Reader α
  | 0, _, _, _, _ => .error (.fault .ended)
  | fuel + 1, first, seen, a, cs => do
    match ← nextItem '\x7d' first cs with
    | none => do
      checkMissing seen shape.members
      return (a, close cs)
    | some ('"' :: item) =>
      let (key, rest) ← scan (string item)
      match shape.members.find? (·.key == key) with
      | none =>
        let rest ← scan (skipValue (← colon rest))
        readMembers shape fuel false seen a rest
      | some m =>
        if seen.contains key then .error (.repeated key)
        else
          let (change, rest) ← m.read (← colon rest)
          readMembers shape fuel false (key :: seen) (change a) rest
    | some _ => .error (.fault .malformed)

/-- The members of a list, in order, from the one with the given index on. -/
def readInOrder {α : Type} (shape : Shape α) : Nat → List (Member α) → α → Reader α
  | _, [], a, cs => do return (a, ← closeList cs)
  | index, m :: ms, a, cs => do
    match ← nextItem ']' (index == 0) cs with
    | none =>
      if m.optional then readInOrder shape (index + 1) ms a cs
      else .error (.tooShort index shape.name shape.members.length)
    | some item =>
      let (change, rest) ← m.read item
      readInOrder shape (index + 1) ms (change a) rest

/-- A record. -/
def readRecord {α : Type} (shape : Shape α) : Reader α := fun cs =>
  match skipBlanks cs with
  | '\x7b' :: rest => readMembers shape (rest.length + 1) true [] shape.blank rest
  | '[' :: rest => readInOrder shape 0 shape.members shape.blank rest
  | _ => unexpected shape.name cs

/-! ### Whole texts -/

/-- The value that a text holds, with nothing but blanks behind it. -/
def readText {α : Type} (read : Reader α) (text : String) : Except Problem α := do
  let (a, rest) ← read text.toList
  match skipBlanks rest with
  | [] => return a
  | _ => .error (.fault .malformed)

end Json

end ModuleScaffold
