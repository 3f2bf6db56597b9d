import ModuleScaffold.Number.Shortest
import ModuleScaffold.Proofs.Denotation.Units
import ModuleScaffold.Source.Values

/-!
# What expressions denote

The expressions that become values denote data of the language, and `ModuleScaffold.Source.Datum` is
the part of it that they can reach: numbers and big integers, texts as code units, arrays with their
holes, objects with the names of their properties, and names, regular expressions and calls as they
are written. `ModuleScaffold.Source.Expr.datum` reads an expression by the grammar of the language,
without regard to what is kept of it; `ModuleScaffold.Value.datum` says which datum a value is.

Where the two disagree, a value has lost a part of what was written. An array shows its holes by the
commas behind its items only; a number is of another kind if the letter `n` ends it, and of another
radix if a zero begins it; a property may be named by a number, by escapes, or by an expression; the
name of the prototype is no name of a property unless it is written alone.
-/

namespace ModuleScaffold

open Text

namespace Number

/-! ### Numbers -/

/-- The numbers of the language. -/
inductive Numeric
  /-- A double precision number. -/
  | number (value : Double)
  /-- A big integer. -/
  | big (value : Int)
  deriving DecidableEq, Repr

/-- The number with the other sign. -/
def Numeric.neg : Numeric → Numeric
  | number n => .number n.neg
  | big n => .big (-n)

/-- The number that digits of a radix are, a big integer if the letter `n` is behind them. -/
def Numeric.ofDigits (radix : ℕ) (cs : List Char) : Option Numeric :=
  if cs.getLast? = some 'n' then (readNumber radix cs.dropLast).map fun n => .big n
  else (readNumber radix cs).map fun n => .number (.ofNat n)

/-- Whether digits are octal because of a zero in front of them. -/
def isLegacyOctal : List Char → Bool
  | '0' :: c :: cs => (c :: cs).all (isDigitOf 8)
  | _ => false

/-- The number that a literal is. -/
def Numeric.ofLiteral (literal : List Char) : Option Numeric :=
  match smallAscii (literal.filter (· != '_')) with
  | '0' :: 'x' :: cs => ofDigits 16 cs
  | '0' :: 'o' :: cs => ofDigits 8 cs
  | '0' :: 'b' :: cs => ofDigits 2 cs
  | cs =>
    if cs.getLast? = some 'n' then ofDigits 10 cs
    else if isLegacyOctal cs then ofDigits 8 cs
    else (Double.ofChars cs).map .number

/-- A decimal with a point or an exponent, as the language writes numbers: positional when the first
digit stands at most 21 places before the point or at most six after it. -/
def Decimal.scriptText (d : Decimal) : List Char :=
  let digits := decimalDigits d.digits
  let point : Int := digits.length + d.exponent
  if -6 < point && point ≤ 21 then d.positional
  else
    let power := point - 1
    let tail := digits.drop 1
    digits.take 1 ++ (if tail.isEmpty then [] else '.' :: tail) ++ ['e']
      ++ (if power < 0 then ['-'] else ['+']) ++ decimalDigits power.natAbs

/-- The text of a number, as the language makes names of numbers. -/
def Numeric.scriptText : Numeric → List Char
  | number .nan => "NaN".toList
  | number (.infinite negative) => (if negative then ['-'] else []) ++ "Infinity".toList
  | number (.finite negative rank) =>
    (if negative && rank.val != 0 then ['-'] else []) ++ (shortest rank).scriptText
  | big n => (if n < 0 then ['-'] else []) ++ decimalDigits n.natAbs

end Number

namespace Source

open Number (Numeric)

/-! ### Data -/

/-- What a member of an object sets. -/
inductive Property
  /-- The property with the given name. -/
  | own (name : List ℕ)
  /-- The prototype. -/
  | prototype
  /-- The property whose name the expression gives. -/
  | computed (expression : Chars)
  deriving DecidableEq, Repr

/-- What a member with the given name and a value behind a colon sets. -/
def Property.ofName (name : List ℕ) : Property :=
  if name = units "__proto__".toList then .prototype else .own name

/-- What expressions denote. -/
inductive Datum
  /-- A number. -/
  | numeric (value : Numeric)
  /-- A truth value. -/
  | boolean (value : Bool)
  /-- The null value. -/
  | null
  /-- A text. -/
  | text (units : List ℕ)
  /-- A regular expression. -/
  | regex (pattern flags : String)
  /-- What a path of names refers to. -/
  | name (path : List ℕ)
  /-- A place of an array at which there is nothing. -/
  | hole
  /-- An array. -/
  | array (items : List Datum)
  /-- An object, with its members in the order in which they are set. -/
  | object (members : List (Property × Datum))
  /-- What a call gives; an `optional` one gives nothing if there is nothing to call. -/
  | call (callee : List ℕ) (optional : Bool) (args : List Datum)

/-! ### Expressions -/

/-- What a key names. -/
def Key.property (key : Key) : Option Property :=
  match key.kind with
  | .identifier => (unitsFrom 0 key.fragment.chars).map .ofName
  | .string => (stringUnits key.fragment.chars).map .ofName
  | .number => (Numeric.ofLiteral key.fragment.chars).map fun n => .ofName (units n.scriptText)
  | .computedKey => some (.computed key.fragment.chars)
  | _ => none

/-- The datum of an expression that is given by its kind and its fragment. -/
def leafDatum (kind : Kind) (f : Fragment) : Option Datum :=
  match kind with
  | .identifier | .undefined => (unitsFrom 0 f.chars).map .name
  | .member =>
    let path := squeeze f.text
    if isIdentifierPath path then some (.name (units path.toList)) else none
  | .string => (stringUnits f.chars).map .text
  | .number => (Numeric.ofLiteral f.chars).map .numeric
  | .trueLiteral => some (.boolean true)
  | .falseLiteral => some (.boolean false)
  | .null => some .null
  | _ => none

/-- The datum of a sign before a datum. A big integer takes no plus. -/
def signedDatum (mark : Chars) (d : Datum) : Option Datum :=
  match mark, d with
  | ['-'], .numeric n => some (.numeric n.neg)
  | ['+'], .numeric (.number n) => some (.numeric (.number n))
  | _, _ => none

/-- The number of commas at the start of a text, up to the given bound. -/
def commasFrom : ℕ → Chars → ℕ
  | 0, _ => 0
  | bound + 1, cs =>
    match mark "," cs with
    | some rest => commasFrom bound rest + 1
    | none => 0

/-- The number of commas at the start of a text, with blanks and comments around them. -/
def commas (cs : Chars) : ℕ :=
  commasFrom cs.length cs

theorem commas_eq_zero {cs : Chars} (h : mark "," cs = none) : commas cs = 0 := by
  rw [commas]
  cases cs.length with
  | zero => rfl
  | succ n => rw [commasFrom, h]

/-- A comma that is followed by no further one. -/
theorem commas_le_one {cs behind : Chars} (h : mark "," cs = some behind)
    (hbehind : mark "," behind = none) : commas cs ≤ 1 := by
  have hzero : ∀ n, commasFrom n behind = 0 := fun n => by
    cases n with
    | zero => rfl
    | succ n => rw [commasFrom, hbehind]
  rw [commas]
  cases cs.length with
  | zero => exact Nat.zero_le 1
  | succ n =>
    rw [commasFrom, h]
    exact Nat.succ_le_succ (Nat.le_of_eq (hzero n))

/-- That many places at which there is nothing. -/
def holes (n : ℕ) : List Datum :=
  List.replicate n .hole

mutual

/-- The datum that an expression denotes. -/
def Expr.datum : Expr → Option Datum
  | .leaf kind f => leafDatum kind f
  | .template filled f => if filled then none else (templateUnits f.chars).map .text
  | .regex pattern flags _ =>
    some (.regex (Regex.escapeSlashes (String.ofList pattern)) (String.ofList flags))
  | .array items f =>
    (Expr.elements items).map fun ds => .array (holes (commas (f.start.drop 1)) ++ ds)
  | .object members _ => (Member.data members).map .object
  | .call _ callee _ args _ =>
    (Expr.data args).map
      (.call (units (squeeze callee.text).toList) (mark "?." callee.stop).isSome)
  | .unary mark operand _ => (Expr.datum operand).bind (signedDatum mark)
  | .parenthesized inner _ => Expr.datum inner
  | .tagged .. | .damaged .. => none

/-- The data of several expressions. -/
def Expr.data : List Expr → Option (List Datum)
  | [] => some []
  | e :: es => (Expr.datum e).bind fun d => (Expr.data es).map (d :: ·)

/-- The elements of an array from an item on. The first comma behind an item separates it from the
next one, or ends the array; each further one is a hole. -/
def Expr.elements : List Expr → Option (List Datum)
  | [] => some []
  | e :: es => (Expr.datum e).bind fun d =>
    (Expr.elements es).map fun ds => d :: (holes (commas e.fragment.stop - 1) ++ ds)

/-- What the members of an object set. -/
def Member.data : List Member → Option (List (Property × Datum))
  | [] => some []
  | m :: ms => (Member.datum m).bind fun d => (Member.data ms).map (d :: ·)

/-- What a member of an object sets. A name that is written alone never sets the prototype. -/
def Member.datum : Member → Option (Property × Datum)
  | .pair key value _ => key.property.bind fun p => (Expr.datum value).map (p, ·)
  | .shorthand f => (unitsFrom 0 f.chars).map fun name => (.own name, .name name)
  | .other .. | .damaged .. => none

end

end Source

/-! ### Values -/

namespace Value

open Source

/-- What a member of an object sets, given how it is written: by its name alone, or with a colon. -/
def property (key : String) (value : Value) : Property :=
  if isShorthand key value then .own (units key.toList) else .ofName (units key.toList)

mutual

/-- The datum that a value is. -/
def datum : Value → Datum
  | identifier path => .name (units path.toList)
  | string text => .text (units text.toList)
  | number n => .numeric (.number n)
  | boolean b => .boolean b
  | null => .null
  | regex pattern flags => .regex pattern flags
  | array items => .array (dataAll items)
  | object members => .object (dataMembers members)
  | call callee args => .call (units callee.toList) false (dataAll args)

/-- The data that several values are. -/
def dataAll : List Value → List Datum
  | [] => []
  | v :: vs => datum v :: dataAll vs

/-- What the members of an object set. -/
def dataMembers : List (String × Value) → List (Property × Datum)
  | [] => []
  | (k, v) :: ms => (property k v, datum v) :: dataMembers ms

end

end Value

end ModuleScaffold
