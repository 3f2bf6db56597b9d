import ModuleScaffold.Number.Shortest
import ModuleScaffold.Text.Quoted
import ModuleScaffold.Value

/-!
# Writing values

A value is written on one line where it fits into eighty columns, counted in bytes. Otherwise an
array or an object gets a line for each element and a call a line for each argument, each
followed by a comma. A call whose last argument is an array or an object keeps its other arguments
on the first line, if they fit, and only that last argument is broken.

Main definitions: `Value.render` writes on one line, `Value.layout` breaks lines where needed.
-/

namespace ModuleScaffold

namespace Text

/-- The width of a text: its length in bytes. -/
def width : List Char → Nat
  | [] => 0
  | c :: cs => c.utf8Size + width cs

/-- A text of `n` spaces. -/
def spaces (n : Nat) : List Char :=
  List.replicate n ' '

end Text

namespace Value

open Text

/-- The columns of a line. -/
def lineWidth : Nat := 80

/-- A comma and a space between neighbours. -/
def commaSeparated (texts : List (List Char)) : List Char :=
  joinWith [',', ' '] texts

/-- A key as it is written: bare if it is an identifier, quoted otherwise. -/
def renderKey (key : String) : List Char :=
  if isIdentifier key then key.toList else quoteChars key.toList

/-- Whether a member is written by its key alone. -/
def isShorthand (key : String) : Value → Bool
  | identifier path => path == key && isIdentifier key
  | _ => false

/-! ### On one line -/

mutual

/-- A value on one line. -/
def render : Value → List Char
  | identifier path => path.toList
  | string text => quoteChars text.toList
  | number value => value.toText.toList
  | boolean value => if value then "true".toList else "false".toList
  | null => "null".toList
  | regex pattern flags => '/' :: (pattern.toList ++ '/' :: flags.toList)
  | array items => '[' :: (commaSeparated (renderAll items) ++ [']'])
  | object [] => ['{', '}']
  | object (m :: ms) =>
    '{' :: ' ' :: (commaSeparated (renderMembers (m :: ms)) ++ [' ', '}'])
  | call callee args => callee.toList ++ '(' :: (commaSeparated (renderAll args) ++ [')'])

/-- Several values, each on one line. -/
def renderAll : List Value → List (List Char)
  | [] => []
  | v :: vs => render v :: renderAll vs

/-- Several members, each on one line. -/
def renderMembers : List (String × Value) → List (List Char)
  | [] => []
  | (k, v) :: ms =>
    (if isShorthand k v then k.toList else renderKey k ++ ':' :: ' ' :: render v)
      :: renderMembers ms

end

/-! ### On several lines -/

/-- A bracket, a line for each element with a comma behind it, and the closing bracket. -/
def bracketLines (opening : List Char) (lines : List (List Char)) (indent : Nat)
    (closing : Char) : List Char :=
  opening ++ '\n' :: (lines.flatMap fun line => spaces (indent + 2) ++ line ++ [',', '\n'])
    ++ spaces indent ++ [closing]

/-- Whether a call may keep its arguments before this last one on the first line. -/
def isHuggable : Value → Bool
  | array (_ :: _) | object (_ :: _) => true
  | _ => false

/-- The first line of a call up to its last argument. -/
def callHead (callee : String) (args : List Value) : List Char :=
  callee.toList ++ '(' :: (renderAll args.dropLast).flatMap (· ++ [',', ' '])

/-- Whether only the last argument of a call is broken, when the call starts at column `used`. -/
def isHugged (callee : String) (args : List Value) (used : Nat) : Bool :=
  (args.getLast?.map isHuggable).getD false
    && used + width (callHead callee args) + 1 ≤ lineWidth

mutual

/-- A value that starts at column `used`, in lines indented by `indent` if it does not fit. -/
def layout : Value → Nat → Nat → List Char
  | array (v :: vs), indent, used =>
    if used + width (render (array (v :: vs))) ≤ lineWidth then render (array (v :: vs))
    else bracketLines ['['] (layoutAll (v :: vs) (indent + 2)) indent ']'
  | object (m :: ms), indent, used =>
    if used + width (render (object (m :: ms))) ≤ lineWidth then render (object (m :: ms))
    else bracketLines ['{'] (layoutMembers (m :: ms) (indent + 2)) indent '}'
  | call callee (v :: vs), indent, used =>
    if used + width (render (call callee (v :: vs))) ≤ lineWidth then
      render (call callee (v :: vs))
    else if isHugged callee (v :: vs) used then
      callHead callee (v :: vs) ++ breakLast (v :: vs) indent ++ [')']
    else bracketLines (callee.toList ++ ['(']) (layoutAll (v :: vs) (indent + 2)) indent ')'
  | v, _, _ => render v

/-- The lines of several values. -/
def layoutAll : List Value → Nat → List (List Char)
  | [], _ => []
  | v :: vs, indent => layout v indent indent :: layoutAll vs indent

/-- The lines of the members of an object. -/
def layoutMembers : List (String × Value) → Nat → List (List Char)
  | [], _ => []
  | (k, v) :: ms, indent =>
    (if isShorthand k v then k.toList
      else renderKey k ++ ':' :: ' ' :: layout v indent (indent + width (renderKey k) + 2))
      :: layoutMembers ms indent

/-- The last of several values, an element to a line. -/
def breakLast : List Value → Nat → List Char
  | [], _ => []
  | [array items], indent => bracketLines ['['] (layoutAll items (indent + 2)) indent ']'
  | [object members], indent => bracketLines ['{'] (layoutMembers members (indent + 2)) indent '}'
  | [v], _ => render v
  | _ :: vs, indent => breakLast vs indent

end

/-- The members of an object, one to a line. -/
def brokenObject (members : List (String × Value)) (indent : Nat) : List Char :=
  bracketLines ['{'] (layoutMembers members (indent + 2)) indent '}'

end Value

end ModuleScaffold
