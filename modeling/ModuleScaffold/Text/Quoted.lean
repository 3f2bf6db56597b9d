import ModuleScaffold.Text.Blank
import ModuleScaffold.Text.Digits

/-!
# Quoted text

A text is written between double quotes with the quote, the backslash and every character that
may not stand raw in a line replaced by an escape. Reading is more liberal: it understands single
quotes and backticks, the short escapes for control characters, two and four hexadecimal digits
and a braced code point. An escape that names no character is kept as it was written, a
backslash before a line feed continues the line, and before any other character it is dropped.
-/

namespace ModuleScaffold

namespace Text

/-! ### Writing -/

/-- One character inside double quotes. -/
def escaped (c : Char) : List Char :=
  if c = '"' then ['\\', '"']
  else if c = '\\' then ['\\', '\\']
  else if c = '\n' then ['\\', 'n']
  else if c = '\r' then ['\\', 'r']
  else if c = '\t' then ['\\', 't']
  else if c.toNat = 0x2028 || c.toNat = 0x2029 || isControl c then
    '\\' :: 'u' :: fourHexDigits c.toNat
  else [c]

/-- A text between double quotes. -/
def quoteChars (cs : List Char) : List Char :=
  '"' :: (cs.flatMap escaped ++ ['"'])

/-- A text between double quotes. -/
def quote (text : String) : String :=
  String.ofList (quoteChars text.toList)

/-! ### Reading -/

/-- How far an escape has been read. -/
inductive Pending
  /-- No escape is open. -/
  | plain
  /-- A backslash was read. -/
  | backslash
  /-- The mark `x` or `u` and some digits were read, and `missing` more belong to the escape. -/
  | digits (mark : Char) (read : List Char) (missing : Nat)
  /-- The digits of a braced code point were read. -/
  | braced (read : List Char)
  deriving DecidableEq, Repr

/-- The character whose code point is written in hexadecimal digits. -/
def codePoint (digits : List Char) : Option Char :=
  match readNumber 16 digits with
  | some n => if n.isValidChar then some (Char.ofNat n) else none
  | none => none

/-- The character an escape with digits stands for, or the escape as it was written. -/
def resolved (mark : Char) (digits : List Char) : List Char :=
  match codePoint digits with
  | some c => [c]
  | none => '\\' :: mark :: digits

/-- What a backslash and one character stand for. -/
def shortEscape (c : Char) : List Char :=
  if c = 'n' then ['\n']
  else if c = 't' then ['\t']
  else if c = 'r' then ['\r']
  else if c = 'b' then [Char.ofNat 8]
  else if c = 'f' then [Char.ofNat 12]
  else if c = 'v' then [Char.ofNat 11]
  else if c = '0' then [Char.ofNat 0]
  else if c = '\n' then []
  else [c]

/-- The text meant by the inside of a quoted text, from the given point of an escape on. -/
def unescapeFrom : Pending → List Char → List Char
  | .plain, [] => []
  | .plain, c :: cs => if c = '\\' then unescapeFrom .backslash cs else c :: unescapeFrom .plain cs
  | .backslash, [] => ['\\']
  | .backslash, c :: cs =>
    if c = 'x' then unescapeFrom (.digits c [] 2) cs
    else if c = 'u' then unescapeFrom (.digits c [] 4) cs
    else shortEscape c ++ unescapeFrom .plain cs
  | .digits mark read _, [] => resolved mark read
  | .digits mark read missing, c :: cs =>
    if missing = 4 && c = '{' then unescapeFrom (.braced []) cs
    else if missing ≤ 1 then resolved mark (read ++ [c]) ++ unescapeFrom .plain cs
    else unescapeFrom (.digits mark (read ++ [c]) (missing - 1)) cs
  | .braced read, [] => resolved 'u' read
  | .braced read, c :: cs =>
    if c = '}' then resolved 'u' read ++ unescapeFrom .plain cs
    else unescapeFrom (.braced (read ++ [c])) cs

/-- The text meant by the inside of a quoted text. -/
def unescape (cs : List Char) : List Char :=
  unescapeFrom .plain cs

/-- A mark that may stand at both ends of a quoted text. -/
def isQuoteMark (c : Char) : Bool :=
  c == '"' || c == '\'' || c == '`'

/-- A quoted text without its quote marks; any other text as it is. -/
def unquoted (cs : List Char) : List Char :=
  match cs with
  | [] => []
  | [c] => [c]
  | c :: d :: rest =>
    if isQuoteMark c && (d :: rest).getLast? = some c then (d :: rest).dropLast else cs

end Text

end ModuleScaffold
