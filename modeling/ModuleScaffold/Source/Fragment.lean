import ModuleScaffold.Text.Ranges

/-!
# Fragments of source text

A reader of source text works on what remains of the text. A *fragment* is a piece of the source,
given by what remained at its start and what remained at its end; its characters are the
difference.

Between the tokens of a source stand blanks and comments. `skip` is what remains behind them. A
comment that is opened and never closed is not one.
-/

namespace ModuleScaffold

namespace Source

/-- What remains of a source text. -/
abbrev Chars := List Char

/-- A piece of the source. -/
structure Fragment where
  /-- What remains at its start. -/
  start : Chars
  /-- What remains at its end. -/
  stop : Chars
  deriving DecidableEq, Repr

/-- The first part of a text, up to what remains at the end. -/
def upTo (start stop : Chars) : Chars :=
  start.take (start.length - stop.length)

/-- The characters of a fragment. -/
def Fragment.chars (f : Fragment) : Chars :=
  upTo f.start f.stop

/-- The text of a fragment. -/
def Fragment.text (f : Fragment) : String :=
  String.ofList f.chars

/-! ### Blanks and comments -/

/-- The characters that may stand between tokens: the blanks of the language, among them the
byte order mark and the invisible joiners. -/
def spaceRanges : List (Nat × Nat) :=
  [(0x9, 0xD), (0x20, 0x20), (0xA0, 0xA0), (0x1680, 0x1680), (0x2000, 0x200B), (0x2028, 0x2029),
   (0x202F, 0x202F), (0x205F, 0x2060), (0x3000, 0x3000), (0xFEFF, 0xFEFF)]

/-- Whether the character may stand between tokens. -/
def isSpace (c : Char) : Bool :=
  Text.inRanges spaceRanges c

/-- Whether the character ends a comment that extends to the end of its line. -/
def endsLine (c : Char) : Bool :=
  c == '\n' || c == '\r' || c.toNat == 0x2028 || c.toNat == 0x2029

/-- What the skipped text is part of. -/
inductive Trivia
  /-- Blanks. -/
  | blank
  /-- A comment that extends to the end of the line. -/
  | line
  /-- A comment that extends to its closing mark, and what remained at its start. -/
  | block (start : Chars)

/-- What remains behind blanks and comments, from inside one of them on. -/
def skipFrom : Trivia → Chars → Chars
  | .blank, '/' :: '/' :: cs => skipFrom .line cs
  | .blank, '/' :: '*' :: cs => skipFrom (.block ('/' :: '*' :: cs)) cs
  | .blank, c :: cs => if isSpace c then skipFrom .blank cs else c :: cs
  | .blank, [] => []
  | .line, c :: cs => if endsLine c then skipFrom .blank cs else skipFrom .line cs
  | .line, [] => []
  | .block _, '*' :: '/' :: cs => skipFrom .blank cs
  | .block start, _ :: cs => skipFrom (.block start) cs
  | .block start, [] => start

/-- What remains behind blanks and comments. -/
def skip (cs : Chars) : Chars :=
  skipFrom .blank cs

/-- What remains behind the comment at the start of the text. -/
def comment? : Chars → Option Chars
  | '/' :: '/' :: cs => some (cs.dropWhile (! endsLine ·))
  | '/' :: '*' :: cs => closing cs
  | _ => none
where
  /-- What remains behind the mark that closes a comment. -/
  closing : Chars → Option Chars
    | '*' :: '/' :: cs => some cs
    | _ :: cs => closing cs
    | [] => none

/-! ### Positions -/

/-- The line and the column of a place, both from zero; columns count bytes. -/
structure Position where
  /-- The number of line feeds before the place. -/
  line : Nat
  /-- The number of bytes between the last of them and the place. -/
  column : Nat
  deriving DecidableEq, Repr

/-- The position behind one more character. -/
def Position.next (p : Position) (c : Char) : Position :=
  if c = '\n' then ⟨p.line + 1, 0⟩ else ⟨p.line, p.column + c.utf8Size⟩

/-- The position at which `rest` remains of the source. -/
def position (source rest : Chars) : Position :=
  (upTo source rest).foldl Position.next ⟨0, 0⟩

/-- Where a fragment starts and ends. -/
structure Span where
  /-- The position of the first character. -/
  start : Position
  /-- The position behind the last character. -/
  stop : Position
  deriving DecidableEq, Repr

/-- The span of a fragment of the source. -/
def Fragment.span (source : Chars) (f : Fragment) : Span :=
  ⟨position source f.start, position source f.stop⟩

end Source

end ModuleScaffold
