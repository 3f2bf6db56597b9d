import ModuleScaffold.Text.Ranges

/-!
# Blank characters

Blank characters (the property White_Space) separate words and are trimmed from the ends of a
text; control characters are those that a text should not show raw. A text cut at every
character of some kind is the list of its *fields*, empty ones included; its *words* are the
fields between blanks that are not empty.

Main statement: `Text.joinWith_fieldsAt`, cutting at one character loses nothing.
-/

namespace ModuleScaffold

namespace Text

/-- The ranges of the property White_Space. -/
def blankRanges : List (Nat × Nat) :=
  [(0x9, 0xD), (0x20, 0x20), (0x85, 0x85), (0xA0, 0xA0), (0x1680, 0x1680), (0x2000, 0x200A),
   (0x2028, 0x2029), (0x202F, 0x202F), (0x205F, 0x205F), (0x3000, 0x3000)]

/-- A character that only separates. -/
def isBlank (c : Char) : Bool :=
  inRanges blankRanges c

/-- A control character: below the space, or from the delete character to the end of the
second control block. -/
def isControl (c : Char) : Bool :=
  c.toNat < 0x20 || (0x7F ≤ c.toNat && c.toNat ≤ 0x9F)

/-! ### Cutting a text -/

/-- The pieces of a text between the characters satisfying `p`, empty pieces included. There is
always at least one piece. -/
def fields (p : Char → Bool) : List Char → List (List Char)
  | [] => [[]]
  | c :: cs =>
    if p c then [] :: fields p cs
    else match fields p cs with
      | [] => [[c]]
      | f :: fs => (c :: f) :: fs

theorem fields_ne_nil (p : Char → Bool) (cs : List Char) : fields p cs ≠ [] := by
  cases cs with
  | nil => simp [fields]
  | cons c cs =>
    unfold fields
    split
    · simp
    · split <;> simp

/-- The pieces with one separator put back between neighbours. -/
def joinWith (separator : List Char) : List (List Char) → List Char
  | [] => []
  | [f] => f
  | f :: g :: fs => f ++ separator ++ joinWith separator (g :: fs)

/-- Cutting at one character and joining with it again gives the text back. -/
theorem joinWith_fieldsAt (x : Char) (cs : List Char) :
    joinWith [x] (fields (· == x) cs) = cs := by
  induction cs with
  | nil => rfl
  | cons c cs ih =>
    have hne := fields_ne_nil (· == x) cs
    unfold fields
    split
    · next h =>
      match hf : fields (· == x) cs, hne with
      | f :: fs, _ =>
        rw [hf] at ih
        have hc : c = x := by simpa using h
        simp [joinWith, ih, hc]
    · match hf : fields (· == x) cs, hne with
      | [f], _ => rw [hf] at ih; simpa [joinWith] using ih
      | f :: g :: fs, _ => rw [hf] at ih; simp only [joinWith] at ih ⊢; simp [← ih]

/-- The words of a text: its maximal runs of characters that are not blank. -/
def words (cs : List Char) : List (List Char) :=
  (fields isBlank cs).filter (! ·.isEmpty)

/-- The text with every run of blanks made one space, and none at the ends. -/
def collapse (text : String) : String :=
  String.ofList (joinWith [' '] (words text.toList))

/-- The text without its blanks. -/
def squeeze (text : String) : String :=
  String.ofList (text.toList.filter (! isBlank ·))

/-! ### Trimming -/

/-- The list without its last members satisfying `p`. -/
def dropEndWhile {α : Type} (p : α → Bool) (l : List α) : List α :=
  (l.reverse.dropWhile p).reverse

/-- The text without blanks at its start. -/
def trimStart (text : String) : String :=
  String.ofList (text.toList.dropWhile isBlank)

/-- The text without blanks at its end. -/
def trimEnd (text : String) : String :=
  String.ofList (dropEndWhile isBlank text.toList)

/-- The text without blanks at either end. -/
def trim (text : String) : String :=
  trimEnd (trimStart text)

/-- The text without the characters satisfying `p` at either end. -/
def trimMatches (p : Char → Bool) (text : String) : String :=
  String.ofList (dropEndWhile p (text.toList.dropWhile p))

/-! ### Lines -/

/-- The lines of a text. A carriage return before a line feed belongs to the line's end, and a
line feed at the very end of the text starts no further line. -/
def lines (text : String) : List String :=
  let pieces := fields (· == '\n') text.toList
  let pieces := if pieces.getLast? = some [] then pieces.dropLast else pieces
  pieces.map fun piece =>
    String.ofList (if piece.getLast? = some '\r' then piece.dropLast else piece)

end Text

end ModuleScaffold
