import ModuleScaffold.Text.Digits

/-!
# Texts as octets

A text is held in files and streams as the octets of its characters. A sequence of octets that
is no text is *broken* at some place: there an octet is out of place, or the octets end inside a
character. Reading leniently puts a mark in every broken place.
-/

namespace ModuleScaffold

/-- Octets of a file or a stream. -/
abbrev Octets := List UInt8

namespace Octets

/-- The octets of a text. -/
def ofText (text : String) : Octets :=
  text.toUTF8.toList

/-- What is known of a character from its first octet. -/
structure Lead where
  /-- The number of octets that follow. -/
  tails : Nat
  /-- The least second octet. -/
  least : Nat
  /-- The greatest second octet. -/
  greatest : Nat
  /-- The bits of the first octet that belong to the character. -/
  bits : Nat

/-- What the first octet of a character tells, if it may stand first and is not alone. -/
def lead? (b : Nat) : Option Lead :=
  if 0xC2 ≤ b ∧ b ≤ 0xDF then some ⟨1, 0x80, 0xBF, b - 0xC0⟩
  else if b = 0xE0 then some ⟨2, 0xA0, 0xBF, 0⟩
  else if b = 0xED then some ⟨2, 0x80, 0x9F, 0xD⟩
  else if 0xE1 ≤ b ∧ b ≤ 0xEF then some ⟨2, 0x80, 0xBF, b - 0xE0⟩
  else if b = 0xF0 then some ⟨3, 0x90, 0xBF, 0⟩
  else if 0xF1 ≤ b ∧ b ≤ 0xF3 then some ⟨3, 0x80, 0xBF, b - 0xF0⟩
  else if b = 0xF4 then some ⟨3, 0x80, 0x8F, 4⟩
  else none

/-- The first character of octets. -/
inductive First
  /-- A character, and what remains behind it. -/
  | char (c : Char) (rest : Octets)
  /-- A number of octets that belong to no character, and what remains behind them. -/
  | broken (length : Nat) (rest : Octets)
  /-- The octets end inside a character. -/
  | ended

/-- A character from the octets behind its first one: so many are missing, the next one lies in a
range, and the bits and the number of those before are given. -/
def tail : (missing least greatest bits taken : Nat) → Octets → First
  | 0, _, _, bits, _, rest => .char (Char.ofNat bits) rest
  | _ + 1, _, _, _, _, [] => .ended
  | n + 1, least, greatest, bits, taken, b :: rest =>
    if least ≤ b.toNat ∧ b.toNat ≤ greatest then
      tail n 0x80 0xBF (bits * 64 + b.toNat % 64) (taken + 1) rest
    else .broken taken (b :: rest)

/-- The first character of octets that start with the given one. -/
def first (b : UInt8) (rest : Octets) : First :=
  if b.toNat < 0x80 then .char (Char.ofNat b.toNat) rest
  else match lead? b.toNat with
    | some lead => tail lead.tails lead.least lead.greatest lead.bits 1 rest
    | none => .broken 1 rest

/-- Where and how octets are broken. -/
structure Break where
  /-- The number of octets before the place. -/
  index : Nat
  /-- The number of octets out of place, unless the octets end inside a character. -/
  length : Option Nat
  deriving DecidableEq, Repr

/-- The break in words. -/
def Break.message (b : Break) : String :=
  match b.length with
  | some n => "invalid utf-8 sequence of " ++ Text.decimal n ++ " bytes from index "
      ++ Text.decimal b.index
  | none => "incomplete utf-8 byte sequence from index " ++ Text.decimal b.index

/-- The characters of octets that follow `index` others, read in at most `fuel` steps. -/
def charsFrom : Nat → Nat → Octets → Except Break (List Char)
  | _, _, [] => .ok []
  | 0, index, _ => .error ⟨index, none⟩
  | fuel + 1, index, b :: rest =>
    match first b rest with
    | .char c behind => do
      return c :: (← charsFrom fuel (index + c.utf8Size) behind)
    | .broken n _ => .error ⟨index, some n⟩
    | .ended => .error ⟨index, none⟩

/-- The text of octets. -/
def toText (octets : Octets) : Except Break String :=
  (charsFrom octets.length 0 octets).map String.ofList

/-- The mark for a broken place. -/
def brokenMark : Char := Char.ofNat 0xFFFD

/-- The characters of octets with marks in the broken places, read in at most `fuel` steps. -/
def lenientFrom : Nat → Octets → List Char
  | 0, _ | _, [] => []
  | fuel + 1, b :: rest =>
    match first b rest with
    | .char c behind => c :: lenientFrom fuel behind
    | .broken _ behind => brokenMark :: lenientFrom fuel behind
    | .ended => [brokenMark]

/-- The text of octets with marks in the broken places. -/
def lenient (octets : Octets) : String :=
  String.ofList (lenientFrom octets.length octets)

end Octets

end ModuleScaffold
