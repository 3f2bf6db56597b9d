import ModuleScaffold.Proofs.Reading.Literal

/-!
# Code units of texts

The language counts its texts in code units of 16 bits, and an escape in a quoted text stands for
units rather than for characters: two escapes may make up one character, and one of them alone is a
text as well. `ModuleScaffold.Text.stringUnits` and `ModuleScaffold.Text.templateUnits` give the
units that a quoted text stands for by the grammar of the language, where
`ModuleScaffold.Text.unescape` gives the characters that are kept of it. The two may differ: a
backslash may continue a line in more ways than one, and an escape may be octal.

Main statements:

* `ModuleScaffold.Text.unitsFrom_of_notMem` – a text without backslashes stands for itself;
* `ModuleScaffold.Text.stringUnits_quoteChars` – **a text that is written in quotes stands for the
  units of its characters**.
-/

namespace ModuleScaffold

namespace Text

/-! ### Units -/

/-- The code units of a code point: itself, or a pair of surrogates. -/
def unitsOf (n : ℕ) : List ℕ :=
  if n < 0x10000 then [n]
  else [0xD800 + (n - 0x10000) / 0x400, 0xDC00 + (n - 0x10000) % 0x400]

/-- The code units of a text. -/
def units (cs : List Char) : List ℕ :=
  cs.flatMap fun c => unitsOf c.toNat

@[simp] theorem units_nil : units [] = [] := rfl

@[simp] theorem units_cons (c : Char) (cs : List Char) :
    units (c :: cs) = unitsOf c.toNat ++ units cs := rfl

theorem units_append (cs ds : List Char) : units (cs ++ ds) = units cs ++ units ds :=
  List.flatMap_append

/-- The units of a character tell it, and where they end. -/
theorem unitsOf_append_inj {c d : Char} {us vs : List ℕ}
    (h : unitsOf c.toNat ++ us = unitsOf d.toNat ++ vs) : c = d ∧ us = vs := by
  have hc : c.toNat < 0xD800 ∨ 0xDFFF < c.toNat ∧ c.toNat < 0x110000 := c.valid
  have hd : d.toNat < 0xD800 ∨ 0xDFFF < d.toNat ∧ d.toNat < 0x110000 := d.valid
  have heq : c.toNat = d.toNat → c = d := fun h => Char.ext (UInt32.toNat_inj.1 h)
  rw [unitsOf, unitsOf] at h
  split at h
  · split at h
    · obtain ⟨hunit, hrest⟩ := List.cons.inj h
      exact ⟨heq hunit, hrest⟩
    · obtain ⟨hunit, -⟩ := List.cons.inj h
      omega
  · split at h
    · obtain ⟨hunit, -⟩ := List.cons.inj h
      omega
    · obtain ⟨hhigh, hrest⟩ := List.cons.inj h
      obtain ⟨hlow, hrest⟩ := List.cons.inj hrest
      exact ⟨heq (by omega), hrest⟩

/-- A text is told by its units. -/
theorem units_injective : Function.Injective units := by
  intro cs
  induction cs with
  | nil =>
    rintro (_ | ⟨d, ds⟩) h
    · rfl
    · rw [units_nil, units_cons, unitsOf] at h
      split at h <;> cases h
  | cons c cs ih =>
    rintro (_ | ⟨d, ds⟩) h
    · rw [units_nil, units_cons, unitsOf] at h
      split at h <;> cases h
    · obtain ⟨rfl, hrest⟩ := unitsOf_append_inj h
      rw [ih hrest]

/-! ### Escapes -/

/-- The code point that a backslash and a single character stand for. -/
def singleEscape : Char → ℕ
  | 'b' => 8
  | 't' => 9
  | 'n' => 10
  | 'v' => 11
  | 'f' => 12
  | 'r' => 13
  | c => c.toNat

/-- The digits of an octal escape, which stands for less than 256. -/
def octalDigits (cs : List Char) : List Char :=
  let ds := (cs.take 3).takeWhile (isDigitOf 8)
  if ds.length = 3 ∧ ds.head?.any ('3' < ·) then ds.take 2 else ds

/-- The units that the escape behind a backslash stands for, and the number of its characters. -/
def escapeUnits : List Char → Option (List ℕ × ℕ)
  | 'x' :: a :: b :: _ => (readNumber 16 [a, b]).map fun n => ([n], 3)
  | 'u' :: '\x7b' :: cs =>
    let ds := cs.takeWhile (isDigitOf 16)
    match readNumber 16 ds, cs.drop ds.length with
    | some n, '\x7d' :: _ => if n < 0x110000 then some (unitsOf n, ds.length + 3) else none
    | _, _ => none
  | 'u' :: a :: b :: c :: d :: _ => (readNumber 16 [a, b, c, d]).map fun n => ([n], 5)
  | '\r' :: '\n' :: _ => some ([], 2)
  | c :: cs =>
    if c = 'x' || c = 'u' then none
    else if Source.endsLine c then some ([], 1)
    else if isDigitOf 8 c then
      (readNumber 8 (octalDigits (c :: cs))).map fun n => ([n], (octalDigits (c :: cs)).length)
    else some (unitsOf (singleEscape c), 1)
  | [] => none

/-- The units that the inside of a quoted text stands for; the first `pending` characters belong to
an escape. -/
def unitsFrom (pending : ℕ) : List Char → Option (List ℕ)
  | [] => some []
  | c :: cs =>
    match pending with
    | n + 1 => unitsFrom n cs
    | 0 =>
      if c = '\\' then
        match escapeUnits cs with
        | some (us, n) => (unitsFrom n cs).map (us ++ ·)
        | none => none
      else (unitsFrom 0 cs).map (unitsOf c.toNat ++ ·)

/-- The inside of a text between two marks. -/
def inside (cs : List Char) : List Char :=
  (cs.drop 1).dropLast

/-- The units that a text in single or double quotes stands for. -/
def stringUnits (cs : List Char) : Option (List ℕ) :=
  unitsFrom 0 (inside cs)

/-- A text in which every end of a line is a line feed. -/
def withLineFeeds : List Char → List Char
  | '\r' :: '\n' :: cs => '\n' :: withLineFeeds cs
  | '\r' :: cs => '\n' :: withLineFeeds cs
  | c :: cs => c :: withLineFeeds cs
  | [] => []

/-- The units that a template without expressions stands for. -/
def templateUnits (cs : List Char) : Option (List ℕ) :=
  unitsFrom 0 (withLineFeeds (inside cs))

/-! ### Texts that are written -/

theorem unitsFrom_cons {c : Char} (hc : c ≠ '\\') (cs : List Char) :
    unitsFrom 0 (c :: cs) = (unitsFrom 0 cs).map (unitsOf c.toNat ++ ·) := by
  rw [unitsFrom, if_neg hc]

/-- A text without backslashes stands for itself. -/
theorem unitsFrom_of_notMem {cs : List Char} (h : '\\' ∉ cs) : unitsFrom 0 cs = some (units cs) := by
  induction cs with
  | nil => rfl
  | cons c cs ih =>
    rw [List.mem_cons, not_or] at h
    rw [unitsFrom_cons (Ne.symm h.1), ih h.2]
    rfl

/-- An escape that is one character behind its backslash. -/
theorem unitsFrom_single {c : Char} {us : List ℕ} {cs : List Char}
    (h : escapeUnits (c :: cs) = some (us, 1)) :
    unitsFrom 0 ('\\' :: c :: cs) = (unitsFrom 0 cs).map (us ++ ·) := by
  rw [unitsFrom, if_pos rfl, h]
  rfl

theorem escapeUnits_fourHexDigits {n : ℕ} (h : n < 65536) (cs : List Char) :
    escapeUnits ('u' :: (fourHexDigits n ++ cs)) = some ([n], 5) := by
  have hbrace : ∀ d < 16, hexDigit d ≠ '\x7b' := by decide
  have hnumber := readNumber_fourHexDigits h
  rw [fourHexDigits] at hnumber ⊢
  rw [List.cons_append, List.cons_append, List.cons_append, List.cons_append, List.nil_append,
    escapeUnits, hnumber]
  · rfl
  · exact hbrace _ (Nat.mod_lt _ (by decide))

/-- A character stands for itself, escaped or not. -/
theorem unitsFrom_escaped (c : Char) (cs : List Char) :
    unitsFrom 0 (escaped c ++ cs) = (unitsFrom 0 cs).map (unitsOf c.toNat ++ ·) := by
  rw [escaped]
  split
  · next h =>
    subst h
    exact unitsFrom_single rfl
  split
  · next h =>
    subst h
    exact unitsFrom_single rfl
  split
  · next h =>
    subst h
    exact unitsFrom_single rfl
  split
  · next h =>
    subst h
    exact unitsFrom_single rfl
  split
  · next h =>
    subst h
    exact unitsFrom_single rfl
  split
  · next hline =>
    have hlt : c.toNat < 65536 := by
      simp only [isControl, Bool.or_eq_true, Bool.and_eq_true, decide_eq_true_eq] at hline
      omega
    have hunits : unitsOf c.toNat = [c.toNat] := by rw [unitsOf, if_pos hlt]
    rw [List.cons_append, List.cons_append, unitsFrom, if_pos rfl,
      escapeUnits_fourHexDigits hlt, hunits]
    rfl
  · next hbackslash _ _ _ _ => exact unitsFrom_cons hbackslash cs

/-- **A text that is written in quotes stands for the units of its characters.** -/
theorem stringUnits_quoteChars (cs : List Char) : stringUnits (quoteChars cs) = some (units cs) := by
  have hinside : inside (quoteChars cs) = cs.flatMap escaped := List.dropLast_concat
  rw [stringUnits, hinside]
  induction cs with
  | nil => rfl
  | cons c cs ih =>
    have hcs : inside (quoteChars cs) = cs.flatMap escaped := List.dropLast_concat
    rw [List.flatMap_cons, unitsFrom_escaped, ih hcs]
    rfl

/-- A pair of escapes for surrogates is one character, of which no character is kept. -/
example : stringUnits "\"\\uD83D\\uDE00\"".toList = some (units ['😀']) ∧
    unescape (unquoted "\"\\uD83D\\uDE00\"".toList) = "\\uD83D\\uDE00".toList := by
  decide

end Text

end ModuleScaffold
