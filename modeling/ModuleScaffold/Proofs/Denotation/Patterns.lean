import ModuleScaffold.Proofs.Denotation.Units
import Mathlib.Data.List.Infix

/-!
# What patterns match

The language reads a regular expression without flags as a pattern over code units.
`ModuleScaffold.Regex.Pattern` is the part of these patterns that can be made of literal units,
groups, alternatives and the assertion of the start; `ModuleScaffold.Regex.Pattern.read` reads it
and refuses a text with anything else in it – a quantifier, a class, a point, another assertion, or
an escape for more than the character behind its backslash – so whatever it reads, it reads as the
language does.

A pattern is matched from some place of a text on, and what it leaves of the text is listed in the
order in which the language tries it (`ModuleScaffold.Regex.Pattern.rests`). A text is matched if
something is left from any of its places.

Main statements:

* `ModuleScaffold.Regex.Pattern.Reading.Leads.escaped`,
  `ModuleScaffold.Regex.Pattern.Reading.Leads.plain` – a code unit behind a backslash, or one that
  is no mark, is read as itself;
* `ModuleScaffold.Regex.Pattern.Group.mem_rests_addAll` – **code units one after the other match
  themselves**;
* `ModuleScaffold.Regex.Pattern.Group.mem_rests_addTexts` – **texts with bars between them match
  each of them**.
-/

namespace ModuleScaffold

namespace Regex

/-- A pattern over code units. -/
inductive Pattern
  /-- Nothing. -/
  | empty
  /-- A code unit that stands for itself. -/
  | unit (u : ℕ)
  /-- The start of the text. -/
  | start
  /-- One pattern after the other. -/
  | sequence (p q : Pattern)
  /-- The first of two patterns or, if that fails, the second one. -/
  | choice (p q : Pattern)
  deriving DecidableEq

namespace Pattern

/-! ### Matching -/

/-- What a pattern may leave of the rest of a text, in the order of trying. -/
def rests (text : List ℕ) : Pattern → List ℕ → List (List ℕ)
  | empty, us => [us]
  | unit _, [] => []
  | unit u, v :: us => if u = v then [us] else []
  | start, us => if us = text then [us] else []
  | sequence p q, us => (p.rests text us).flatMap (q.rests text)
  | choice p q, us => p.rests text us ++ q.rests text us

/-- Whether a pattern matches somewhere in a text. -/
def tests (p : Pattern) (text : List ℕ) : Bool :=
  text.tails.any fun us => ! (p.rests text us).isEmpty

variable {p q : Pattern} {text us rest : List ℕ}

theorem mem_rests_empty : rest ∈ empty.rests text us ↔ rest = us :=
  List.mem_singleton

theorem mem_rests_unit {u : ℕ} : rest ∈ (unit u).rests text us ↔ us = u :: rest := by
  rcases us with _ | ⟨v, us⟩
  · simp [rests]
  · rw [rests]
    split
    · next h =>
      rw [List.mem_singleton, h, List.cons.injEq, and_iff_right rfl]
      exact eq_comm
    · next h =>
      refine iff_of_false List.not_mem_nil fun heq => h ?_
      exact (List.cons.inj heq).1.symm

theorem mem_rests_start : rest ∈ start.rests text us ↔ us = text ∧ rest = us := by
  rw [rests]
  split
  · next h => rw [List.mem_singleton, and_iff_right h]
  · next h => exact iff_of_false List.not_mem_nil fun heq => h heq.1

theorem mem_rests_sequence :
    rest ∈ (sequence p q).rests text us ↔ ∃ vs ∈ p.rests text us, rest ∈ q.rests text vs := by
  rw [rests, List.mem_flatMap]

theorem mem_rests_choice :
    rest ∈ (choice p q).rests text us ↔ rest ∈ p.rests text us ∨ rest ∈ q.rests text us := by
  rw [rests, List.mem_append]

theorem tests_iff : p.tests text = true ↔ ∃ us, us <:+ text ∧ ∃ rest, rest ∈ p.rests text us := by
  simp only [tests, List.any_eq_true, List.mem_tails, Bool.not_eq_true', List.isEmpty_eq_false_iff]
  exact exists_congr fun us => and_congr_right fun _ =>
    ⟨List.exists_mem_of_ne_nil _, fun ⟨_, h⟩ => List.ne_nil_of_mem h⟩

/-! ### Reading -/

/-- The characters with a meaning of their own in patterns, and the slash at their ends. -/
def marks : List Char :=
  ['^', '$', '\\', '.', '*', '+', '?', '(', ')', '[', ']', '\x7b', '\x7d', '|', '/']

/-- Whether a code unit is one of the marks. -/
def isMark (u : ℕ) : Bool :=
  (marks.map Char.toNat).contains u

theorem isMark_toNat {c : Char} (hc : c ∈ marks) : isMark c.toNat = true :=
  List.contains_iff_mem.2 (List.mem_map_of_mem hc)

/-- What has been read of a group. -/
structure Group where
  /-- The alternatives that a bar has ended. -/
  ended : Option Pattern
  /-- The alternative that is read. -/
  latest : Pattern
  deriving DecidableEq

namespace Group

/-- The start of a group. -/
def opened : Group := ⟨none, .empty⟩

/-- The pattern of all alternatives. -/
def pattern (g : Group) : Pattern :=
  match g.ended with
  | none => g.latest
  | some p => .choice p g.latest

/-- A group with one more pattern behind its latest alternative. -/
def add (g : Group) (p : Pattern) : Group :=
  { g with latest := .sequence g.latest p }

/-- A group behind a bar. -/
def bar (g : Group) : Group :=
  ⟨some g.pattern, .empty⟩

/-- A group with code units behind its latest alternative. -/
def addAll (g : Group) (us : List ℕ) : Group :=
  us.foldl (fun g u => g.add (.unit u)) g

end Group

/-- Where the reading of a pattern is. -/
structure Reading where
  /-- The groups around the group that is read, the innermost first. -/
  outer : List Group
  /-- The group that is read. -/
  group : Group
  /-- Whether a backslash stands in front. -/
  escaped : Bool

namespace Reading

/-- Reading a code unit. -/
def step (r : Reading) (u : ℕ) : Option Reading :=
  if r.escaped then
    if isMark u then some ⟨r.outer, r.group.add (.unit u), false⟩ else none
  else if u = '\\'.toNat then some ⟨r.outer, r.group, true⟩
  else if u = '('.toNat then some ⟨r.group :: r.outer, .opened, false⟩
  else if u = ')'.toNat then
    match r.outer with
    | g :: outer => some ⟨outer, g.add r.group.pattern, false⟩
    | [] => none
  else if u = '|'.toNat then some ⟨r.outer, r.group.bar, false⟩
  else if u = '^'.toNat then some ⟨r.outer, r.group.add .start, false⟩
  else if isMark u then none
  else some ⟨r.outer, r.group.add (.unit u), false⟩

/-- The pattern that has been read, if it ends here. -/
def finish (r : Reading) : Option Pattern :=
  if r.outer.isEmpty && ! r.escaped then some r.group.pattern else none

end Reading

/-- The pattern that code units are read as. -/
def read (us : List ℕ) : Option Pattern :=
  (us.foldlM Reading.step ⟨[], .opened, false⟩).bind Reading.finish

/-! ### What groups leave -/

variable {outer : List Group} {g g' : Group} {u : ℕ} {vs : List ℕ} {ended : Option Pattern}
  {t : List Char} {texts : List (List Char)}

namespace Group

/-- A group with texts behind its latest alternative, a bar between any two of them. -/
def addTexts (g : Group) : List (List Char) → Group
  | [] => g
  | [t] => g.addAll (Text.units t)
  | t :: texts => (g.addAll (Text.units t)).bar.addTexts texts

/-- Code units one after the other match themselves. -/
theorem mem_rests_addAll :
    rest ∈ (g.addAll vs).latest.rests text us ↔ vs ++ rest ∈ g.latest.rests text us := by
  -- units are added behind what is there, so the group changes from step to step
  induction vs generalizing g with
  | nil => exact Iff.rfl
  | cons v vs ih =>
    rw [addAll, List.foldl_cons, ← addAll, ih, add, mem_rests_sequence]
    simp only [mem_rests_unit]
    constructor
    · rintro ⟨_, hmem, rfl⟩
      exact hmem
    · intro hmem
      exact ⟨_, hmem, rfl⟩

theorem addAll_append : g.addAll (us ++ vs) = (g.addAll us).addAll vs :=
  List.foldl_append

theorem ended_addAll : (g.addAll vs).ended = g.ended := by
  induction vs generalizing g with
  | nil => rfl
  | cons v vs ih => exact ih

theorem mem_rests_pattern : rest ∈ g.pattern.rests text us ↔
    (∃ p ∈ g.ended, rest ∈ p.rests text us) ∨ rest ∈ g.latest.rests text us := by
  rw [pattern]
  split
  · next h => simp [h]
  · next h => simp [h, mem_rests_choice]

/-- **Texts with bars between them match each of them.** -/
theorem mem_rests_addTexts (h : texts ≠ []) :
    rest ∈ ((⟨ended, .empty⟩ : Group).addTexts texts).pattern.rests text us ↔
      (∃ p ∈ ended, rest ∈ p.rests text us) ∨ ∃ t ∈ texts, us = Text.units t ++ rest := by
  have hone : ∀ (ended : Option Pattern) (t : List Char),
      rest ∈ ((⟨ended, .empty⟩ : Group).addAll (Text.units t)).pattern.rests text us ↔
        (∃ p ∈ ended, rest ∈ p.rests text us) ∨ us = Text.units t ++ rest := by
    intro ended t
    rw [mem_rests_pattern, ended_addAll, mem_rests_addAll, mem_rests_empty, eq_comm]
  induction texts generalizing ended with
  | nil => exact absurd rfl h
  | cons t texts ih =>
    rcases texts with _ | ⟨t', texts⟩
    · rw [addTexts, hone]
      simp
    · -- behind the bar, the first text belongs to the alternatives that have ended
      refine (ih (List.cons_ne_nil _ _)).trans ?_
      simp only [Option.mem_some_iff, exists_eq_left', hone, or_assoc, List.exists_mem_cons_iff]

end Group

/-! ### Reading texts -/

namespace Reading

/-- Code units lead from one place of a reading to another one. -/
def Leads (r : Reading) (us : List ℕ) (r' : Reading) : Prop :=
  us.foldlM step r = some r'

namespace Leads

variable {r r' r'' : Reading}

theorem nil : Leads r [] r := rfl

theorem append (h : Leads r us r') (h' : Leads r' vs r'') : Leads r (us ++ vs) r'' := by
  rw [Leads, List.foldlM_append, h]
  exact h'

theorem cons (h : r.step u = some r') (h' : Leads r' us r'') : Leads r (u :: us) r'' := by
  rw [Leads, List.foldlM_cons, h]
  exact h'

/-- What is read if the whole text leads to a place outside of all groups. -/
theorem read (h : Leads ⟨[], .opened, false⟩ us ⟨[], g, false⟩) : read us = some g.pattern := by
  rw [Pattern.read, h]
  rfl

/-- A mark behind a backslash stands for itself. -/
theorem escaped (h : isMark u = true) :
    Leads ⟨outer, g, false⟩ ['\\'.toNat, u] ⟨outer, g.add (.unit u), false⟩ := by
  refine cons rfl (cons ?_ nil)
  rw [step, if_pos rfl, if_pos h]

/-- A code unit that is no mark stands for itself. -/
theorem plain (h : isMark u = false) :
    Leads ⟨outer, g, false⟩ [u] ⟨outer, g.add (.unit u), false⟩ := by
  have hne : ∀ c ∈ marks, u ≠ c.toNat := by
    rintro c hc rfl
    rw [isMark_toNat hc] at h
    cases h
  refine cons ?_ nil
  rw [step, if_neg Bool.false_ne_true, if_neg (hne '\\' (by decide)),
    if_neg (hne '(' (by decide)), if_neg (hne ')' (by decide)), if_neg (hne '|' (by decide)),
    if_neg (hne '^' (by decide)), h, if_neg Bool.false_ne_true]

theorem plains (h : ∀ u ∈ us, isMark u = false) :
    Leads ⟨outer, g, false⟩ us ⟨outer, g.addAll us, false⟩ := by
  induction us generalizing g with
  | nil => exact nil
  | cons u us ih =>
    obtain ⟨hu, hus⟩ := List.forall_mem_cons.1 h
    exact (plain hu).append (ih hus)

theorem start : Leads ⟨outer, g, false⟩ ['^'.toNat] ⟨outer, g.add .start, false⟩ := by
  refine cons ?_ nil
  rw [step, if_neg Bool.false_ne_true, if_neg (by decide), if_neg (by decide), if_neg (by decide),
    if_neg (by decide), if_pos rfl]

/-- A bar between two texts of a group. -/
theorem bar : Leads ⟨outer, g, false⟩ ['|'.toNat] ⟨outer, g.bar, false⟩ := by
  refine cons ?_ nil
  rw [step, if_neg Bool.false_ne_true, if_neg (by decide), if_neg (by decide), if_neg (by decide),
    if_pos rfl]

/-- A group in another one. -/
theorem group (h : Leads ⟨g :: outer, .opened, false⟩ us ⟨g :: outer, g', false⟩) :
    Leads ⟨outer, g, false⟩ ('('.toNat :: (us ++ [')'.toNat]))
      ⟨outer, g.add g'.pattern, false⟩ := by
  refine cons ?_ (h.append (cons ?_ nil))
  · rw [step, if_neg Bool.false_ne_true, if_neg (by decide), if_pos rfl]
  · rw [step, if_neg Bool.false_ne_true, if_neg (by decide), if_neg (by decide), if_pos rfl]

end Leads

end Reading

/-! ### Characters -/

/-- No code unit of a character that is no mark is one, as a surrogate is none either. -/
theorem isMark_of_mem_unitsOf {c : Char} (hc : c ∉ marks) (hu : u ∈ Text.unitsOf c.toNat) :
    isMark u = false := by
  refine Bool.eq_false_iff.2 fun hmark => ?_
  obtain ⟨d, hd, rfl⟩ := List.mem_map.1 (List.contains_iff_mem.1 hmark)
  have hsmall : ∀ c ∈ marks, c.toNat < 128 := Text.forall_mem_of_all (by decide)
  have hlt := hsmall d hd
  rw [Text.unitsOf] at hu
  split at hu
  · -- a unit of its own is the code point, and the marks are told by theirs
    have heq : d = c := Char.ext (UInt32.toNat_inj.1 (List.mem_singleton.1 hu))
    exact hc (heq ▸ hd)
  · simp only [List.mem_cons, List.not_mem_nil, or_false] at hu
    omega

end Pattern

end Regex

end ModuleScaffold
