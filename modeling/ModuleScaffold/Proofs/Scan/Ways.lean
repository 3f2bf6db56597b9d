import ModuleScaffold.Proofs.Depth.Alike
import ModuleScaffold.Proofs.Scan.Steps

/-!
# Ways through a source text

The scan of variables knows nothing of comments, regular expressions and templates. It reads them
like any other text, and what stands in them may lead it astray. Where nothing that is *hidden* in
this way moves it, the scan follows the grammar: what a rule reads leaves as many brackets open as
there were (`Passes`), and semicolons stand in brackets only (`Runs`).

Main statements:

* `ModuleScaffold.Source.Moves.trans` – ways can be put together;
* `ModuleScaffold.Source.Goes.bind`, `ModuleScaffold.Source.Goes.group` – **the same for what rules
  read one after the other**, and in brackets;
* `ModuleScaffold.Source.moves_skip` – blanks and comments;
* `ModuleScaffold.Source.onward_many`, `ModuleScaffold.Source.onward_extend` – repetition.
-/

namespace ModuleScaffold

namespace Source

open Store (DeclaratorScan)
open Store.DeclaratorScan (Led isOpening isClosing isInert isPlain)

/-! ### What is hidden from the scan -/

/-- Between two places stands a comment, a regular expression or a template. -/
inductive Hides : Chars → Chars → Prop
  /-- A comment. -/
  | comment {cs rest : Chars} : comment? cs = some rest → Hides cs rest
  /-- A regular expression. -/
  | regex {cs rest : Chars} {token : RegexToken} : regexHere cs = some (token, rest) →
      Hides cs rest
  /-- A template with expressions. -/
  | template {cs rest : Chars} {depth : ℕ} {filled : Bool} :
      templateHere (fun cs => (sequence (reader depth) false cs).map (·.2)) cs =
        some (filled, rest) → Hides cs rest
  /-- A template with types. -/
  | typeTemplate {cs rest : Chars} {depth : ℕ} {filled : Bool} :
      templateHere ((reader depth).typeEnd false) cs = some (filled, rest) → Hides cs rest

/-- A way through a text from its start: what has been read, and what remains. Where the scan is
outside quotes, comments and templates are read whole; a regular expression may be read whole. -/
inductive Walk (scan : DeclaratorScan) (cs : Chars) : Chars → Chars → Prop
  /-- At the start nothing has been read. -/
  | start : Walk scan cs [] cs
  /-- A character is read. -/
  | char {front rest : Chars} {c : Char} : Walk scan cs front (c :: rest) →
      ((scan.after front).quoteMark = none → comment? (c :: rest) = none ∧ c ≠ '\u0060') →
        Walk scan cs (front ++ [c]) rest
  /-- Something that is hidden is read whole. -/
  | hidden {front hidden rest : Chars} : Walk scan cs front (hidden ++ rest) →
      (scan.after front).quoteMark = none → Hides (hidden ++ rest) rest →
        Walk scan cs (front ++ hidden) rest

/-- Nothing that is hidden between two places moves the scan, where the scan meets it outside
quotes. -/
def Quiet (scan : DeclaratorScan) (cs rest : Chars) : Prop :=
  ∀ front hidden back, Walk scan cs front (hidden ++ (back ++ rest)) →
    (scan.after front).quoteMark = none → Hides (hidden ++ (back ++ rest)) (back ++ rest) →
      (scan.after front).Unmoved (scan.after (front ++ hidden))

variable {scan : DeclaratorScan} {cs rest mid front : Chars} {c : Char} {low rise rise' : ℤ}

/-- One way goes on where another ends. -/
theorem Walk.trans {back : Chars} (h : Walk scan cs front mid)
    (h' : Walk (scan.after front) mid back rest) : Walk scan cs (front ++ back) rest := by
  induction h' with
  | start => rwa [List.append_nil]
  | char _ hc ih =>
    rw [← List.append_assoc]
    refine ih.char fun hquote => hc ?_
    rwa [DeclaratorScan.after_append] at hquote
  | hidden _ hquote hhides ih =>
    rw [← List.append_assoc]
    refine ih.hidden ?_ hhides
    rwa [DeclaratorScan.after_append]

theorem Quiet.upTo (h : Quiet scan cs rest) (hmid : mid = front ++ rest) : Quiet scan cs mid := by
  subst hmid
  intro before hidden back hwalk hquote hhides
  rw [← List.append_assoc back] at hwalk hhides
  exact h before hidden (back ++ front) hwalk hquote hhides

theorem Quiet.from (h : Quiet scan cs rest) (hwalk : Walk scan cs front mid) :
    Quiet (scan.after front) mid rest := by
  intro before hidden back hwalk' hquote hhides
  rw [← DeclaratorScan.after_append] at hquote ⊢
  rw [← DeclaratorScan.after_append, ← List.append_assoc]
  exact h (front ++ before) hidden back (hwalk.trans hwalk') hquote hhides

/-! ### Where a text leads the scan -/

/-- From one place of a text to another the scan rises by a number of brackets, if at least the
given number are open. -/
def Moves (low rise : ℤ) (cs rest : Chars) : Prop :=
  ∃ front, cs = front ++ rest ∧ ∀ scan : DeclaratorScan, scan.Calm → low ≤ scan.depth →
    Quiet scan cs rest → Walk scan cs front rest ∧ Led low rise scan (scan.after front)

namespace Moves

theorem refl (cs : Chars) : Moves low 0 cs cs :=
  ⟨[], rfl, fun _ hcalm _ _ => ⟨.start, .self hcalm⟩⟩

theorem trans {low' : ℤ} (h : Moves low rise cs mid) (h' : Moves low' rise' mid rest)
    (hle : low' ≤ low + rise) : Moves low (rise + rise') cs rest := by
  obtain ⟨front, rfl, hfront⟩ := h
  obtain ⟨back, rfl, hback⟩ := h'
  refine ⟨front ++ back, (List.append_assoc _ _ _).symm, fun scan hcalm hlow hquiet => ?_⟩
  obtain ⟨hwalk, hled⟩ := hfront scan hcalm hlow (hquiet.upTo rfl)
  -- the brackets that the second way needs are open behind the first one
  have hlow' : low' ≤ (scan.after front).depth := by
    rw [hled.depth]
    omega
  obtain ⟨hwalk', hled'⟩ := hback _ hled.calm hlow' (hquiet.from hwalk)
  rw [DeclaratorScan.after_append]
  exact ⟨hwalk.trans hwalk', hled.trans hled' hle⟩

/-- One character that starts neither a comment nor a template. -/
theorem char (hcomment : comment? (c :: cs) = none) (htemplate : c ≠ '\u0060')
    (h : ∀ scan : DeclaratorScan, scan.Calm → low ≤ scan.depth →
      Led low rise scan (scan.next c)) : Moves low rise (c :: cs) cs := by
  refine ⟨[c], rfl, fun scan hcalm hlow _ => ⟨?_, h scan hcalm hlow⟩⟩
  exact Walk.start.char fun _ => ⟨hcomment, htemplate⟩

theorem comment?_eq_none (hc : c ≠ '/') : comment? (c :: cs) = none := by
  unfold comment?
  split
  · next heq => exact absurd (List.cons.inj heq).1 hc
  · next heq => exact absurd (List.cons.inj heq).1 hc
  · rfl

/-- One character of a kind to which neither a slash nor the mark of a template belongs. -/
theorem charOf {p : Char → Bool} (hc : p c = true) (hslash : p '/' = false)
    (hmark : p '\u0060' = false) (h : ∀ scan : DeclaratorScan, scan.Calm → low ≤ scan.depth →
      Led low rise scan (scan.next c)) : Moves low rise (c :: cs) cs := by
  refine char (comment?_eq_none ?_) ?_ h
  · rintro rfl
    exact absurd hc (by simp [hslash])
  · rintro rfl
    exact absurd hc (by simp [hmark])

theorem opening (h : isOpening c = true) : Moves low 1 (c :: cs) cs :=
  charOf h rfl rfl fun _ hcalm _ => DeclaratorScan.led_next_opening hcalm h

theorem closing (h : isClosing c = true) : Moves low (-1) (c :: cs) cs :=
  charOf h rfl rfl fun _ hcalm _ => DeclaratorScan.led_next_closing hcalm h

theorem inert (h : isInert c = true) : Moves low 0 (c :: cs) cs :=
  charOf h rfl rfl fun _ hcalm _ => DeclaratorScan.led_next_inert hcalm h

theorem plain (h : isPlain c = true) : Moves 0 0 (c :: cs) cs :=
  charOf h rfl rfl fun _ hcalm _ => DeclaratorScan.led_next_plain hcalm (Int.le_refl 0) h

/-- A slash that starts no comment. -/
theorem slash (h : comment? ('/' :: cs) = none) : Moves low 0 ('/' :: cs) cs :=
  char h (by decide) fun _ hcalm _ => DeclaratorScan.led_next_slash hcalm

/-- What is hidden moves nothing where nothing that is hidden does. -/
theorem hidden (h : Hides (front ++ rest) rest) : Moves low 0 (front ++ rest) rest := by
  refine ⟨front, rfl, fun scan hcalm _ hquiet => ⟨?_, ?_⟩⟩
  · exact Walk.start.hidden hcalm.unquoted h
  · -- the scan meets what is hidden at once
    exact (hquiet [] front [] .start hcalm.unquoted h).led

end Moves

/-- From one place to another all brackets are closed again, and no semicolon stands outside
brackets. -/
def Passes (cs rest : Chars) : Prop :=
  Moves 0 0 cs rest

/-- From one place to another all brackets are closed again; the text stands in brackets. -/
def Runs (cs rest : Chars) : Prop :=
  Moves 1 0 cs rest

/-- From one place to another a bracket is opened. -/
def Enters (cs rest : Chars) : Prop :=
  Moves 0 1 cs rest

/-- From one place to another the bracket is closed in which the text stands. -/
def Leaves (cs rest : Chars) : Prop :=
  Moves 1 (-1) cs rest

theorem Passes.runs (h : Passes cs rest) : Runs cs rest := by
  obtain ⟨front, hcs, hfront⟩ := h
  refine ⟨front, hcs, fun scan hcalm hlow hquiet => ?_⟩
  obtain ⟨hwalk, hcalm', hdepth, hin⟩ := hfront scan hcalm (by omega) hquiet
  -- inside brackets no pattern is left in any case
  exact ⟨hwalk, hcalm', hdepth, fun hpos => hin (by omega)⟩

theorem Passes.enters (h : Passes cs mid) (h' : Enters mid rest) : Enters cs rest :=
  Moves.trans h h' (Int.le_refl 0)

theorem Enters.leaves (h : Enters cs mid) (h' : Leaves mid rest) : Passes cs rest :=
  Moves.trans h h' (Int.le_refl 1)

theorem Runs.leaves (h : Runs cs mid) (h' : Leaves mid rest) : Leaves cs rest :=
  Moves.trans h h' (Int.le_refl 1)

theorem Leaves.passes (h : Leaves cs mid) (h' : Passes mid rest) : Leaves cs rest :=
  Moves.trans h h' (Int.le_refl 0)

/-- Ways that can be put together. -/
class Onward (R : Chars → Chars → Prop) : Prop where
  /-- One may stay where one is. -/
  refl : ∀ cs, R cs cs
  /-- One may go on. -/
  trans : ∀ {cs mid rest : Chars}, R cs mid → R mid rest → R cs rest

instance : Onward Passes where
  refl _ := Moves.refl _
  trans h h' := Moves.trans h h' (Int.le_refl 0)

instance : Onward Runs where
  refl _ := Moves.refl _
  trans h h' := Moves.trans h h' (Int.le_refl 1)

/-! ### Blanks and comments -/

theorem isSpace_of_endsLine (h : endsLine c = true) : isSpace c = true := by
  simp only [endsLine, Bool.or_eq_true, beq_iff_eq] at h
  rw [isSpace, Text.inRanges_iff]
  rcases h with ((rfl | rfl) | h) | h
  · exact ⟨(0x9, 0xD), by decide, by decide, by decide⟩
  · exact ⟨(0x9, 0xD), by decide, by decide, by decide⟩
  · exact ⟨(0x2028, 0x2029), by decide, by omega, by omega⟩
  · exact ⟨(0x2028, 0x2029), by decide, by omega, by omega⟩

theorem skipFrom_line (cs : Chars) :
    skipFrom .line cs = skip (cs.dropWhile (! endsLine ·)) := by
  induction cs with
  | nil => rfl
  | cons c cs ih =>
    rw [skipFrom]
    split
    · next hends =>
      rw [List.dropWhile_cons_of_neg (by simp [hends]),
        skip_cons_of_isSpace (isSpace_of_endsLine hends)]
      rfl
    · next hends => rw [List.dropWhile_cons_of_pos (by simp [hends]), ih]

theorem skipFrom_block (start cs : Chars) :
    skipFrom (.block start) cs = ((comment?.closing cs).map skip).getD start := by
  fun_induction comment?.closing cs with
  | case1 cs => rw [skipFrom]; rfl
  | case2 c cs hclose ih => rw [skipFrom, ih]; exact hclose
  | case3 => rfl

/-- What is skipped behind a comment is skipped in front of it. -/
theorem skip_of_comment (h : comment? cs = some rest) : skip cs = skip rest := by
  unfold comment? at h
  split at h
  · obtain rfl := Option.some.inj h
    exact skipFrom_line _
  · next cs =>
    have hskip : skip ('/' :: '*' :: cs) = skipFrom (.block ('/' :: '*' :: cs)) cs := rfl
    rw [hskip, skipFrom_block, h]
    rfl
  · cases h

/-- Nothing is skipped where neither a blank nor a comment stands. -/
theorem skip_of_comment_eq_none (hspace : isSpace c = false) (h : comment? (c :: cs) = none) :
    skip (c :: cs) = c :: cs := by
  unfold comment? at h
  split at h
  · cases h
  · next cs heq =>
    have hskip : skip ('/' :: '*' :: cs) = skipFrom (.block ('/' :: '*' :: cs)) cs := rfl
    rw [heq, hskip, skipFrom_block, h]
    rfl
  · next hline hblock =>
    rw [skip, skipFrom, if_neg (by simp [hspace])]
    · exact fun cs' hc hcs => hline cs' (by rw [hc, hcs])
    · exact fun cs' hc hcs => hblock cs' (by rw [hc, hcs])

/-- A comment is closed at the first mark that closes it. -/
theorem exists_of_closing (h : comment?.closing cs = some rest) :
    ∃ text, cs = text ++ '*' :: '/' :: rest ∧ ¬ ['*', '/'] <:+: text := by
  fun_induction comment?.closing cs with
  | case1 cs =>
    obtain rfl := Option.some.inj h
    exact ⟨[], rfl, fun hmark => absurd (List.infix_nil.1 hmark) (List.cons_ne_nil _ _)⟩
  | case2 c cs hopen ih =>
    obtain ⟨text, rfl, htext⟩ := ih h
    refine ⟨c :: text, rfl, fun hmark => ?_⟩
    rcases List.infix_cons_iff.1 hmark with hprefix | hinfix
    · obtain ⟨rfl, hslash⟩ := List.cons_prefix_cons.1 hprefix
      obtain ⟨behind, rfl⟩ := hslash
      exact hopen (behind ++ '*' :: '/' :: rest) rfl rfl
    · exact htext hinfix
  | case3 => cases h

theorem exists_append_of_comment (h : comment? cs = some rest) : ∃ front, cs = front ++ rest := by
  unfold comment? at h
  split at h
  · next cs =>
    obtain rfl := Option.some.inj h
    refine ⟨'/' :: '/' :: cs.takeWhile (! endsLine ·), ?_⟩
    rw [List.cons_append, List.cons_append, List.takeWhile_append_dropWhile]
  · next cs =>
    obtain ⟨text, rfl, -⟩ := exists_of_closing h
    exact ⟨'/' :: '*' :: (text ++ ['*', '/']), by simp⟩
  · cases h

theorem isInert_of_isSpace (h : isSpace c = true) : isInert c = true :=
  DeclaratorScan.isInert_of h (Text.forall_mem_of_all (by decide))

/-- A comment. -/
theorem moves_comment (low : ℤ) (h : comment? cs = some rest) : Moves low 0 cs rest := by
  obtain ⟨front, rfl⟩ := exists_append_of_comment h
  exact .hidden (.comment h)

/-- Induction along what is skipped: blanks, comments, and where something else stands. -/
theorem skip_induction {P : Chars → Prop}
    (hspace : ∀ c cs, isSpace c = true → P cs → P (c :: cs))
    (hcomment : ∀ cs rest, comment? cs = some rest → P rest → P cs)
    (hstop : ∀ cs, skip cs = cs → comment? cs = none → P cs) (cs : Chars) : P cs := by
  induction hn : cs.length using Nat.strongRecOn generalizing cs with
  | ind n ih =>
    subst hn
    cases cs with
    | nil => exact hstop [] rfl rfl
    | cons c cs =>
      by_cases hc : isSpace c = true
      · exact hspace c cs hc (ih cs.length (Nat.lt_succ_self _) cs rfl)
      · cases hread : comment? (c :: cs) with
        | none => exact hstop _ (skip_of_comment_eq_none (by simpa using hc) hread) hread
        | some rest => exact hcomment _ rest hread (ih rest.length (length_comment? hread) rest rfl)

/-- **Blanks and comments.** -/
theorem moves_skip (low : ℤ) (cs : Chars) : Moves low 0 cs (skip cs) := by
  induction cs using skip_induction with
  | hspace c cs hspace ih =>
    rw [skip_cons_of_isSpace hspace]
    exact Moves.trans (.inert (isInert_of_isSpace hspace)) ih (by omega)
  | hcomment cs rest hcomment ih =>
    rw [skip_of_comment hcomment]
    exact (moves_comment low hcomment).trans ih (by omega)
  | hstop cs hskip _ =>
    rw [hskip]
    exact .refl cs

theorem passes_skip (cs : Chars) : Passes cs (skip cs) :=
  moves_skip 0 cs

/-- No comment stands behind comments. -/
theorem comment?_skip (cs : Chars) : comment? (skip cs) = none := by
  induction cs using skip_induction with
  | hspace c cs hspace ih => rwa [skip_cons_of_isSpace hspace]
  | hcomment cs rest hcomment ih => rwa [skip_of_comment hcomment]
  | hstop cs hskip hcomment => rwa [hskip]

/-! ### What is read -/

/-- What has been read leaves something of the text. -/
class Remains (γ : Type) where
  /-- What is left. -/
  rest : γ → Chars

instance : Remains Chars where
  rest cs := cs

instance {α : Type} : Remains (α × Chars) where
  rest x := x.2

/-- What is read leads in a certain way through the text. -/
def Goes {γ : Type} [Remains γ] (R : Chars → Chars → Prop) (cs : Chars) (x : Option γ) : Prop :=
  ∀ y, x = some y → R cs (Remains.rest y)

namespace Goes

variable {γ δ : Type} [Remains γ] [Remains δ] {R : Chars → Chars → Prop} {x y : Option γ}

theorem none : Goes R cs (none : Option γ) :=
  fun _ h => nomatch h

theorem some {a : γ} (h : R cs (Remains.rest a)) : Goes R cs (some a) :=
  fun _ ha => Option.some.inj ha ▸ h

theorem or (h : Goes R cs x) (h' : Goes R cs y) : Goes R cs (x.or y) := by
  cases x with
  | none => exact h'
  | some a => exact h

theorem filter {p : γ → Bool} (h : Goes R cs x) : Goes R cs (x.filter p) :=
  fun a ha => h a (Option.mem_filter_iff.1 ha).1

theorem ite {c : Prop} [Decidable c] (h : Goes R cs x) (h' : Goes R cs y) :
    Goes R cs (if c then x else y) := by
  split
  · exact h
  · exact h'

/-- What is done with what has been read leaves the same of the text. -/
theorem map {f : γ → δ} (h : Goes R cs x) (hf : ∀ a, Remains.rest (f a) = Remains.rest a) :
    Goes R cs (x.map f) := by
  intro b hb
  obtain ⟨a, ha, rfl⟩ := Option.map_eq_some_iff.1 hb
  exact hf a ▸ h a ha

/-- The same, where what is done is the last of several steps. -/
theorem give {f : γ → δ} (h : Goes R cs x) (hf : ∀ a, Remains.rest (f a) = Remains.rest a) :
    Goes R cs (x.bind fun a => Option.some (f a)) := by
  intro b hb
  obtain ⟨a, ha, hb⟩ := Option.bind_eq_some_iff.1 hb
  obtain rfl := Option.some.inj hb
  exact hf a ▸ h a ha

theorem runs (h : Goes Passes cs x) : Goes Runs cs x :=
  fun a ha => (h a ha).runs

section Onward

variable [Onward R]

/-- **Steps that follow each other.** -/
theorem bind {f : γ → Option δ} (h : Goes R cs x) (hf : ∀ a, Goes R (Remains.rest a) (f a)) :
    Goes R cs (x.bind f) := by
  intro b hb
  obtain ⟨a, ha, hb⟩ := Option.bind_eq_some_iff.1 hb
  exact Onward.trans (h a ha) (hf a b hb)

theorem mapOn {f : γ → δ} (h : Goes R cs x)
    (hf : ∀ a, R (Remains.rest a) (Remains.rest (f a))) : Goes R cs (x.map f) := by
  intro b hb
  obtain ⟨a, ha, rfl⟩ := Option.map_eq_some_iff.1 hb
  exact Onward.trans (h a ha) (hf a)

theorem after (h : R cs rest) (hx : Goes R rest x) : Goes R cs x :=
  fun a ha => Onward.trans h (hx a ha)

end Onward

/-- Steps up to an opening bracket. -/
theorem approach {f : γ → Option δ} (h : Goes Passes cs x)
    (hf : ∀ a, Goes Enters (Remains.rest a) (f a)) : Goes Enters cs (x.bind f) := by
  intro b hb
  obtain ⟨a, ha, hb⟩ := Option.bind_eq_some_iff.1 hb
  exact (h a ha).enters (hf a b hb)

/-- **What stands in brackets.** -/
theorem group {f : γ → Option δ} (h : Goes Enters cs x)
    (hf : ∀ a, Goes Leaves (Remains.rest a) (f a)) : Goes Passes cs (x.bind f) := by
  intro b hb
  obtain ⟨a, ha, hb⟩ := Option.bind_eq_some_iff.1 hb
  exact (h a ha).leaves (hf a b hb)

/-- What stands in brackets, behind the opening one. -/
theorem enter (h : Enters cs rest) (hx : Goes Leaves rest x) : Goes Passes cs x :=
  fun a ha => h.leaves (hx a ha)

/-- The end of what stands in brackets, behind a part of it. -/
theorem leaveAfter (h : Runs cs rest) (hx : Goes Leaves rest x) : Goes Leaves cs x :=
  fun a ha => h.leaves (hx a ha)

/-- The end of what stands in brackets. -/
theorem leave {f : γ → Option δ} (h : Goes Runs cs x)
    (hf : ∀ a, Goes Leaves (Remains.rest a) (f a)) : Goes Leaves cs (x.bind f) := by
  intro b hb
  obtain ⟨a, ha, hb⟩ := Option.bind_eq_some_iff.1 hb
  exact (h a ha).leaves (hf a b hb)

end Goes

/-! ### Repetition -/

theorem Goes.getD {x : Option Chars} {R : Chars → Chars → Prop} (hx : Goes R cs x)
    (h : R cs rest) : R cs (x.getD rest) := by
  cases x with
  | none => exact h
  | some behind => exact hx behind rfl

section Repetition

variable {R : Chars → Chars → Prop} [Onward R] {step : Chars → Option Chars}

theorem onward_optional (h : ∀ rest, Goes R rest (step rest)) : R cs (optional step cs) :=
  (h cs).getD (Onward.refl cs)

/-- **Steps that are repeated.** -/
theorem onward_many (h : ∀ rest, Goes R rest (step rest)) : R cs (many step cs) := by
  have hfrom : ∀ fuel cs, R cs (manyFrom step fuel cs) := by
    intro fuel
    induction fuel with
    | zero => exact Onward.refl
    | succ fuel ih =>
      intro cs
      rw [manyFrom]
      split
      · next rest hstep => exact Onward.trans (h cs rest hstep) (ih rest)
      · exact Onward.refl cs
  exact hfrom _ cs

theorem onward_extend {α : Type} {step : α → Chars → Option (α × Chars)}
    (h : ∀ a rest, Goes R rest (step a rest)) (a : α) : R cs (extend step a cs).2 := by
  have hfrom : ∀ fuel a cs, R cs (extendFrom step fuel a cs).2 := by
    intro fuel
    induction fuel with
    | zero => exact fun _ => Onward.refl
    | succ fuel ih =>
      intro a cs
      rw [extendFrom]
      split
      · next b rest hstep => exact Onward.trans (h a cs _ hstep) (ih b rest)
      · exact Onward.refl cs
  exact hfrom _ a cs

end Repetition

/-! ### A test -/

/-- Whether the scan is in quotes at a place, or no template starts there and a comment or a regular
expression that stands there does not move it. -/
def quietAt (cs : Chars) (n : ℕ) : Bool :=
  let scan := DeclaratorScan.after {} (cs.take n)
  let rest := cs.drop n
  scan.quoteMark.isSome || rest.head? != some '\u0060' &&
    ((comment? rest).toList ++ ((regexHere rest).map (·.2)).toList).all fun behind =>
      decide (scan.Unmoved (DeclaratorScan.after {} (cs.take n ++ upTo rest behind)))

/-- Whether all places in front of the given one are quiet. -/
def isQuiet (cs place : Chars) : Bool :=
  (List.range (cs.length - place.length + 1)).all (quietAt cs)

theorem Walk.eq (h : Walk scan cs front rest) : cs = front ++ rest := by
  induction h with
  | start => rfl
  | char _ _ ih => rw [ih, List.append_assoc, List.singleton_append]
  | hidden _ _ _ ih => rw [ih, List.append_assoc]

/-- Without templates, what is hidden is a comment or a regular expression. -/
theorem Hides.cases (h : Hides cs rest) (hhead : cs.head? ≠ some '\u0060') :
    rest ∈ (comment? cs).toList ++ ((regexHere cs).map (·.2)).toList := by
  have htemplate : ∀ {hole : Chars → Option Chars} {filled : Bool},
      templateHere hole cs ≠ some (filled, rest) := by
    intro hole filled htemplate
    unfold templateHere at htemplate
    split at htemplate
    · exact hhead rfl
    · cases htemplate
  rw [List.mem_append, Option.mem_toList, Option.mem_toList]
  rcases h with hcomment | hregex | htyped | htyped
  · exact .inl hcomment
  · exact .inr (by rw [hregex]; rfl)
  · exact absurd htyped htemplate
  · exact absurd htyped htemplate

/-- **The test is right.** -/
theorem quiet_of_isQuiet (h : isQuiet cs rest = true) : Quiet {} cs rest := by
  intro front hidden back hwalk hquote hhides
  have hcs := hwalk.eq
  -- the length of what has been read says where the scan is
  have hplace : front.length ∈ List.range (cs.length - rest.length + 1) := by
    simp only [hcs, List.length_append, List.mem_range]
    omega
  have hquiet : quietAt cs front.length = true := List.all_eq_true.1 h _ hplace
  rw [quietAt, hcs, List.take_left, List.drop_left] at hquiet
  simp only [hquote, Option.isSome_none, Bool.false_or, Bool.and_eq_true, bne_iff_ne,
    List.all_eq_true, decide_eq_true_eq] at hquiet
  obtain ⟨hhead, hall⟩ := hquiet
  have hunmoved := hall _ (hhides.cases hhead)
  rwa [upTo_append] at hunmoved

end Source

end ModuleScaffold
