import ModuleScaffold.Proofs.Reading.Variables

/-!
# Rules that give the same

A rule is written for a `Reader`, which holds the rules for what is nested. To compare what a rule
gives for two readers, its result is followed from step to step: each step gives the same for both,
and what it gives is as the next step needs it, which is mostly that less of the text remains.

`ModuleScaffold.Source.Alike` says this of two results: they are the same, and what they give has a
property. There is one lemma for each way in which rules are put together, and one for each token.

Main statements:

* `ModuleScaffold.Source.Alike.bind` – **steps that follow each other**;
* `ModuleScaffold.Source.many_alike`, `ModuleScaffold.Source.extend_alike`,
  `ModuleScaffold.Source.list_alike` – **steps that are repeated**.
-/

namespace ModuleScaffold

namespace Source

variable {α β : Type} {P : α → Prop} {Q : β → Prop}

/-- Two results are the same, and what they give has a property. -/
structure Alike (P : α → Prop) (x y : Option α) : Prop where
  /-- They are the same. -/
  eq : x = y
  /-- What they give has the property. -/
  gives : ∀ a, x = some a → P a

/-- Less than the given number of characters remains. -/
abbrev Below (n : ℕ) (rest : Chars) : Prop :=
  rest.length < n

/-- Less than the given number of characters remains behind something that has a property. -/
abbrev Gives (P : α → Prop) (n : ℕ) (x : α × Chars) : Prop :=
  x.2.length < n ∧ P x.1

/-- The property that everything has. -/
abbrev Anything (_ : α) : Prop :=
  True

/-! ### Results of steps -/

namespace Alike

variable {x y : Option α}

theorem self (h : ∀ a, x = some a → P a) : Alike P x x :=
  ⟨rfl, h⟩

theorem none : Alike P none none :=
  self fun _ h => by cases h

theorem some {a : α} (h : P a) : Alike P (some a) (some a) :=
  self fun _ ha => Option.some.inj ha ▸ h

theorem mono {P' : α → Prop} (h : Alike P x y) (hP : ∀ a, P a → P' a) : Alike P' x y :=
  ⟨h.eq, fun a ha => hP a (h.gives a ha)⟩

/-- **Steps that follow each other.** -/
theorem bind {f g : α → Option β} (h : Alike P x y) (hfg : ∀ a, P a → Alike Q (f a) (g a)) :
    Alike Q (x.bind f) (y.bind g) := by
  rw [← h.eq]
  cases hx : x with
  | none => exact none
  | some a => exact hfg a (h.gives a hx)

theorem map {f g : α → β} (h : Alike P x y) (hfg : ∀ a, P a → f a = g a ∧ Q (f a)) :
    Alike Q (x.map f) (y.map g) := by
  rw [← h.eq]
  cases hx : x with
  | none => exact none
  | some a =>
    obtain ⟨heq, hQ⟩ := hfg a (h.gives a hx)
    rw [Option.map_some, Option.map_some, ← heq]
    exact some hQ

/-- Alternatives. -/
theorem or {x' y' : Option α} (h : Alike P x y) (h' : Alike P x' y') :
    Alike P (x.or x') (y.or y') := by
  rw [← h.eq]
  cases hx : x with
  | none => exact h'
  | some a => exact some (h.gives a hx)

theorem filter {p : α → Bool} (h : Alike P x y) : Alike P (x.filter p) (y.filter p) := by
  rw [← h.eq]
  refine self fun a ha => ?_
  exact h.gives a (Option.mem_filter_iff.1 ha).1

/-- What is done where a step gives nothing. -/
theorem getD {a : α} (h : Alike P x y) (ha : P a) : x.getD a = y.getD a ∧ P (x.getD a) := by
  rw [← h.eq]
  refine ⟨rfl, ?_⟩
  cases hx : x with
  | none => exact ha
  | some b => exact h.gives b hx

theorem below {m n : ℕ} {x y : Option Chars} (h : Alike (Below m) x y) (hle : m ≤ n) :
    Alike (Below n) x y :=
  h.mono fun _ hlt => hlt.trans_le hle

theorem within {m n : ℕ} {x y : Option (α × Chars)} (h : Alike (Gives P m) x y) (hle : m ≤ n) :
    Alike (Gives P n) x y :=
  h.mono fun _ hx => ⟨hx.1.trans_le hle, hx.2⟩

/-- The same choice on both sides. -/
theorem ite {c : Prop} [Decidable c] {x' y' : Option α} (h : Alike P x y) (h' : Alike P x' y') :
    Alike P (if c then x else x') (if c then y else y') := by
  split
  · exact h
  · exact h'

/-- The same test of what has been read. -/
theorem someIf {b b' : Bool} {a : α} (hb : b = b') (h : P a) :
    Alike P (if b then Option.some a else Option.none)
      (if b' then Option.some a else Option.none) :=
  hb ▸ .ite (some h) none

theorem isSome_eq (h : Alike P x y) : x.isSome = y.isSome := by
  rw [h.eq]

end Alike

/-! ### Repetition -/

section Repetition

variable {step step' : Chars → Option Chars} {cs : Chars}

theorem optional_alike (cs : Chars) (h : Alike (·.length ≤ cs.length) (step cs) (step' cs)) :
    optional step cs = optional step' cs ∧ (optional step cs).length ≤ cs.length :=
  h.getD (Nat.le_refl _)

/-- A step that may be missing. -/
theorem optional_below (cs : Chars) (h : ∀ rest : Chars, rest.length ≤ cs.length →
      Alike (Below rest.length) (step rest) (step' rest)) :
    optional step cs = optional step' cs ∧ (optional step cs).length ≤ cs.length :=
  optional_alike cs ((h cs (Nat.le_refl _)).mono fun _ hlt => Nat.le_of_lt hlt)

/-- A last step that may be missing. -/
theorem Alike.lastOptional {n : ℕ} (h : Alike (Below cs.length) (step cs) (step' cs))
    (hcs : cs.length < n) :
    Alike (Below n) (Option.some (optional step cs)) (Option.some (optional step' cs)) := by
  obtain ⟨heq, hle⟩ := optional_alike cs (h.mono fun _ hlt => Nat.le_of_lt hlt)
  rw [← heq]
  exact .some (Nat.lt_of_le_of_lt hle hcs)

theorem Alike.mapOptional {n : ℕ} {x y : Option Chars} (h : Alike (Below n) x y)
    (hstep : ∀ rest : Chars, rest.length < n → Alike (Below rest.length) (step rest) (step' rest)) :
    Alike (Below n) (x.map (optional step)) (y.map (optional step')) := by
  refine h.map fun rest hrest => ?_
  obtain ⟨heq, hle⟩ := optional_below rest fun _ hle => hstep _ (Nat.lt_of_le_of_lt hle hrest)
  exact ⟨heq, Nat.lt_of_le_of_lt hle hrest⟩

theorem manyFrom_alike {n : ℕ} (h : ∀ rest : Chars, rest.length ≤ n →
      Alike (Below rest.length) (step rest) (step' rest)) (fuel : ℕ) (hcs : cs.length ≤ n) :
    manyFrom step fuel cs = manyFrom step' fuel cs ∧
      (manyFrom step fuel cs).length ≤ cs.length := by
  induction fuel generalizing cs with
  | zero => exact ⟨rfl, Nat.le_refl _⟩
  | succ fuel ih =>
    obtain ⟨heq, hshort⟩ := h cs hcs
    rw [manyFrom, manyFrom, ← heq]
    cases hstep : step cs with
    | none => exact ⟨rfl, Nat.le_refl _⟩
    | some rest =>
      have := hshort rest hstep
      obtain ⟨hrest, hle⟩ := @ih rest (by omega)
      exact ⟨hrest, by dsimp only; omega⟩

/-- **Steps that are repeated.** -/
theorem many_alike (h : ∀ rest : Chars, rest.length ≤ cs.length →
      Alike (Below rest.length) (step rest) (step' rest)) :
    many step cs = many step' cs ∧ (many step cs).length ≤ cs.length :=
  manyFrom_alike h _ (Nat.le_refl _)

theorem Alike.mapMany {n : ℕ} {x y : Option Chars} (h : Alike (Below n) x y)
    (hstep : ∀ rest : Chars, rest.length < n → Alike (Below rest.length) (step rest) (step' rest)) :
    Alike (Below n) (x.map (many step)) (y.map (many step')) := by
  refine h.map fun rest hrest => ?_
  obtain ⟨heq, hle⟩ := many_alike fun rest' hle => hstep rest' (Nat.lt_of_le_of_lt hle hrest)
  exact ⟨heq, Nat.lt_of_le_of_lt hle hrest⟩

theorem length_many_le (h : ∀ rest : Chars, Alike (Below rest.length) (step rest) (step rest)) :
    (many step cs).length ≤ cs.length :=
  (many_alike fun rest _ => h rest).2

theorem length_optional_le (h : Alike (·.length ≤ cs.length) (step cs) (step cs)) :
    (optional step cs).length ≤ cs.length :=
  (optional_alike cs h).2

theorem extendFrom_alike {step step' : α → Chars → Option (α × Chars)} {n : ℕ}
    (h : ∀ (a : α) (rest : Chars), rest.length ≤ n → P a →
      Alike (Gives P rest.length) (step a rest) (step' a rest)) (fuel : ℕ) {a : α} (ha : P a)
    (hcs : cs.length ≤ n) : extendFrom step fuel a cs = extendFrom step' fuel a cs ∧
      (extendFrom step fuel a cs).2.length ≤ cs.length ∧ P (extendFrom step fuel a cs).1 := by
  induction fuel generalizing a cs with
  | zero => exact ⟨rfl, Nat.le_refl _, ha⟩
  | succ fuel ih =>
    obtain ⟨heq, hshort⟩ := h a cs hcs ha
    rw [extendFrom, extendFrom, ← heq]
    cases hstep : step a cs with
    | none => exact ⟨rfl, Nat.le_refl _, ha⟩
    | some x =>
      obtain ⟨b, rest⟩ := x
      obtain ⟨hlt, hb⟩ := hshort _ hstep
      obtain ⟨hrest, hle, hP⟩ := @ih rest b hb (by dsimp only at hlt; omega)
      exact ⟨hrest, hle.trans (Nat.le_of_lt hlt), hP⟩

/-- **A value that is extended step by step.** -/
theorem extend_alike {step step' : α → Chars → Option (α × Chars)} {a : α}
    (h : ∀ (a : α) (rest : Chars), rest.length ≤ cs.length → P a →
      Alike (Gives P rest.length) (step a rest) (step' a rest)) (ha : P a) :
    extend step a cs = extend step' a cs ∧ (extend step a cs).2.length ≤ cs.length ∧
      P (extend step a cs).1 :=
  extendFrom_alike h _ ha (Nat.le_refl _)

end Repetition

/-! ### Blanks, comments and marks -/

section Marks

variable {cs rest : Chars} {c : Char}

theorem length_lt_of_skip (h : skip cs = c :: rest) : rest.length < cs.length := by
  have := length_skip_le cs
  rw [h, List.length_cons] at this
  exact this

theorem length_exactly {w : Chars} (h : exactly w cs = some rest) :
    rest.length + w.length = cs.length := by
  induction w generalizing cs with
  | nil =>
    obtain rfl := Option.some.inj h
    rfl
  | cons p w ih =>
    cases cs with
    | nil => cases h
    | cons c cs =>
      rw [exactly] at h
      split at h
      · have := ih h
        simp only [List.length_cons]
        omega
      · cases h

theorem alike_mark (text : String) (htext : text.toList ≠ []) (cs : Chars) :
    Alike (Below cs.length) (mark text cs) (mark text cs) := by
  refine .self fun rest h => ?_
  have hlength := length_exactly h
  have hpos := List.length_pos_iff.2 htext
  have hle := length_skip_le cs
  omega

/-! ### Words -/

theorem alike_wordHere (cs : Chars) :
    Alike (fun x => x.2.length < cs.length) (wordHere cs) (wordHere cs) := by
  refine .self fun ⟨w, rest⟩ h => ?_
  obtain ⟨c, w', rfl, -⟩ := exists_cons_of_wordHere h
  obtain ⟨rfl, -⟩ := wordHere_eq h
  rw [List.length_append, List.length_cons]
  exact Nat.lt_add_of_pos_left (Nat.succ_pos _)

theorem alike_word (cs : Chars) :
    Alike (fun x => x.2.length < cs.length) (word cs) (word cs) :=
  (alike_wordHere (skip cs)).mono fun _ h => h.trans_le (length_skip_le cs)

theorem alike_anyWord (cs : Chars) : Alike (Below cs.length) (anyWord cs) (anyWord cs) :=
  (alike_word cs).map fun _ h => ⟨rfl, h⟩

theorem alike_keyword (text : String) (cs : Chars) :
    Alike (Below cs.length) (keyword text cs) (keyword text cs) := by
  refine .self fun rest h => ?_
  unfold keyword at h
  split at h
  · next w rest' hword =>
    split at h
    · obtain rfl := Option.some.inj h
      exact (alike_word cs).gives _ hword
    · cases h
  · cases h

theorem alike_keywordAmong (texts : List String) (cs : Chars) :
    Alike (Below cs.length) (keywordAmong texts cs) (keywordAmong texts cs) := by
  refine .self fun rest h => ?_
  unfold keywordAmong at h
  split at h
  · next w rest' hword =>
    split at h
    · obtain rfl := Option.some.inj h
      exact (alike_word cs).gives _ hword
    · cases h
  · cases h

theorem alike_privateName (cs : Chars) :
    Alike (Below cs.length) (privateName cs) (privateName cs) := by
  unfold privateName
  split
  · next rest hskip =>
    have := length_lt_of_skip hskip
    exact (alike_wordHere rest).map fun x hx => ⟨rfl, hx.trans this⟩
  · exact .none

theorem alike_pathEnd (cs : Chars) : Alike (Below cs.length) (pathEnd cs) (pathEnd cs) := by
  refine (alike_anyWord cs).mapMany fun rest _ => ?_
  exact (alike_mark _ (by decide) rest).bind fun _ h => (alike_anyWord _).below (Nat.le_of_lt h)

/-! ### Quoted texts, numbers and patterns -/

theorem length_stringEnd {q : Char} {pending : ℕ} (h : stringEnd q pending cs = some rest) :
    rest.length < cs.length := by
  induction cs generalizing pending with
  | nil => cases h
  | cons c cs ih =>
    rw [List.length_cons]
    rw [stringEnd.eq_def] at h
    dsimp only at h
    split at h
    · exact (ih h).trans (Nat.lt_succ_self _)
    · split at h
      · obtain rfl := Option.some.inj h
        exact Nat.lt_succ_self _
      · split at h
        · split at h
          · exact (ih h).trans (Nat.lt_succ_self _)
          · cases h
        · split at h
          · cases h
          · exact (ih h).trans (Nat.lt_succ_self _)

theorem alike_stringHere (cs : Chars) :
    Alike (Below cs.length) (stringHere cs) (stringHere cs) := by
  unfold stringHere
  split
  · next c rest =>
    split
    · exact .self fun _ h => (length_stringEnd h).trans (Nat.lt_succ_self _)
    · exact .none
  · exact .none

theorem alike_string (cs : Chars) : Alike (Below cs.length) (string cs) (string cs) :=
  (alike_stringHere (skip cs)).mono fun _ h => h.trans_le (length_skip_le cs)

theorem length_digitsEnd_le (radix : ℕ) (cs : Chars) :
    (digitsEnd radix cs).length ≤ cs.length := by
  fun_induction digitsEnd radix cs with
  | case1 c cs h ih => exact ih.trans (by simp only [List.length_cons]; omega)
  | case2 => exact Nat.le_refl _
  | case3 c cs _ h ih => exact ih.trans (Nat.le_succ _)
  | case4 => exact Nat.le_refl _
  | case5 => exact Nat.le_refl _

theorem alike_digits (radix : ℕ) (cs : Chars) :
    Alike (Below cs.length) (digits radix cs) (digits radix cs) := by
  unfold digits
  split
  · split
    · exact .some (Nat.lt_succ_of_le (length_digitsEnd_le _ _))
    · exact .none
  · exact .none

theorem length_exponentEnd_le (cs : Chars) : (exponentEnd cs).length ≤ cs.length := by
  unfold exponentEnd
  split
  · next e rest =>
    split
    · dsimp only
      have hdigits : ∀ ds : Chars, ds.length ≤ rest.length →
          ((digits 10 ds).getD (e :: rest)).length ≤ (e :: rest).length := by
        intro ds hds
        cases h : digits 10 ds with
        | none => exact Nat.le_refl _
        | some behind =>
          have := (alike_digits 10 ds).gives _ h
          rw [Option.getD_some, List.length_cons]
          omega
      split
      · exact hdigits _ (Nat.le_succ _)
      · exact hdigits _ (Nat.le_succ _)
      · exact hdigits _ (Nat.le_refl _)
    · exact Nat.le_refl _
  · exact Nat.le_refl _

theorem length_bigEnd_le (cs : Chars) : (bigEnd cs).length ≤ cs.length := by
  unfold bigEnd
  split
  · exact Nat.le_succ _
  · exact Nat.le_refl _

theorem length_decimalEnd_le (start cs : Chars) : (decimalEnd start cs).length ≤ cs.length := by
  unfold decimalEnd
  split
  · split
    · next rest _ =>
      refine (length_exponentEnd_le _).trans ?_
      cases h : digits 10 rest with
      | none => exact Nat.le_succ _
      | some behind =>
        have := (alike_digits 10 rest).gives _ h
        rw [Option.getD_some, List.length_cons]
        omega
    · dsimp only
      split
      · exact length_bigEnd_le _
      · exact length_exponentEnd_le _
  · exact length_bigEnd_le _

theorem alike_numberHere (cs : Chars) :
    Alike (Below cs.length) (numberHere cs) (numberHere cs) := by
  refine .self fun rest h => ?_
  unfold numberHere at h
  extract_lets plain marked at h
  have hplain : ∀ rest, plain = some rest → rest.length < cs.length := by
    intro rest h
    dsimp only [plain] at h
    split at h
    · next tail _ =>
      obtain ⟨behind, hbehind, rfl⟩ := Option.map_eq_some_iff.1 h
      have hlt := (alike_digits 10 tail).gives _ hbehind
      have hle := length_exponentEnd_le behind
      rw [List.length_cons]
      omega
    · obtain ⟨behind, hbehind, rfl⟩ := Option.map_eq_some_iff.1 h
      exact Nat.lt_of_le_of_lt (length_decimalEnd_le _ _) ((alike_digits 10 cs).gives _ hbehind)
  have hmarked : ∀ (radix : ℕ) (tail rest : Chars), tail.length < cs.length →
      marked radix tail = some rest → rest.length < cs.length := by
    intro radix tail rest htail h
    dsimp only [marked] at h
    split at h
    · next behind hdigits =>
      obtain rfl := Option.some.inj h
      have hlt := (alike_digits radix tail).gives _ hdigits
      have hle := length_bigEnd_le behind
      omega
    · exact hplain rest h
  split at h
  case h_7 => exact hplain rest h
  all_goals exact hmarked _ _ rest (by simp only [List.length_cons]; omega) h

theorem length_bodyFrom {place : Regex.Place} {body : Chars}
    (h : bodyFrom place cs = some (body, rest)) : rest.length < cs.length := by
  induction cs generalizing place body with
  | nil => cases h
  | cons c cs ih =>
    rw [List.length_cons]
    rw [bodyFrom] at h
    split at h
    · cases h
    · split at h
      · cases h
        exact Nat.lt_succ_self _
      · split at h
        · next hbody =>
          cases h
          exact (ih hbody).trans (Nat.lt_succ_self _)
        · cases h

theorem alike_regexHere (cs : Chars) :
    Alike (fun x => x.2.length < cs.length) (regexHere cs) (regexHere cs) := by
  refine .self fun x h => ?_
  unfold regexHere at h
  split at h
  · split at h
    · cases h
    · cases h
    · next body rest hne hbody =>
      rw [List.span_eq_takeWhile_dropWhile] at h
      obtain rfl := Option.some.inj h
      have hle : (rest.dropWhile isFlag).length ≤ rest.length :=
        (List.dropWhile_sublist _).length_le
      rw [List.length_cons]
      exact Nat.lt_succ_of_le (hle.trans (length_bodyFrom hbody).le)
  · cases h

/-! ### Operators -/

theorem alike_operator (cs : Chars) :
    Alike (fun x => x.2.length < cs.length) (operator cs) (operator cs) := by
  refine .self fun x h => ?_
  obtain ⟨text, htext, h⟩ := List.exists_of_findSome?_eq_some h
  obtain ⟨rest, hrest, rfl⟩ := Option.map_eq_some_iff.1 h
  have hlength := length_exactly hrest
  have hpos : text.toList.length ≠ 0 := by
    have hmarks : ∀ m ∈ operatorMarks, m.toList.length ≠ 0 := by decide
    exact hmarks text htext
  have hle := length_skip_le cs
  dsimp only
  omega

theorem alike_operatorMark (text : String) (cs : Chars) :
    Alike (Below cs.length) (operatorMark text cs) (operatorMark text cs) := by
  refine .self fun rest h => ?_
  unfold operatorMark at h
  split at h
  · next m rest' hoperator =>
    split at h
    · obtain rfl := Option.some.inj h
      exact (alike_operator cs).gives _ hoperator
    · cases h
  · cases h

/-! ### The ends of statements -/

theorem length_closing (h : comment?.closing cs = some rest) : rest.length < cs.length := by
  fun_induction comment?.closing cs with
  | case1 cs =>
    obtain rfl := Option.some.inj h
    simp only [List.length_cons]
    omega
  | case2 c cs _ ih => exact (ih h).trans (Nat.lt_succ_self _)
  | case3 => cases h

theorem length_comment? (h : comment? cs = some rest) : rest.length < cs.length := by
  unfold comment? at h
  split at h
  · next cs =>
    obtain rfl := Option.some.inj h
    have hle : (cs.dropWhile (! endsLine ·)).length ≤ cs.length :=
      (List.dropWhile_sublist _).length_le
    simp only [List.length_cons]
    omega
  · have := length_closing h
    simp only [List.length_cons]
    omega
  · cases h

theorem length_insertedFrom_le {afterExpression : Bool} {fuel : ℕ}
    (h : insertedFrom afterExpression fuel cs = some rest) : rest.length ≤ cs.length := by
  induction fuel generalizing cs with
  | zero => cases h
  | succ fuel ih =>
    have hle : (cs.dropWhile isInlineSpace).length ≤ cs.length :=
      (List.dropWhile_sublist _).length_le
    rw [insertedFrom] at h
    split at h
    · obtain rfl := Option.some.inj h
      exact Nat.le_refl _
    · next c tail htail =>
      split at h
      · obtain rfl := Option.some.inj h
        exact Nat.le_refl _
      · split at h
        · split at h
          · obtain rfl := Option.some.inj h
            exact Nat.le_refl _
          · cases h
        · split at h
          · next behind hcomment =>
            have hlt := length_comment? hcomment
            rw [htail] at hle
            exact (ih h).trans (hlt.le.trans hle)
          · cases h

theorem alike_insertedEnd (afterExpression : Bool) (cs : Chars) :
    Alike (·.length ≤ cs.length) (insertedEnd afterExpression cs)
      (insertedEnd afterExpression cs) :=
  .self fun _ h => length_insertedFrom_le h

theorem alike_endStatement (afterExpression : Bool) (cs : Chars) :
    Alike (·.length ≤ cs.length) (endStatement afterExpression cs)
      (endStatement afterExpression cs) := by
  unfold endStatement
  split
  · next rest hmark =>
    exact .some ((alike_mark _ (by decide) cs).gives _ hmark).le
  · exact alike_insertedEnd afterExpression cs

theorem length_endBlock_le (cs : Chars) : (endBlock cs).length ≤ cs.length :=
  length_optional_le (alike_insertedEnd false cs)

/-! ### Tokens that may be missing -/

theorem length_optional_mark_le (text : String) (cs : Chars) :
    (optional (mark text) cs).length ≤ cs.length := by
  refine length_optional_le (.self fun rest h => ?_)
  have hlength := length_exactly h
  have hle := length_skip_le cs
  omega

theorem length_optional_anyWord_le (cs : Chars) : (optional anyWord cs).length ≤ cs.length :=
  length_optional_le ((alike_anyWord cs).mono fun _ h => Nat.le_of_lt h)

theorem length_optional_keyword_le (text : String) (cs : Chars) :
    (optional (keyword text) cs).length ≤ cs.length :=
  length_optional_le ((alike_keyword text cs).mono fun _ h => Nat.le_of_lt h)

end Marks

/-! ### Lists -/

section Lists

variable {cs : Chars} {item item' : Chars → Option (α × Chars)} {closing : String}

theorem listFrom_alike {n : ℕ} (holes : Bool) (h : ∀ rest : Chars, rest.length ≤ n →
      Alike (Gives P rest.length) (item rest) (item' rest)) (fuel : ℕ) (hcs : cs.length ≤ n)
    (hclosing : closing.toList ≠ []) :
    Alike (Gives (fun as => ∀ a ∈ as, P a) cs.length) (listFrom holes item closing fuel cs)
      (listFrom holes item' closing fuel cs) := by
  induction fuel generalizing cs with
  | zero => exact .none
  | succ fuel ih =>
    have hmark := alike_mark closing hclosing cs
    rw [listFrom, listFrom]
    cases hclosed : mark closing cs with
    | some rest => exact .some ⟨hmark.gives rest hclosed, fun a ha => by cases ha⟩
    | none =>
      dsimp only
      split
      · next rest hhole =>
        have hlt : rest.length < cs.length := by
          split at hhole
          · exact (alike_mark _ (by decide) cs).gives _ hhole
          · cases hhole
        exact (ih (by omega)).mono fun x hx => ⟨hx.1.trans hlt, hx.2⟩
      · obtain ⟨heq, hgives⟩ := h cs hcs
        rw [← heq]
        cases hitem : item cs with
        | none => exact .none
        | some x =>
          obtain ⟨a, rest⟩ := x
          obtain ⟨hlt, ha⟩ := hgives _ hitem
          dsimp only at hlt ⊢
          split
          · next behind hcomma =>
            have := (alike_mark _ (by decide) rest).gives _ hcomma
            obtain ⟨heq, hgives⟩ := @ih behind (by omega)
            rw [← heq]
            cases hbehind : listFrom holes item closing fuel behind with
            | none => exact .none
            | some x =>
              obtain ⟨as, last⟩ := x
              obtain ⟨hlast, has⟩ := hgives _ hbehind
              dsimp only at hlast
              exact .some ⟨by dsimp only; omega, List.forall_mem_cons.2 ⟨ha, has⟩⟩
          · split
            · next behind hend =>
              have := (alike_mark closing hclosing rest).gives _ hend
              exact .some ⟨by dsimp only; omega, List.forall_mem_singleton.2 ha⟩
            · exact .none

/-- **Items of a list.** -/
theorem list_alike (holes : Bool) (hclosing : closing.toList ≠ [])
    (h : ∀ rest : Chars, rest.length ≤ cs.length →
      Alike (Gives P rest.length) (item rest) (item' rest)) :
    Alike (Gives (fun as => ∀ a ∈ as, P a) cs.length) (list holes item closing cs)
      (list holes item' closing cs) :=
  listFrom_alike holes h _ (Nat.le_refl _) hclosing

variable {step step' : Chars → Option Chars}

theorem listEnd_alike (holes : Bool) (hclosing : closing.toList ≠ [])
    (h : ∀ rest : Chars, rest.length ≤ cs.length →
      Alike (Below rest.length) (step rest) (step' rest)) :
    Alike (Below cs.length) (listEnd holes step closing cs) (listEnd holes step' closing cs) := by
  have hitems : Alike (Gives (fun as : List Unit => ∀ a ∈ as, Anything a) cs.length)
      (list holes (fun cs => (step cs).map ((), ·)) closing cs)
      (list holes (fun cs => (step' cs).map ((), ·)) closing cs) :=
    list_alike holes hclosing fun rest hrest =>
      (h rest hrest).map fun _ hlt => ⟨rfl, hlt, trivial⟩
  exact hitems.map fun _ hx => ⟨rfl, hx.1⟩

theorem separatedEnd_alike (h : ∀ rest : Chars, rest.length ≤ cs.length →
      Alike (Below rest.length) (step rest) (step' rest)) :
    Alike (Below cs.length) (separatedEnd step cs) (separatedEnd step' cs) := by
  refine (h cs (Nat.le_refl _)).mapMany fun rest hrest => ?_
  exact (alike_mark _ (by decide) rest).bind fun behind hlt =>
    (h behind (by omega)).below (Nat.le_of_lt hlt)

end Lists

end Source

end ModuleScaffold
