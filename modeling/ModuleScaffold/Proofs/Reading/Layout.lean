import ModuleScaffold.Proofs.Reading.Value

/-!
# Written values

A value is written on one line or on several, as its width asks for. Both ways are made of the
forms whose reading is known, so a value is read back from its text whenever its parts can be:
when nothing keeps it from being written, when the references in it can be read, and when its
numbers are given back by their texts (`ModuleScaffold.Value.IsRegular`).

Main statements:

* `ModuleScaffold.Value.render_readsAs` – a value on one line is read back;
* `ModuleScaffold.Value.layout_readsAs` – **a value is read back, however its lines are broken**.
-/

namespace ModuleScaffold

namespace Value

open Source

/-! ### What is asked of a value -/

mutual

/-- The paths in a value, those of its references and those of what it calls. -/
def paths : Value → List String
  | identifier path => [path]
  | array items => pathsAll items
  | object members => pathsMembers members
  | call callee args => callee :: pathsAll args
  | _ => []

/-- The paths in several values. -/
def pathsAll : List Value → List String
  | [] => []
  | v :: vs => paths v ++ pathsAll vs

/-- The paths in the members of an object. -/
def pathsMembers : List (String × Value) → List String
  | [] => []
  | (_, v) :: ms => paths v ++ pathsMembers ms

end

mutual

/-- The numbers in a value. -/
def numbers : Value → List Number.Double
  | number n => [n]
  | array items => numbersAll items
  | object members => numbersMembers members
  | call _ args => numbersAll args
  | _ => []

/-- The numbers in several values. -/
def numbersAll : List Value → List Number.Double
  | [] => []
  | v :: vs => numbers v ++ numbersAll vs

/-- The numbers in the members of an object. -/
def numbersMembers : List (String × Value) → List Number.Double
  | [] => []
  | (_, v) :: ms => numbers v ++ numbersMembers ms

end

mutual

/-- Whether the references in a value can be read, those that are called and those that are not. -/
def isReadable : Value → Bool
  | identifier path => Source.isReadable false path
  | array items => areReadable items
  | object members => areReadableMembers members
  | call callee args => Source.isReadable true callee && areReadable args
  | _ => true

/-- Whether the references in several values can be read. -/
def areReadable : List Value → Bool
  | [] => true
  | v :: vs => isReadable v && areReadable vs

/-- Whether the references in the members of an object can be read. A name that is key and value at
once may be any word. -/
def areReadableMembers : List (String × Value) → Bool
  | [] => true
  | (k, v) :: ms => (isShorthand k v || isReadable v) && areReadableMembers ms

end

theorem areReadable_iff {vs : List Value} :
    areReadable vs = true ↔ ∀ v ∈ vs, v.isReadable = true := by
  induction vs with
  | nil => simp [areReadable]
  | cons v vs ih => rw [areReadable, Bool.and_eq_true, ih, List.forall_mem_cons]

theorem areReadableMembers_iff {ms : List (String × Value)} : areReadableMembers ms = true ↔
    ∀ m ∈ ms, isShorthand m.1 m.2 = true ∨ m.2.isReadable = true := by
  induction ms with
  | nil => simp [areReadableMembers]
  | cons m ms ih =>
    rw [areReadableMembers, Bool.and_eq_true, Bool.or_eq_true, ih, List.forall_mem_cons]

/-- A value that can be written, whose references can be read and whose numbers are given back by
their texts. -/
structure IsRegular (v : Value) : Prop where
  /-- The value can be written. -/
  problem : v.problem? = none
  /-- The references can be read. -/
  readable : v.isReadable = true
  /-- The numbers are given back by their texts. -/
  numbers : ∀ n ∈ v.numbers, ReadsBack n

theorem problem?_of_problemAll? : ∀ {vs : List Value}, problemAll? vs = none →
    ∀ v ∈ vs, v.problem? = none
  | [], _, v, hv => by cases hv
  | w :: vs, h, v, hv => by
    rw [problemAll?] at h
    split at h
    · cases h
    · next hw =>
      rcases List.mem_cons.1 hv with rfl | hv
      · exact hw
      · exact problem?_of_problemAll? h v hv

theorem problem?_of_problemMembers? : ∀ {ms : List (String × Value)}, problemMembers? ms = none →
    ∀ m ∈ ms, m.2.problem? = none
  | [], _, m, hm => by cases hm
  | (k, w) :: ms, h, m, hm => by
    rw [problemMembers?] at h
    split at h
    · cases h
    · split at h
      · cases h
      · next hw =>
        rcases List.mem_cons.1 hm with rfl | hm
        · exact hw
        · exact problem?_of_problemMembers? h m hm

/-- What is gathered from a list holds what is gathered from each of its members. -/
theorem subset_gathered {α β : Type} {f : α → List β} {g : List α → List β}
    (hg : ∀ a as, g (a :: as) = f a ++ g as) {a : α} {as : List α} (ha : a ∈ as) :
    f a ⊆ g as := by
  induction as with
  | nil => cases ha
  | cons b as ih =>
    rw [hg]
    rcases List.mem_cons.1 ha with rfl | ha
    · exact List.subset_append_left _ _
    · exact List.Subset.trans (ih ha) (List.subset_append_right _ _)

theorem mem_pathsAll {vs : List Value} {v : Value} (hv : v ∈ vs) : v.paths ⊆ pathsAll vs :=
  subset_gathered (fun v vs => by rw [pathsAll]) hv

theorem mem_numbersAll {vs : List Value} {v : Value} (hv : v ∈ vs) : v.numbers ⊆ numbersAll vs :=
  subset_gathered (fun v vs => by rw [numbersAll]) hv

theorem mem_pathsMembers {ms : List (String × Value)} {m : String × Value} (hm : m ∈ ms) :
    m.2.paths ⊆ pathsMembers ms :=
  subset_gathered (f := fun m => m.2.paths) (fun m ms => by rw [pathsMembers]) hm

theorem mem_numbersMembers {ms : List (String × Value)} {m : String × Value} (hm : m ∈ ms) :
    m.2.numbers ⊆ numbersMembers ms :=
  subset_gathered (f := fun m => m.2.numbers) (fun m ms => by rw [numbersMembers]) hm

/-- The items of a regular array are regular. -/
theorem IsRegular.items {vs : List Value} (h : (array vs).IsRegular) : ∀ v ∈ vs, v.IsRegular :=
  fun v hv => ⟨problem?_of_problemAll? h.problem v hv, areReadable_iff.1 h.readable v hv,
    fun n hn => h.numbers n (mem_numbersAll hv hn)⟩

/-- The members of a regular object are regular, if they are not written by their names alone. -/
theorem IsRegular.members {ms : List (String × Value)} (h : (object ms).IsRegular) :
    ∀ m ∈ ms, isShorthand m.1 m.2 = true ∨ m.2.IsRegular :=
  fun m hm => (areReadableMembers_iff.1 h.readable m hm).imp_right fun hreadable =>
    ⟨problem?_of_problemMembers? h.problem m hm, hreadable,
      fun n hn => h.numbers n (mem_numbersMembers hm hn)⟩

theorem IsRegular.callee {callee : String} {vs : List Value} (h : (call callee vs).IsRegular) :
    Text.isIdentifierPath callee = true ∧ Source.isReadable true callee = true := by
  have hproblem := h.problem
  have hreadable := h.readable
  rw [isReadable, Bool.and_eq_true] at hreadable
  refine ⟨?_, hreadable.1⟩
  rw [problem?] at hproblem
  split at hproblem
  · assumption
  · cases hproblem

/-- The arguments of a regular call are regular. -/
theorem IsRegular.args {callee : String} {vs : List Value} (h : (call callee vs).IsRegular) :
    ∀ v ∈ vs, v.IsRegular := by
  have hproblem := h.problem
  have hreadable := h.readable
  rw [problem?, if_pos h.callee.1] at hproblem
  rw [isReadable, Bool.and_eq_true] at hreadable
  exact fun v hv => ⟨problem?_of_problemAll? hproblem v hv, areReadable_iff.1 hreadable.2 v hv,
    fun n hn => h.numbers n (mem_numbersAll hv hn)⟩

/-- What is gathered from a list is gathered from one of its members. -/
theorem exists_of_mem_gathered {α β : Type} {f : α → List β} {g : List α → List β}
    (hnil : g [] = []) (hg : ∀ a as, g (a :: as) = f a ++ g as) {b : β} {as : List α}
    (hb : b ∈ g as) : ∃ a ∈ as, b ∈ f a := by
  induction as with
  | nil =>
    rw [hnil] at hb
    cases hb
  | cons a as ih =>
    rw [hg, List.mem_append] at hb
    rcases hb with hb | hb
    · exact ⟨a, List.mem_cons_self, hb⟩
    · obtain ⟨a', ha', hb⟩ := ih hb
      exact ⟨a', List.mem_cons_of_mem _ ha', hb⟩

theorem exists_of_mem_numbersAll {vs : List Value} {n : Number.Double} (hn : n ∈ numbersAll vs) :
    ∃ v ∈ vs, n ∈ v.numbers :=
  exists_of_mem_gathered (by rw [numbersAll]) (fun v vs => by rw [numbersAll]) hn

theorem exists_of_mem_numbersMembers {ms : List (String × Value)} {n : Number.Double}
    (hn : n ∈ numbersMembers ms) : ∃ m ∈ ms, n ∈ m.2.numbers :=
  exists_of_mem_gathered (f := fun m => m.2.numbers) (by rw [numbersMembers])
    (fun m ms => by rw [numbersMembers]) hn

/-- The numbers in a value that can be written are finite. -/
theorem isFinite_of_problem? : ∀ (v : Value), v.problem? = none →
    ∀ n ∈ v.numbers, n.isFinite = true
  | number m, h, n, hn => by
    rw [numbers, List.mem_singleton] at hn
    rw [problem?] at h
    split at h
    · next hfinite => rwa [hn]
    · cases h
  | array items, h, n, hn => by
    rw [problem?] at h
    rw [numbers] at hn
    obtain ⟨v, hv, hn⟩ := exists_of_mem_numbersAll hn
    exact isFinite_of_problem? v (problem?_of_problemAll? h v hv) n hn
  | object members, h, n, hn => by
    rw [problem?] at h
    rw [numbers] at hn
    obtain ⟨m, hm, hn⟩ := exists_of_mem_numbersMembers hn
    exact isFinite_of_problem? m.2 (problem?_of_problemMembers? h m hm) n hn
  | call callee args, h, n, hn => by
    rw [problem?] at h
    rw [numbers] at hn
    split at h
    · obtain ⟨v, hv, hn⟩ := exists_of_mem_numbersAll hn
      exact isFinite_of_problem? v (problem?_of_problemAll? h v hv) n hn
    · cases h
  | identifier _, _, n, hn | string _, _, n, hn | boolean _, _, n, hn | null, _, n, hn
  | regex _ _, _, n, hn => by
    rw [numbers] at hn
    · cases hn
    all_goals simp
termination_by v => sizeOf v
decreasing_by
  all_goals simp_wf
  · have := List.sizeOf_lt_of_mem hv
    omega
  · have := List.sizeOf_lt_of_mem hm
    rcases m with ⟨k, w⟩
    simp only [Prod.mk.sizeOf_spec] at this ⊢
    omega
  · have := List.sizeOf_lt_of_mem hv
    omega

/-- A value that can be written is given back by its text if its references can be read. -/
theorem isRegular_of_isReadable {v : Value} (h : v.problem? = none)
    (hreadable : v.isReadable = true) : v.IsRegular :=
  ⟨h, hreadable, fun n hn => readsBack (isFinite_of_problem? v h n hn)⟩

/-- References can be read if their first names are not reserved. -/
theorem isReadable_of_paths : ∀ (v : Value), v.problem? = none →
    (∀ path ∈ v.paths, Text.pathRoot path ∉ reservedWords) → v.isReadable = true
  | identifier path, h, hpaths => by
    rw [problem?] at h
    split at h
    · next hpath =>
      rw [isReadable]
      exact isReadable_of_root hpath (hpaths path (by simp [paths])) false
    · cases h
  | array items, h, hpaths => by
    rw [problem?] at h
    rw [isReadable, areReadable_iff]
    exact fun v hv => isReadable_of_paths v (problem?_of_problemAll? h v hv)
      fun path hp => hpaths path (mem_pathsAll hv hp)
  | object members, h, hpaths => by
    rw [problem?] at h
    rw [isReadable, areReadableMembers_iff]
    exact fun m hm => .inr (isReadable_of_paths m.2 (problem?_of_problemMembers? h m hm)
      fun path hp => hpaths path (mem_pathsMembers hm hp))
  | call callee args, h, hpaths => by
    rw [problem?] at h
    rw [paths, List.forall_mem_cons] at hpaths
    split at h
    · next hpath =>
      rw [isReadable, isReadable_of_root hpath hpaths.1, Bool.true_and, areReadable_iff]
      exact fun v hv => isReadable_of_paths v (problem?_of_problemAll? h v hv)
        fun path hp => hpaths.2 path (mem_pathsAll hv hp)
    · cases h
  | string _, _, _ | number _, _, _ | boolean _, _, _ | null, _, _ | regex _ _, _, _ => by
    rw [isReadable]
    all_goals simp
termination_by v => sizeOf v
decreasing_by
  all_goals simp_wf
  · have := List.sizeOf_lt_of_mem hv
    omega
  · have := List.sizeOf_lt_of_mem hm
    rcases m with ⟨k, w⟩
    simp only [Prod.mk.sizeOf_spec] at this ⊢
    omega
  · have := List.sizeOf_lt_of_mem hv
    omega

theorem begins_of_readsAs {vs : List Value} {texts : List (List Char)}
    (h : List.Forall₂ ReadsAs vs texts) : ∀ text ∈ texts, Begins text :=
  ((List.forall₂_and_left _ _).1 (h.flip.imp fun _ _ hv => ⟨hv.begins, hv⟩)).1

theorem begins_of_memberReadsAs {ms : List (String × Value)} {texts : List (List Char)}
    (h : List.Forall₂ MemberReadsAs ms texts) : ∀ text ∈ texts, Begins text :=
  ((List.forall₂_and_left _ _).1 (h.flip.imp fun _ _ hm => ⟨hm.begins, hm⟩)).1

/-- Elements on one line. -/
theorem isBody_commaSeparated {closing : Char} (hclosing : closing ∈ enders)
    {texts : List (List Char)} (h : ∀ t ∈ texts, Begins t) :
    IsBody closing texts (commaSeparated texts ++ [closing]) := by
  intro rest
  have hlisted : Listed closing texts (commaSeparated texts ++ ([] ++ closing :: rest)) rest :=
    listed_commaSeparated hclosing (by simp) h
  simpa using hlisted

/-- Elements on one line, with a space on either side. -/
theorem isBody_spaced {closing : Char} (hclosing : closing ∈ enders)
    {texts : List (List Char)} (h : ∀ t ∈ texts, Begins t) :
    IsBody closing texts (' ' :: (commaSeparated texts ++ [' ', closing])) := by
  intro rest
  have hlisted : Listed closing texts (commaSeparated texts ++ ([' '] ++ closing :: rest)) rest :=
    listed_commaSeparated hclosing isSpace_of_mem_blank h
  have hspaced : Listed closing texts
      ([' '] ++ (commaSeparated texts ++ ([' '] ++ closing :: rest))) rest :=
    hlisted.blanks isSpace_of_mem_blank
  simpa using hspaced

/-- Elements each on a line of its own. -/
theorem isBody_lines {closing : Char} (hclosing : closing ∈ enders) (indent : ℕ)
    {texts : List (List Char)} (h : ∀ t ∈ texts, Begins t) :
    IsBody closing texts ('\n' :: (texts.flatMap fun line =>
      Text.spaces (indent + 2) ++ line ++ [',', '\n']) ++ Text.spaces indent ++ [closing]) := by
  intro rest
  have hlisted : Listed closing texts ('\n' :: ((texts.flatMap fun line =>
      Text.spaces (indent + 2) ++ line ++ [',', '\n']) ++ (Text.spaces indent ++ closing :: rest)))
      rest := listed_lines hclosing indent h
  simpa using hlisted

/-- Elements of which only the last one is broken. -/
theorem isBody_hugged {closing : Char} (hclosing : closing ∈ enders) {last : List Char}
    (hlast : Begins last) {texts : List (List Char)} (h : ∀ t ∈ texts, Begins t) :
    IsBody closing (texts ++ [last])
      ((texts.flatMap fun text => text ++ [',', ' ']) ++ last ++ [closing]) := by
  intro rest
  have hlisted : Listed closing (texts ++ [last])
      (texts.flatMap (· ++ [',', ' ']) ++ (last ++ closing :: rest)) rest :=
    listed_before_last hclosing hlast h
  simpa using hlisted

/-! ### On one line -/

mutual

/-- **A value on one line is read back.** -/
theorem render_readsAs : ∀ v : Value, v.IsRegular → ReadsAs v (render v)
  | identifier path, h => by
    have hproblem := h.problem
    rw [problem?] at hproblem
    split at hproblem
    · next hpath =>
      rw [render]
      exact .identifier hpath h.readable
    · cases hproblem
  | string text, _ => by
    rw [render]
    exact .string text
  | number n, h => by
    have hproblem := h.problem
    rw [problem?] at hproblem
    split at hproblem
    · next hfinite =>
      rw [render]
      exact .number hfinite (h.numbers n (by simp [numbers]))
    · cases hproblem
  | boolean value, _ => by
    rw [render]
    exact .boolean value
  | null, _ => by
    rw [render]
    exact .null
  | regex pattern flags, h => by
    have hproblem := h.problem
    rw [problem?, Option.map_eq_none_iff] at hproblem
    rw [render]
    exact .regex hproblem
  | array items, h => by
    have hitems := renderAll_readsAs items h.items
    rw [render]
    exact .array hitems (isBody_commaSeparated (by decide) (begins_of_readsAs hitems))
  | object [], _ => by
    rw [render]
    exact .object .nil fun rest => .done (skip_mark (by decide))
  | object (m :: ms), h => by
    have hmembers := renderMembers_readsAs (m :: ms) h.members
    rw [render]
    exact .object hmembers (isBody_spaced (by decide) (begins_of_memberReadsAs hmembers))
  | call callee args, h => by
    have hargs := renderAll_readsAs args h.args
    rw [render]
    exact .call h.callee.1 h.callee.2 hargs
      (isBody_commaSeparated (by decide) (begins_of_readsAs hargs))

theorem renderAll_readsAs : ∀ vs : List Value, (∀ v ∈ vs, v.IsRegular) →
    List.Forall₂ ReadsAs vs (renderAll vs)
  | [], _ => .nil
  | v :: vs, h => by
    rw [renderAll]
    exact .cons (render_readsAs v (h v (by simp)))
      (renderAll_readsAs vs fun w hw => h w (List.mem_cons_of_mem _ hw))

theorem renderMembers_readsAs : ∀ ms : List (String × Value),
    (∀ m ∈ ms, isShorthand m.1 m.2 = true ∨ m.2.IsRegular) →
      List.Forall₂ MemberReadsAs ms (renderMembers ms)
  | [], _ => .nil
  | (k, v) :: ms, h => by
    rw [renderMembers]
    refine .cons ?_ (renderMembers_readsAs ms fun w hw => h w (List.mem_cons_of_mem _ hw))
    split
    · next hk => exact .shorthand hk
    · next hk =>
      exact .pair (by simpa using hk) (render_readsAs v ((h (k, v) (by simp)).resolve_left hk))

end

/-! ### On several lines -/

/-- A bracket with lines between it and the closing bracket. -/
theorem bracketLines_eq (opening : List Char) (lines : List (List Char)) (indent : ℕ)
    (closing : Char) : bracketLines opening lines indent closing = opening ++
      ('\n' :: (lines.flatMap fun line => Text.spaces (indent + 2) ++ line ++ [',', '\n'])
        ++ Text.spaces indent ++ [closing]) := by
  simp [bracketLines]

mutual

/-- **A value is read back, however its lines are broken.** -/
theorem layout_readsAs : ∀ (v : Value) (indent used : ℕ), v.IsRegular →
    ReadsAs v (layout v indent used)
  | array (v :: vs), indent, used, h => by
    rw [layout]
    split
    · exact render_readsAs _ h
    · have hitems := layoutAll_readsAs (v :: vs) (indent + 2) h.items
      rw [bracketLines_eq]
      exact .array hitems (isBody_lines (by decide) indent (begins_of_readsAs hitems))
  | object (m :: ms), indent, used, h => by
    rw [layout]
    split
    · exact render_readsAs _ h
    · have hmembers := layoutMembers_readsAs (m :: ms) (indent + 2) h.members
      rw [bracketLines_eq]
      exact .object hmembers (isBody_lines (by decide) indent (begins_of_memberReadsAs hmembers))
  | call callee (v :: vs), indent, used, h => by
    rw [layout]
    split
    · exact render_readsAs _ h
    split
    · -- the last argument is broken in place of the call
      obtain ⟨front, last, hsplit, hfront, hlast⟩ :=
        breakLast_readsAs (v :: vs) indent (by simp) h.args
      have hargs := renderAll_readsAs front hfront
      have hbody :=
        isBody_hugged (show ')' ∈ enders by decide) hlast.begins (begins_of_readsAs hargs)
      have hall : List.Forall₂ ReadsAs (front ++ [last])
          (renderAll front ++ [breakLast (v :: vs) indent]) :=
        List.rel_append hargs (.cons hlast .nil)
      have hcall := ReadsAs.call h.callee.1 h.callee.2 hall hbody
      rw [← hsplit] at hcall
      have hhead : callHead callee (v :: vs) =
          callee.toList ++ '(' :: (renderAll front).flatMap (· ++ [',', ' ']) := by
        rw [callHead, hsplit, List.dropLast_concat]
      rw [hhead]
      simpa using hcall
    · have hargs := layoutAll_readsAs (v :: vs) (indent + 2) h.args
      rw [bracketLines_eq, List.append_assoc]
      exact .call h.callee.1 h.callee.2 hargs
        (isBody_lines (by decide) indent (begins_of_readsAs hargs))
  | array [], _, _, h | object [], _, _, h | call _ [], _, _, h | identifier _, _, _, h
  | string _, _, _, h | number _, _, _, h | boolean _, _, _, h | null, _, _, h
  | regex _ _, _, _, h => by
    rw [layout]
    · exact render_readsAs _ h
    all_goals simp

theorem layoutAll_readsAs : ∀ (vs : List Value) (indent : ℕ), (∀ v ∈ vs, v.IsRegular) →
    List.Forall₂ ReadsAs vs (layoutAll vs indent)
  | [], _, _ => .nil
  | v :: vs, indent, h => by
    rw [layoutAll]
    exact .cons (layout_readsAs v indent indent (h v (by simp)))
      (layoutAll_readsAs vs indent fun w hw => h w (List.mem_cons_of_mem _ hw))

theorem layoutMembers_readsAs : ∀ (ms : List (String × Value)) (indent : ℕ),
    (∀ m ∈ ms, isShorthand m.1 m.2 = true ∨ m.2.IsRegular) →
      List.Forall₂ MemberReadsAs ms (layoutMembers ms indent)
  | [], _, _ => .nil
  | (k, v) :: ms, indent, h => by
    rw [layoutMembers]
    refine .cons ?_ (layoutMembers_readsAs ms indent fun w hw => h w (List.mem_cons_of_mem _ hw))
    split
    · next hk => exact .shorthand hk
    · next hk =>
      exact .pair (by simpa using hk) (layout_readsAs v indent
        (indent + Text.width (renderKey k) + 2) ((h (k, v) (by simp)).resolve_left hk))

/-- The last of several values, whether it is broken or not. -/
theorem breakLast_readsAs : ∀ (vs : List Value) (indent : ℕ), vs ≠ [] → (∀ v ∈ vs, v.IsRegular) →
    ∃ front last, vs = front ++ [last] ∧ (∀ v ∈ front, v.IsRegular) ∧
      ReadsAs last (breakLast vs indent)
  | [], _, hne, _ => absurd rfl hne
  | [array items], indent, _, h => by
    have hitems := layoutAll_readsAs items (indent + 2) (h (array items) (by simp)).items
    refine ⟨[], array items, rfl, by simp, ?_⟩
    rw [breakLast, bracketLines_eq]
    exact .array hitems (isBody_lines (by decide) indent (begins_of_readsAs hitems))
  | [object members], indent, _, h => by
    have hmembers :=
      layoutMembers_readsAs members (indent + 2) (h (object members) (by simp)).members
    refine ⟨[], object members, rfl, by simp, ?_⟩
    rw [breakLast, bracketLines_eq]
    exact .object hmembers (isBody_lines (by decide) indent (begins_of_memberReadsAs hmembers))
  | [identifier _], _, _, h | [string _], _, _, h | [number _], _, _, h | [boolean _], _, _, h
  | [null], _, _, h | [regex _ _], _, _, h | [call _ _], _, _, h => by
    refine ⟨[], _, rfl, by simp, ?_⟩
    rw [breakLast]
    · exact render_readsAs _ (h _ (by simp))
    all_goals simp
  | v :: w :: vs, indent, _, h => by
    obtain ⟨front, last, hsplit, hfront, hlast⟩ :=
      breakLast_readsAs (w :: vs) indent (by simp) fun x hx => h x (List.mem_cons_of_mem _ hx)
    refine ⟨v :: front, last, by rw [hsplit]; rfl, ?_, ?_⟩
    · intro x hx
      rcases List.mem_cons.1 hx with rfl | hx
      · exact h x (by simp)
      · exact hfront x hx
    · rwa [breakLast]
      all_goals simp

end

end Value

end ModuleScaffold
