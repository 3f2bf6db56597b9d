import ModuleScaffold.Proofs.Text.Spacing
import ModuleScaffold.Store.Import

/-!
# What a specifier binds

A specifier is held as the text of an import statement, its blanks made single spaces, and the name
it binds is read off that text: a `type ` in front is dropped, and the name is what follows the last
` as `. The name is found if the specifier is spelt in one of three ways
(`ModuleScaffold.Import.Spells`), and in no other case: a specifier that renames what is called
`type`, or that has no blank before or behind the word `as`, binds a name that is not found.

Main statement: `ModuleScaffold.Import.binding_eq_iff` – **a name is found in the specifiers that
spell it**.
-/

namespace ModuleScaffold

namespace Import

variable {mark cs rest n : List Char} {name specifier : String}

/-- The ways to spell a specifier that binds the name. -/
inductive Spells (name : String) : String → Prop
  /-- The name alone. -/
  | alone : Spells name name
  /-- The name of a type. -/
  | ofType : Spells name ("type " ++ name)
  /-- The name that something is given. What is called `type` looks like the mark of a type. -/
  | renamed {before : String} : before ≠ "type" → Spells name (before ++ " as " ++ name)

/-! ### The last mark -/

theorem exists_of_behindLast (h : behindLast mark cs = some rest) :
    ∃ pre, cs = pre ++ (mark ++ rest) := by
  induction cs with
  | nil => cases h
  | cons c cs ih =>
    rw [behindLast] at h
    split at h
    · next hlater =>
      obtain ⟨pre, rfl⟩ := ih (hlater.trans h)
      exact ⟨c :: pre, rfl⟩
    · split at h
      · next hhere =>
        obtain ⟨behind, hbehind⟩ := List.isPrefixOf_iff_prefix.1 hhere
        rw [← hbehind, List.drop_left, Option.some.injEq] at h
        exact ⟨[], by rw [← h, List.nil_append, hbehind]⟩
      · cases h

/-- A mark is not found where one of its characters is missing. -/
theorem behindLast_eq_none {c : Char} (hmark : c ∈ mark) (h : c ∉ cs) :
    behindLast mark cs = none := by
  cases hfound : behindLast mark cs with
  | none => rfl
  | some rest =>
    obtain ⟨pre, rfl⟩ := exists_of_behindLast hfound
    exact absurd (List.mem_append_right pre (List.mem_append_left rest hmark)) h

theorem behindLast_append (pre : List Char) (h : behindLast mark cs = some rest) :
    behindLast mark (pre ++ cs) = some rest := by
  induction pre with
  | nil => exact h
  | cons c pre ih => rw [List.cons_append, behindLast, ih]

theorem asMark_eq : asMark = [' ', 'a', 's', ' '] := by
  decide

/-- Behind the mark there is no other one if no space follows. -/
theorem behindLast_asMark (h : ' ' ∉ n) : behindLast asMark (asMark ++ n) = some n := by
  have hnone : behindLast asMark n = none := behindLast_eq_none (by decide) h
  rw [asMark_eq] at hnone ⊢
  -- a mark that starts at the last space of this one would need a space in the name
  have hlast : [' ', 'a', 's', ' '].isPrefixOf (' ' :: n) = false := by
    rw [Bool.eq_false_iff, ne_eq, List.isPrefixOf_iff_prefix, List.cons_prefix_cons]
    rintro ⟨-, behind, rfl⟩
    exact h (by simp)
  simp [behindLast, hnone, hlast]

/-! ### The mark of a type -/

/-- A specifier without the mark of a type. -/
def unmarked (cs : List Char) : List Char :=
  if typeMark.isPrefixOf cs then cs.drop typeMark.length else cs

theorem binding_eq (specifier : String) : binding specifier =
    Text.trim (String.ofList ((behindLast asMark (unmarked specifier.toList)).getD
      (unmarked specifier.toList))) :=
  rfl

theorem unmarked_typeMark (cs : List Char) : unmarked (typeMark ++ cs) = cs := by
  rw [unmarked, if_pos (List.isPrefixOf_iff_prefix.2 (List.prefix_append typeMark cs)),
    List.drop_left]

theorem unmarked_eq_self (h : ¬typeMark <+: cs) : unmarked cs = cs :=
  if_neg fun hfront => h (List.isPrefixOf_iff_prefix.1 hfront)

theorem typeMark_eq : typeMark = ['t', 'y', 'p', 'e', ' '] := by
  decide

/-- Whatever is given a name, other than what is called `type`, its new name is still marked. -/
theorem exists_unmarked_asMark {before : List Char} (h : before ≠ ['t', 'y', 'p', 'e']) :
    ∃ pre, unmarked (before ++ (asMark ++ n)) = pre ++ (asMark ++ n) := by
  by_cases hfront : typeMark <+: before ++ (asMark ++ n)
  · -- the space of the mark of a type cannot stand where the other mark begins
    obtain ⟨pre, rfl⟩ : ∃ pre, before = typeMark ++ pre := by
      rw [typeMark_eq, asMark_eq] at hfront
      match before with
      | [] | [_] | [_, _] | [_, _, _] => simp at hfront
      | [_, _, _, _] =>
        simp only [List.cons_append, List.cons_prefix_cons] at hfront
        obtain ⟨rfl, rfl, rfl, rfl, -⟩ := hfront
        exact absurd rfl h
      | _ :: _ :: _ :: _ :: _ :: pre =>
        simp only [List.cons_append, List.cons_prefix_cons] at hfront
        obtain ⟨rfl, rfl, rfl, rfl, rfl, -⟩ := hfront
        exact ⟨pre, by rw [typeMark_eq]; rfl⟩
    exact ⟨pre, by rw [List.append_assoc, unmarked_typeMark]⟩
  · exact ⟨before, unmarked_eq_self hfront⟩

/-- A specifier without the mark of a type is all of it or what follows that mark. -/
theorem eq_unmarked_or (cs : List Char) :
    ¬typeMark <+: cs ∧ unmarked cs = cs ∨ cs = typeMark ++ unmarked cs := by
  by_cases hfront : typeMark <+: cs
  · obtain ⟨rest, rfl⟩ := hfront
    exact .inr (by rw [unmarked_typeMark])
  · exact .inl ⟨hfront, unmarked_eq_self hfront⟩

/-- In front of a new name that is found stands something other than `type` alone. -/
theorem exists_of_behindLast_unmarked (h : behindLast asMark (unmarked cs) = some rest) :
    ∃ before, cs = before ++ (asMark ++ rest) ∧ before ≠ ['t', 'y', 'p', 'e'] := by
  obtain ⟨pre, hpre⟩ := exists_of_behindLast h
  rcases eq_unmarked_or cs with ⟨hnot, hall⟩ | hmarked
  · refine ⟨pre, hall.symm.trans hpre, ?_⟩
    rintro rfl
    refine hnot ⟨'a' :: 's' :: ' ' :: rest, ?_⟩
    rw [← hall, hpre, typeMark_eq, asMark_eq]
    rfl
  · refine ⟨typeMark ++ pre, by rw [List.append_assoc, ← hpre, ← hmarked], fun htype => ?_⟩
    have hlength := congrArg List.length htype
    simp [typeMark_eq] at hlength

/-! ### The name that is found -/

/-- What follows a space in a collapsed text is trimmed. -/
theorem trimmed_of_append (pre : List Char) (h : Text.SingleSpaced (pre ++ ' ' :: cs)) :
    Text.Trimmed cs where
  start c hc := by
    have hapart := (List.isChain_cons.1 (List.isChain_append.1 h.apart).2.1).1 c hc
    exact hapart.resolve_left (by decide)
  stop c hc := by
    refine h.stop c ?_
    obtain ⟨hne, rfl⟩ := List.mem_getLast?_eq_getLast hc
    rw [List.getLast?_append_of_ne_nil _ (List.cons_ne_nil _ _), List.getLast?_cons_of_ne_nil hne]
    exact hc

theorem trimmed_unmarked (h : Text.SingleSpaced cs) : Text.Trimmed (unmarked cs) := by
  by_cases hfront : typeMark <+: cs
  · obtain ⟨rest, rfl⟩ := hfront
    rw [unmarked_typeMark]
    rw [typeMark_eq] at h
    exact trimmed_of_append ['t', 'y', 'p', 'e'] h
  · rw [unmarked_eq_self hfront]
    exact h.toTrimmed

theorem trim_ofList_eq_iff (h : Text.Trimmed cs) :
    Text.trim (String.ofList cs) = name ↔ cs = name.toList := by
  rw [Text.trim_of_trimmed (by rwa [String.toList_ofList]), ← String.toList_inj,
    String.toList_ofList]

theorem spells_of_binding (hspaced : Text.SingleSpaced specifier.toList)
    (h : binding specifier = name) : Spells name specifier := by
  have hunmarked := trimmed_unmarked hspaced
  rw [binding_eq] at h
  cases hlast : behindLast asMark (unmarked specifier.toList) with
  | none =>
    rw [hlast, Option.getD_none, trim_ofList_eq_iff hunmarked] at h
    rcases eq_unmarked_or specifier.toList with ⟨-, hall⟩ | hmarked
    · obtain rfl := String.toList_inj.1 (hall.symm.trans h)
      exact .alone
    · have hspecifier : specifier = "type " ++ name := by
        rw [← String.toList_inj, hmarked, h, String.toList_append, typeMark]
      rw [hspecifier]
      exact .ofType
  | some rest =>
    obtain ⟨before, hcs, hbefore⟩ := exists_of_behindLast_unmarked hlast
    have hrest : Text.Trimmed rest := by
      have hbehind : before ++ (asMark ++ rest) = (before ++ [' ', 'a', 's']) ++ ' ' :: rest := by
        simp [asMark_eq]
      rw [hcs, hbehind] at hspaced
      exact trimmed_of_append _ hspaced
    rw [hlast, Option.getD_some, trim_ofList_eq_iff hrest] at h
    have hspecifier : specifier = String.ofList before ++ " as " ++ name := by
      rw [← String.toList_inj, hcs, h, String.toList_append, String.toList_append,
        String.toList_ofList, List.append_assoc, asMark]
    rw [hspecifier]
    refine .renamed fun htype => hbefore ?_
    rw [← String.toList_ofList (l := before), htype]
    decide

theorem binding_of_spells (hname : Text.IsWord name.toList) (h : Spells name specifier) :
    binding specifier = name := by
  have hsolid : ' ' ∉ name.toList := fun h => absurd (hname.solid ' ' h) (by decide)
  have hnone : behindLast asMark name.toList = none := behindLast_eq_none (by decide) hsolid
  have htrim : Text.trim name = name := Text.trim_of_trimmed hname.singleSpaced.toTrimmed
  rw [binding_eq]
  cases h with
  | alone =>
    have hall : unmarked name.toList = name.toList := by
      refine unmarked_eq_self fun hfront => hsolid (hfront.subset ?_)
      decide
    rw [hall, hnone, Option.getD_none, String.ofList_toList, htrim]
  | ofType =>
    have hrest : unmarked ("type " ++ name).toList = name.toList := by
      rw [String.toList_append]
      exact unmarked_typeMark name.toList
    rw [hrest, hnone, Option.getD_none, String.ofList_toList, htrim]
  | @renamed before hbefore =>
    have hcs : (before ++ " as " ++ name).toList = before.toList ++ (asMark ++ name.toList) := by
      rw [String.toList_append, String.toList_append, List.append_assoc, asMark]
    have hne : before.toList ≠ ['t', 'y', 'p', 'e'] := fun h =>
      hbefore (String.toList_inj.1 (h.trans (by decide)))
    obtain ⟨pre, hpre⟩ := exists_unmarked_asMark (n := name.toList) hne
    rw [hcs, hpre, behindLast_append pre (behindLast_asMark hsolid), Option.getD_some,
      String.ofList_toList, htrim]

/-- **The name is found in the specifiers that spell it, and in no other ones.** -/
theorem binding_eq_iff (hspaced : Text.SingleSpaced specifier.toList)
    (hname : Text.IsWord name.toList) : binding specifier = name ↔ Spells name specifier :=
  ⟨spells_of_binding hspaced, binding_of_spells hname⟩

/-- There is something in a specifier that spells a name. -/
theorem Spells.isEmpty_eq_false (h : Spells name specifier) (hname : Text.IsWord name.toList) :
    specifier.isEmpty = false := by
  rw [Bool.eq_false_iff, ne_eq, String.isEmpty_iff]
  rintro rfl
  have hempty : binding "" = "" := by decide
  rw [binding_of_spells hname h] at hempty
  exact hname.ne_nil (by rw [hempty]; rfl)

end Import

end ModuleScaffold
