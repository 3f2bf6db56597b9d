import ModuleScaffold.Text.Blank
import Mathlib.Data.List.Chain
import Mathlib.Data.List.DropRight

/-!
# Trimmed and collapsed texts

A trimmed text neither begins nor ends with a blank, and a collapsed one has single spaces as its
only blanks. Both properties describe what `Text.trim` and `Text.collapse` give, and a text that has
them is left as it is, so trimming or collapsing again changes nothing.

Main statements:

* `ModuleScaffold.Text.trimmed_trim`, `ModuleScaffold.Text.trim_trim` – **what trimming gives, and
  that it is done once**;
* `ModuleScaffold.Text.mem_fields_iff` – the pieces of a text are its longest parts without
  separators;
* `ModuleScaffold.Text.singleSpaced_collapse`, `ModuleScaffold.Text.collapse_collapse` – **the same
  for collapsing**.
-/

namespace ModuleScaffold

namespace Text

/-! ### Trimming -/

/-- Neither the first nor the last character is blank. -/
structure Trimmed (cs : List Char) : Prop where
  /-- The first character, if there is one. -/
  start : ∀ c ∈ cs.head?, isBlank c = false
  /-- The last character, if there is one. -/
  stop : ∀ c ∈ cs.getLast?, isBlank c = false

theorem toList_trim (text : String) :
    (trim text).toList = (text.toList.dropWhile isBlank).rdropWhile isBlank := by
  rw [trim, trimEnd, trimStart, String.toList_ofList, String.toList_ofList]
  rfl

theorem trimmed_trim (text : String) : Trimmed (trim text).toList := by
  rw [toList_trim]
  constructor
  · intro c hc
    -- what is cut off behind leaves the first character where it is
    obtain ⟨cut, hcut⟩ := List.rdropWhile_prefix isBlank (text.toList.dropWhile isBlank)
    have hhead : (text.toList.dropWhile isBlank).head? = some c := by
      rw [← hcut, List.head?_append, Option.mem_def.1 hc]
      rfl
    have hstop := List.head?_dropWhile_not isBlank text.toList
    rwa [hhead] at hstop
  · intro c hc
    obtain ⟨hne, rfl⟩ := List.mem_getLast?_eq_getLast hc
    exact Bool.eq_false_iff.2 (List.rdropWhile_last_not isBlank _ hne)

theorem trim_of_trimmed {text : String} (h : Trimmed text.toList) : trim text = text := by
  have hstart : text.toList.dropWhile isBlank = text.toList := by
    cases hcs : text.toList with
    | nil => rfl
    | cons c cs =>
      have hc := h.start c (by rw [hcs]; rfl)
      rw [List.dropWhile_cons, hc]
      rfl
  have hstop : text.toList.rdropWhile isBlank = text.toList := by
    refine List.rdropWhile_eq_self_iff.2 fun hne => ?_
    rw [h.stop _ (List.getLast?_eq_some_getLast hne)]
    exact Bool.false_ne_true
  rw [← String.toList_inj, toList_trim, hstart, hstop]

theorem trim_trim (text : String) : trim (trim text) = trim text :=
  trim_of_trimmed (trimmed_trim text)

theorem dropEndWhile_concat {α : Type} (p : α → Bool) (as : List α) (a : α) :
    dropEndWhile p (as ++ [a]) = if p a then dropEndWhile p as else as ++ [a] :=
  List.rdropWhile_concat p as a

/-- What is cut off in front of a text takes nothing from a part that begins with another
character. -/
theorem infix_dropWhile {p : Char → Bool} {w cs : List Char} (hw : ∀ c ∈ w.head?, p c = false)
    (h : w <:+: cs) : w <:+: cs.dropWhile p := by
  induction cs with
  | nil => exact h
  | cons c cs ih =>
    rw [List.dropWhile_cons]
    split
    · next hc =>
      rcases List.infix_cons_iff.1 h with hstarts | hinfix
      · cases w with
        | nil => exact List.nil_infix
        | cons d w =>
          obtain ⟨rfl, -⟩ := List.cons_prefix_cons.1 hstarts
          rw [hw d rfl] at hc
          cases hc
      · exact ih hinfix
    · exact h

theorem infix_rdropWhile {p : Char → Bool} {w cs : List Char}
    (hw : ∀ c ∈ w.getLast?, p c = false) (h : w <:+: cs) : w <:+: cs.rdropWhile p := by
  rw [List.rdropWhile, ← List.reverse_infix, List.reverse_reverse]
  refine infix_dropWhile (fun c hc => ?_) (List.reverse_infix.2 h)
  rw [List.head?_reverse] at hc
  exact hw c hc

/-- A part of a text that neither begins nor ends with a blank is a part of the trimmed text. -/
theorem Trimmed.infix_trim {w : List Char} {text : String} (hw : Trimmed w)
    (h : w <:+: text.toList) : w <:+: (trim text).toList := by
  rw [toList_trim]
  exact infix_rdropWhile hw.stop (infix_dropWhile hw.start h)

theorem trim_infix (text : String) : (trim text).toList <:+: text.toList := by
  rw [toList_trim]
  exact (List.rdropWhile_prefix _ _).isInfix.trans (List.dropWhile_suffix _).isInfix

/-- What is cut off at the ends of a text are blanks. -/
theorem exists_blanks_trim (text : String) : ∃ front back,
    text.toList = front ++ ((trim text).toList ++ back) ∧ (∀ c ∈ front, isBlank c = true) ∧
      ∀ c ∈ back, isBlank c = true := by
  have hcut (cs : List Char) : cs.rdropWhile isBlank ++ cs.rtakeWhile isBlank = cs := by
    rw [List.rdropWhile, List.rtakeWhile, ← List.reverse_append, List.takeWhile_append_dropWhile,
      List.reverse_reverse]
  refine ⟨text.toList.takeWhile isBlank, (text.toList.dropWhile isBlank).rtakeWhile isBlank, ?_,
    fun c => List.mem_takeWhile_imp, fun c => List.mem_rtakeWhile_imp⟩
  rw [toList_trim, hcut, List.takeWhile_append_dropWhile]

theorem infix_joinWith {separator w : List Char} {ws : List (List Char)} (h : w ∈ ws) :
    w <:+: joinWith separator ws := by
  induction ws with
  | nil => exact absurd h List.not_mem_nil
  | cons v ws ih =>
    cases ws with
    | nil =>
      obtain rfl := List.mem_singleton.1 h
      exact List.infix_refl _
    | cons u ws =>
      rw [joinWith, List.append_assoc]
      rcases List.mem_cons.1 h with rfl | h
      · exact (List.prefix_append _ _).isInfix
      · exact (ih h).trans ((List.suffix_append _ _).trans (List.suffix_append _ _)).isInfix

/-! ### Fields and words -/

section Fields

variable {p : Char → Bool} {f w cs front back : List Char}

theorem fields_of_forall (h : ∀ c ∈ w, p c = false) : fields p w = [w] := by
  induction w with
  | nil => rfl
  | cons c w ih =>
    obtain ⟨hc, hw⟩ := List.forall_mem_cons.1 h
    rw [fields, hc, ih hw]
    rfl

/-- A text is cut at a separator, and the pieces on both sides are those of the two parts. -/
theorem fields_append_separator (ws : List Char) {c : Char} (hc : p c = true) :
    fields p (ws ++ c :: cs) = fields p ws ++ fields p cs := by
  induction ws with
  | nil =>
    change fields p (c :: cs) = [] :: fields p cs
    rw [fields, if_pos hc]
  | cons d ws ih =>
    rw [List.cons_append, fields, fields, ih]
    split
    · rfl
    · cases hf : fields p ws with
      | nil => exact absurd hf (fields_ne_nil p ws)
      | cons f fs => rfl

theorem fields_append_cons (h : ∀ c ∈ w, p c = false) {c : Char} (hc : p c = true) :
    fields p (w ++ c :: cs) = w :: fields p cs := by
  rw [fields_append_separator w hc, fields_of_forall h]
  rfl

/-- The characters at which a text is cut are in none of the pieces. -/
theorem eq_false_of_mem_fields (hf : f ∈ fields p cs) : ∀ c ∈ f, p c = false := by
  induction cs generalizing f with
  | nil =>
    obtain rfl := List.mem_singleton.1 hf
    exact fun c hc => absurd hc List.not_mem_nil
  | cons d cs ih =>
    rw [fields] at hf
    split at hf
    · rcases List.mem_cons.1 hf with rfl | hf
      · exact fun c hc => absurd hc List.not_mem_nil
      · exact ih hf
    · next hd =>
      cases hfs : fields p cs with
      | nil => exact absurd hfs (fields_ne_nil p cs)
      | cons g fs =>
        rw [hfs] at hf ih
        rcases List.mem_cons.1 hf with rfl | hf
        · exact List.forall_mem_cons.2 ⟨Bool.eq_false_iff.2 hd, ih List.mem_cons_self⟩
        · exact ih (List.mem_cons_of_mem _ hf)

/-- The pieces of a text are made of its characters. -/
theorem mem_of_mem_fields (hf : f ∈ fields p cs) {c : Char} (hc : c ∈ f) : c ∈ cs := by
  induction cs generalizing f with
  | nil =>
    obtain rfl := List.mem_singleton.1 hf
    exact hc
  | cons d cs ih =>
    rw [fields] at hf
    split at hf
    · rcases List.mem_cons.1 hf with rfl | hf
      · exact absurd hc List.not_mem_nil
      · exact List.mem_cons_of_mem _ (ih hf hc)
    · cases hfs : fields p cs with
      | nil => exact absurd hfs (fields_ne_nil p cs)
      | cons g fs =>
        rw [hfs] at hf ih
        rcases List.mem_cons.1 hf with rfl | hf
        · rcases List.mem_cons.1 hc with rfl | hc
          · exact List.mem_cons_self
          · exact List.mem_cons_of_mem _ (ih List.mem_cons_self hc)
        · exact List.mem_cons_of_mem _ (ih (List.mem_cons_of_mem _ hf) hc)

/-- A character that is no separator is in a piece. -/
theorem exists_mem_fields {c : Char} (hc : c ∈ cs) (hp : p c = false) :
    ∃ f ∈ fields p cs, c ∈ f := by
  induction cs with
  | nil => exact absurd hc List.not_mem_nil
  | cons d cs ih =>
    rw [fields]
    split
    · next hd =>
      rcases List.mem_cons.1 hc with rfl | hc
      · rw [hp] at hd
        cases hd
      · obtain ⟨f, hf, hmem⟩ := ih hc
        exact ⟨f, List.mem_cons_of_mem _ hf, hmem⟩
    · cases hfs : fields p cs with
      | nil => exact absurd hfs (fields_ne_nil p cs)
      | cons g fs =>
        rw [hfs] at ih
        rcases List.mem_cons.1 hc with rfl | hc
        · exact ⟨c :: g, List.mem_cons_self, List.mem_cons_self⟩
        · obtain ⟨f, hf, hmem⟩ := ih hc
          rcases List.mem_cons.1 hf with rfl | hf
          · exact ⟨d :: f, List.mem_cons_self, List.mem_cons_of_mem _ hmem⟩
          · exact ⟨f, List.mem_cons_of_mem _ hf, hmem⟩

/-- A part of a text without separators is one of its pieces, if it stands between separators or at
an end of the text. -/
theorem mem_fields_append (hw : ∀ c ∈ w, p c = false) (hfront : ∀ c ∈ front.getLast?, p c = true)
    (hback : ∀ c ∈ back.head?, p c = true) : w ∈ fields p (front ++ (w ++ back)) := by
  have hlast : w ∈ fields p (w ++ back) := by
    cases back with
    | nil =>
      rw [List.append_nil, fields_of_forall hw]
      exact List.mem_cons_self
    | cons c back =>
      rw [fields_append_cons hw (hback c rfl)]
      exact List.mem_cons_self
  rcases List.eq_nil_or_concat' front with rfl | ⟨front, c, rfl⟩
  · exact hlast
  · rw [List.append_assoc, List.singleton_append,
      fields_append_separator front (hfront c List.getLast?_concat)]
    exact List.mem_append_right _ hlast

/-- Where a piece of a text stands. -/
theorem exists_parts_of_mem_fields (hw : w ∈ fields p cs) : ∃ front back,
    cs = front ++ (w ++ back) ∧ (∀ c ∈ front.getLast?, p c = true) ∧
      ∀ c ∈ back.head?, p c = true := by
  -- by induction on the pieces: the text up to its first separator is the first one
  induction hn : cs.length using Nat.strong_induction_on generalizing cs with
  | _ n ih =>
    have hfirst : ∀ c ∈ cs.takeWhile (! p ·), p c = false := fun c hc => by
      simpa using List.mem_takeWhile_imp hc
    rw [← List.takeWhile_append_dropWhile (p := (! p ·)) (l := cs)] at hw ⊢
    cases hrest : cs.dropWhile (! p ·) with
    | nil =>
      rw [hrest, List.append_nil, fields_of_forall hfirst, List.mem_singleton] at hw
      exact ⟨[], [], by rw [hw, List.append_nil]; rfl, by simp, by simp⟩
    | cons c rest =>
      have hc : p c = true := by
        have hhead := List.head?_dropWhile_not (! p ·) cs
        rw [hrest] at hhead
        simpa using hhead
      rw [hrest, fields_append_cons hfirst hc] at hw
      rcases List.mem_cons.1 hw with rfl | hw
      · exact ⟨[], c :: rest, rfl, by simp, by simpa using hc⟩
      · have hlt : rest.length < n := by
          have hlength := congrArg List.length hrest
          have hle := List.length_dropWhile_le (! p ·) cs
          rw [List.length_cons] at hlength
          omega
        obtain ⟨front, back, rfl, hfront, hback⟩ := ih _ hlt hw rfl
        refine ⟨cs.takeWhile (! p ·) ++ c :: front, back, by simp, fun d hd => ?_, hback⟩
        rw [List.getLast?_append_of_ne_nil _ (List.cons_ne_nil _ _)] at hd
        cases front with
        | nil => exact Option.some.inj hd ▸ hc
        | cons e front =>
          rw [List.getLast?_cons_cons] at hd
          exact hfront d hd

theorem mem_fields_iff : w ∈ fields p cs ↔ (∀ c ∈ w, p c = false) ∧ ∃ front back,
    cs = front ++ (w ++ back) ∧ (∀ c ∈ front.getLast?, p c = true) ∧
      ∀ c ∈ back.head?, p c = true := by
  constructor
  · exact fun hw => ⟨eq_false_of_mem_fields hw, exists_parts_of_mem_fields hw⟩
  · rintro ⟨hw, front, back, rfl, hfront, hback⟩
    exact mem_fields_append hw hfront hback

end Fields

/-- Characters of which none is blank; there is at least one. -/
structure IsWord (w : List Char) : Prop where
  /-- There is a character. -/
  ne_nil : w ≠ []
  /-- None is blank. -/
  solid : ∀ c ∈ w, isBlank c = false

theorem isWord_of_mem_words {w cs : List Char} (h : w ∈ words cs) : IsWord w := by
  obtain ⟨hw, hne⟩ := List.mem_filter.1 h
  exact ⟨by simpa using hne, eq_false_of_mem_fields hw⟩

/-- Joined texts are made of the separator and the characters of the texts. -/
theorem mem_joinWith {separator : List Char} {ws : List (List Char)} {c : Char}
    (h : c ∈ joinWith separator ws) : c ∈ separator ∨ ∃ w ∈ ws, c ∈ w := by
  induction ws with
  | nil => exact absurd h List.not_mem_nil
  | cons w ws ih =>
    cases ws with
    | nil => exact .inr ⟨w, List.mem_cons_self, h⟩
    | cons v ws =>
      rw [joinWith, List.mem_append, List.mem_append] at h
      rcases h with (hw | hseparator) | hrest
      · exact .inr ⟨w, List.mem_cons_self, hw⟩
      · exact .inl hseparator
      · rcases ih hrest with hseparator | ⟨u, hu, hc⟩
        · exact .inl hseparator
        · exact .inr ⟨u, List.mem_cons_of_mem _ hu, hc⟩

theorem mem_of_mem_trimMatches {p : Char → Bool} {text : String} {c : Char}
    (h : c ∈ (trimMatches p text).toList) : c ∈ text.toList := by
  rw [trimMatches, String.toList_ofList] at h
  exact (List.dropWhile_sublist p).mem ((List.rdropWhile_prefix p _).subset h)

/-- Texts that are joined by a character are the first one, and the others with that character in
front of each. -/
theorem joinWith_cons (x : Char) (w : List Char) : ∀ ws : List (List Char),
    joinWith [x] (w :: ws) = w ++ ws.flatMap (x :: ·)
  | [] => (List.append_nil w).symm
  | v :: ws => by
    rw [joinWith, joinWith_cons x v ws, List.append_assoc]
    rfl

theorem length_le_flatMap_cons (x : Char) (ws : List (List Char)) :
    ws.length ≤ (ws.flatMap (x :: ·)).length := by
  induction ws with
  | nil => exact Nat.le_refl _
  | cons w ws ih =>
    rw [List.flatMap_cons, List.length_append, List.length_cons, List.length_cons]
    omega

/-- Words that are joined by spaces are the words of the text. -/
theorem words_joinWith {ws : List (List Char)} (h : ∀ w ∈ ws, IsWord w) :
    words (joinWith [' '] ws) = ws := by
  have hkept : ∀ w : List Char, IsWord w → (! w.isEmpty) = true := fun w hw => by
    simpa using hw.ne_nil
  induction ws with
  | nil => rfl
  | cons w ws ih =>
    obtain ⟨hw, hws⟩ := List.forall_mem_cons.1 h
    cases ws with
    | nil =>
      rw [joinWith, words, fields_of_forall hw.solid, List.filter_cons, if_pos (hkept w hw)]
      rfl
    | cons v ws =>
      have hrest := ih hws
      rw [words] at hrest ⊢
      rw [joinWith, List.append_assoc, List.singleton_append,
        fields_append_cons hw.solid (by decide), List.filter_cons, if_pos (hkept w hw), hrest]

/-! ### Collapsing -/

/-- The only blanks are single spaces between other characters. -/
structure SingleSpaced (cs : List Char) : Prop extends Trimmed cs where
  /-- Every blank is a space. -/
  spaces : ∀ c ∈ cs, isBlank c = true → c = ' '
  /-- Of two neighbours one is not blank. -/
  apart : cs.IsChain fun c d => isBlank c = false ∨ isBlank d = false

theorem IsWord.singleSpaced {w : List Char} (hw : IsWord w) : SingleSpaced w where
  start c hc := hw.solid c (List.mem_of_mem_head? hc)
  stop c hc := hw.solid c (List.mem_of_mem_getLast? hc)
  spaces c hc hblank := absurd hblank (by rw [hw.solid c hc]; exact Bool.false_ne_true)
  apart := List.Pairwise.isChain <| List.pairwise_of_forall_mem_list fun c hc _ _ =>
    .inl (hw.solid c hc)

theorem singleSpaced_joinWith {ws : List (List Char)} (h : ∀ w ∈ ws, IsWord w) :
    SingleSpaced (joinWith [' '] ws) := by
  induction ws with
  | nil => exact ⟨⟨by simp [joinWith], by simp [joinWith]⟩, by simp [joinWith], .nil⟩
  | cons w ws ih =>
    obtain ⟨hw, hws⟩ := List.forall_mem_cons.1 h
    cases ws with
    | nil => exact hw.singleSpaced
    | cons v ws =>
      have hrest := ih hws
      have hword := hw.singleSpaced
      rw [joinWith, List.append_assoc, List.singleton_append]
      -- the rest begins with a word, so it is not empty
      have hne : joinWith [' '] (v :: ws) ≠ [] := fun hnil => by
        have hwords := words_joinWith hws
        rw [hnil] at hwords
        cases hwords
      refine ⟨⟨fun c hc => ?_, fun c hc => ?_⟩, fun c hc => ?_, ?_⟩
      · rw [List.head?_append_of_ne_nil _ hw.ne_nil] at hc
        exact hword.start c hc
      · rw [List.getLast?_append_of_ne_nil _ (List.cons_ne_nil _ _),
          List.getLast?_cons_of_ne_nil hne] at hc
        exact hrest.stop c hc
      · rcases List.mem_append.1 hc with hc | hc
        · exact hword.spaces c hc
        · rcases List.mem_cons.1 hc with rfl | hc
          · exact fun _ => rfl
          · exact hrest.spaces c hc
      · refine List.isChain_append.2 ⟨hword.apart, ?_, fun c hc _ _ => .inl (hword.stop c hc)⟩
        exact List.isChain_cons.2 ⟨fun d hd => .inr (hrest.start d hd), hrest.apart⟩

theorem singleSpaced_collapse (text : String) : SingleSpaced (collapse text).toList := by
  rw [collapse, String.toList_ofList]
  exact singleSpaced_joinWith fun w hw => isWord_of_mem_words hw

theorem collapse_collapse (text : String) : collapse (collapse text) = collapse text := by
  have hwords : words (collapse text).toList = words text.toList := by
    rw [collapse, String.toList_ofList]
    exact words_joinWith fun w hw => isWord_of_mem_words hw
  rw [collapse, hwords, collapse]

end Text

end ModuleScaffold
