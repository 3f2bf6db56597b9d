import ModuleScaffold.Proofs.Reading.Lexeme
import ModuleScaffold.Text.Words

/-!
# Marks in names that are written in a style

A style changes the letters of a name and puts its own separators between its words. The other form
of a letter is made of letters and of characters beyond ASCII, so a mark – a slash, a point, a
quote – that is neither in a name nor the separator of a style is not in the name as that style
writes it.

Main statements:

* `ModuleScaffold.Text.mem_apply` – **where the characters of a written name come from**;
* `ModuleScaffold.Text.notMem_apply` – **a style brings no marks into a name but its separator**.
-/

namespace ModuleScaffold

namespace Text

variable {c d : Char} {cs : List Char}

/-! ### The other form of a letter -/

/-- A character that a change of case can bring in: a letter, or a character beyond ASCII. -/
def Arises (c : Char) : Prop :=
  c.isAlpha = true ∨ 128 ≤ c.toNat

instance : DecidablePred Arises :=
  fun _ => inferInstanceAs (Decidable (_ ∨ _))

/-- All letters that the run leads to can arise: they are beyond ASCII, or there is only one. -/
def CaseRun.Arising (run : CaseRun) : Prop :=
  (128 ≤ run.first + run.shift ∧ (run.last + run.shift < 0xD800 ∨
    0xDFFF < run.first + run.shift ∧ run.last + run.shift < 0x110000)) ∨
    run.first = run.last ∧ Arises (Char.ofNat (run.first + run.shift).toNat)

instance : DecidablePred CaseRun.Arising :=
  fun _ => inferInstanceAs (Decidable (_ ∨ _))

theorem arises_ofNat {n : ℕ} (hn : 128 ≤ n) (hvalid : n.isValidChar) : Arises (Char.ofNat n) := by
  refine .inr ?_
  rw [Char.ofNat, dif_pos hvalid]
  exact hn

theorem arises_shiftBy {runs : List CaseRun} (hruns : ∀ run ∈ runs, run.Arising)
    (hc : 128 ≤ c.toNat) : Arises (Char.ofNat (shiftBy runs c.toNat)) := by
  rw [shiftBy]
  split
  · next run hrun =>
    have hholds := List.find?_some hrun
    simp only [CaseRun.holds, Bool.and_eq_true, decide_eq_true_eq] at hholds
    obtain ⟨⟨hfirst, hlast⟩, -⟩ := hholds
    rcases hruns run (List.mem_of_find?_eq_some hrun) with ⟨hpast, hvalid⟩ | ⟨hsame, harises⟩
    · refine arises_ofNat (by omega) ?_
      rw [Nat.isValidChar]
      omega
    · -- the run has one letter
      have hfound : c.toNat = run.first := by omega
      rwa [← hfound] at harises
  · rw [Char.ofNat_toNat]
    exact .inr hc

/-- The small form of a character is the character, or it arises. -/
theorem mem_smalls (h : c ∈ smalls d) : c = d ∨ Arises c := by
  have hruns : ∀ run ∈ smallRuns, run.Arising := by decide +kernel
  have hsequences : ∀ entry ∈ smallSequences, ∀ n ∈ entry.2, Arises (Char.ofNat n) := by
    decide +kernel
  by_cases hascii : d.toNat < 128
  · rw [smalls, if_pos hascii, List.mem_singleton] at h
    subst h
    exact forall_ascii (p := fun d => d.toLower = d ∨ Arises d.toLower) (by decide) hascii
  · rw [smalls, if_neg hascii] at h
    split at h
    · next entry hentry =>
      obtain ⟨n, hn, rfl⟩ := List.mem_map.1 h
      exact .inr (hsequences entry (List.mem_of_find?_eq_some hentry) n hn)
    · rw [List.mem_singleton] at h
      exact .inr (h ▸ arises_shiftBy hruns (by omega))

/-- The capital form of a character is the character, or it arises. -/
theorem mem_capitals (h : c ∈ capitals d) : c = d ∨ Arises c := by
  have hruns : ∀ run ∈ capitalRuns, run.Arising := by decide +kernel
  have hsequences : ∀ entry ∈ capitalSequences, ∀ n ∈ entry.2, Arises (Char.ofNat n) := by
    decide +kernel
  by_cases hascii : d.toNat < 128
  · rw [capitals, if_pos hascii, List.mem_singleton] at h
    subst h
    exact forall_ascii (p := fun d => d.toUpper = d ∨ Arises d.toUpper) (by decide) hascii
  · rw [capitals, if_neg hascii] at h
    split at h
    · next entry hentry =>
      obtain ⟨n, hn, rfl⟩ := List.mem_map.1 h
      exact .inr (hsequences entry (List.mem_of_find?_eq_some hentry) n hn)
    · rw [List.mem_singleton] at h
      exact .inr (h ▸ arises_shiftBy hruns (by omega))

theorem mem_lower (h : c ∈ lower cs) : c ∈ cs ∨ Arises c := by
  have hafter : ∀ before, c ∈ lowerAfter before cs → c ∈ cs ∨ Arises c := by
    clear h
    induction cs with
    | nil => exact fun _ h => absurd h List.not_mem_nil
    | cons d cs ih =>
      intro before h
      rw [lowerAfter, List.mem_append] at h
      rcases h with h | h
      · split at h
        · -- both small forms of the capital sigma are beyond ASCII
          rw [List.mem_singleton] at h
          subst h
          split <;> exact .inr (by decide)
        · exact (mem_smalls h).imp_left (by rintro rfl; exact List.mem_cons_self)
      · exact (ih _ h).imp_left (List.mem_cons_of_mem _)
  exact hafter [] h

theorem mem_upper (h : c ∈ upper cs) : c ∈ cs ∨ Arises c := by
  obtain ⟨d, hd, h⟩ := List.mem_flatMap.1 h
  exact (mem_capitals h).imp_left (by rintro rfl; exact hd)

theorem mem_capitalized (h : c ∈ capitalized cs) : c ∈ cs ∨ Arises c := by
  cases cs with
  | nil => exact absurd h List.not_mem_nil
  | cons d cs =>
    rw [capitalized, List.mem_append] at h
    rcases h with h | h
    · exact (mem_capitals h).imp_left (by rintro rfl; exact List.mem_cons_self)
    · exact (mem_lower h).imp_left (List.mem_cons_of_mem _)

/-! ### Words -/

/-- The letters of the words of a name are letters of the name. -/
theorem mem_of_mem_wordsFrom {word w : List Char} {signs : List (List Char)}
    (hw : w ∈ wordsFrom word signs) (hc : c ∈ w) : c ∈ word ∨ c ∈ signs.flatten := by
  induction signs generalizing word with
  | nil =>
    rw [wordsFrom, List.mem_singleton] at hw
    exact .inl (hw ▸ hc)
  | cons sign signs ih =>
    rw [List.flatten_cons, List.mem_append]
    rw [wordsFrom] at hw
    split at hw
    · rcases List.mem_cons.1 hw with rfl | hw
      · exact .inl hc
      · exact .inr (.inr ((ih hw).resolve_left List.not_mem_nil))
    · split at hw
      · rcases List.mem_cons.1 hw with rfl | hw
        · exact (List.mem_append.1 hc).imp_right .inl
        · exact .inr (.inr ((ih hw).resolve_left List.not_mem_nil))
      · rcases ih hw with hc | hc
        · exact (List.mem_append.1 hc).imp_right .inl
        · exact .inr (.inr hc)

theorem mem_of_mem_nameWords {name : String} {w : List Char} (hw : w ∈ nameWords name)
    (hc : c ∈ w) : c ∈ name.toList := by
  rw [nameWords] at hw
  split at hw
  · exact absurd hw List.not_mem_nil
  · have hletters := (mem_of_mem_wordsFrom hw hc).resolve_left List.not_mem_nil
    rwa [flatten_clusters] at hletters

theorem mem_intercalate {separator : List Char} {texts : List (List Char)}
    (h : c ∈ separator.intercalate texts) : c ∈ separator ∨ ∃ text ∈ texts, c ∈ text := by
  induction texts with
  | nil => exact absurd h List.not_mem_nil
  | cons text texts ih =>
    cases texts with
    | nil =>
      rw [List.intercalate_singleton] at h
      exact .inr ⟨text, List.mem_cons_self, h⟩
    | cons other texts =>
      rw [List.intercalate_cons_cons, List.append_assoc, List.mem_append, List.mem_append] at h
      rcases h with h | h | h
      · exact .inr ⟨text, List.mem_cons_self, h⟩
      · exact .inl h
      · obtain h | ⟨found, hfound, h⟩ := ih h
        · exact .inl h
        · exact .inr ⟨found, List.mem_cons_of_mem _ hfound, h⟩

theorem mem_letters {style : Style} {words : List (List Char)} {w : List Char}
    (hw : w ∈ style.letters words) (hc : c ∈ w) : (∃ word ∈ words, c ∈ word) ∨ Arises c := by
  have hmap : ∀ {write : List Char → List Char} {words : List (List Char)},
      (∀ cs, c ∈ write cs → c ∈ cs ∨ Arises c) → w ∈ words.map write →
        (∃ word ∈ words, c ∈ word) ∨ Arises c := by
    intro write words hwrite hw
    obtain ⟨word, hword, rfl⟩ := List.mem_map.1 hw
    exact (hwrite word hc).imp_left fun hmem => ⟨word, hword, hmem⟩
  cases style with
  | pascal => exact hmap (fun _ => mem_capitalized) hw
  | title => exact hmap (fun _ => mem_capitalized) hw
  | snake => exact hmap (fun _ => mem_lower) hw
  | kebab => exact hmap (fun _ => mem_lower) hw
  | camel =>
    cases words with
    | nil => exact absurd hw List.not_mem_nil
    | cons word words =>
      rcases List.mem_cons.1 hw with rfl | hw
      · exact (mem_lower hc).imp_left fun hmem => ⟨word, List.mem_cons_self, hmem⟩
      · exact (hmap (fun _ => mem_capitalized) hw).imp_left fun ⟨other, hother, hmem⟩ =>
          ⟨other, List.mem_cons_of_mem _ hother, hmem⟩

/-- **Where the characters of a written name come from.** -/
theorem mem_apply {style : Style} {name : String} (h : c ∈ (style.apply name).toList) :
    c ∈ name.toList ∨ c ∈ style.separator.toList ∨ Arises c := by
  rw [Style.apply, String.toList_intercalate] at h
  obtain h | ⟨text, htext, h⟩ := mem_intercalate h
  · exact .inr (.inl h)
  · simp only [List.map_map, List.mem_map, Function.comp_apply, String.toList_ofList] at htext
    obtain ⟨w, hw, rfl⟩ := htext
    rcases mem_letters hw h with ⟨word, hword, h⟩ | h
    · exact .inl (mem_of_mem_nameWords hword h)
    · exact .inr (.inr h)

/-- **A style brings no marks into a name but its separator.** -/
theorem notMem_apply {style : Style} {name : String} (hc : ¬Arises c)
    (hseparator : c ∉ style.separator.toList) (h : c ∉ name.toList) :
    c ∉ (style.apply name).toList :=
  fun hmem => (mem_apply hmem).elim h (·.elim hseparator hc)

/-! ### Empty names -/

theorem smalls_ne_nil (c : Char) : smalls c ≠ [] := by
  have hsequences : ∀ entry ∈ smallSequences, entry.2 ≠ [] := by decide
  rw [smalls]
  split
  · exact List.cons_ne_nil _ _
  · split
    · next entry hentry =>
      exact fun h => hsequences entry (List.mem_of_find?_eq_some hentry) (List.map_eq_nil_iff.1 h)
    · exact List.cons_ne_nil _ _

theorem lower_ne_nil (h : cs ≠ []) : lower cs ≠ [] := by
  obtain ⟨c, cs, rfl⟩ := List.exists_cons_of_ne_nil h
  rw [lower, lowerAfter]
  refine List.append_ne_nil_of_left_ne_nil ?_ _
  split
  · exact List.cons_ne_nil _ _
  · exact smalls_ne_nil c

theorem wordsFrom_ne_nil (word : List Char) (signs : List (List Char)) :
    wordsFrom word signs ≠ [] := by
  induction signs generalizing word with
  | nil => exact List.cons_ne_nil _ _
  | cons sign signs ih =>
    rw [wordsFrom]
    split
    · exact List.cons_ne_nil _ _
    · split
      · exact List.cons_ne_nil _ _
      · exact ih _

/-- A single word has all signs. -/
theorem eq_of_wordsFrom_eq_singleton {word w : List Char} {signs : List (List Char)}
    (h : wordsFrom word signs = [w]) : w = word ++ signs.flatten := by
  induction signs generalizing word with
  | nil =>
    rw [List.flatten_nil, List.append_nil]
    exact (List.singleton_inj.1 h).symm
  | cons sign signs ih =>
    rw [wordsFrom] at h
    split at h
    · exact absurd (List.cons.inj h).2 (wordsFrom_ne_nil _ _)
    · split at h
      · exact absurd (List.cons.inj h).2 (wordsFrom_ne_nil _ _)
      · rw [ih h, List.flatten_cons, List.append_assoc]

/-- A name in small letters with separators is not empty. -/
theorem apply_snake_ne_empty {name : String} (h : name ≠ "") : Style.snake.apply name ≠ "" := by
  have hletters : (Style.snake.apply name).toList =
      ['_'].intercalate ((nameWords name).map lower) := by
    simp [Style.apply, String.toList_intercalate, Style.letters, Style.separator,
      Function.comp_def]
  intro hempty
  rw [hempty, nameWords, if_neg (by rwa [String.isEmpty_iff])] at hletters
  cases hwords : wordsFrom [] (clusters name.toList) with
  | nil => exact wordsFrom_ne_nil _ _ hwords
  | cons w words =>
    rw [hwords] at hletters
    cases words with
    | nil =>
      rw [List.map_singleton, List.intercalate_singleton] at hletters
      refine lower_ne_nil ?_ hletters.symm
      rw [eq_of_wordsFrom_eq_singleton hwords, List.nil_append, flatten_clusters]
      exact fun hnil => h (String.toList_inj.1 hnil)
    | cons other words =>
      rw [List.map_cons, List.map_cons, List.intercalate_cons_cons] at hletters
      have hlength := congrArg List.length hletters
      simp at hlength

/-! ### Capitals -/

/-- Capitals bring no marks into a name. -/
theorem notMem_capitalText {name : String} (hc : ¬Arises c) (h : c ∉ name.toList) :
    c ∉ (capitalText name).toList := by
  rw [capitalText, String.toList_ofList]
  exact fun hmem => (mem_upper hmem).elim h hc

end Text

end ModuleScaffold
