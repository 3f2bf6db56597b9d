import ModuleScaffold.Proofs.Scan.Patterns

/-!
# The names that a statement declares

What a statement binds is read off the grammar: behind the words in front of a declaration stand a
list of variables, a class or an enumeration. The names that the text of the statement declares are
found by reading words between blanks, and by the scan of variables.

So a name that is bound is found if only words and blanks stand in front of the list, nothing that
is hidden in the list moves the scan in front of the name, and the name is an identifier.

Main statements:

* `ModuleScaffold.Source.boundNames` – the names that a statement binds;
* `ModuleScaffold.Source.mem_declaredFrom` – **a name that is bound is found**.
-/

namespace ModuleScaffold

namespace Source

open Store (DeclaratorScan declaredFrom declaratorNames)
open Store.DeclaratorScan (Parted)

/-! ### What a statement binds -/

/-- The words in front of a declaration that say nothing of what it declares. -/
def bindingModifiers : List String := ["export", "default", "declare", "abstract"]

/-- A name that a statement binds. -/
structure Bound where
  /-- What remains behind the words in front of the names. -/
  list : Chars
  /-- What remains at the start of the name. -/
  place : Chars
  deriving DecidableEq

/-- The name behind a word, if a declaration follows the word. -/
def nameBehind (declared : Option Chars) (list rest : Chars) : List Bound :=
  if declared.isSome then [⟨list, skip rest⟩] else []

/-- The names behind a word that declares variables; an enumeration may be constant. -/
def variablesBehind (depth : ℕ) (rest : Chars) : List Bound :=
  match (keyword "enum" rest).filter fun behind => (enumEnd (reader depth) behind).isSome with
  | some behind => [⟨rest, skip behind⟩]
  | none => (listPlaces depth rest).map (⟨rest, ·⟩)

/-- The names that a statement binds, behind at most `fuel` words. -/
def boundFrom (depth : ℕ) : ℕ → Chars → List Bound
  | 0, _ => []
  | fuel + 1, cs =>
    match word (many (decoratorEnd (reader depth)) cs) with
    | none => []
    | some (w, rest) =>
      let text := String.ofList w
      if bindingModifiers.contains text then boundFrom depth fuel rest
      else if text = "class" then
        nameBehind (classDeclarationEnd (reader depth) rest) (skip rest) rest
      else if text = "enum" then nameBehind (enumEnd (reader depth) rest) (skip rest) rest
      else if variableWord text then variablesBehind depth rest
      else []

/-- The names that a statement binds. -/
def boundNames (depth : ℕ) (cs : Chars) : List Bound :=
  boundFrom depth (cs.length + 1) cs

/-! ### Words and blanks -/

/-- Whether a character starts neither a comment nor a decorator and separates words if it may stand
between tokens. -/
def isBare (c : Char) : Bool :=
  c != '/' && c != '@' && (! isSpace c || Text.isBlank c)

/-- Only words and blanks stand between two places. -/
def Bare (start stop : Chars) : Prop :=
  (upTo start stop).all isBare = true

instance (start stop : Chars) : Decidable (Bare start stop) :=
  inferInstanceAs (Decidable (_ = true))

variable {cs rest list place front back w u stop : Chars} {c : Char} {depth : ℕ}

theorem bare_iff : Bare (front ++ rest) rest ↔ ∀ c ∈ front, isBare c = true := by
  rw [Bare, upTo_append, List.all_eq_true]

/-- A word ends where no character of a word stands. -/
theorem head_wordFrom (pending : ℕ) (cs : Chars) :
    ∀ c ∈ (wordFrom pending cs).2.head?, inWord c = false := by
  induction cs generalizing pending with
  | nil => exact fun _ hc => nomatch hc
  | cons c cs ih =>
    cases pending with
    | succ n => exact ih n
    | zero =>
      rw [wordFrom]
      split
      · exact ih 0
      · next hc =>
        split
        · next n _ => exact ih (n - 1)
        · intro d hd
          obtain rfl := Option.some.inj hd
          simpa using hc

theorem head_of_wordHere (h : wordHere cs = some (w, rest)) :
    ∀ c ∈ rest.head?, inWord c = false := by
  have hfrom := head_wordFrom 0 cs
  rw [wordHere] at h
  split at h
  · cases h
  · next c w' rest' hword =>
    split at h
    · cases h
    · cases h
      rwa [hword] at hfrom

theorem isWordPart_eq_false (h : inWord c = false) : Text.isWordPart c = false := by
  by_contra hword
  rw [inWord_of_isWordPart (by simpa using hword)] at h
  cases h

theorem isBlank_of_isBare (h : isBare c = true) (hspace : isSpace c = true) :
    Text.isBlank c = true := by
  rw [isBare, hspace, Bool.not_true, Bool.false_or, Bool.and_eq_true] at h
  exact h.2

theorem ne_slash_of_isBare (h : isBare c = true) : c ≠ '/' := by
  simp only [isBare, Bool.and_eq_true, bne_iff_ne] at h
  exact h.1.1

/-- What is skipped without a comment are blanks. -/
theorem isBlank_of_skip (h : skip (front ++ rest) = rest) (hfront : ∀ c ∈ front, isBare c = true) :
    ∀ c ∈ front, Text.isBlank c = true := by
  induction front with
  | nil => exact fun _ hc => absurd hc List.not_mem_nil
  | cons d front ih =>
    obtain ⟨hd, hfront⟩ := List.forall_mem_cons.1 hfront
    by_cases hspace : isSpace d = true
    · rw [List.cons_append, skip_cons_of_isSpace hspace] at h
      exact List.forall_mem_cons.2 ⟨isBlank_of_isBare hd hspace, ih h hfront⟩
    · rw [List.cons_append, skip_cons (by simpa using hspace) (ne_slash_of_isBare hd)] at h
      have hlength := congrArg List.length h
      rw [List.length_cons, List.length_append] at hlength
      omega

/-- The word behind blanks. -/
theorem splitWord_append (hfront : ∀ c ∈ front, Text.isBlank c = true)
    (hw : ∀ c ∈ w, Text.isWordPart c = true) (hne : w ≠ [])
    (hrest : ∀ c ∈ rest.head?, Text.isWordPart c = false) :
    Text.splitWord (front ++ (w ++ rest)) = (w, rest) := by
  have hblank : (w ++ rest).dropWhile Text.isBlank = w ++ rest := by
    obtain ⟨c, w, rfl⟩ := List.exists_cons_of_ne_nil hne
    have hc := Text.isBlank_of_isWordPart (hw c List.mem_cons_self)
    rw [List.cons_append, List.dropWhile_cons_of_neg (by simp [hc])]
  have hstop : rest.takeWhile Text.isWordPart = [] ∧ rest.dropWhile Text.isWordPart = rest := by
    cases rest with
    | nil => exact ⟨rfl, rfl⟩
    | cons c rest =>
      have hc := hrest c rfl
      exact ⟨List.takeWhile_cons_of_neg (by simp [hc]), List.dropWhile_cons_of_neg (by simp [hc])⟩
  rw [Text.splitWord, List.dropWhile_append_of_pos hfront, hblank, List.span_eq_takeWhile_dropWhile,
    List.takeWhile_append_of_pos hw, List.dropWhile_append_of_pos hw, hstop.1, hstop.2,
    List.append_nil]

/-- Behind the blanks of a bare text stands no decorator. -/
theorem head?_skip_ne_of_isBare (hcs : cs = front ++ c :: rest)
    (hfront : ∀ d ∈ front, isBare d = true) (hc : isBare c = true) (hspace : isSpace c = false) :
    (skip cs).head? ≠ some '@' := by
  have hmark : ∀ {d : Char}, isBare d = true → d ≠ '@' := fun {d} hd => by
    simp only [isBare, Bool.and_eq_true, bne_iff_ne] at hd
    exact hd.1.2
  subst hcs
  induction front with
  | nil =>
    rw [List.nil_append, skip_cons hspace (ne_slash_of_isBare hc)]
    exact fun h => hmark hc (Option.some.inj h)
  | cons d front ih =>
    obtain ⟨hd, hfront⟩ := List.forall_mem_cons.1 hfront
    rw [List.cons_append]
    by_cases hblank : isSpace d = true
    · rw [skip_cons_of_isSpace hblank]
      exact ih hfront
    · rw [skip_cons (by simpa using hblank) (ne_slash_of_isBare hd)]
      exact fun h => hmark hd (Option.some.inj h)

theorem isSpace_eq_false_of_wordStart (h : inWord c = true ∨ c = '\\') : isSpace c = false := by
  rcases h with h | rfl
  · rw [inWord, Bool.and_eq_true, Bool.and_eq_true] at h
    simpa using h.1.2
  · decide

theorem forall_isBare {before : Chars} (hbare : Bare cs list)
    (hcs : cs = before ++ (w ++ (front ++ list))) :
    ∀ c ∈ before ++ (w ++ front), isBare c = true := by
  subst hcs
  rwa [← List.append_assoc w, ← List.append_assoc, bare_iff] at hbare

/-- Where only words and blanks stand in front of a word, no decorator does. -/
theorem skip_of_word {r : Reader} (hr : Steady r)
    (h : word (many (decoratorEnd r) cs) = some (w, front ++ list)) (hbare : Bare cs list) :
    skip cs = w ++ (front ++ list) := by
  have hdecorators : many (decoratorEnd r) cs = cs := by
    obtain ⟨before, hbefore, -⟩ := passes_decorators hr cs
    obtain ⟨between, hbetween, -⟩ := passes_skip (many (decoratorEnd r) cs)
    rw [hbetween, (wordHere_eq h).1, ← List.append_assoc] at hbefore
    have hbares := forall_isBare hbare hbefore
    obtain ⟨c, w', rfl, hc⟩ := exists_cons_of_wordHere h
    exact many_eq_self (decoratorEnd_eq_none (head?_skip_ne_of_isBare hbefore
      (fun d hd => hbares d (List.mem_append_left _ hd)) (hbares c (by simp))
      (isSpace_eq_false_of_wordStart hc)))
  rw [hdecorators] at h
  exact (wordHere_eq h).1

/-- **A word in front of which only words and blanks stand is read behind blanks.** -/
theorem exists_blanks_of_word {r : Reader} (hr : Steady r)
    (h : word (many (decoratorEnd r) cs) = some (w, front ++ list)) (hbare : Bare cs list) :
    ∃ blanks, cs = blanks ++ (w ++ (front ++ list)) ∧ (∀ c ∈ blanks, Text.isBlank c = true) ∧
      ∀ c ∈ front, isBare c = true := by
  have hskip := skip_of_word hr h hbare
  obtain ⟨blanks, hblanks, -⟩ := passes_skip cs
  rw [hskip] at hblanks
  have hbares := forall_isBare hbare hblanks
  rw [hblanks] at hskip
  exact ⟨blanks, hblanks, isBlank_of_skip hskip fun c hc => hbares c (List.mem_append_left _ hc),
    fun c hc => hbares c (by simp [hc])⟩

/-! ### Names behind words -/

variable {b : Bound} {declared : Option Chars}

theorem eq_of_mem_nameBehind (h : b ∈ nameBehind declared list rest) : b = ⟨list, skip rest⟩ := by
  unfold nameBehind at h
  split at h
  · exact List.mem_singleton.1 h
  · exact absurd h List.not_mem_nil

theorem word_of_keyword {text : String} (h : keyword text cs = some rest) :
    word cs = some (text.toList, rest) := by
  unfold keyword at h
  split at h
  · next hword =>
    split at h
    · next hw =>
      obtain rfl := Option.some.inj h
      rw [hword, hw]
    · cases h
  · cases h

/-- The scan comes to the name of a constant enumeration. -/
theorem finds_of_keyword (h : keyword "enum" cs = some rest)
    (hname : ∀ c ∈ (skip rest).head?, inWord c = true) : Finds cs (skip rest) := by
  have hword := word_of_keyword h
  have hskip : skip cs = "enum".toList ++ rest := (wordHere_eq hword).1
  have hmoves : Moves (-1) 0 cs (skip rest) := by
    have hstart := moves_skip (-1) cs
    rw [hskip] at hstart
    have henum : Moves (-1) 0 ("enum".toList ++ rest) rest :=
      moves_inert (-1) (Text.forall_mem_of_all (by decide)) rest
    exact (hstart.trans henum (Int.le_refl _)).trans (moves_skip (-1) rest) (Int.le_refl _)
  refine ⟨0, Int.le_refl 0, hmoves, fun source hsource hne => ?_⟩
  obtain ⟨gap, hgap, hparted⟩ := exists_parted_skip rest
  have hapart : gap ≠ [] := by
    rintro rfl
    -- where nothing is skipped the first word goes on
    obtain ⟨c, tail, hplace⟩ := List.exists_cons_of_ne_nil hne
    have hin := hname c (by rw [hplace]; rfl)
    rw [head_of_wordHere hword c (by rw [hgap, hplace]; rfl)] at hin
    cases hin
  obtain ⟨before, rfl, -⟩ := hsource
  obtain ⟨blanks, hcs, -⟩ := passes_skip cs
  rw [hskip, hgap] at hcs
  refine ⟨before ++ blanks ++ "enum".toList ++ gap, ?_, (hparted hne).append_of_ne_nil hapart⟩
  rw [hcs]
  simp

theorem list_of_mem_variablesBehind (h : b ∈ variablesBehind depth rest) : b.list = rest := by
  unfold variablesBehind at h
  split at h
  · obtain rfl := List.mem_singleton.1 h
    rfl
  · obtain ⟨place, -, rfl⟩ := List.mem_map.1 h
    rfl

/-- **Where the scan comes to the name of a variable, it is in a pattern**, and a word begins. -/
theorem exists_arrival_of_mem_variablesBehind (h : b ∈ variablesBehind depth rest)
    (hname : wordHere b.place = some (w, back)) (hw : Text.isIdentifierChars w = true) :
    ∃ front, rest = front ++ b.place ∧ DeclaratorScan.Parted front ∧
      (Quiet {} rest b.place → (DeclaratorScan.after {} front).Calm ∧
        (DeclaratorScan.after {} front).inPattern = true) := by
  have hplace := (wordHere_eq hname).1
  obtain ⟨c, w', rfl, -⟩ := exists_cons_of_wordHere hname
  have hne : b.place ≠ [] := by
    rw [hplace]
    exact List.cons_ne_nil _ _
  unfold variablesBehind at h
  split at h
  · next behind henum =>
    obtain rfl := List.mem_singleton.1 h
    refine exists_arrival (Renews.refl rest)
      (finds_of_keyword (Option.filter_eq_some_iff.1 henum).1 fun d hd => ?_) hne
    rw [show skip behind = c :: w' ++ back from hplace] at hd
    obtain rfl := Option.some.inj hd
    exact inWord_of_isWordPart (Text.isWordPart_of_isIdentifierChars hw _ List.mem_cons_self)
  · obtain ⟨place, hlisted, rfl⟩ := List.mem_map.1 h
    unfold listPlaces at hlisted
    split at hlisted
    · next ds behind hdeclarators =>
      obtain ⟨d, hd, hpattern⟩ := List.mem_flatMap.1 hlisted
      exact exists_arrival (renews_of_mem_declarators (steady_reader depth) hdeclarators hd)
        (finds_of_mem_patternPlaces hpattern) hne
    · exact absurd hlisted List.not_mem_nil

/-- The words that are read in front of a name. -/
def bindingWords : List String := bindingModifiers ++ ["class", "enum", "const", "let", "var"]

theorem isWordPart_of_mem_bindingWords {c : Char} (hw : String.ofList w ∈ bindingWords)
    (hc : c ∈ w) : Text.isWordPart c = true := by
  have hall : ∀ text ∈ bindingWords, text.toList.all Text.isWordPart = true := by decide
  exact List.all_eq_true.1 (hall _ hw) c (by rwa [String.toList_ofList])

/-- A word that is read by the grammar is read by the scan as well. -/
theorem exists_split {r : Reader} (hr : Steady r) {u : Chars}
    (h : word (many (decoratorEnd r) cs) = some (w, front ++ list)) (hbare : Bare cs list)
    (hw : String.ofList w ∈ bindingWords) (hcs : cs = u ++ stop) (hlist : list = back ++ stop) :
    Text.splitWord u = (w, front ++ back) ∧ (front ++ back).length < u.length ∧
      ∀ c ∈ front, isBare c = true := by
  obtain ⟨blanks, hblanks, hblank, hfront⟩ := exists_blanks_of_word hr h hbare
  obtain ⟨c, w', hcons, -⟩ := exists_cons_of_wordHere h
  have hsame : u ++ stop = (blanks ++ (w ++ (front ++ back))) ++ stop := by
    rw [← hcs, hblanks, hlist]
    simp
  obtain rfl := List.append_cancel_right hsame
  refine ⟨splitWord_append hblank (fun c => isWordPart_of_mem_bindingWords hw) (by simp [hcons])
    fun d hd => ?_, ?_, hfront⟩
  · refine isWordPart_eq_false (head_of_wordHere h d ?_)
    rw [hlist, ← List.append_assoc, List.head?_append, hd]
    rfl
  · simp only [hcons, List.length_append, List.length_cons]
    omega

/-- What a name is bound by: a word that says what is declared, or more words behind a modifier. -/
inductive Declares (depth fuel : ℕ) (b : Bound) (w rest : Chars) : Prop
  /-- The declaration follows. -/
  | modifier : String.ofList w ∈ bindingModifiers → b ∈ boundFrom depth fuel rest →
      Declares depth fuel b w rest
  /-- A class or an enumeration. -/
  | type : String.ofList w ∈ ["class", "enum"] → b = ⟨skip rest, skip rest⟩ →
      Declares depth fuel b w rest
  /-- A list of variables or a constant enumeration. -/
  | variables : String.ofList w ∈ ["const", "let", "var"] → b ∈ variablesBehind depth rest →
      Declares depth fuel b w rest

section Declares

variable {fuel : ℕ}

/-- **The first word of a declaration.** -/
theorem exists_declares (h : b ∈ boundFrom depth (fuel + 1) cs) :
    ∃ w rest, word (many (decoratorEnd (reader depth)) cs) = some (w, rest) ∧
      Declares depth fuel b w rest := by
  rw [boundFrom] at h
  split at h
  · exact absurd h List.not_mem_nil
  · next w rest hword =>
    refine ⟨w, rest, hword, ?_⟩
    dsimp only at h
    split_ifs at h with hmodifier hclass henum hvariable
    · exact .modifier (by simpa using hmodifier) h
    · exact .type (by simp [hclass]) (eq_of_mem_nameBehind h)
    · exact .type (by simp [henum]) (eq_of_mem_nameBehind h)
    · exact .variables (by simpa [variableWord, or_assoc] using hvariable) h
    · exact absurd h List.not_mem_nil

theorem Declares.mem_bindingWords (h : Declares depth fuel b w rest) :
    String.ofList w ∈ bindingWords := by
  rcases h with ⟨hw, -⟩ | ⟨hw, -⟩ | ⟨hw, -⟩
  · exact List.mem_append_left _ hw
  · exact List.mem_append_right _ (List.mem_append_left ["const", "let", "var"] hw)
  · exact List.mem_append_right _ (List.mem_append_right ["class", "enum"] hw)

theorem Declares.exists_gap (h : Declares depth fuel b w rest)
    (hmore : b ∈ boundFrom depth fuel rest → ∃ gap, rest = gap ++ b.list) :
    ∃ gap, rest = gap ++ b.list := by
  rcases h with ⟨-, hmem⟩ | ⟨-, rfl⟩ | ⟨-, hmem⟩
  · exact hmore hmem
  · obtain ⟨blanks, hskip, -⟩ := passes_skip rest
    exact ⟨blanks, hskip⟩
  · exact ⟨[], list_of_mem_variablesBehind hmem ▸ rfl⟩

/-- What stands in front of the names of a declaration. -/
theorem exists_list_of_mem_boundFrom (h : b ∈ boundFrom depth fuel cs) :
    ∃ front, cs = front ++ b.list := by
  induction fuel generalizing cs with
  | zero => exact absurd h List.not_mem_nil
  | succ fuel ih =>
    obtain ⟨w, rest, hword, hdeclares⟩ := exists_declares h
    obtain ⟨before, hbefore, -⟩ := passes_decorators (steady_reader depth) cs
    obtain ⟨between, hbetween, -⟩ := passes_skip (many (decoratorEnd (reader depth)) cs)
    obtain ⟨gap, rfl⟩ := hdeclares.exists_gap ih
    rw [hbetween, (wordHere_eq hword).1] at hbefore
    exact ⟨before ++ between ++ w ++ gap, by rw [hbefore]; simp⟩

/-- **Where the scan comes to a name, it is in a pattern**, and a word begins. -/
theorem exists_arrival_of_mem_boundFrom (h : b ∈ boundFrom depth fuel cs)
    (hname : wordHere b.place = some (w, back)) (hw : Text.isIdentifierChars w = true) :
    ∃ front, b.list = front ++ b.place ∧ Parted front ∧
      (Quiet {} b.list b.place → (DeclaratorScan.after {} front).Calm ∧
        (DeclaratorScan.after {} front).inPattern = true) := by
  induction fuel generalizing cs with
  | zero => exact absurd h List.not_mem_nil
  | succ fuel ih =>
    obtain ⟨-, rest, -, ⟨-, hmem⟩ | ⟨-, rfl⟩ | ⟨-, hmem⟩⟩ := exists_declares h
    · exact ih hmem
    · exact ⟨[], rfl, DeclaratorScan.parted_nil, fun _ => ⟨⟨rfl, rfl, rfl⟩, rfl⟩⟩
    · rw [list_of_mem_variablesBehind hmem]
      exact exists_arrival_of_mem_variablesBehind hmem hname hw

end Declares

/-! ### Names in the text of a declaration -/

section Scan

variable {fuel : ℕ} {u : Chars}

theorem declaredFrom_of_modifier (hsplit : Text.splitWord u = (w, rest))
    (hw : String.ofList w ∈ bindingModifiers) :
    declaredFrom (fuel + 1) u = declaredFrom fuel rest := by
  have hall : ∀ text ∈ bindingModifiers, Store.modifiers.contains text = true := by decide
  rw [declaredFrom, hsplit]
  exact if_pos (hall _ hw)

theorem declaredFrom_of_type (hsplit : Text.splitWord u = (w, rest))
    (hw : String.ofList w ∈ ["class", "enum"])
    (hname : Text.isIdentifierChars (Text.splitWord rest).1 = true) :
    declaredFrom (fuel + 1) u = some [String.ofList (Text.splitWord rest).1] := by
  rw [declaredFrom, hsplit]
  rcases List.mem_pair.1 hw with h | h <;>
    simp [h, Store.modifiers, Store.variableWords, Store.typeWords, hname]

theorem declaredFrom_of_variable (hsplit : Text.splitWord u = (w, rest))
    (hw : String.ofList w ∈ ["const", "let", "var"]) :
    declaredFrom (fuel + 1) u = some (declaratorNames rest) := by
  have hall : ∀ text ∈ ["const", "let", "var"], Store.modifiers.contains text = false ∧
      text ≠ "function" ∧ Store.variableWords.contains text = true := by decide
  obtain ⟨hmodifier, hfunction, hvariable⟩ := hall _ hw
  rw [declaredFrom, hsplit]
  dsimp only
  rw [hmodifier, hvariable, if_neg Bool.false_ne_true, if_neg hfunction, if_pos rfl]

end Scan

/-- **A name that is bound is found**, if only words and blanks stand in front of the list, nothing
that is hidden in the list moves the scan in front of the name, and the name is an identifier. -/
theorem mem_declaredFrom {fuel fuel' : ℕ} {u : Chars} (h : b ∈ boundFrom depth fuel cs)
    (hbare : Bare cs b.list) (hquiet : Quiet {} b.list b.place)
    (hname : wordHere b.place = some (w, back ++ stop)) (hw : Text.isIdentifierChars w = true)
    (hcs : cs = u ++ stop) (hfuel : u.length < fuel') :
    ∃ names, declaredFrom fuel' u = some names ∧ String.ofList w ∈ names := by
  obtain ⟨front, hlist, hparted, hscan⟩ := exists_arrival_of_mem_boundFrom h hname hw
  obtain ⟨hcalm, hin⟩ := hscan hquiet
  have hback : ∀ c ∈ back.head?, Text.isWordPart c = false := fun c hc =>
    isWordPart_eq_false (head_of_wordHere hname c (by rw [List.head?_append, hc]; rfl))
  have hnames : b.list = (front ++ (w ++ back)) ++ stop := by
    rw [hlist, (wordHere_eq hname).1]
    simp
  -- along the words in front of the list
  induction fuel generalizing cs u fuel' with
  | zero => exact absurd h List.not_mem_nil
  | succ fuel ih =>
    cases fuel' with
    | zero => exact absurd hfuel (Nat.not_lt_zero _)
    | succ fuel' =>
    obtain ⟨w₁, rest, hword, hdeclares⟩ := exists_declares h
    obtain ⟨gap, rfl⟩ := hdeclares.exists_gap exists_list_of_mem_boundFrom
    obtain ⟨hsplit, hlength, hgap⟩ :=
      exists_split (steady_reader depth) hword hbare hdeclares.mem_bindingWords hcs hnames
    rcases hdeclares with ⟨hw₁, hmem⟩ | ⟨hw₁, hb⟩ | ⟨hw₁, hmem⟩
    -- a modifier, a class or an enumeration with one name, or a list of variables
    · rw [declaredFrom_of_modifier hsplit hw₁]
      exact ih hmem (bare_iff.2 hgap) (by rw [hnames]; simp) (by omega)
    · have hskip : skip (gap ++ b.list) = b.list := (congrArg Bound.list hb).symm
      have hsame : b.list = b.place := by rw [hb]
      rw [hsame] at hlist
      obtain rfl := List.self_eq_append_left.1 hlist
      have hne : w ≠ [] := by
        rintro rfl
        cases hw
      have hsecond : Text.splitWord (gap ++ ([] ++ (w ++ back))) = (w, back) :=
        splitWord_append (isBlank_of_skip hskip hgap) (Text.isWordPart_of_isIdentifierChars hw) hne
          hback
      have hidentifier : Text.isIdentifierChars
          (Text.splitWord (gap ++ ([] ++ (w ++ back)))).1 = true := by rwa [hsecond]
      rw [declaredFrom_of_type hsplit hw₁ hidentifier, hsecond]
      exact ⟨_, rfl, List.mem_singleton_self _⟩
    · have hnone : gap = [] := List.self_eq_append_left.1 (list_of_mem_variablesBehind hmem)
      rw [declaredFrom_of_variable hsplit hw₁, hnone]
      exact ⟨_, rfl, DeclaratorScan.mem_names_of_word hw hparted hback hcalm hin⟩

end Source

end ModuleScaffold
