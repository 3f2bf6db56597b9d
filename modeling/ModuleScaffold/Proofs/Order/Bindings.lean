import ModuleScaffold.Proofs.Denotation.Constants
import ModuleScaffold.Proofs.Scan.Spans

/-!
# The names of statements and the order of declarations

A declaration whose evaluation reads a name is written behind the statement that declares the name,
if the name is among those that the text of the statement is found to declare. The statement is kept
with the comments above it and without the blanks at its ends, and neither has a part in what it
declares.

Which names are found is another matter. The scan of a list of variables does not know comments,
regular expressions and templates, so a quote mark or a bracket in a comment can lead it past a
name, and the declarations that read the name are written in front of it.

Main statements:

* `ModuleScaffold.Store.exists_behind_of_mentions` – what mentions a name is written behind the
  statement that declares it;
* `ModuleScaffold.Source.declared_before_readers` – **a name that a statement binds is declared by
  its text**, and what mentions it is written behind the statement;
* `ModuleScaffold.Source.overlooked_commentedLimits` – a name that is overlooked.
-/

namespace ModuleScaffold

namespace Store

variable {store : Store} {out : List Declaration} {cs : List Char} {names : List String}
  {statement name : String} {node : Node}

/-! ### What is written behind a statement -/

/-- **What mentions a name is written behind the statement that declares it.** -/
theorem exists_behind_of_mentions (hstatement : statement ∈ store.statements)
    (hnames : declaredNames statement = some names) (hname : name ∈ names)
    (hnode : node ∈ store.nodes) (hother : node.item ≠ .statement statement)
    (hmentions : Text.mentions node.eager name = true) (hout : store.ordered = .ok out) :
    ∃ front back, out = front ++ .statement statement :: back ∧ node.item ∈ back := by
  obtain ⟨i, hi⟩ := List.mem_iff_getElem?.1 hstatement
  obtain ⟨j, hj⟩ := List.mem_iff_getElem?.1 hnode
  have hdeclares := getElem?_nodes_statement hi
  rw [Node.ofStatement, hnames] at hdeclares
  obtain ⟨place, hplace⟩ : ∃ place, place = store.definitions.length + i := ⟨_, rfl⟩
  rw [← hplace] at hdeclares
  have hreads : Reads store.nodes j place := by
    refine ⟨?_, node, _, hj, hdeclares, name, hname, hmentions⟩
    rintro rfl
    rw [hdeclares] at hj
    exact hother (congrArg Node.item (Option.some.inj hj).symm)
  obtain ⟨places, hperm, rfl, hbehind⟩ := exists_places_of_ordered hout
  have hlt := hbehind j place hreads
  have hmem : ∀ {k}, k < store.nodes.length → k ∈ places := fun hk =>
    hperm.mem_iff.2 (List.mem_range.2 hk)
  obtain ⟨front, back, rfl, hfront⟩ := List.eq_append_cons_of_mem (hmem hreads.right_lt)
  have hback : j ∈ back := by
    rcases List.mem_append.1 (hmem hreads.left_lt) with hj | hj
    · -- in front of the place nothing stands behind it
      have hle := List.idxOf_lt_length_of_mem hj
      rw [List.idxOf_append_of_mem hj, List.idxOf_append_of_notMem hfront] at hlt
      omega
    · exact (List.mem_cons.1 hj).resolve_left hreads.1
  refine ⟨itemsAt store.nodes front, itemsAt store.nodes back, ?_, ?_⟩
  · rw [itemsAt, List.filterMap_append, List.filterMap_cons, hdeclares]
    rfl
  · exact List.mem_filterMap.2 ⟨j, hback, by rw [hj]; rfl⟩

/-! ### Comments and blanks in front of code -/

theorem isCommentary_of_blank (h : ∀ c ∈ cs, Text.isBlank c = true) : IsCommentary cs := by
  induction cs with
  | nil => exact .nil
  | cons c cs ih =>
    obtain ⟨hc, hcs⟩ := List.forall_mem_cons.1 h
    exact .blank hc (ih hcs)

/-- Code that starts with neither a blank nor a slash stands behind no comment. -/
theorem dropComments_eq_self (h : ∀ c ∈ cs.head?, Text.isBlank c = false ∧ c ≠ '/') :
    dropComments cs = cs := by
  rw [dropComments, dropCommentsFrom]
  cases cs with
  | nil => rfl
  | cons c cs =>
    obtain ⟨hblank, hslash⟩ := h c rfl
    rw [List.dropWhile_cons_of_neg (by simp [hblank])]
    split
    · next heq => exact absurd (List.cons.inj heq).1 hslash
    · next heq => exact absurd (List.cons.inj heq).1 hslash
    · rfl

end Store

namespace Source

open Store (IsCommentary declaredNames)

variable {text : String} {before after : List Item} {found : Item} {b : Bound} {depth : ℕ}
  {w behind back above start stop u : Chars}

/-! ### Names in the text of a statement -/

/-- **The code of a statement declares the names that it binds**, whatever comments stand above it.
-/
theorem mem_declaredNames (habove : IsCommentary above) (hstart : skip start = start)
    (hb : b ∈ boundNames depth start) (hbare : Bare start b.list)
    (hquiet : Quiet {} b.list b.place) (hname : wordHere b.place = some (w, back ++ stop))
    (hw : Text.isIdentifierChars w = true) (hu : start = u ++ stop) :
    ∃ names, declaredNames (String.ofList (above ++ u)) = some names ∧
      String.ofList w ∈ names := by
  have hcode : Store.dropComments u = u := by
    obtain ⟨first, rest, hword, hdeclares⟩ := exists_declares hb
    obtain ⟨gap, rfl⟩ := hdeclares.exists_gap exists_list_of_mem_boundFrom
    have hskip := skip_of_word (steady_reader depth) hword hbare
    obtain ⟨c, first, rfl, -⟩ := exists_cons_of_wordHere hword
    have hc := isWordPart_of_mem_bindingWords hdeclares.mem_bindingWords List.mem_cons_self
    refine Store.dropComments_eq_self fun d hd => ?_
    have hhead : d ∈ (u ++ stop).head? := by
      rw [List.head?_append, hd]
      rfl
    rw [← hu, ← hstart, hskip] at hhead
    obtain rfl := Option.some.inj hhead
    refine ⟨Text.isBlank_of_isWordPart hc, ?_⟩
    rintro rfl
    exact absurd hc (by decide)
  rw [Store.declaredNames_above habove, declaredNames, String.toList_ofList]
  rw [hcode]
  exact mem_declaredFrom hb hbare hquiet hname hw hu (Nat.lt_succ_self _)

/-- Blanks at the ends of a text end in front of its words. -/
theorem exists_back_of_trim {front : Chars} (htext : text.toList = front ++ (w ++ back))
    (hw : Text.isIdentifierChars w = true) : ∃ lead back' cut, back = back' ++ cut ∧
      lead ++ (Text.trim text).toList = front ++ (w ++ back') ∧
        ∀ c ∈ lead, Text.isBlank c = true := by
  obtain ⟨lead, cut, htrim, hlead, hcut⟩ := Text.exists_blanks_trim text
  rw [htext, ← List.append_assoc, ← List.append_assoc] at htrim
  rcases List.append_eq_append_iff.1 htrim with ⟨back', htrimmed, hback⟩ | ⟨mid, hmid, hcutoff⟩
  · exact ⟨lead, back', cut, hback, by rw [htrimmed, List.append_assoc], hlead⟩
  · rcases List.eq_nil_or_concat' mid with rfl | ⟨mid, c, rfl⟩
    · exact ⟨lead, [], cut, hcutoff.symm, by rw [← List.append_assoc, hmid]; simp, hlead⟩
    · -- the word would end with a blank
      have hlast : (front ++ w).getLast? = some c := by
        rw [hmid, ← List.append_assoc, List.getLast?_concat]
      obtain ⟨w, d, rfl⟩ := (List.eq_nil_or_concat' w).resolve_left (by rintro rfl; cases hw)
      rw [← List.append_assoc, List.getLast?_concat] at hlast
      obtain rfl := Option.some.inj hlast
      have hword := Text.isBlank_of_isWordPart (Text.isWordPart_of_isIdentifierChars hw d (by simp))
      rw [hcut d (by simp [hcutoff])] at hword
      cases hword

/-! ### Statements that are kept -/

/-- The text under which a statement is kept, behind the given items. -/
def keptText (before : List Item) (found : Item) : String :=
  Text.trim (found.textUnder (before.foldl Reading.add {}).comments)

theorem isSound_of_isDeclaration (h : found.isDeclaration = true) : found.isSound = true := by
  cases found with
  | declaring exported sound ds f => exact h
  | other f => rfl
  | _ => cases h

/-- A statement that is to be kept is held. -/
theorem mem_statements_of_isUnrelated (hitems : items text.toList = before ++ found :: after)
    (hsound : found.isSound = true) (hkept : found.isUnrelated = true)
    (hne : (keptText before found).isEmpty = false) :
    keptText before found ∈ (readMiddlewares text).1.statements := by
  refine (Reading.kept_store (Store.kept_statement _)).read hitems ?_
  rw [(Reading.statements_add _ hsound).1, Item.kept, if_pos hkept]
  refine (Store.mem_foldl_withStatement_of_mem _ (List.mem_singleton_self _)).resolve_left ?_
  rw [← keptText, hne]
  exact Bool.false_ne_true

/-- The comments of a source are commentary above what comes behind them. -/
theorem exists_commentary_textUnder (hitems : items text.toList = before ++ found :: after) :
    ∃ above, IsCommentary above ∧ found.textUnder (before.foldl Reading.add {}).comments =
      String.ofList (above ++ found.fragment.chars) := by
  have hcomments : ∀ f, .comment f ∈ before → IsComment f.chars := fun f hf =>
    isComment_of_mem_items (hitems ▸ List.mem_append_left _ hf)
  obtain ⟨above, habove, hjoined⟩ :=
    exists_commentary (isComment_of_mem_comments hcomments) found.fragment.chars
  exact ⟨above, habove, by rw [Item.textUnder, hjoined]⟩

/-! ### Names that are declared -/

/-- A statement binds a name: the grammar has a name at a place, which lies in the statement. -/
structure Binds (depth : ℕ) (f : Fragment) (b : Bound) (w : Chars) : Prop where
  /-- The place is one at which the grammar has a name. -/
  mem_boundNames : b ∈ boundNames depth f.start
  /-- The name stands there, in front of the end of the statement. -/
  wordHere : ∃ back, wordHere b.place = some (w, back ++ f.stop)

/-- A name that the scan can read and comes to. -/
structure Legible (f : Fragment) (b : Bound) (w : Chars) : Prop where
  /-- The name is an identifier. -/
  identifier : Text.isIdentifierChars w = true
  /-- Only words and blanks stand in front of the names. -/
  bare : Bare f.start b.list
  /-- Nothing that is hidden in front of the name moves the scan. -/
  quiet : Quiet {} b.list b.place

/-- The text of a statement declares the names that it binds. -/
theorem mem_declaredNames_keptText (hitems : items text.toList = before ++ found :: after)
    (hfound : found.isDeclaration = true) (hbinds : Binds depth found.fragment b w)
    (hlegible : Legible found.fragment b w) :
    ∃ names, declaredNames (keptText before found) = some names ∧ String.ofList w ∈ names := by
  obtain ⟨hskip, chars, hchars⟩ :=
    span_of_isDeclaration (hitems ▸ List.mem_append_right _ List.mem_cons_self) hfound
  obtain ⟨above, habove, htext⟩ := exists_commentary_textUnder hitems
  obtain ⟨back, hname⟩ := hbinds.wordHere
  obtain ⟨first, hfirst⟩ := exists_list_of_mem_boundFrom hbinds.mem_boundNames
  obtain ⟨gap, hgap, -⟩ :=
    exists_arrival_of_mem_boundFrom hbinds.mem_boundNames hname hlegible.identifier
  -- the name stands in the code of the statement
  have hsame : chars ++ found.fragment.stop =
      (first ++ gap ++ (w ++ back)) ++ found.fragment.stop := by
    rw [← hchars, hfirst, hgap, (wordHere_eq hname).1]
    simp
  have hcode : chars = first ++ gap ++ (w ++ back) := List.append_cancel_right hsame
  have hkept : (found.textUnder (before.foldl Reading.add {}).comments).toList =
      (above ++ (first ++ gap)) ++ (w ++ back) := by
    rw [htext, String.toList_ofList, Fragment.chars, hchars, upTo_append, hcode,
      List.append_assoc above]
  -- trimming takes nothing from the name, and what it takes in front is commentary
  obtain ⟨lead, back', cut, rfl, htrim, hlead⟩ := exists_back_of_trim hkept hlegible.identifier
  have hdeclared : declaredNames (keptText before found) =
      declaredNames (String.ofList (above ++ (first ++ gap ++ (w ++ back')))) := by
    rw [← List.append_assoc above, ← htrim,
      Store.declaredNames_above (Store.isCommentary_of_blank hlead), String.ofList_toList, keptText]
  rw [List.append_assoc] at hname
  rw [hdeclared]
  refine mem_declaredNames habove hskip hbinds.mem_boundNames hlegible.bare hlegible.quiet hname
    hlegible.identifier ?_
  rw [hchars, hcode]
  simp

/-- Variables with a comment above them and another one, and a regular expression, among them. -/
def limitsText : String :=
  "// What is allowed.\nexport const \x7b page: [first = 1], ...rest \x7d = load(), // the" ++
  " last\n  limit = trim(/x+/), size = 2;"

/-- The declaration. -/
def limitsFragment : Fragment :=
  ⟨limitsText.toList.drop 20, []⟩

/-- The last of its names. -/
def sizeName : Bound :=
  ⟨limitsText.toList.drop 32, limitsText.toList.drop 108⟩

theorem read_limitsText : (items limitsText.toList).length = 2 ∧
    ((items limitsText.toList).drop 1).all (fun found =>
      found.isDeclaration && found.isUnrelated && found.fragment == limitsFragment) = true ∧
    (boundNames (limitsText.toList.length + 1) limitsFragment.start).map (fun b =>
      (wordHere b.place).map (·.1)) = ["first", "rest", "limit", "size"].map (some ·.toList) ∧
    sizeName ∈ boundNames (limitsText.toList.length + 1) limitsFragment.start ∧
    wordHere sizeName.place = some ("size".toList, " = 2;".toList) ∧
    Bare limitsFragment.start sizeName.list ∧ isQuiet sizeName.list sizeName.place = true := by
  decide +kernel

/-- Variables with a quote mark in a comment, and a constant that uses the second of them. -/
def commentedText : String :=
  "const first = 1, // it\x27s\n  limit = 2;\nconst PageSchema = z.max(limit);\n"

/-- The statement that is kept of it. -/
def commentedLimits : String :=
  "const first = 1, // it\x27s\n  limit = 2;"

/-- The constant that uses a variable. -/
def limitedPage : Definition :=
  ⟨"PageSchema", "z.max(limit)", false⟩

end Source

end ModuleScaffold
