import ModuleScaffold.Proofs.Denotation.Initializers
import ModuleScaffold.Proofs.Reading.Import

/-!
# Passages of a written file

A written file is a row of texts, each of which stands on lines of its own: the comment at the
start, imports, schema constants and kept statements. A text *contributes* something
(`ModuleScaffold.Source.Contributes`) if it is read in whole comments and statements whatever stands
on the lines behind it, and if these change what has been read in a given way, without a complaint
and without a comment that is left over. So nothing that stands behind such a text has to be known,
and what a file declares is put together from what its texts contribute.

Main statements:

* `ModuleScaffold.Source.contributes_header` – the comment at the start contributes nothing;
* `ModuleScaffold.Source.contributes_import` – a statement that is read as an import contributes it;
* `ModuleScaffold.Source.contributes_definition`,
  `ModuleScaffold.Source.contributes_keptDefinition` – a constant is contributed if its name is that
  of a schema, and kept as it is written if not;
* `ModuleScaffold.Source.passage_blocks` – **blocks of constants and statements contribute them**,
  in the order in which they stand.
-/

namespace ModuleScaffold

namespace Text

/-- Texts that are joined, with one more behind them. -/
theorem joinWith_concat (separator last : List Char) : ∀ texts : List (List Char),
    joinWith separator (texts ++ [last]) = texts.flatMap (· ++ separator) ++ last
  | [] => rfl
  | [text] => by simp [joinWith]
  | text :: other :: texts => by
    have ih := joinWith_concat separator last (other :: texts)
    rw [List.cons_append] at ih
    rw [List.cons_append, List.cons_append, joinWith, ih, ← List.append_assoc]
    rfl

end Text

namespace Source

/-! ### From one place to another -/

section ReadsTo

variable {r : Reader} {cs mid rest : Chars} {found more : List Item}

theorem ReadsTo.refl (r : Reader) (cs : Chars) : ReadsTo r cs [] cs :=
  have hnone : ∀ c ∈ ([] : Chars), isSpace c = true := fun _ h => absurd h List.not_mem_nil
  .here hnone

/-- Blanks in front of a text change nothing. -/
theorem ReadsTo.blanks {blanks : Chars} (hblanks : ∀ c ∈ blanks, isSpace c = true)
    (h : ReadsTo r cs found rest) : ReadsTo r (blanks ++ cs) found rest := by
  have hdrop : (blanks ++ cs).dropWhile isSpace = cs.dropWhile isSpace :=
    List.dropWhile_append_of_pos hblanks
  cases h with
  | @here more rest hmore =>
    rw [← List.append_assoc]
    exact .here fun c hc => (List.mem_append.1 hc).elim (hblanks c) (hmore c)
  | comment hcomment hbehind =>
    rw [← hdrop] at hcomment ⊢
    exact .comment hcomment hbehind
  | statement hcomment hstatement hbehind =>
    rw [← hdrop] at hcomment hstatement
    exact .statement hcomment hstatement hbehind

theorem ReadsTo.trans (h : ReadsTo r cs found mid) (h' : ReadsTo r mid more rest) :
    ReadsTo r cs (found ++ more) rest := by
  induction h with
  | here hblanks => exact h'.blanks hblanks
  | comment hcomment _ ih => exact .comment hcomment (ih h')
  | statement hcomment hstatement _ ih => exact .statement hcomment hstatement (ih h')

end ReadsTo

/-- What stands between two places is read in whole comments and statements. They change the store
that has been read, and nothing else: there are no complaints and no comments that are left over. -/
def Passage (depth : ℕ) (change : Store → Store) (cs rest : Chars) : Prop :=
  ∃ found, ReadsTo (reader depth) cs found rest ∧
    ∀ reading : Reading, reading.comments = [] →
      found.foldl Reading.add reading = { reading with store := change reading.store }

section Passage

variable {depth : ℕ} {change more : Store → Store} {cs mid rest : Chars}

theorem Passage.here (depth : ℕ) (cs : Chars) : Passage depth id cs cs :=
  ⟨[], .refl _ cs, fun _ _ => rfl⟩

theorem Passage.blanks {blanks : Chars} (hblanks : ∀ c ∈ blanks, isSpace c = true)
    (h : Passage depth change cs rest) : Passage depth change (blanks ++ cs) rest := by
  obtain ⟨found, hreads, hfound⟩ := h
  exact ⟨found, hreads.blanks hblanks, hfound⟩

/-- Passages are put together. -/
theorem Passage.trans (h : Passage depth change cs mid) (h' : Passage depth more mid rest) :
    Passage depth (fun store => more (change store)) cs rest := by
  obtain ⟨found, hreads, hfound⟩ := h
  obtain ⟨found', hreads', hfound'⟩ := h'
  refine ⟨found ++ found', hreads.trans hreads', fun reading hcomments => ?_⟩
  rw [List.foldl_append, hfound reading hcomments]
  exact hfound' _ hcomments

end Passage

/-! ### Texts on lines of their own -/

/-- A text is read in whole comments and statements, whatever stands on the lines behind it, and
changes the store in the given way. -/
def Contributes (text : Chars) (change : Store → Store) : Prop :=
  ∀ (depth : ℕ) (rest : Chars), text.length < depth →
    Passage depth change (text ++ '\n' :: rest) ('\n' :: rest)

/-- The ends of lines between two texts. -/
def IsGap (gap : Chars) : Prop :=
  ∃ blanks : Chars, gap = '\n' :: blanks ∧ ∀ c ∈ blanks, isSpace c = true

theorem isGap_line : IsGap ['\n'] :=
  ⟨[], rfl, fun _ h => absurd h List.not_mem_nil⟩

theorem isGap_lines : IsGap ['\n', '\n'] :=
  ⟨['\n'], rfl, List.forall_mem_singleton.2 rfl⟩

section Contributes

variable {depth : ℕ} {text gap tail : Chars} {change : Store → Store}

/-- A text with a gap behind it, in front of others. -/
theorem Contributes.passage (h : Contributes text change) (hgap : IsGap gap)
    (hdepth : text.length < depth) : Passage depth change (text ++ gap ++ tail) tail := by
  obtain ⟨blanks, rfl, hblanks⟩ := hgap
  have hgap : Passage depth id ('\n' :: blanks ++ tail) tail :=
    (Passage.here depth tail).blanks (List.forall_mem_cons.2 ⟨rfl, hblanks⟩)
  rw [List.append_assoc]
  exact (h depth (blanks ++ tail) hdepth).trans hgap

/-- A statement that is read whatever stands on the lines behind it, and that changes the store. -/
theorem contributes_of_statement {c : Char} {cs : Chars} (hc : Leads c)
    (h : ∀ (depth : ℕ) (rest : Chars), (c :: cs).length < depth → ∃ item,
      statement (reader depth) (c :: cs ++ '\n' :: rest) = some (item, '\n' :: rest) ∧
        ∀ reading : Reading, reading.comments = [] →
          reading.add item = { reading with store := change reading.store }) :
    Contributes (c :: cs) change := by
  intro depth rest hdepth
  obtain ⟨item, hitem, hadd⟩ := h depth rest hdepth
  have hdrop : (c :: cs ++ '\n' :: rest).dropWhile isSpace = c :: cs ++ '\n' :: rest := by
    rw [List.cons_append, List.dropWhile_cons_of_neg (by simp [hc.space])]
  refine ⟨[item], .statement ?_ (hdrop.symm ▸ hitem) (.refl _ _), hadd⟩
  rw [hdrop, List.cons_append, comment?_eq_none hc.slash]

variable {α : Type} {write : α → Chars} {put : α → Store → Store} {xs : List α}

/-- Texts with gaps behind them, one after the other. -/
theorem passage_flatMap (h : ∀ x ∈ xs, Contributes (write x) (put x)) (hgap : IsGap gap)
    (hdepth : (xs.flatMap fun x => write x ++ gap).length < depth) :
    Passage depth (fun store => xs.foldl (fun store x => put x store) store)
      ((xs.flatMap fun x => write x ++ gap) ++ tail) tail := by
  induction xs with
  | nil => exact .here depth tail
  | cons x xs ih =>
    rw [List.flatMap_cons, List.length_append, List.length_append] at hdepth
    rw [List.flatMap_cons, List.append_assoc]
    exact ((h x List.mem_cons_self).passage hgap (by omega)).trans
      (ih (fun y hy => h y (List.mem_cons_of_mem _ hy)) (by omega))

/-- Texts on neighbouring lines, one after the other. -/
theorem contributes_lines (h : ∀ x ∈ xs, Contributes (write x) (put x)) (hne : xs ≠ []) :
    Contributes (Text.joinWith ['\n'] (xs.map write))
      (fun store => xs.foldl (fun store x => put x store) store) := by
  obtain ⟨front, last, rfl⟩ := List.eq_nil_or_concat' xs |>.resolve_left hne
  intro depth rest hdepth
  rw [List.map_append, List.map_singleton, Text.joinWith_concat, List.flatMap_map] at hdepth ⊢
  rw [List.length_append] at hdepth
  rw [List.append_assoc]
  have hfront : Passage depth (fun store => front.foldl (fun store x => put x store) store)
      ((front.flatMap fun x => write x ++ ['\n']) ++ (write last ++ '\n' :: rest))
      (write last ++ '\n' :: rest) :=
    passage_flatMap (fun x hx => h x (List.mem_append_left _ hx)) isGap_line (by omega)
  have hlast := h last (List.mem_append_right _ (List.mem_singleton_self _)) depth rest (by omega)
  simp only [List.foldl_append, List.foldl_cons, List.foldl_nil]
  exact hfront.trans hlast

/-- Lines that are a block, if there are any, and a gap. -/
theorem passage_block (h : ∀ x ∈ xs, Contributes (write x) (put x)) (hgap : IsGap gap)
    (hdepth : ((Store.block (xs.map write)).flatMap (· ++ gap)).length < depth) :
    Passage depth (fun store => xs.foldl (fun store x => put x store) store)
      ((Store.block (xs.map write)).flatMap (· ++ gap) ++ tail) tail := by
  cases xs with
  | nil => exact .here depth tail
  | cons x xs =>
    have hblock : (Store.block ((x :: xs).map write)).flatMap (· ++ gap) =
        Text.joinWith ['\n'] ((x :: xs).map write) ++ gap := by
      rw [Store.block, List.map_cons, List.isEmpty_cons, if_neg Bool.false_ne_true,
        List.flatMap_singleton]
    rw [hblock, List.length_append] at hdepth
    rw [hblock]
    exact (contributes_lines h (List.cons_ne_nil _ _)).passage hgap (by omega)

end Contributes

/-! ### Comments, imports, constants and statements -/

/-- Whether a text is a comment that extends to the end of its line. -/
def isLineComment (text : Chars) : Bool :=
  ['/', '/'].isPrefixOf text && (text.drop 2).all (! endsLine ·)

theorem exists_of_isLineComment {text : Chars} (h : isLineComment text = true) :
    ∃ inner, text = '/' :: '/' :: inner ∧ ∀ c ∈ inner, (! endsLine c) = true := by
  obtain ⟨hstarts, hends⟩ := Bool.and_eq_true_iff.1 h
  obtain ⟨inner, rfl⟩ := List.isPrefixOf_iff_prefix.1 hstarts
  exact ⟨inner, rfl, List.all_eq_true.1 hends⟩

/-- Such a comment ends where its line ends. -/
theorem comment?_of_isLineComment {text : Chars} (h : isLineComment text = true) (rest : Chars) :
    comment? (text ++ '\n' :: rest) = some ('\n' :: rest) := by
  obtain ⟨inner, rfl, hends⟩ := exists_of_isLineComment h
  rw [List.cons_append, List.cons_append, comment?, List.dropWhile_append_of_pos hends,
    List.dropWhile_cons_of_neg (by decide)]

/-- A comment that is a line of the comment at the start is left out. -/
theorem contributes_headerLine {line : String} (hline : line ∈ Store.headerLines) :
    Contributes line.toList id := by
  intro depth rest _
  have hlines : ∀ line ∈ Store.headerLines, isLineComment line.toList = true := by decide +kernel
  have hcomment := comment?_of_isLineComment (hlines line hline) rest
  have hdrop : (line.toList ++ '\n' :: rest).dropWhile isSpace = line.toList ++ '\n' :: rest := by
    obtain ⟨inner, htext, -⟩ := exists_of_isLineComment (hlines line hline)
    rw [htext, List.cons_append, List.dropWhile_cons_of_neg (by decide)]
  refine ⟨_, .comment (hdrop.symm ▸ hcomment) (.refl _ _), fun reading _ => ?_⟩
  have hheader : Store.headerLines.contains
      (⟨line.toList ++ '\n' :: rest, '\n' :: rest⟩ : Fragment).text = true := by
    rw [Fragment.text, Fragment.chars, upTo_append, String.ofList_toList]
    exact List.contains_iff_mem.2 hline
  rw [hdrop]
  show reading.addComment _ = _
  rw [Reading.addComment, if_pos hheader]
  rfl

/-- The comment at the start of a written file contributes nothing. -/
theorem contributes_header :
    Contributes (Text.joinWith ['\n'] (Store.headerLines.map String.toList)) id := by
  have hlines : ∀ line ∈ Store.headerLines, Contributes line.toList ((fun _ => id) line) :=
    fun _ hline => contributes_headerLine hline
  exact contributes_lines hlines (List.cons_ne_nil _ _)

/-- **A statement that is read as an import contributes it.** -/
theorem contributes_import {text quoted : Chars} {names : List String}
    (h : ImportReads text quoted names) :
    Contributes text fun store => store.addImports (String.ofList (Text.unquoted quoted)) names := by
  obtain ⟨tail, rfl⟩ := h.begins
  refine contributes_of_statement ⟨by decide, by decide, by decide⟩ fun depth rest _ => ?_
  obtain ⟨item, hitem, himports⟩ := h.reads (reader depth) ('\n' :: rest)
  refine ⟨item, hitem, fun reading hcomments => ?_⟩
  rw [himports.add_eq, ← hcomments]

end Source

open Source

/-- The initializer of a constant is read back from its statement, whatever stands on the lines
behind it. -/
structure Definition.ComesBack (d : Definition) : Prop where
  /-- The name is one word. -/
  name : IsToken d.name.toList
  /-- It is not the one that makes an enumeration of a constant. -/
  notEnum : d.name.toList ≠ "enum".toList
  /-- The initializer is an expression that ends with the statement. -/
  initializer : ∀ (depth : ℕ) (rest : Chars), d.expression.toList.length < depth →
    ∃ value, (reader depth).expression true
        (' ' :: (d.expression.toList ++ ';' :: '\n' :: rest)) = some (value, ';' :: '\n' :: rest) ∧
      Intact value ∧ value.fragment.text = d.expression

/-- The constant is that of a schema and is read back. -/
structure Definition.IsRegular (d : Definition) : Prop extends d.ComesBack where
  /-- The name is that of a schema. -/
  schema : Store.isSchemaName d.name = true

namespace Source

/-- No schema has the name that makes an enumeration. -/
theorem ne_enum_of_isSchemaName {name : String} (h : Store.isSchemaName name = true) :
    name.toList ≠ "enum".toList := by
  intro heq
  rw [Store.isSchemaName, heq] at h
  exact absurd h (by decide)

/-- A constant contributes what it changes as a variable of its own. -/
theorem contributes_of_comesBack {d : Definition} {change : Store → Store} (h : d.ComesBack)
    (hadd : ∀ (declared : Declarator) (f : Fragment), declared.StandsFor d.name d.expression →
      f.chars = Store.renderDefinition d → ∀ reading : Reading, reading.comments = [] →
        reading.add (.declaring d.exported true [declared] f) =
          { reading with store := change reading.store }) :
    Contributes (Store.renderDefinition d) change := by
  have hrender := renderDefinition_eq d
  obtain ⟨c, cs, hcons, hc⟩ :=
    exists_cons_constantText d.exported d.name.toList (d.expression.toList ++ [';'])
  rw [hcons] at hrender
  rw [hrender]
  refine contributes_of_statement hc fun depth rest hdepth => ?_
  have htext : c :: cs ++ '\n' :: rest = constantText d.exported d.name.toList
      (d.expression.toList ++ ';' :: '\n' :: rest) := by
    rw [← hcons, constantText, constantText]
    simp only [List.append_assoc, List.cons_append, List.nil_append]
  have hlength : d.expression.toList.length < depth := by
    rw [← hcons, constantText] at hdepth
    simp only [List.length_append, List.length_cons] at hdepth
    omega
  obtain ⟨value, hvalue, hintact, hexpression⟩ := h.initializer depth rest hlength
  have hmore : (mark "," (';' :: '\n' :: rest)).bind (declarator (reader depth)) = none := by
    rw [mark_eq_none "," rfl (skip_semicolon _) (by decide), Option.bind_none]
  obtain ⟨declared, hdeclared, hstatement⟩ := statement_of_value h.name h.notEnum d.exported hvalue
    hintact hmore (endStatement_semicolon true _)
  rw [hexpression, String.ofList_toList] at hdeclared
  rw [← htext] at hstatement
  refine ⟨_, hstatement, hadd declared _ hdeclared ?_⟩
  rw [Fragment.chars, upTo_append, hrender]

/-- **The statement of a constant that is regular contributes it.** -/
theorem contributes_definition {d : Definition} (h : d.IsRegular) :
    Contributes (Store.renderDefinition d) fun store => store.insertDefinition d :=
  contributes_of_comesBack h.toComesBack fun _ f hdeclared _ reading hcomments => by
    rw [Reading.add_constant reading hdeclared h.schema d.exported f, ← hcomments]

/-- **The statement of any other constant is kept as it is written.** -/
theorem contributes_keptDefinition {d : Definition} (h : d.ComesBack)
    (hother : Store.isSchemaName d.name = false) :
    Contributes (Store.renderDefinition d) fun store =>
      store.addStatement (String.ofList (Store.renderDefinition d)) := by
  refine contributes_of_comesBack h fun declared f hdeclared hf reading hcomments => ?_
  have hisSchema : Reading.isSchema declared = false := by
    obtain ⟨name, hname, htext⟩ := Option.map_eq_some_iff.1 hdeclared.name
    rw [Reading.isSchema, hname]
    dsimp only
    rw [htext, hother]
  show { reading.addVariables d.exported true [declared] f with comments := [] } = _
  rw [Reading.addVariables, List.any_cons, hisSchema, List.any_nil, Bool.or_false, Bool.not_false,
    if_pos rfl, Reading.keep, if_pos rfl, hf, hcomments]
  dsimp only
  rw [List.nil_append, Text.joinWith]

/-! ### Declarations -/

/-- The text of a declaration. -/
def declarationText : Store.Declaration → Chars
  | .schema d => Store.renderDefinition d
  | .statement text => text.toList

/-- A store with one more declaration. -/
def declare : Store.Declaration → Store → Store
  | .schema d, store => store.insertDefinition d
  | .statement text, store => store.addStatement text

/-- **The blocks of a file contribute its constants and statements**, in the order in which they
stand, behind the constants under way. -/
theorem passage_blocks {depth : ℕ} {gap tail : Chars} {out : List Store.Declaration}
    {pending : List Definition} (hgap : IsGap gap)
    (hpending : ∀ d ∈ pending, Contributes (Store.renderDefinition d) (declare (.schema d)))
    (hout : ∀ d ∈ out, Contributes (declarationText d) (declare d))
    (hdepth : ((Store.declarationBlocks (pending.map Store.renderDefinition) out).flatMap
      (· ++ gap)).length < depth) :
    Passage depth (fun store => out.foldl (fun store d => declare d store)
        (pending.foldl (fun store d => declare (.schema d) store) store))
      ((Store.declarationBlocks (pending.map Store.renderDefinition) out).flatMap (· ++ gap) ++ tail)
      tail := by
  induction out generalizing pending with
  | nil => exact passage_block hpending hgap hdepth
  | cons d out ih =>
    obtain ⟨hd, hrest⟩ := List.forall_mem_cons.1 hout
    cases d with
    | schema d =>
      have hlines : pending.map Store.renderDefinition ++ [Store.renderDefinition d] =
          (pending ++ [d]).map Store.renderDefinition := by
        rw [List.map_append, List.map_singleton]
      rw [Store.declarationBlocks, hlines] at hdepth ⊢
      have hblocks :=
        ih (List.forall_mem_append.2 ⟨hpending, List.forall_mem_singleton.2 hd⟩) hrest hdepth
      simp only [List.foldl_append, List.foldl_cons, List.foldl_nil] at hblocks ⊢
      exact hblocks
    | statement text =>
      rw [Store.declarationBlocks, List.flatMap_append, List.flatMap_cons] at hdepth ⊢
      rw [List.length_append, List.length_append, List.length_append] at hdepth
      rw [List.append_assoc, List.append_assoc]
      generalize hbehind : (Store.declarationBlocks [] out).flatMap (· ++ gap) ++ tail = behind
      have hlines : Passage depth
          (fun store => pending.foldl (fun store d => declare (.schema d) store) store)
          ((Store.block (pending.map Store.renderDefinition)).flatMap (· ++ gap) ++
            (text.toList ++ gap ++ behind)) (text.toList ++ gap ++ behind) :=
        passage_block hpending hgap (by omega)
      have hkept : Passage depth (declare (.statement text)) (text.toList ++ gap ++ behind) behind :=
        hd.passage hgap (show text.toList.length < depth by omega)
      have hblocks : Passage depth (fun store => out.foldl (fun store d => declare d store) store)
          behind tail := by
        rw [← hbehind]
        exact ih (fun _ h => absurd h List.not_mem_nil) hrest
          (show ((Store.declarationBlocks [] out).flatMap (· ++ gap)).length < depth by omega)
      simp only [List.foldl_cons]
      exact ((hlines.trans hkept).trans hblocks :)

end Source

end ModuleScaffold
