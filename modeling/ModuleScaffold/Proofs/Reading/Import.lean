import ModuleScaffold.Proofs.Merge.Read
import ModuleScaffold.Proofs.Reading.Item
import ModuleScaffold.Proofs.Reading.Specifier

/-!
# Imports that are read back

The imports from one source are written in several statements: one for each name of the whole
source, and one for all others, on one line or on several. Each statement is read as an import of
its specifiers, so the names come together again when the statements are read one after the other.

Not so the source: it is written in quotes, with escapes, and read without its quotes, with the
escapes left in it.

Main statements:

* `ModuleScaffold.Source.importReads_whole`, `ModuleScaffold.Source.importReads_named` – **a
  statement that is written is read back**;
* `ModuleScaffold.Source.items_imports` – the statements of a source are its items;
* `ModuleScaffold.Import.readMiddlewares_render` – **written imports are read as one import of the
  same names**, from the same source exactly if nothing in it is escaped.
-/

namespace ModuleScaffold

namespace Source

open Import (Specifier)

/-! ### Statements -/

/-- What is read of the names that are imported by a statement. -/
inductive ReadsParts : List String → List ImportPart → Prop
  /-- Nothing is named. -/
  | effects : ReadsParts [] []
  /-- The whole source gets a name. -/
  | whole (f : Fragment) : ReadsParts [f.text] [.whole f]
  /-- There is a list of names. -/
  | named (fs : List Fragment) : ReadsParts (fs.map Fragment.text) [.named fs]

/-- An item imports the names from the quoted source, without attributes, and with no word in front
of the names that could be a mark. -/
def Item.Imports (quoted : Chars) (names : List String) (found : Item) : Prop :=
  ∃ parts f g, found = .importing (.source false parts f) g ∧ f.chars = quoted ∧
    (∀ r, attributesEnd r f.stop = none) ∧
    (∃ behind, keyword "import" g.start = some behind ∧ word behind = none) ∧ ReadsParts names parts

/-- A text is read as a statement that imports the names, whatever follows. -/
structure ImportReads (text quoted : Chars) (names : List String) : Prop where
  /-- It begins like an import. -/
  begins : ∃ tail, text = 'i' :: tail
  /-- It is read. -/
  reads : ∀ r rest, ∃ found, statement r (text ++ rest) = some (found, rest) ∧
    found.Imports quoted names

section Statements

variable {r : Reader} {start rest tail : Chars}

/-- A statement that begins with the word for imports. -/
theorem statement_import {body : Chars} {x : Item × Chars}
    (h : importStatement r ("import".toList ++ ' ' :: body) (' ' :: body) = some x) :
    statement r ("import".toList ++ ' ' :: body) = some x := by
  have hskip : skip ("import".toList ++ ' ' :: body) = "import".toList ++ ' ' :: body :=
    skip_identifier (by decide)
  have hword : wordHere ("import".toList ++ ' ' :: body) = some ("import".toList, ' ' :: body) :=
    wordHere_append (by decide) (stopsWord_space body)
  have hcons : "import".toList ++ ' ' :: body = 'i' :: ("mport".toList ++ ' ' :: body) := rfl
  have hstatement : statement r ("import".toList ++ ' ' :: body) =
      wordStatement r ("import".toList ++ ' ' :: body) "import" (' ' :: body) := by
    rw [statement, hskip]
    rw [hcons] at hword ⊢
    simp only [hword]
    rfl
  rw [hstatement, wordStatement, if_pos rfl, h, Option.some_or]

/-- What is behind the word for imports. -/
theorem keyword_import (body : Chars) :
    keyword "import" ("import".toList ++ ' ' :: body) = some (' ' :: body) := by
  have hskip : skip ("import".toList ++ ' ' :: body) =
      "import".toList ++ spaced [] (' ' :: body) := skip_identifier (by decide)
  exact keyword_of_skip (by decide) (stopsWord_space body) hskip

/-- Where the statement ends, there are no attributes. -/
theorem attributesEnd_semicolon (r : Reader) (rest : Chars) :
    attributesEnd r (';' :: rest) = none := by
  rw [attributesEnd, keyword, word_semicolon]
  rfl

/-- The source of an import, in front of the end of the statement. -/
theorem fromClause_quoted (r : Reader) (source rest : Chars) :
    fromClause r (" from ".toList ++ (Text.quoteChars source ++ ';' :: rest)) =
      some (⟨Text.quoteChars source ++ ';' :: rest, ';' :: rest⟩, ';' :: rest) := by
  have hfrom : keyword "from" (" from ".toList ++ (Text.quoteChars source ++ ';' :: rest)) =
      some (' ' :: (Text.quoteChars source ++ ';' :: rest)) :=
    keyword_of_skip (by decide) (stopsWord_space _) (skip_spaced (by decide) [] _)
  have hkept : skip (' ' :: (Text.quoteChars source ++ ';' :: rest)) =
      Text.quoteChars source ++ ';' :: rest := by
    rw [skip_cons_of_isSpace (by decide), Text.quoteChars]
    exact skip_cons (by decide) (by decide)
  have hstring : string (' ' :: (Text.quoteChars source ++ ';' :: rest)) = some (';' :: rest) := by
    rw [string, hkept, stringHere_quoteChars]
  have hattributes := attributesEnd_semicolon r rest
  rw [fromClause, hfrom]
  simp [hstring, hkept, optional, hattributes]

/-- A statement whose names do not begin with a word. -/
theorem importStatement_of_importFrom {form : ImportForm} (hword : word rest = none)
    (h : importFrom r false rest = some (form, ';' :: tail)) :
    importStatement r start rest = some (.importing form ⟨start, tail⟩, tail) := by
  have htype : keyword "type" rest = none := by rw [keyword, hword]
  rw [importStatement]
  simp [htype, h, endStatement_semicolon]

theorem importFrom_of_group {r : Reader} {cs behind rest : Chars} {part : ImportPart}
    {source : Fragment} (hgroup : importGroup cs = some (part, behind))
    (hfrom : fromClause r behind = some (source, rest)) :
    importFrom r false cs = some (.source false [part] source, rest) := by
  rw [importFrom, importClause, hgroup]
  simp [hfrom]

/-- A statement with one group of names. -/
theorem importReads_of_group {group source : Chars} {names : List String}
    (hgroup : ∀ rest, ∃ part, importGroup (' ' :: (group ++ ' ' :: rest)) =
      some (part, ' ' :: rest) ∧ ReadsParts names [part])
    (hword : ∀ rest, word (' ' :: (group ++ rest)) = none) :
    ImportReads ("import ".toList ++ group ++ " from ".toList ++ Text.quoteChars source ++ [';'])
      (Text.quoteChars source) names := by
  refine ⟨⟨_, rfl⟩, fun r rest => ?_⟩
  have hfrom := fromClause_quoted r source rest
  obtain ⟨part, hpart, hreads⟩ :=
    hgroup ("from ".toList ++ (Text.quoteChars source ++ ';' :: rest))
  have hstatement := statement_import
    (importStatement_of_importFrom (hword _) (importFrom_of_group hpart hfrom))
  have htext : "import ".toList ++ group ++ " from ".toList ++ Text.quoteChars source ++ [';'] ++
      rest = "import".toList ++ ' ' :: (group ++ ' ' :: ("from ".toList ++
        (Text.quoteChars source ++ ';' :: rest))) := by
    simp
  rw [htext]
  exact ⟨_, hstatement, ⟨_, _, _, rfl, upTo_append _ _, fun r => attributesEnd_semicolon r rest,
    ⟨_, keyword_import _, hword _⟩, hreads⟩⟩

/-- **An import of the whole source is read back.** -/
theorem importReads_whole {name : Chars} (hname : Text.isIdentifierChars name = true)
    (source : Chars) : ImportReads
      (Import.renderNamespace (Text.quoteChars source) (Specifier.whole name).text)
      (Text.quoteChars source) [(Specifier.whole name).text] := by
  have hwords : (Specifier.whole name).words = ['*'] :: ["as".toList, name] := rfl
  have hspaced : ∀ rest, (Specifier.whole name).text.toList ++ rest =
      '*' :: spaced ["as".toList, name] rest := text_append hwords
  have hskip : ∀ rest, skip (' ' :: ((Specifier.whole name).text.toList ++ rest)) =
      '*' :: spaced ["as".toList, name] rest := fun rest => by
    rw [skip_cons_of_isSpace (by decide), hspaced]
    exact skip_cons (by decide) (by decide)
  refine importReads_of_group (fun rest => ⟨.whole ⟨'*' :: spaced ["as".toList, name] (' ' :: rest),
    ' ' :: rest⟩, ?_, ?_⟩) fun rest => ?_
  · have has : keyword "as" (spaced ["as".toList, name] (' ' :: rest)) =
        some (spaced [name] (' ' :: rest)) :=
      keyword_of_skip (by decide) (stopsWord_space rest) (skip_spaced (by decide) _ _)
    have hword : word (spaced [name] (' ' :: rest)) = some (name, ' ' :: rest) :=
      word_of_skip hname (stopsWord_space rest) (skip_spaced hname [] _)
    rw [importGroup, hskip]
    simp only [has, anyWord, hword, Option.bind_some]
    rfl
  · have htext : (⟨'*' :: spaced ["as".toList, name] (' ' :: rest), ' ' :: rest⟩ : Fragment).text =
        (Specifier.whole name).text := by
      rw [Fragment.text, Fragment.chars, ← hspaced, upTo_append, String.ofList_toList]
    rw [← htext]
    exact .whole _
  · rw [word, hskip]
    exact wordHere_eq_none (stopsWord_cons (by decide) (by decide))

/-- A list of names in brackets is read back, wherever blanks stand in it. -/
theorem importGroup_named {names : List String} {body rest : Chars}
    (hnames : ∀ name ∈ names, ∃ typeOnly exported renamed,
      (Specifier.named typeOnly exported renamed).IsRegular ∧
        name = (Specifier.named typeOnly exported renamed).text)
    (hlisted : Listed '\x7d' (names.map String.toList) body rest) :
    ∃ part, importGroup (' ' :: '\x7b' :: body) = some (part, rest) ∧ ReadsParts names [part] := by
  have hitems : List.Forall₂ (ItemReads specifier '\x7d' fun name f => f.text = name)
      (names.map String.toList) names := by
    rw [List.forall₂_map_left_iff, List.forall₂_same]
    intro name hname
    obtain ⟨typeOnly, exported, renamed, hregular, rfl⟩ := hnames name hname
    exact itemReads_specifier hregular
  obtain ⟨fs, hlist, htexts⟩ : ∃ fs, list false specifier "\x7d" body = some (fs, rest) ∧
      List.Forall₂ (fun name f => f.text = name) names fs :=
    list_of_listed rfl (by decide) (by decide) hlisted hitems
  have hmap : fs.map Fragment.text = names := by
    clear hlist hitems hlisted hnames
    induction htexts with
    | nil => rfl
    | cons hf _ ih => rw [List.map_cons, hf, ih]
  refine ⟨.named fs, ?_, ?_⟩
  · rw [importGroup, skip_cons_of_isSpace (by decide), skip_cons (by decide) (by decide)]
    simp [hlist]
  · rw [← hmap]
    exact .named fs

/-- **An import of names is read back**, on one line or on several. -/
theorem importReads_named {names : List String}
    (hnames : ∀ name ∈ names, ∃ typeOnly exported renamed,
      (Specifier.named typeOnly exported renamed).IsRegular ∧
        name = (Specifier.named typeOnly exported renamed).text) (source : Chars) :
    ImportReads (Import.renderNamed (Text.quoteChars source) names) (Text.quoteChars source)
      names := by
  have hbegins : ∀ text ∈ names.map String.toList, Begins text := fun text htext => by
    obtain ⟨name, hname, rfl⟩ := List.mem_map.1 htext
    obtain ⟨typeOnly, exported, renamed, hregular, rfl⟩ := hnames name hname
    exact (itemReads_specifier hregular).begins
  have hword : ∀ rest, word (' ' :: '\x7b' :: rest) = none := fun rest => by
    rw [word, skip_cons_of_isSpace (by decide), skip_cons (by decide) (by decide)]
    exact wordHere_eq_none (stopsWord_cons (by decide) (by decide))
  rw [Import.renderNamed]
  split
  · have htext : "import \x7b ".toList ++ Value.commaSeparated (names.map String.toList) ++
        " \x7d from ".toList ++ Text.quoteChars source ++ [';'] = "import ".toList ++
          ('\x7b' :: ' ' :: (Value.commaSeparated (names.map String.toList) ++ [' ', '\x7d'])) ++
          " from ".toList ++ Text.quoteChars source ++ [';'] := by simp
    rw [htext]
    refine importReads_of_group (fun rest => ?_) fun rest => hword _
    have hlisted : Listed '\x7d' (names.map String.toList) (' ' :: (Value.commaSeparated
        (names.map String.toList) ++ ([' '] ++ '\x7d' :: ' ' :: rest))) (' ' :: rest) :=
      (listed_commaSeparated (by decide) isSpace_of_mem_blank hbegins).blanks isSpace_of_mem_blank
    simpa using importGroup_named hnames hlisted
  · have htext : "import \x7b\n".toList ++ (names.flatMap fun name =>
        ' ' :: ' ' :: (name.toList ++ [',', '\n'])) ++ "\x7d from ".toList ++
          Text.quoteChars source ++ [';'] = "import ".toList ++ ('\x7b' :: '\n' ::
          ((names.flatMap fun name => ' ' :: ' ' :: (name.toList ++ [',', '\n'])) ++ ['\x7d'])) ++
          " from ".toList ++ Text.quoteChars source ++ [';'] := by simp
    rw [htext]
    refine importReads_of_group (fun rest => ?_) fun rest => hword _
    have hlisted : Listed '\x7d' (names.map String.toList) ('\n' :: (((names.map
        String.toList).flatMap fun line => Text.spaces (0 + 2) ++ line ++ [',', '\n']) ++
          (Text.spaces 0 ++ '\x7d' :: ' ' :: rest))) (' ' :: rest) :=
      listed_lines (by decide) 0 hbegins
    rw [List.flatMap_map] at hlisted
    simpa [Text.spaces] using importGroup_named hnames hlisted

/-- An import for the effects of the source is read back. -/
theorem importReads_effects (source : Chars) :
    ImportReads ("import ".toList ++ Text.quoteChars source ++ [';']) (Text.quoteChars source) [] := by
  refine ⟨⟨_, rfl⟩, fun r rest => ?_⟩
  have hskip : skip (' ' :: (Text.quoteChars source ++ ';' :: rest)) =
      Text.quoteChars source ++ ';' :: rest := by
    rw [skip_cons_of_isSpace (by decide), Text.quoteChars]
    exact skip_cons (by decide) (by decide)
  have hword : word (' ' :: (Text.quoteChars source ++ ';' :: rest)) = none := by
    rw [word, hskip, Text.quoteChars]
    exact wordHere_eq_none (stopsWord_cons (by decide) (by decide))
  have hstring : string (' ' :: (Text.quoteChars source ++ ';' :: rest)) = some (';' :: rest) := by
    rw [string, hskip, stringHere_quoteChars]
  have hgroup : importGroup (' ' :: (Text.quoteChars source ++ ';' :: rest)) = none := by
    rw [importGroup, hskip]
    rfl
  have heffects : importEffects r (' ' :: (Text.quoteChars source ++ ';' :: rest)) =
      some (.source false [] ⟨Text.quoteChars source ++ ';' :: rest, ';' :: rest⟩, ';' :: rest) := by
    rw [importEffects, hstring, hskip]
    simp [optional, attributesEnd_semicolon]
  have hfrom : ∀ typesOnly,
      importFrom r typesOnly (' ' :: (Text.quoteChars source ++ ';' :: rest)) = none := by
    intro typesOnly
    rw [importFrom, importClause, hgroup, anyWord, hword]
    rfl
  have hstatement : importStatement r ("import".toList ++
      ' ' :: (Text.quoteChars source ++ ';' :: rest)) (' ' :: (Text.quoteChars source ++ ';' :: rest))
        = some (.importing (.source false [] ⟨Text.quoteChars source ++ ';' :: rest, ';' :: rest⟩)
          ⟨"import".toList ++ ' ' :: (Text.quoteChars source ++ ';' :: rest), rest⟩, rest) := by
    rw [importStatement]
    simp [keyword, hword, hfrom, heffects, endStatement_semicolon]
  have htext : "import ".toList ++ Text.quoteChars source ++ [';'] ++ rest =
      "import".toList ++ ' ' :: (Text.quoteChars source ++ ';' :: rest) := by simp
  rw [htext]
  exact ⟨_, statement_import hstatement, ⟨_, _, _, rfl, upTo_append _ _,
    fun r => attributesEnd_semicolon r rest, ⟨_, keyword_import _, hword⟩, .effects⟩⟩

end Statements

/-! ### Several statements -/

theorem itemsFrom_cons_of_isSpace {c : Char} (hc : isSpace c = true) (r : Reader) (fuel : ℕ)
    (cs : Chars) : itemsFrom r fuel (c :: cs) = itemsFrom r fuel cs := by
  cases fuel with
  | zero => rfl
  | succ fuel => rw [itemsFrom, itemsFrom, List.dropWhile_cons_of_pos hc]

section Items

variable {texts : List Chars} {quoted : Chars} {nss : List (List String)}

/-- Statements on lines of their own are read one after the other. -/
theorem itemsFrom_imports (r : Reader)
    (h : List.Forall₂ (fun text names => ImportReads text quoted names) texts nss) :
    ∀ {fuel : ℕ}, texts.length ≤ fuel →
      List.Forall₂ (fun names found => found.Imports quoted names) nss
        (itemsFrom r fuel (texts.flatMap ('\n' :: ·))) := by
  induction h with
  | nil =>
    intro fuel _
    cases fuel <;> exact .nil
  | @cons text names texts nss hreads _ ih =>
    intro fuel hfuel
    obtain ⟨fuel, rfl⟩ := Nat.exists_eq_add_one.2 (Nat.lt_of_lt_of_le (Nat.succ_pos _) hfuel)
    obtain ⟨tail, rfl⟩ := hreads.begins
    obtain ⟨found, hfound, himports⟩ := hreads.reads r (texts.flatMap ('\n' :: ·))
    have hleads : Leads 'i' := ⟨by decide, by decide, by decide⟩
    rw [List.cons_append] at hfound
    rw [List.flatMap_cons, List.cons_append, itemsFrom_cons_of_isSpace (by decide), List.cons_append,
      itemsFrom_statement hleads hfound]
    exact .cons himports (ih (Nat.le_of_succ_le_succ hfuel))

/-- **The statements of a source are its items.** -/
theorem items_imports (h : List.Forall₂ (fun text names => ImportReads text quoted names) texts nss) :
    List.Forall₂ (fun names found => found.Imports quoted names) nss
      (items (Text.joinWith ['\n'] texts)) := by
  cases texts with
  | nil =>
    cases h
    exact .nil
  | cons text texts =>
    have hleads : Leads 'i' := ⟨by decide, by decide, by decide⟩
    obtain ⟨tail, htail⟩ : ∃ tail, text = 'i' :: tail := by
      cases h with
      | cons hreads _ => exact hreads.begins
    have hcons : Text.joinWith ['\n'] (text :: texts) =
        'i' :: (tail ++ texts.flatMap ('\n' :: ·)) := by
      rw [Text.joinWith_cons, htail]
      rfl
    have hfuel : (text :: texts).length ≤ (Text.joinWith ['\n'] (text :: texts)).length + 1 := by
      have hlength := Text.length_le_flatMap_cons '\n' texts
      rw [Text.joinWith_cons, List.length_append, List.length_cons]
      omega
    have hall := itemsFrom_imports (reader ((Text.joinWith ['\n'] (text :: texts)).length + 1)) h
      hfuel
    rw [List.flatMap_cons, List.cons_append, itemsFrom_cons_of_isSpace (by decide),
      ← Text.joinWith_cons] at hall
    rw [hcons] at hall ⊢
    rwa [items_eq hleads]

end Items

/-! ### Reading into a store -/

/-- The specifiers that are taken from a statement are its names, with single spaces. -/
theorem ReadsParts.specifiers {names : List String} {parts : List ImportPart}
    (h : ReadsParts names parts) :
    parts.flatMap (Reading.specifiers false) = names.map Text.collapse := by
  cases h with
  | effects => rfl
  | whole f => rfl
  | named fs =>
    rw [List.flatMap_singleton, List.map_map]
    exact List.map_congr_left fun f _ => String.empty_append

end Source

namespace Store

theorem foldl_withSpecifier_map_collapse (more names : List String) :
    (more.map Text.collapse).foldl withSpecifier names = more.foldl withSpecifier names := by
  induction more generalizing names with
  | nil => rfl
  | cons specifier more ih =>
    have hsame : withSpecifier names (Text.collapse specifier) = withSpecifier names specifier := by
      rw [withSpecifier, withSpecifier, Text.collapse_collapse]
    rw [List.map_cons, List.foldl_cons, List.foldl_cons, hsame, ih]

/-- Names that are added to the one import that there is. -/
theorem addImports_single (source : String) (names more : List String) :
    addImports { imports := [⟨source, names⟩] } source more =
      { imports := [⟨source, more.foldl withSpecifier names⟩] } := by
  rw [addImports, updateImport, if_neg (lt_irrefl _), if_pos rfl]

/-- Names that are added to the import of one source again and again. -/
theorem foldl_addImports_single (source : String) (nss : List (List String)) (names : List String) :
    nss.foldl (fun (store : Store) more => store.addImports source more)
        { imports := [⟨source, names⟩] } =
      { imports := [⟨source, nss.flatten.foldl withSpecifier names⟩] } := by
  induction nss generalizing names with
  | nil => rfl
  | cons more nss ih =>
    rw [List.foldl_cons, addImports_single, ih, List.flatten_cons, List.foldl_append]

/-- Names that are added to the import of one source that was not there before. -/
theorem foldl_addImports_empty {source : String} {nss : List (List String)} (h : nss ≠ []) :
    nss.foldl (fun (store : Store) more => store.addImports source more) {} =
      { imports := [⟨source, nss.flatten.foldl withSpecifier []⟩] } := by
  obtain ⟨names, nss, rfl⟩ := List.exists_cons_of_ne_nil h
  rw [List.foldl_cons, List.flatten_cons, List.foldl_append]
  exact foldl_addImports_single source nss (names.foldl withSpecifier [])

end Store

namespace Source

/-- A statement that imports names adds them to the import of its source. -/
theorem Item.Imports.add_eq {quoted : Chars} {names : List String} {item : Item}
    (h : item.Imports quoted names) (reading : Reading) : reading.add item = { reading with
      store := reading.store.addImports (String.ofList (Text.unquoted quoted)) names
      comments := [] } := by
  obtain ⟨parts, f, g, rfl, hf, -, -, hparts⟩ := h
  change { reading.addImport (.source false parts f) g with comments := [] } = _
  rw [Reading.addImport, hparts.specifiers, hf, Store.addImports,
    funext (Store.foldl_withSpecifier_map_collapse names)]
  rfl

/-- Imports are added to the store one after the other, without complaints. -/
theorem foldl_add_imports {quoted : Chars} {nss : List (List String)} {found : List Item}
    (h : List.Forall₂ (fun names found => found.Imports quoted names) nss found)
    (reading : Reading) : (found.foldl Reading.add reading).complaints = reading.complaints ∧
      (found.foldl Reading.add reading).store = nss.foldl (fun store names =>
        store.addImports (String.ofList (Text.unquoted quoted)) names) reading.store := by
  induction h generalizing reading with
  | nil => exact ⟨rfl, rfl⟩
  | cons himports _ ih =>
    rw [List.foldl_cons, himports.add_eq, List.foldl_cons]
    exact ih _

end Source

namespace Import

open Source

/-- The statements of an import are read back, with all of its names. -/
theorem exists_imports_of_render {decl : Import}
    (hnames : ∀ name ∈ decl.names, ∃ s : Specifier, s.IsRegular ∧ name = s.text) :
    ∃ nss : List (List String), nss ≠ [] ∧ (∀ name, name ∈ nss.flatten ↔ name ∈ decl.names) ∧
      List.Forall₂ (fun text names => ImportReads text (Text.quoteChars decl.source.toList) names)
        decl.render nss := by
  rw [render]
  split
  · next hempty =>
    rw [List.isEmpty_iff] at hempty
    exact ⟨[[]], List.cons_ne_nil _ _, by simp [hempty], .cons (importReads_effects _) .nil⟩
  · next hne =>
    have hwhole : List.Forall₂ (fun text names =>
        ImportReads text (Text.quoteChars decl.source.toList) names)
        ((decl.names.filter isNamespace).map
          (renderNamespace (Text.quoteChars decl.source.toList)))
        ((decl.names.filter isNamespace).map fun name => [name]) := by
      rw [List.forall₂_map_left_iff, List.forall₂_map_right_iff, List.forall₂_same]
      intro name hname
      obtain ⟨hmem, hspace⟩ := List.mem_filter.1 hname
      obtain ⟨s, hs, rfl⟩ := hnames name hmem
      obtain ⟨name, rfl⟩ := (Specifier.isNamespace_text_iff hs).1 hspace
      exact importReads_whole (hs name (List.mem_singleton.2 rfl)) _
    have hnamed : ∀ name ∈ decl.names.filter (! isNamespace ·), ∃ typeOnly exported renamed,
        (Specifier.named typeOnly exported renamed).IsRegular ∧
          name = (Specifier.named typeOnly exported renamed).text := by
      intro name hname
      obtain ⟨hmem, hspace⟩ := List.mem_filter.1 hname
      obtain ⟨s, hs, rfl⟩ := hnames name hmem
      cases s with
      | named typeOnly exported renamed => exact ⟨typeOnly, exported, renamed, hs, rfl⟩
      | whole name =>
        rw [(Specifier.isNamespace_text_iff hs).2 ⟨name, rfl⟩] at hspace
        cases hspace
    have hsingle : ((decl.names.filter isNamespace).map fun name => [name]).flatten =
        decl.names.filter isNamespace := by
      rw [← List.flatMap_def, List.flatMap_singleton']
    simp only
    split
    · next hall =>
      have hspaces : ∀ name ∈ decl.names, isNamespace name = true := fun name hname => by
        simpa using List.filter_eq_nil_iff.1 (List.isEmpty_iff.1 hall) name hname
      refine ⟨(decl.names.filter isNamespace).map fun name => [name], ?_, fun name => ?_, ?_⟩
      · rw [List.filter_eq_self.2 hspaces, Ne, List.map_eq_nil_iff, ← List.isEmpty_iff]
        exact hne
      · rw [hsingle, List.filter_eq_self.2 hspaces]
      · rwa [List.append_nil]
    · next hsome =>
      refine ⟨((decl.names.filter isNamespace).map fun name => [name]) ++
        [decl.names.filter (! isNamespace ·)], by simp, fun name => ?_, ?_⟩
      · rw [List.flatten_append, hsingle, List.flatten_singleton, List.mem_append]
        simp only [List.mem_filter]
        cases isNamespace name <;> simp
      · exact List.rel_append hwhole (.cons (importReads_named hnamed _) .nil)

/-- A character is written as it is, or in more than one character. -/
theorem escaped_eq_or_length (c : Char) : Text.escaped c = [c] ∨ 1 < (Text.escaped c).length := by
  rcases Text.escaped_cases c with ⟨d, h, -⟩ | ⟨h, -⟩ | ⟨h, -⟩
  · exact .inr (by simp [h])
  · exact .inr (by simp [h])
  · exact .inl h

theorem length_le_flatMap_escaped (cs : List Char) :
    cs.length ≤ (cs.flatMap Text.escaped).length := by
  induction cs with
  | nil => exact Nat.le_refl _
  | cons c cs ih =>
    have hpos : 1 ≤ (Text.escaped c).length := by
      rcases escaped_eq_or_length c with h | h
      · simp [h]
      · omega
    rw [List.flatMap_cons, List.length_append, List.length_cons]
    omega

/-- A text is written as it is exactly if none of its characters is escaped. -/
theorem flatMap_escaped_eq_self_iff {cs : List Char} :
    cs.flatMap Text.escaped = cs ↔ ∀ c ∈ cs, Text.escaped c = [c] := by
  induction cs with
  | nil => simp
  | cons c cs ih =>
    rw [List.flatMap_cons, List.forall_mem_cons, ← ih]
    refine ⟨fun h => ?_, fun ⟨hc, hcs⟩ => by rw [hc, hcs]; rfl⟩
    rcases escaped_eq_or_length c with hc | hlong
    · rw [hc] at h ⊢
      exact ⟨rfl, (List.cons.inj h).2⟩
    -- an escape takes more than the one character that it stands for
    · have hlength := congrArg List.length h
      have hle := length_le_flatMap_escaped cs
      rw [List.length_append, List.length_cons] at hlength
      omega

/-- **Written imports are read as one import of the same names**, without a warning; and from the
same source exactly if none of its characters is escaped. -/
theorem readMiddlewares_render {decl : Import} (hascend : decl.names.Pairwise (· < ·))
    (hnames : ∀ name ∈ decl.names, ∃ s : Specifier, s.IsRegular ∧ name = s.text) :
    readMiddlewares (String.ofList (Text.joinWith ['\n'] decl.render)) =
        ({ imports := [⟨String.ofList (decl.source.toList.flatMap Text.escaped), decl.names⟩] }, []) ∧
      (readMiddlewares (String.ofList (Text.joinWith ['\n'] decl.render)) =
        ({ imports := [decl] }, []) ↔ ∀ c ∈ decl.source.toList, Text.escaped c = [c]) := by
  obtain ⟨nss, hne, hmem, hreads⟩ := exists_imports_of_render hnames
  obtain ⟨hcomplaints, hstore⟩ := foldl_add_imports (items_imports hreads) {}
  have hkept : ∀ name ∈ decl.names,
      Text.collapse name = name ∧ (Text.collapse name).isEmpty = false := fun name hname => by
    obtain ⟨s, hs, rfl⟩ := hnames name hname
    rw [Specifier.collapse_text hs]
    exact ⟨rfl, Specifier.text_ne_empty hs⟩
  have hset : nss.flatten.foldl Store.withSpecifier [] = decl.names := by
    refine Text.eq_of_mem_iff (Store.pairwise_foldl_withSpecifier .nil) hascend fun name => ?_
    rw [Store.mem_foldl_withSpecifier, or_iff_right List.not_mem_nil]
    constructor
    · rintro ⟨specifier, hspecifier, rfl, -⟩
      have hdecl := (hmem specifier).1 hspecifier
      rwa [(hkept specifier hdecl).1]
    · exact fun hname =>
        ⟨name, (hmem name).2 hname, (hkept name hname).1.symm, (hkept name hname).2⟩
  rw [Text.unquoted_quoteChars, Store.foldl_addImports_empty hne, hset] at hstore
  have hread : readMiddlewares (String.ofList (Text.joinWith ['\n'] decl.render)) =
      ({ imports := [⟨String.ofList (decl.source.toList.flatMap Text.escaped), decl.names⟩] },
        []) := by
    simp only [readMiddlewares, String.toList_ofList, Source.read, hstore, hcomplaints]
    rfl
  refine ⟨hread, ?_⟩
  rw [hread, ← flatMap_escaped_eq_self_iff]
  obtain ⟨source, names⟩ := decl
  constructor
  · intro h
    injection h with hstores
    injection hstores with himports
    injection himports with himport
    injection himport with hsource
    rw [← String.toList_inj, String.toList_ofList] at hsource
    exact hsource
  · intro h
    simp only at h ⊢
    rw [h, String.ofList_toList]

/-- An import with a specifier of each form. -/
def mixed : Import where
  source := "./lib/models"
  names := ["* as ns", "a", "b as c", "default as X", "type T", "type as as type"]

/-- The mixed import is read back. -/
theorem readMiddlewares_render_mixed : mixed.names.Pairwise (· < ·) ∧
    (∀ name ∈ mixed.names, ∃ s : Specifier, s.IsRegular ∧ name = s.text) ∧
    readMiddlewares (String.ofList (Text.joinWith ['\n'] mixed.render)) =
      ({ imports := [mixed] }, []) := by
  have hascend : mixed.names.Pairwise (· < ·) := by
    unfold mixed
    decide
  have hnames : ∀ name ∈ mixed.names, ∃ s : Specifier, s.IsRegular ∧ name = s.text := by
    have hall : ∀ s ∈ [Specifier.whole "ns".toList, .named false "a".toList none,
        .named false "b".toList (some "c".toList), .named false "default".toList (some "X".toList),
        .named true "T".toList none, .named true "as".toList (some "type".toList)],
        ∀ w ∈ s.names, Text.isIdentifierChars w = true := by decide
    have htexts : mixed.names = [Specifier.whole "ns".toList, .named false "a".toList none,
        .named false "b".toList (some "c".toList), .named false "default".toList (some "X".toList),
        .named true "T".toList none, .named true "as".toList (some "type".toList)].map
          Specifier.text := by decide +kernel
    rw [htexts]
    intro name hname
    obtain ⟨s, hs, rfl⟩ := List.mem_map.1 hname
    exact ⟨s, hall s hs, rfl⟩
  have hplain : (mixed.source.toList.all fun c => Text.escaped c == [c]) = true := by
    decide +kernel
  refine ⟨hascend, hnames, (readMiddlewares_render hascend hnames).2.2 fun c hc => ?_⟩
  exact beq_iff_eq.1 (List.all_eq_true.1 hplain c hc)

/-- **A source with a quote or a backslash is not read back**: the escapes stay in it. -/
theorem readMiddlewares_render_quoted :
    (∀ name ∈ ["a"], ∃ s : Specifier, s.IsRegular ∧ name = s.text) ∧
    ∀ decl ∈ [(⟨"a\"b", ["a"]⟩ : Import), ⟨".\\lib", ["a"]⟩],
      readMiddlewares (String.ofList (Text.joinWith ['\n'] decl.render)) ≠
        ({ imports := [decl] }, []) := by
  refine ⟨fun name hname => ?_, fun decl hdecl heq => ?_⟩
  · rw [List.mem_singleton] at hname
    refine ⟨.named false "a".toList none, ?_, ?_⟩
    · unfold Specifier.IsRegular
      decide
    · rw [hname]
      decide +kernel
  · have hread : ∀ decl ∈ [(⟨"a\"b", ["a"]⟩ : Import), ⟨".\\lib", ["a"]⟩],
        (readMiddlewares (String.ofList (Text.joinWith ['\n'] decl.render))).1.imports ≠
          [decl] := by decide +kernel
    refine hread decl hdecl ?_
    rw [heq]

end Import

end ModuleScaffold
