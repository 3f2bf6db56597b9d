import ModuleScaffold.Proofs.Denotation.Units
import ModuleScaffold.Proofs.Reading.Import

/-!
# What imports mean

An import statement imports names of a source under names of its own, some of them only as types,
and it may have attributes. `ModuleScaffold.Source.Item.importMeaning` reads all of that from the
text of the statement, where a store keeps the source and the texts of the specifiers. So a
statement keeps its meaning if the statements that are written for its source mean it again
(`ModuleScaffold.Source.ImportMeaning.isKeptBy`).

Two parts of a statement have no place in the store: the attributes, and the mark of a type in front
of the whole source.

Main statements:

* `ModuleScaffold.Source.tokens_text` – a specifier is read word by word;
* `ModuleScaffold.Source.exists_writtenMeanings` – **the written statements mean the specifiers**;
* `ModuleScaffold.Source.Reading.addImport_keeps_iff` – **an import that is spelled plainly keeps its
  meaning exactly if it has no attributes and does not import the whole source as types**.
-/

namespace ModuleScaffold

open Text

namespace Source

open Import (Specifier)

/-! ### Specifiers -/

/-- What is imported under a name. -/
structure Imported where
  /-- What it is called in the source; a star is for the whole source. -/
  exported : Chars
  /-- The name that it gets. -/
  name : Chars
  /-- Whether it is imported only as a type. -/
  typeOnly : Bool
  deriving DecidableEq, Repr

/-- The words, stars and quoted texts at the start of a text, at most `fuel` of them. -/
def tokensFrom : ℕ → Chars → List Chars
  | 0, _ => []
  | fuel + 1, cs =>
    match skip cs with
    | '*' :: rest => ['*'] :: tokensFrom fuel rest
    | start =>
      match importedNameEnd start with
      | some rest => upTo start rest :: tokensFrom fuel rest
      | none => []

/-- The words, stars and quoted texts at the start of a text, without blanks and comments. -/
def tokens (cs : Chars) : List Chars :=
  tokensFrom (cs.length + 1) cs

/-- The specifier that tokens stand for. Their number tells what the words `type` and `as` are. -/
def specifierOf : List Chars → Option Specifier
  | [exported] => some (.named false exported none)
  | [_, exported] => some (.named true exported none)
  | [exported, _, name] =>
    some (if exported = ['*'] then .whole name else .named false exported (some name))
  | [_, exported, _, name] => some (.named true exported (some name))
  | _ => none

/-- What a specifier imports; with `typesOnly`, the statement imports types only. -/
def imported (typesOnly : Bool) : Specifier → Imported
  | .named typeOnly exported renamed =>
    ⟨exported, renamed.getD exported, typesOnly || typeOnly⟩
  | .whole name => ⟨['*'], name, typesOnly⟩

/-- What a part of an import statement imports. -/
def ImportPart.imported (typesOnly : Bool) : ImportPart → List Imported
  | .byDefault f => [⟨"default".toList, f.chars, typesOnly⟩]
  | .whole f => ((specifierOf (tokens f.chars)).map (Source.imported typesOnly)).toList
  | .named fs => fs.filterMap fun f => (specifierOf (tokens f.chars)).map (Source.imported typesOnly)

/-! ### Statements -/

/-- What an import statement means. -/
structure ImportMeaning where
  /-- What is imported. -/
  imported : List Imported
  /-- The source. -/
  source : Option (List ℕ)
  /-- The attributes, as they are written. -/
  attributes : Option Chars
  deriving DecidableEq, Repr

/-- Whether a statement imports types only, from behind its keyword on: `type` is taken as a mark if
it can be one, `typeof` if it cannot be a name. -/
def importsTypes (r : Reader) (cs : Chars) : Bool :=
  ((keyword "type" cs).bind (importFrom r true)).isSome ||
    ((importFrom r false cs).isNone && ((keyword "typeof" cs).bind (importFrom r false)).isSome)

/-- What an item means, if it is an import from a source. -/
def Item.importMeaning (r : Reader) : Item → Option ImportMeaning
  | .importing (.source _ parts source) g => (keyword "import" g.start).map fun behind =>
    ⟨parts.flatMap (ImportPart.imported (importsTypes r behind)), stringUnits source.chars,
      (attributesEnd r source.stop).map (upTo (skip source.stop))⟩
  | _ => none

/-- Whether statements that are written mean what a statement means: each of them is an import from
the source with its attributes, and all that it imports is imported by one of them. -/
def ImportMeaning.isKeptBy (m : ImportMeaning) (written : List (Option ImportMeaning)) : Bool :=
  written.all (fun w => w.any fun w => w.source == m.source && w.attributes == m.attributes) &&
    m.imported.all fun b => written.any fun w => w.any (·.imported.contains b)

/-- What the statements that are written for an import mean. -/
def writtenMeanings (r : Reader) (decl : Import) : List (Option ImportMeaning) :=
  (items (Text.joinWith ['\n'] decl.render)).map (·.importMeaning r)

/-! ### Words that are read back -/

theorem tokensFrom_congr {cs cs' : Chars} (h : skip cs = skip cs') (fuel : ℕ) :
    tokensFrom fuel cs = tokensFrom fuel cs' := by
  cases fuel with
  | zero => rfl
  | succ fuel => rw [tokensFrom, tokensFrom, h]

theorem tokensFrom_word {w tail : Chars} (hw : Text.isIdentifierChars w = true)
    (htail : StopsWord tail) (fuel : ℕ) :
    tokensFrom (fuel + 1) (w ++ tail) = w :: tokensFrom fuel tail := by
  have hskip : skip (w ++ tail) = w ++ spaced [] tail := skip_identifier hw
  have hname : importedNameEnd (w ++ tail) = some tail := importedNameEnd_of_skip hw htail hskip
  obtain ⟨c, cs, rfl, hc, -⟩ := exists_cons_of_isIdentifierChars hw
  have hstar : c ≠ '*' := ne_of_inWord hc (by decide)
  rw [tokensFrom, hskip]
  rw [spaced, List.flatMap_nil, List.nil_append]
  rw [List.cons_append] at hname ⊢
  split
  · next heq => exact absurd (List.cons.inj heq).1 hstar
  · rw [hname]
    simp only
    rw [← List.cons_append, upTo_append]

theorem stopsWord_nil : StopsWord [] :=
  fun _ h => by cases h

theorem tokensFrom_spaced : ∀ {ws : List Chars} {fuel : ℕ},
    (∀ w ∈ ws, Text.isIdentifierChars w = true) → ws.length ≤ fuel →
      tokensFrom fuel (spaced ws []) = ws
  | [], fuel => fun _ _ => by
    cases fuel <;> rfl
  | w :: ws, fuel => fun hws hfuel => by
    obtain ⟨fuel, rfl⟩ := Nat.exists_eq_add_one.2 (Nat.lt_of_lt_of_le (Nat.succ_pos _) hfuel)
    obtain ⟨hw, hws⟩ := List.forall_mem_cons.1 hws
    have hskip : skip (spaced (w :: ws) []) = skip (w ++ spaced ws []) := by
      rw [skip_spaced hw, skip_identifier hw]
    rw [tokensFrom_congr hskip, tokensFrom_word hw (stopsWord_spaced stopsWord_nil ws),
      tokensFrom_spaced hws (Nat.le_of_succ_le_succ hfuel)]

/-- **A specifier is read word by word.** -/
theorem tokens_text {s : Specifier} (h : s.IsRegular) : tokens s.text.toList = s.words := by
  cases s with
  | named typeOnly exported renamed =>
    obtain ⟨w, ws, hwords, hidents⟩ := Specifier.exists_words_named h
    obtain ⟨hw, hws⟩ := List.forall_mem_cons.1 hidents
    have htext := text_append hwords []
    rw [List.append_nil] at htext
    have hlength : ws.length ≤ (w ++ spaced ws []).length := by
      rw [List.length_append, spaced, List.append_nil]
      exact Nat.le_trans (Text.length_le_flatMap_cons ' ' ws) (Nat.le_add_left _ _)
    rw [tokens, htext, tokensFrom_word hw (stopsWord_spaced stopsWord_nil ws), hwords,
      tokensFrom_spaced hws hlength]
  | whole name =>
    have hwords : (Specifier.whole name).words = ['*'] :: ["as".toList, name] := rfl
    have hidents : ∀ w ∈ ["as".toList, name], Text.isIdentifierChars w = true := by
      have hname := h name (List.mem_singleton.2 rfl)
      have has : Text.isIdentifierChars "as".toList = true := by decide
      simp only [List.forall_mem_cons]
      exact ⟨has, hname, fun w hw => by cases hw⟩
    have htext := text_append hwords []
    rw [List.append_nil] at htext
    have hskip : skip (['*'] ++ spaced ["as".toList, name] []) =
        '*' :: spaced ["as".toList, name] [] := skip_cons (by decide) (by decide)
    have hlength : ["as".toList, name].length ≤
        (['*'] ++ spaced ["as".toList, name] []).length := by
      rw [List.length_append, spaced, List.append_nil]
      exact Nat.le_trans (Text.length_le_flatMap_cons ' ' _) (Nat.le_add_left _ _)
    rw [tokens, htext, tokensFrom, hskip]
    simp only
    rw [tokensFrom_spaced hidents hlength, hwords]

theorem specifierOf_words {s : Specifier} (h : s.IsRegular) : specifierOf s.words = some s := by
  cases s with
  | named typeOnly exported renamed =>
    have hexported := h exported (List.mem_cons_self ..)
    have hstar : exported ≠ ['*'] := by
      rintro rfl
      exact absurd hexported (by decide)
    cases typeOnly <;> cases renamed
    · rfl
    · exact congrArg some (if_neg hstar)
    · rfl
    · rfl
  | whole name => rfl

/-- What a specifier imports, given by its text. -/
def importedBy (name : String) : Option Imported :=
  (specifierOf (tokens name.toList)).map (imported false)

theorem importedBy_text {s : Specifier} (h : s.IsRegular) :
    importedBy s.text = some (imported false s) := by
  rw [importedBy, tokens_text h, specifierOf_words h]
  rfl

/-! ### Statements that are read back -/

theorem ReadsParts.imported {names : List String} {parts : List ImportPart}
    (h : ReadsParts names parts) :
    parts.flatMap (ImportPart.imported false) = names.filterMap importedBy := by
  have htext : ∀ f : Fragment, importedBy f.text =
      (specifierOf (tokens f.chars)).map (Source.imported false) := fun f => by
    rw [importedBy, Fragment.text, String.toList_ofList]
  cases h with
  | effects => rfl
  | whole f =>
    rw [List.flatMap_singleton, ImportPart.imported, ← htext, List.filterMap_cons]
    cases importedBy f.text <;> rfl
  | named fs =>
    rw [List.flatMap_singleton, ImportPart.imported, List.filterMap_map]
    exact List.filterMap_congr fun f _ => (htext f).symm

/-- Without a word behind its keyword, a statement has no mark. -/
theorem importsTypes_eq_false {r : Reader} {cs : Chars} (h : word cs = none) :
    importsTypes r cs = false := by
  simp [importsTypes, keyword, h]

theorem Item.Imports.importMeaning {source : List Char} {names : List String} {found : Item}
    (h : found.Imports (Text.quoteChars source) names) (r : Reader) :
    found.importMeaning r = some ⟨names.filterMap importedBy, some (units source), none⟩ := by
  obtain ⟨parts, f, g, rfl, hf, hattributes, ⟨behind, hbehind, hword⟩, hparts⟩ := h
  rw [Item.importMeaning, hbehind, Option.map_some, importsTypes_eq_false hword, hparts.imported, hf,
    hattributes, Text.stringUnits_quoteChars]
  rfl

/-- **The written statements mean the specifiers**, from the source as it is held. -/
theorem exists_writtenMeanings (r : Reader) {decl : Import}
    (hnames : ∀ name ∈ decl.names, ∃ s : Specifier, s.IsRegular ∧ name = s.text) :
    ∃ nss : List (List String), nss ≠ [] ∧ (∀ name, name ∈ nss.flatten ↔ name ∈ decl.names) ∧
      writtenMeanings r decl = nss.map fun names =>
        some ⟨names.filterMap importedBy, some (units decl.source.toList), none⟩ := by
  obtain ⟨nss, hne, hmem, hreads⟩ := Import.exists_imports_of_render hnames
  refine ⟨nss, hne, hmem, ?_⟩
  have hitems := items_imports hreads
  rw [writtenMeanings]
  clear hne hmem hreads
  generalize items (Text.joinWith ['\n'] decl.render) = found at hitems ⊢
  induction hitems with
  | nil => rfl
  | cons himports _ ih => rw [List.map_cons, List.map_cons, himports.importMeaning r, ih]

/-- What it takes for a statement to be kept. -/
theorem isKeptBy_writtenMeanings_iff {r : Reader} {decl : Import} {m : ImportMeaning}
    (hnames : ∀ name ∈ decl.names, ∃ s : Specifier, s.IsRegular ∧ name = s.text) :
    m.isKeptBy (writtenMeanings r decl) = true ↔
      m.source = some (units decl.source.toList) ∧ m.attributes = none ∧
        ∀ b ∈ m.imported, ∃ s : Specifier, s.IsRegular ∧ s.text ∈ decl.names ∧
          b = imported false s := by
  obtain ⟨nss, hne, hmem, hwritten⟩ := exists_writtenMeanings r hnames
  have himported : ∀ b, (∃ names ∈ nss, b ∈ names.filterMap importedBy) ↔
      ∃ s : Specifier, s.IsRegular ∧ s.text ∈ decl.names ∧ b = imported false s := by
    intro b
    constructor
    · rintro ⟨names, hns, hb⟩
      obtain ⟨name, hname, hb⟩ := List.mem_filterMap.1 hb
      have hdecl := (hmem name).1 (List.mem_flatten_of_mem hns hname)
      obtain ⟨s, hs, rfl⟩ := hnames name hdecl
      rw [importedBy_text hs] at hb
      exact ⟨s, hs, hdecl, (Option.some.inj hb).symm⟩
    · rintro ⟨s, hs, hdecl, rfl⟩
      obtain ⟨names, hns, hname⟩ := List.mem_flatten.1 ((hmem _).2 hdecl)
      exact ⟨names, hns, List.mem_filterMap.2 ⟨_, hname, importedBy_text hs⟩⟩
  obtain ⟨first, hfirst⟩ := List.exists_mem_of_ne_nil nss hne
  rw [hwritten, ImportMeaning.isKeptBy, Bool.and_eq_true]
  simp only [List.all_eq_true, List.any_eq_true, List.mem_map, forall_exists_index, and_imp,
    forall_apply_eq_imp_iff₂, exists_exists_and_eq_and, Option.any_some, Bool.and_eq_true,
    beq_iff_eq, List.contains_iff_mem, himported]
  constructor
  · rintro ⟨hall, hkept⟩
    exact ⟨(hall first hfirst).1.symm, (hall first hfirst).2.symm, hkept⟩
  · rintro ⟨hsource, hattributes, hkept⟩
    exact ⟨fun _ _ => ⟨hsource.symm, hattributes.symm⟩, hkept⟩

/-! ### Statements that are spelled plainly -/

/-- A fragment is spelled like a specifier: it has its tokens, with nothing but blanks between
them. -/
structure Fragment.Spells (f : Fragment) (s : Specifier) : Prop where
  /-- The names are identifiers. -/
  regular : s.IsRegular
  /-- It has its tokens. -/
  tokens : specifierOf (tokens f.chars) = some s
  /-- Its blanks are all that is between them. -/
  collapsed : collapse f.text = s.text

/-- A part of an import statement is spelled plainly; with `typesOnly`, nothing in it is marked as a
type again. -/
def ImportPart.IsPlain (typesOnly : Bool) : ImportPart → Prop
  | .byDefault f => Text.isIdentifierChars f.chars = true
  | .whole f => ∃ name, f.Spells (.whole name)
  | .named fs => ∀ f ∈ fs, ∃ typeOnly exported renamed,
    f.Spells (.named typeOnly exported renamed) ∧ (typesOnly = true → typeOnly = false)

theorem text_marked {typesOnly typeOnly : Bool} (exported : Chars) (renamed : Option Chars)
    (h : typesOnly = true → typeOnly = false) :
    Reading.specifiers.mark typesOnly ++ (Specifier.named typeOnly exported renamed).text =
      (Specifier.named (typesOnly || typeOnly) exported renamed).text := by
  cases typesOnly with
  | false => exact String.empty_append
  | true =>
    rw [h rfl, ← String.toList_inj, String.toList_append, Specifier.toList_text,
      Specifier.toList_text]
    cases renamed <;> rfl

theorem text_default (typesOnly : Bool) (f : Fragment) :
    Reading.specifiers.mark typesOnly ++ "default as " ++ f.text =
      (Specifier.named typesOnly "default".toList (some f.chars)).text := by
  have hunmarked : "default as " ++ f.text =
      (Specifier.named false "default".toList (some f.chars)).text := by
    have htext : f.text.toList = f.chars := String.toList_ofList
    rw [← String.toList_inj, String.toList_append, Specifier.toList_text, htext]
    rfl
  rw [String.append_assoc, hunmarked, text_marked _ _ fun _ => rfl, Bool.or_false]

/-- **The names of a plain part are taken as specifiers**, which import the same unless the whole
source is imported as types. -/
theorem ImportPart.IsPlain.exists_specifiers {typesOnly : Bool} {part : ImportPart}
    (h : part.IsPlain typesOnly) : ∃ ss : List Specifier, (∀ s ∈ ss, s.IsRegular) ∧
      Reading.specifiers typesOnly part = ss.map Specifier.text ∧
      ((typesOnly = true → ∀ f, part ≠ .whole f) →
        part.imported typesOnly = ss.map (Source.imported false)) := by
  cases part with
  | byDefault f =>
    refine ⟨[.named typesOnly "default".toList (some f.chars)], fun s hs w hw => ?_,
      congrArg ([·]) (text_default typesOnly f), fun _ => ?_⟩
    · obtain rfl := List.mem_singleton.1 hs
      rcases List.mem_cons.1 hw with rfl | hw
      · decide
      · exact List.mem_singleton.1 hw ▸ h
    · rw [ImportPart.imported, List.map_singleton, Source.imported, Bool.false_or]
      rfl
  | whole f =>
    obtain ⟨name, hspells⟩ := h
    refine ⟨[.whole name], ?_, ?_, fun htypes => ?_⟩
    · exact fun s hs => List.mem_singleton.1 hs ▸ hspells.regular
    · exact congrArg ([·]) hspells.collapsed
    · cases typesOnly with
      | true => exact absurd rfl (htypes rfl f)
      | false =>
        rw [ImportPart.imported, hspells.tokens]
        rfl
  | named fs =>
    suffices hall : ∃ ss : List Specifier, (∀ s ∈ ss, s.IsRegular) ∧
        (fs.map fun f => Reading.specifiers.mark typesOnly ++ Text.collapse f.text) =
          ss.map Specifier.text ∧
        (fs.filterMap fun f => (specifierOf (Source.tokens f.chars)).map
          (Source.imported typesOnly)) = ss.map (Source.imported false) by
      obtain ⟨ss, hregular, htexts, himported⟩ := hall
      exact ⟨ss, hregular, htexts, fun _ => himported⟩
    induction fs with
    | nil => exact ⟨[], (fun s hs => by cases hs), rfl, rfl⟩
    | cons f fs ih =>
      obtain ⟨⟨typeOnly, exported, renamed, hspells, hmarked⟩, hfs⟩ := List.forall_mem_cons.1 h
      obtain ⟨ss, hregular, htexts, himported⟩ := ih hfs
      have hsecond : (Specifier.named (typesOnly || typeOnly) exported renamed).IsRegular :=
        hspells.regular
      refine ⟨.named (typesOnly || typeOnly) exported renamed :: ss,
        List.forall_mem_cons.2 ⟨hsecond, hregular⟩, ?_, ?_⟩
      · rw [List.map_cons, List.map_cons, htexts, hspells.collapsed, text_marked _ _ hmarked]
      · rw [List.filterMap_cons, hspells.tokens, himported]
        rfl

/-- The names of plain parts are taken as specifiers. -/
theorem exists_specifiers_of_isPlain {typesOnly : Bool} {parts : List ImportPart}
    (h : ∀ part ∈ parts, part.IsPlain typesOnly) :
    ∃ ss : List Specifier, (∀ s ∈ ss, s.IsRegular) ∧
      parts.flatMap (Reading.specifiers typesOnly) = ss.map Specifier.text ∧
      ((typesOnly = true → ∀ f, .whole f ∉ parts) →
        parts.flatMap (ImportPart.imported typesOnly) = ss.map (Source.imported false)) := by
  induction parts with
  | nil => exact ⟨[], (fun s hs => by cases hs), rfl, fun _ => rfl⟩
  | cons part parts ih =>
    obtain ⟨hpart, hparts⟩ := List.forall_mem_cons.1 h
    obtain ⟨ss, hregular, htexts, himported⟩ := hpart.exists_specifiers
    obtain ⟨more, hmore, hmoreTexts, hmoreImported⟩ := ih hparts
    refine ⟨ss ++ more, List.forall_mem_append.2 ⟨hregular, hmore⟩, ?_, fun htypes => ?_⟩
    · rw [List.flatMap_cons, List.map_append, htexts, hmoreTexts]
    · have hfirst : typesOnly = true → ∀ f, part ≠ .whole f := by
        rintro htrue f rfl
        exact htypes htrue f (List.mem_cons_self ..)
      have hothers : typesOnly = true → ∀ f, .whole f ∉ parts :=
        fun htrue f hf => htypes htrue f (List.mem_cons_of_mem _ hf)
      rw [List.flatMap_cons, List.map_append, himported hfirst, hmoreImported hothers]

/-- Nothing that a specifier imports is the whole source as a type. -/
theorem imported_ne_whole {s : Specifier} (h : s.IsRegular) (name : Chars) :
    imported false s ≠ ⟨['*'], name, true⟩ := by
  intro heq
  cases s with
  | named typeOnly exported renamed =>
    injection heq with hexported
    have hidentifier := h exported (List.mem_cons_self ..)
    rw [hexported] at hidentifier
    exact absurd hidentifier (by decide)
  | whole other =>
    injection heq with _ _ htype
    cases htype

/-! ### Statements that are read into a store -/

/-- Whether an import statement is kept by what is written for an import. -/
def Item.isKept (r : Reader) (found : Item) (decl : Import) : Bool :=
  (found.importMeaning r).any (·.isKeptBy (writtenMeanings r decl))

/-- The import of a source, after names have been added to it. -/
theorem exists_decl_of_addImports {store : Store} {source : String} {ss : List Specifier}
    (hss : ∀ s ∈ ss, s.IsRegular)
    (hnames : ∀ decl ∈ store.imports, decl.source = source →
      ∀ name ∈ decl.names, ∃ s : Specifier, s.IsRegular ∧ name = s.text) :
    ∃ decl ∈ (store.addImports source (ss.map Specifier.text)).imports, decl.source = source ∧
      (∀ name ∈ decl.names, ∃ s : Specifier, s.IsRegular ∧ name = s.text) ∧
      ∀ s ∈ ss, s.text ∈ decl.names := by
  have hadded : ∀ names name, name ∈ (ss.map Specifier.text).foldl Store.withSpecifier names ↔
      name ∈ names ∨ ∃ s ∈ ss, name = s.text := by
    intro names name
    rw [Store.mem_foldl_withSpecifier]
    refine or_congr_right ⟨?_, ?_⟩
    · rintro ⟨specifier, hspecifier, rfl, -⟩
      obtain ⟨s, hs, rfl⟩ := List.mem_map.1 hspecifier
      exact ⟨s, hs, Specifier.collapse_text (hss s hs)⟩
    · rintro ⟨s, hs, rfl⟩
      rw [← Specifier.collapse_text (hss s hs)]
      refine ⟨s.text, List.mem_map_of_mem hs, rfl, ?_⟩
      rw [Specifier.collapse_text (hss s hs)]
      exact Specifier.text_ne_empty (hss s hs)
  obtain ⟨decl, hdecl, hsource, names, hdeclNames⟩ := Store.exists_mem_updateImport source
    ((ss.map Specifier.text).foldl Store.withSpecifier) store.imports
  refine ⟨decl, hdecl, hsource, fun name hname => ?_, fun s hs => ?_⟩
  · have hnew : ∀ names, (∀ name ∈ names, ∃ s : Specifier, s.IsRegular ∧ name = s.text) →
        decl.names = (ss.map Specifier.text).foldl Store.withSpecifier names →
        ∃ s : Specifier, s.IsRegular ∧ name = s.text := by
      intro names hregular heq
      rw [heq, hadded] at hname
      rcases hname with hname | ⟨s, hs, rfl⟩
      · exact hregular name hname
      · exact ⟨s, hss s hs, rfl⟩
    rcases Store.mem_updateImport hdecl with hold | ⟨-, hnil | ⟨old, hold, holdSource, heq⟩⟩
    · exact hnames decl hold hsource name hname
    · exact hnew [] (fun _ h => by cases h) hnil
    · exact hnew old.names (hnames old hold holdSource) heq
  · rw [hdeclNames, hadded]
    exact .inr ⟨s, hs, rfl⟩

namespace Reading

/-- **An import that is spelled plainly keeps its meaning exactly if it has no attributes and does
not import the whole source as types**, and if its source is read as it is meant. Every import of
another form is complained about. -/
theorem addImport_keeps_iff (reading : Reading) (form : ImportForm) (g : Fragment) :
    (∃ complaint, (reading.addImport form g).complaints = reading.complaints ++ [(complaint, g)]) ∨
    ∃ typesOnly parts source, form = .source typesOnly parts source ∧
      ∀ {r : Reader} {behind : Chars}, keyword "import" g.start = some behind →
        importsTypes r behind = typesOnly → (∀ part ∈ parts, part.IsPlain typesOnly) →
        (∀ decl ∈ reading.store.imports, decl.source = String.ofList (unquoted source.chars) →
          ∀ name ∈ decl.names, ∃ s : Specifier, s.IsRegular ∧ name = s.text) →
        ∃ decl ∈ (reading.addImport form g).store.imports,
          decl.source = String.ofList (unquoted source.chars) ∧
          ((Item.importing form g).isKept r decl = true ↔ attributesEnd r source.stop = none ∧
            stringUnits source.chars = some (units (unquoted source.chars)) ∧
            (typesOnly = true → ∀ f, .whole f ∉ parts)) := by
  cases form with
  | damaged => exact .inl ⟨_, rfl⟩
  | required => exact .inl ⟨_, rfl⟩
  | source typesOnly parts source =>
    refine .inr ⟨typesOnly, parts, source, rfl, fun {r behind} hbehind htypes hplain hnames => ?_⟩
    obtain ⟨ss, hregular, htexts, himported⟩ := exists_specifiers_of_isPlain hplain
    obtain ⟨decl, hdecl, hsource, hwell, hadded⟩ := exists_decl_of_addImports hregular hnames
    refine ⟨decl, ?_, hsource, ?_⟩
    · rwa [addImport, htexts]
    · rw [Item.isKept, Item.importMeaning, hbehind, Option.map_some, Option.any_some,
        isKeptBy_writtenMeanings_iff hwell, htypes, hsource, String.toList_ofList,
        Option.map_eq_none_iff]
      simp only
      constructor
      · rintro ⟨hunits, hattributes, hkept⟩
        refine ⟨hattributes, hunits, ?_⟩
        rintro rfl f hf
        obtain ⟨name, hspells⟩ := hplain _ hf
        have hmem : (⟨['*'], name, true⟩ : Imported) ∈
            parts.flatMap (ImportPart.imported true) := by
          refine List.mem_flatMap.2 ⟨_, hf, ?_⟩
          rw [ImportPart.imported, hspells.tokens]
          exact List.mem_singleton.2 rfl
        obtain ⟨s, hs, -, heq⟩ := hkept _ hmem
        exact imported_ne_whole hs name heq.symm
      · rintro ⟨hattributes, hunits, hwhole⟩
        refine ⟨hunits, hattributes, fun b hb => ?_⟩
        rw [himported hwhole] at hb
        obtain ⟨s, hs, rfl⟩ := List.mem_map.1 hb
        exact ⟨s, hregular s hs, hadded s hs, rfl⟩

/-- A statement that imports names as types. -/
def typedNames : Chars :=
  "import type \x7b a as b, c \x7d from './m';".toList

/-- What it binds. -/
def typedParts : List ImportPart :=
  [.named [⟨typedNames.drop 14, typedNames.drop 20⟩, ⟨typedNames.drop 22, typedNames.drop 23⟩]]

/-- Its source. -/
def typedSource : Fragment :=
  ⟨typedNames.drop 31, typedNames.drop 36⟩

theorem isPlain_typedParts : ∀ part ∈ typedParts, part.IsPlain true := by
  have hrenamed : (⟨typedNames.drop 14, typedNames.drop 20⟩ : Fragment).Spells
      (.named false ['a'] (some ['b'])) :=
    ⟨by unfold Specifier.IsRegular; decide, by decide +kernel, by decide +kernel⟩
  have hbare : (⟨typedNames.drop 22, typedNames.drop 23⟩ : Fragment).Spells
      (.named false ['c'] none) :=
    ⟨by unfold Specifier.IsRegular; decide, by decide +kernel, by decide +kernel⟩
  intro part hpart
  obtain rfl := List.mem_singleton.1 hpart
  refine List.forall_mem_cons.2 ⟨⟨_, _, _, hrenamed, fun _ => rfl⟩, fun f hf => ?_⟩
  obtain rfl := List.mem_singleton.1 hf
  exact ⟨_, _, _, hbare, fun _ => rfl⟩

/-- Names that are imported as types keep their meaning. -/
theorem addImport_keeps_iff_types :
    ∃ decl ∈ (({} : Reading).addImport (.source true typedParts typedSource)
        ⟨typedNames, []⟩).store.imports,
      (Item.importing (.source true typedParts typedSource) ⟨typedNames, []⟩).isKept
        (reader 2) decl = true := by
  have hbehind : keyword "import" typedNames = some (typedNames.drop 6) := by decide +kernel
  have htypes : importsTypes (reader 2) (typedNames.drop 6) = true := by decide +kernel
  rcases addImport_keeps_iff {} (.source true typedParts typedSource) ⟨typedNames, []⟩ with
    ⟨complaint, hcomplaint⟩ | ⟨typesOnly, parts, source, hform, hkeeps⟩
  · cases hcomplaint
  · cases hform
    obtain ⟨decl, hdecl, -, hkept⟩ := hkeeps hbehind htypes isPlain_typedParts fun _ h => by cases h
    refine ⟨decl, hdecl, hkept.2 ⟨by decide +kernel, by decide +kernel, fun _ f hf => ?_⟩⟩
    cases List.mem_singleton.1 hf

/-- An import of a whole source as types, and one with attributes. -/
def losingImports : List String :=
  ["import type * as ns from \"m\";",
    "import data from \"./d.json\" with \x7b type: \"json\" \x7d;"]

/-- **Imports that lose their meaning without a complaint**: a source that is imported as types is
imported as a value, and attributes are left out. -/
theorem addImport_loses_meaning :
    (∀ text ∈ losingImports, (readMiddlewares text).2.isEmpty = true) ∧
      ∀ text ∈ losingImports, (items text.toList).length = 1 ∧
        (readMiddlewares text).1.imports.length = 1 ∧
        ∀ found ∈ items text.toList, (found.importMeaning (reader (text.length + 1))).isSome = true ∧
          ∀ decl ∈ (readMiddlewares text).1.imports,
            found.isKept (reader (text.length + 1)) decl = false := by
  decide +kernel

end Reading

end Source

end ModuleScaffold
