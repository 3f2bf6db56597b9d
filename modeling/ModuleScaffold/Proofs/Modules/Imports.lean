import ModuleScaffold.Proofs.Modules.Names
import ModuleScaffold.Proofs.Modules.Rendering
import ModuleScaffold.Proofs.Text.Marks
import ModuleScaffold.Proofs.Text.Spacing

/-!
# What generated files import

A generated file begins with its import declarations. They are read here without regard to the
templates: a declaration begins its line with the word `import`, and its source is the text between
the next two quotes. What is read so from the text of a template is the list of sources that the
template means to write, as long as none of the texts in its declarations has a quote.

Main statements:

* `ModuleScaffold.Template.importSources_join` – **the sources that are read are those of the
  declarations in front of the text**;
* `ModuleScaffold.Template.importSources_collection` and the like – **what each file imports**.
-/

namespace ModuleScaffold

namespace Template

open Schema

/-! ### Reading the sources -/

/-- The sources of the import declarations with which a text begins that is cut at its quotes. -/
def sourcesFrom : List (List Char) → List String
  | lead :: source :: rest =>
    if "import ".toList.isPrefixOf (lead.dropWhile (· == '\n')) then
      String.ofList source :: sourcesFrom rest
    else []
  | _ => []

/-- The sources of the import declarations with which a text begins. -/
def importSources (text : String) : List String :=
  sourcesFrom (Text.fields (· == '"') text.toList)

/-! ### Writing declarations -/

/-- The declaration that imports something from a source. -/
def declaration (what source : String) : String :=
  String.join ["import ", what, " from \"", source, "\"\n"]

/-- Neither of the texts has a quote. -/
def Quotable (decl : String × String) : Prop :=
  '"' ∉ decl.1.toList ∧ '"' ∉ decl.2.toList

theorem solid_of_quote_notMem {cs : List Char} (h : '"' ∉ cs) : ∀ c ∈ cs, (c == '"') = false := by
  rintro c hc
  rw [beq_eq_false_iff_ne]
  rintro rfl
  exact h hc

theorem dropWhile_newlines {lines cs : List Char} (h : ∀ c ∈ lines, c = '\n') {c : Char}
    (hc : c ≠ '\n') : (lines ++ c :: cs).dropWhile (· == '\n') = c :: cs := by
  rw [List.dropWhile_append_of_pos fun c hc => beq_iff_eq.2 (h c hc),
    List.dropWhile_cons_of_neg (by rwa [beq_iff_eq])]

/-- A text that does not begin with a declaration has no sources. -/
theorem sourcesFrom_of_other {lines cs : List Char} (hlines : ∀ c ∈ lines, c = '\n') {c : Char}
    (hline : c ≠ '\n') (hquote : c ≠ '"') (hword : c ≠ 'i') :
    sourcesFrom (Text.fields (· == '"') (lines ++ c :: cs)) = [] := by
  have hsolid : ∀ c ∈ lines, (c == '"') = false := fun c hc => by rw [hlines c hc]; rfl
  obtain ⟨rest, pieces, hpieces⟩ : ∃ rest pieces,
      Text.fields (· == '"') (lines ++ c :: cs) = (lines ++ c :: rest) :: pieces := by
    clear hlines
    induction lines with
    | nil =>
      rw [List.nil_append, Text.fields, beq_eq_false_iff_ne.2 hquote, if_neg Bool.false_ne_true]
      cases hfields : Text.fields (· == '"') cs with
      | nil => exact ⟨[], [], rfl⟩
      | cons piece pieces => exact ⟨piece, pieces, rfl⟩
    | cons d lines ih =>
      obtain ⟨hd, hrest⟩ := List.forall_mem_cons.1 hsolid
      obtain ⟨rest, pieces, hpieces⟩ := ih hrest
      refine ⟨rest, pieces, ?_⟩
      rw [List.cons_append, Text.fields, hd, if_neg Bool.false_ne_true, hpieces]
      rfl
  rw [hpieces]
  cases pieces with
  | nil => rfl
  | cons source pieces =>
    rw [sourcesFrom, dropWhile_newlines hlines hline, if_neg]
    rw [List.isPrefixOf_iff_prefix]
    rintro ⟨tail, htail⟩
    exact hword (List.cons.inj htail).1.symm

/-- Declarations are read one after the other. -/
theorem sourcesFrom_declarations {decls : List (String × String)} (h : ∀ d ∈ decls, Quotable d)
    (lines : List Char) {body : List Char} (hlines : ∀ c ∈ lines, c = '\n')
    (hbody : ∀ lines : List Char, (∀ c ∈ lines, c = '\n') →
      sourcesFrom (Text.fields (· == '"') (lines ++ body)) = []) :
    sourcesFrom (Text.fields (· == '"')
      (lines ++ ((String.join (decls.map fun d => declaration d.1 d.2)).toList ++ body))) =
        decls.map Prod.snd := by
  induction decls generalizing lines with
  | nil => exact hbody lines hlines
  | cons d decls ih =>
    obtain ⟨⟨hwhat, hsource⟩, hrest⟩ := List.forall_mem_cons.1 h
    obtain ⟨what, source⟩ := d
    have htext : lines ++ ((String.join
        (((what, source) :: decls).map fun d => declaration d.1 d.2)).toList ++ body) =
          (lines ++ ("import ".toList ++ (what.toList ++ " from ".toList))) ++ '"' ::
            (source.toList ++ '"' :: (['\n'] ++ ((String.join
              (decls.map fun d => declaration d.1 d.2)).toList ++ body))) := by
      simp [declaration, String.toList_join, String.toList_append]
    have hlead : '"' ∉ lines ++ ("import ".toList ++ (what.toList ++ " from ".toList)) := by
      simp only [List.mem_append, not_or]
      exact ⟨fun hmem => absurd (hlines _ hmem) (by decide), by decide, hwhat, by decide⟩
    rw [htext, Text.fields_append_cons (solid_of_quote_notMem hlead) rfl,
      Text.fields_append_cons (solid_of_quote_notMem hsource) rfl, sourcesFrom, if_pos,
      ih hrest ['\n'] (by simp), List.map_cons, String.ofList_toList]
    have hword : "import ".toList = 'i' :: "mport ".toList := by decide
    rw [hword, List.cons_append, dropWhile_newlines hlines (by decide), List.isPrefixOf_iff_prefix]
    exact List.prefix_append (_ :: _) _

/-- **The sources that are read are those of the declarations in front of the text**, if an empty
line and another word follow. -/
theorem importSources_join (k : ℕ) (decls : List (String × String)) {pieces : List String}
    (hquotes : ∀ d ∈ decls, Quotable d)
    (hhead : String.join (pieces.take k) = String.join (decls.map fun d => declaration d.1 d.2))
    (hline : pieces[k]? = some "\n")
    (hword : ∃ c, pieces[k + 1]?.bind (·.toList.head?) = some c ∧ c ≠ '\n' ∧ c ≠ '"' ∧ c ≠ 'i') :
    importSources (String.join pieces) = decls.map Prod.snd := by
  obtain ⟨c, hc, hblank, hquote, hother⟩ := hword
  obtain ⟨word, hword, hc⟩ := Option.bind_eq_some_iff.1 hc
  obtain ⟨cs, hcs⟩ := List.head?_eq_some_iff.1 hc
  have hpieces : pieces = pieces.take k ++ "\n" :: word :: pieces.drop (k + 1 + 1) := by
    obtain ⟨hk, hnewline⟩ := List.getElem?_eq_some_iff.1 hline
    obtain ⟨hk', hfirst⟩ := List.getElem?_eq_some_iff.1 hword
    rw [← hnewline, ← hfirst, ← List.drop_eq_getElem_cons hk', ← List.drop_eq_getElem_cons hk,
      List.take_append_drop]
  rw [importSources, hpieces, String.join_append, hhead, String.toList_append]
  refine sourcesFrom_declarations hquotes [] (fun c h => absurd h List.not_mem_nil) ?_
  intro lines hlines
  have hbody : lines ++ (String.join ("\n" :: word :: pieces.drop (k + 1 + 1))).toList =
      (lines ++ ['\n']) ++ c :: (cs ++ (String.join (pieces.drop (k + 1 + 1))).toList) := by
    simp only [String.join_cons, String.toList_append, hcs, List.append_assoc, List.cons_append]
    rfl
  rw [hbody]
  refine sourcesFrom_of_other (fun d hd => ?_) hblank hquote hother
  rcases List.mem_append.1 hd with hd | hd
  · exact hlines d hd
  · exact List.mem_singleton.1 hd

/-! ### What each file imports -/

section Files

variable {helpers : Helpers} {m : Module} {model : Model} {moduleImport sdkImport text : String}

/-- The helper for names of files is the standard one. -/
def NamesFiles (helpers : Helpers) : Prop :=
  helpers.find? (helperName .snake) = some Text.Style.snake.apply

theorem NamesFiles.use (h : NamesFiles helpers) (line : ℕ) (name : String) :
    helpers.use .snake line name = .ok (Text.Style.snake.apply name) := by
  rw [Helpers.use, h]

theorem quote_notMem_of_isIdentifier {name : String} (h : Text.isIdentifier name = true) :
    '"' ∉ name.toList :=
  fun hmem => absurd (Text.isWordPart_of_isIdentifierChars h _ hmem) (by decide)

theorem quote_notMem_apply {style : Text.Style} {name : String} (h : '"' ∉ name.toList) :
    '"' ∉ (style.apply name).toList :=
  Text.notMem_apply (by decide) (by cases style <;> decide) h

theorem quote_notMem_serviceName (h : '"' ∉ m.name.toList) : '"' ∉ m.serviceName.toList := by
  rw [Module.serviceName, String.toList_append, List.mem_append, not_or]
  exact ⟨quote_notMem_apply h, by decide⟩

theorem quote_notMem_constantName (h : '"' ∉ m.name.toList) : '"' ∉ m.constantName.toList := by
  rw [Module.constantName, String.toList_append, List.mem_append, not_or]
  exact ⟨Text.notMem_capitalText (by decide) (quote_notMem_apply h), by decide⟩

/-- Texts that are put together from texts without quotes have none. -/
theorem quote_notMem_append {a b : String} (ha : '"' ∉ a.toList) (hb : '"' ∉ b.toList) :
    '"' ∉ (a ++ b).toList := by
  rw [String.toList_append, List.mem_append, not_or]
  exact ⟨ha, hb⟩

/-- The declarations that import models from a directory. -/
def modelImports (directory : String) (names : List String) : List (String × String) :=
  names.map fun name => (name, directory ++ Text.Style.snake.apply name)

theorem quotable_modelImports {directory : String} {names : List String}
    (hdirectory : '"' ∉ directory.toList) (h : ∀ name ∈ names, Text.isIdentifier name = true) :
    ∀ d ∈ modelImports directory names, Quotable d :=
  List.forall_mem_map.2 fun name hname =>
    have hquote := quote_notMem_of_isIdentifier (h name hname)
    ⟨hquote, quote_notMem_append hdirectory (quote_notMem_apply hquote)⟩

theorem join_modelImports (directory : String) (names : List String) :
    String.join ((modelImports directory names).map fun d => declaration d.1 d.2) =
      String.join (names.map fun name => String.join
        ["import ", name, " from \"" ++ directory, Text.Style.snake.apply name, "\"\n"]) := by
  simp [modelImports, declaration, Function.comp_def, String.append_assoc]

theorem importSources_moduleService (hhelpers : NamesFiles helpers)
    (hnames : ∀ model ∈ m.models, Text.isIdentifier model.name = true)
    (h : moduleServiceText helpers m = .ok text) :
    importSources text = "@medusajs/framework/utils" ::
      (modelImports "./models/" (m.models.map Model.name)).map Prod.snd := by
  rw [moduleServiceText] at h
  simp only [hhelpers.use] at h
  change (m.models.mapM fun model => (pure (String.join ["import ", model.name,
    " from \"./models/", Text.Style.snake.apply model.name, "\"\n"]) : Except Unknown String)) >>=
      _ = _ at h
  rw [List.mapM_pure] at h
  rw [← Except.ok.inj h]
  refine importSources_join 2
    (("\x7b MedusaService \x7d", "@medusajs/framework/utils") :: modelImports _ _)
    (List.forall_mem_cons.2 ⟨⟨by decide, by decide⟩,
      quotable_modelImports (by decide) (List.forall_mem_map.2 hnames)⟩)
    ?_ rfl ⟨'c', rfl, by decide, by decide, by decide⟩
  rw [List.map_cons, String.join_cons, join_modelImports]
  simp [declaration, Function.comp_def]

theorem importSources_moduleIndex (hhelpers : NamesFiles helpers) (hname : '"' ∉ m.name.toList)
    (h : moduleIndexText helpers m = .ok text) :
    importSources text = ["@medusajs/framework/utils", "./service"] := by
  rw [moduleIndexText, hhelpers.use] at h
  rw [← Except.ok.inj h]
  refine importSources_join 4
    [("\x7b Module \x7d", "@medusajs/framework/utils"), (m.serviceName, "./service")]
    (List.forall_mem_cons.2 ⟨⟨by decide, by decide⟩, List.forall_mem_singleton.2 ⟨?_, ?_⟩⟩)
    ?_ rfl ⟨'e', rfl, by decide, by decide, by decide⟩
  · exact quote_notMem_serviceName hname
  · exact (by decide : '"' ∉ "./service".toList)
  · simp [declaration]

theorem importSources_model (hhelpers : NamesFiles helpers)
    (hnames : ∀ name ∈ relatedModels model, Text.isIdentifier name = true)
    (h : modelText helpers model = .ok text) :
    importSources text = "@medusajs/framework/utils" ::
      (modelImports "./" (relatedModels model)).map Prod.snd := by
  rw [modelText] at h
  simp only [hhelpers.use] at h
  change ((relatedModels model).mapM fun related => (pure (String.join ["import ", related,
    " from \"./", Text.Style.snake.apply related, "\"\n"]) : Except Unknown String)) >>= _ = _ at h
  rw [List.mapM_pure] at h
  rw [← Except.ok.inj h]
  refine importSources_join 2
    (("\x7b model \x7d", "@medusajs/framework/utils") :: modelImports _ _)
    (List.forall_mem_cons.2 ⟨⟨by decide, by decide⟩, quotable_modelImports (by decide) hnames⟩)
    ?_ rfl ⟨'c', rfl, by decide, by decide, by decide⟩
  rw [List.map_cons, String.join_cons, join_modelImports]
  simp [declaration]

theorem importSources_validators : importSources (validatorsText model) = ["zod"] := by
  refine importSources_join 1 [("\x7b z \x7d", "zod")]
    (List.forall_mem_singleton.2 ⟨by decide, by decide⟩) ?_ rfl
    ⟨'e', rfl, by decide, by decide, by decide⟩
  simp [declaration]

/-- The declarations of the handlers of a collection or of an item, which check a body. -/
def handlerImports (m : Module) (moduleImport validator checks : String) : List (String × String) :=
  [("\x7b MedusaRequest, MedusaResponse \x7d", "@medusajs/framework/http"),
    ("\x7b " ++ m.constantName ++ " \x7d", moduleImport),
    (m.serviceName, moduleImport ++ "/service"), ("\x7b " ++ validator ++ "Type \x7d", checks)]

theorem quotable_handlerImports {validator checks : String} (hname : '"' ∉ m.name.toList)
    (hvalidator : Text.isIdentifier validator = true) (hmodule : '"' ∉ moduleImport.toList)
    (hchecks : '"' ∉ checks.toList) :
    ∀ d ∈ handlerImports m moduleImport validator checks, Quotable d := by
  have hbraces : ∀ {text : String} (close : String), '"' ∉ close.toList → '"' ∉ text.toList →
      '"' ∉ ("\x7b " ++ text ++ close).toList := fun close hclose htext =>
    quote_notMem_append (quote_notMem_append (by decide) htext) hclose
  simp only [handlerImports, List.forall_mem_cons, Quotable]
  exact ⟨by decide, ⟨hbraces " \x7d" (by decide) (quote_notMem_constantName hname), hmodule⟩,
    ⟨quote_notMem_serviceName hname, quote_notMem_append hmodule (by decide)⟩,
    ⟨hbraces "Type \x7d" (by decide) (quote_notMem_of_isIdentifier hvalidator), hchecks⟩, nofun⟩

theorem importSources_collection (hname : '"' ∉ m.name.toList)
    (hmodel : Text.isIdentifier model.name = true) (hmodule : '"' ∉ moduleImport.toList)
    (h : collectionText helpers moduleImport m model = .ok text) :
    importSources text = ["@medusajs/framework/http", moduleImport, moduleImport ++ "/service",
      "./validators"] := by
  rw [collectionText] at h
  obtain ⟨items, -, h⟩ := bind_eq_ok_iff.1 h
  obtain ⟨itemsKey, -, h⟩ := bind_eq_ok_iff.1 h
  obtain ⟨item, -, h⟩ := bind_eq_ok_iff.1 h
  obtain ⟨itemKey, -, h⟩ := bind_eq_ok_iff.1 h
  rw [← Except.ok.inj h]
  refine importSources_join 14 _
    (quotable_handlerImports hname (Model.isIdentifier_createValidator hmodel) hmodule (by decide))
    (by simp [handlerImports, declaration, ← String.toList_inj]) rfl
    ⟨'e', rfl, by decide, by decide, by decide⟩

theorem importSources_item (hname : '"' ∉ m.name.toList)
    (hmodel : Text.isIdentifier model.name = true) (hmodule : '"' ∉ moduleImport.toList)
    (h : itemText helpers moduleImport m model = .ok text) :
    importSources text = ["@medusajs/framework/http", moduleImport, moduleImport ++ "/service",
      "../validators"] := by
  rw [itemText] at h
  obtain ⟨item, -, h⟩ := bind_eq_ok_iff.1 h
  obtain ⟨itemKey, -, h⟩ := bind_eq_ok_iff.1 h
  rw [← Except.ok.inj h]
  refine importSources_join 14 _
    (quotable_handlerImports hname (Model.isIdentifier_updateValidator hmodel) hmodule (by decide))
    (by simp [handlerImports, declaration, ← String.toList_inj]) rfl
    ⟨'e', rfl, by decide, by decide, by decide⟩

theorem importSources_listPage (hsdk : '"' ∉ sdkImport.toList)
    (h : listPageText helpers sdkImport m model = .ok text) :
    importSources text = ["@medusajs/admin-sdk", "@medusajs/ui", "@tanstack/react-query",
      "react-router-dom", sdkImport] := by
  rw [listPageText] at h
  obtain ⟨key, -, h⟩ := bind_eq_ok_iff.1 h
  obtain ⟨title, -, h⟩ := bind_eq_ok_iff.1 h
  obtain ⟨headers, -, h⟩ := bind_eq_ok_iff.1 h
  rw [← Except.ok.inj h]
  have hquotes : ∀ d ∈ [("\x7b defineRouteConfig \x7d", "@medusajs/admin-sdk"),
      ("\x7b Container, Heading, Table, Button \x7d", "@medusajs/ui"),
      ("\x7b useQuery \x7d", "@tanstack/react-query"), ("\x7b Link \x7d", "react-router-dom"),
      ("\x7b sdk \x7d", sdkImport)], Quotable d := by
    simp only [List.forall_mem_cons, Quotable]
    exact ⟨by decide, by decide, by decide, by decide, ⟨by decide, hsdk⟩, nofun⟩
  exact importSources_join 7 _ hquotes (by simp [declaration, ← String.toList_inj]) rfl
    ⟨'t', rfl, by decide, by decide, by decide⟩

/-- The declarations of a form. -/
def formImports (components sdkImport : String) : List (String × String) :=
  [("\x7b " ++ components ++ " \x7d", "@medusajs/ui"),
    ("\x7b useMutation, useQueryClient \x7d", "@tanstack/react-query"),
    ("\x7b useForm \x7d", "react-hook-form"), ("\x7b sdk \x7d", sdkImport)]

theorem quotable_formImports (components : String) (hcomponents : '"' ∉ components.toList)
    (hsdk : '"' ∉ sdkImport.toList) : ∀ d ∈ formImports components sdkImport, Quotable d := by
  simp only [formImports, List.forall_mem_cons, Quotable]
  exact ⟨⟨quote_notMem_append (quote_notMem_append (by decide) hcomponents) (by decide), by decide⟩,
    by decide, by decide, ⟨by decide, hsdk⟩, nofun⟩

theorem importSources_createForm (hsdk : '"' ∉ sdkImport.toList)
    (h : createFormText helpers sdkImport m model = .ok text) :
    importSources text = ["@medusajs/ui", "@tanstack/react-query", "react-hook-form",
      sdkImport] := by
  rw [createFormText] at h
  obtain ⟨key, -, h⟩ := bind_eq_ok_iff.1 h
  obtain ⟨title, -, h⟩ := bind_eq_ok_iff.1 h
  obtain ⟨inputs, -, h⟩ := bind_eq_ok_iff.1 h
  rw [← Except.ok.inj h]
  exact importSources_join 6 _
    (quotable_formImports "Button, FocusModal, Heading, Input, Label" (by decide) hsdk)
    (by simp [formImports, declaration, ← String.toList_inj]) rfl
    ⟨'t', rfl, by decide, by decide, by decide⟩

theorem importSources_editForm (hsdk : '"' ∉ sdkImport.toList)
    (h : editFormText helpers sdkImport m model = .ok text) :
    importSources text = ["@medusajs/ui", "@tanstack/react-query", "react-hook-form",
      sdkImport] := by
  rw [editFormText] at h
  obtain ⟨key, -, h⟩ := bind_eq_ok_iff.1 h
  obtain ⟨title, -, h⟩ := bind_eq_ok_iff.1 h
  obtain ⟨inputs, -, h⟩ := bind_eq_ok_iff.1 h
  rw [← Except.ok.inj h]
  exact importSources_join 6 _
    (quotable_formImports "Button, Drawer, Heading, Input, Label" (by decide) hsdk)
    (by simp [formImports, declaration, ← String.toList_inj]) rfl
    ⟨'t', rfl, by decide, by decide, by decide⟩

end Files

end Template

end ModuleScaffold
