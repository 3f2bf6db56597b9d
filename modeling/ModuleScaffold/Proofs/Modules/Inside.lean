import ModuleScaffold.Proofs.Modules.Places

/-!
# Files outside the source directory

All files of a module are put together below the source directory. Where they lie is another
question: a piece of a path may lead to the directory above, and a path from the root replaces what
it is put behind. The check of a module refuses slashes and blanks in a plural but not the piece
`..`, and it looks neither at the name of the module nor into the route prefixes. So these are the
words by which a file can leave the source directory; the other pieces of its path are fixed, or an
identifier, in which there is no point.

Main statement: `ModuleScaffold.Template.filesInside_iff` – **the files of an accepted module lie in
the source directory exactly if none of these words leads up**, or, for a name that is a path from
the root, if it leads into the source directory.
-/

namespace ModuleScaffold

open Schema

/-! ### Ways that lead up -/

namespace Path

variable {path directory : Path} {rest : List Component} {text : List Char}

/-- A piece of the text between slashes leads to the directory above. -/
def Climbs (text : String) : Prop :=
  ['.', '.'] ∈ Text.fields (· == '/') text.toList

instance : DecidablePred Climbs :=
  fun _ => inferInstanceAs (Decidable (_ ∈ _))

/-- The path leads through the directory and does not lead up, or to the root, from there. -/
def LiesIn (path directory : Path) : Prop :=
  ∃ rest, path.components = directory.components ++ rest ∧ .up ∉ rest ∧ .root ∉ rest

instance (path directory : Path) : Decidable (path.LiesIn directory) :=
  decidable_of_iff (directory.components <+: path.components ∧
      .up ∉ path.components.drop directory.components.length ∧
      .root ∉ path.components.drop directory.components.length) <| by
    constructor
    · rintro ⟨⟨rest, hrest⟩, hdrop⟩
      rw [← hrest, List.drop_left] at hdrop
      exact ⟨rest, hrest.symm, hdrop⟩
    · rintro ⟨rest, hrest, hdrop⟩
      rw [hrest, List.drop_left]
      exact ⟨List.prefix_append _ _, hdrop⟩

theorem liesIn_iff (h : path.components = directory.components ++ rest) :
    path.LiesIn directory ↔ .up ∉ rest ∧ .root ∉ rest := by
  constructor
  · rintro ⟨rest', hcomponents, hrest⟩
    rwa [List.append_cancel_left (h.symm.trans hcomponents)]
  · exact fun hrest => ⟨rest, h, hrest⟩

theorem innerComponent_eq_up_iff {piece : List Char} :
    innerComponent piece = some .up ↔ piece = ['.', '.'] := by
  rw [innerComponent]
  split
  · next hnothing =>
    constructor
    · intro h
      cases h
    · rintro rfl
      cases hnothing
  · split
    · next hup => exact iff_of_true rfl hup
    · next hname =>
      refine iff_of_false (fun h => ?_) hname
      cases h

theorem innerComponent_ne_root (piece : List Char) : innerComponent piece ≠ some .root := by
  rw [innerComponent]
  split
  · intro h
    cases h
  · split <;> intro h <;> cases h

theorem up_mem_inner_iff : .up ∈ inner text ↔ ['.', '.'] ∈ Text.fields (· == '/') text := by
  simp only [inner, List.mem_filterMap, innerComponent_eq_up_iff, exists_eq_right]

theorem root_notMem_inner : .root ∉ inner text := by
  rw [inner, List.mem_filterMap]
  rintro ⟨piece, -, h⟩
  exact innerComponent_ne_root piece h

/-- No piece of a text without points leads up. -/
theorem up_notMem_inner (h : '.' ∉ text) : .up ∉ inner text := by
  rw [up_mem_inner_iff]
  exact fun hmem => h (Text.mem_of_mem_fields hmem List.mem_cons_self)

end Path

open ModuleScaffold.Path

namespace Schema

/-- The words from which a model's route is put together, behind the part that all routes share. -/
def Module.routeWords (m : Module) (model : Model) : List String :=
  if model.isParent then [m.plural]
  else match model.parent with
    | some parent => [parent.routePrefix, model.plural]
    | none => [m.plural, model.plural]

/-- A route leads up if one of its words does. -/
theorem Module.climbs_subPath_iff (m : Module) (model : Model) :
    Climbs (m.subPath model) ↔ ∃ word ∈ m.routeWords model, Climbs word := by
  have hjoin : ∀ word other : String,
      Climbs (word ++ "/" ++ other) ↔ Climbs word ∨ Climbs other := by
    intro word other
    have htext : (word ++ "/" ++ other).toList = word.toList ++ '/' :: other.toList := by
      rw [String.toList_append, String.toList_append, List.append_assoc]
      rfl
    rw [Climbs, Climbs, Climbs, ← up_mem_inner_iff, htext, inner_append_slash, List.mem_append,
      up_mem_inner_iff, up_mem_inner_iff]
  have hroute : ∀ parent : Parent, Climbs parent.route ↔ Climbs parent.routePrefix := by
    intro parent
    rw [Climbs, Climbs, ← up_mem_inner_iff, Parent.route, inner_trimMatches, up_mem_inner_iff]
  rw [subPath, routeWords]
  split
  · simp
  · cases model.parent with
    | some parent => simp [hjoin, hroute]
    | none => simp [hjoin]

end Schema

/-- The directory of the module of the given name is in the source directory: its name does not lead
up, or it is a path from the root that leads there. -/
def Layout.HoldsModule (layout : Layout) (name : String) : Prop :=
  if name.toList.head? = some '/' then (⟨name⟩ : Path).LiesIn layout.sourceDir else ¬Climbs name

namespace Template

variable {layout : Layout} {m : Module} {model : Model}

/-- All files of a module and of its models lie in the source directory. -/
def FilesInside (layout : Layout) (m : Module) : Prop :=
  ∀ (template : Template) (model? : Option Model), (∀ model ∈ model?, model ∈ m.models) →
    ∀ path ∈ template.outputPath layout m model?, path.LiesIn layout.sourceDir

/-! ### The directory of the module -/

/-- A file lies in the source directory if its directory does. -/
theorem liesIn_of_directory {path directory source : Path} (names : List Component)
    (h : path.components = directory.components ++ names) (hup : .up ∉ names)
    (hroot : .root ∉ names) (hdirectory : directory.LiesIn source) : path.LiesIn source := by
  obtain ⟨rest, hrest, hup', hroot'⟩ := hdirectory
  refine ⟨rest ++ names, by rw [h, hrest, List.append_assoc], ?_, ?_⟩
  · rw [List.mem_append, not_or]
    exact ⟨hup', hup⟩
  · rw [List.mem_append, not_or]
    exact ⟨hroot', hroot⟩

/-- Two files with different names lie in a directory only if theirs does. -/
theorem liesIn_of_files {path other directory source : Path} {name name' : String}
    (h : path.components = directory.components ++ [.name name])
    (h' : other.components = directory.components ++ [.name name']) (hne : name ≠ name')
    (hpath : path.LiesIn source) (hother : other.LiesIn source) : directory.LiesIn source := by
  obtain ⟨rest, hrest, hup, hroot⟩ := hpath
  obtain ⟨rest', hrest', -, -⟩ := hother
  rw [h] at hrest
  rw [h'] at hrest'
  rcases List.eq_nil_or_concat' rest with rfl | ⟨names, last, rfl⟩
  · -- the source directory would be the first file, and the second one would lie in it
    rw [List.append_nil] at hrest
    have hsame := hrest'
    rw [← hrest, List.append_assoc, List.append_cancel_left_eq, List.singleton_append,
      List.cons.injEq, Component.name.injEq] at hsame
    exact absurd hsame.1.symm hne
  · rw [← List.append_assoc] at hrest
    refine ⟨names, (List.append_inj' hrest rfl).1, fun hmem => hup ?_, fun hmem => hroot ?_⟩
    · exact List.mem_append_left _ hmem
    · exact List.mem_append_left _ hmem

theorem liesIn_moduleDir_iff {name : String} :
    (layout.moduleDir name).LiesIn layout.sourceDir ↔ layout.HoldsModule name := by
  rw [Layout.HoldsModule]
  split
  · next habsolute => rw [Layout.moduleDir, Path.join, if_pos habsolute]
  · next hrelative =>
    rw [liesIn_iff (components_moduleDir hrelative), List.mem_cons, List.mem_cons,
      or_iff_right Component.noConfusion, or_iff_right Component.noConfusion, up_mem_inner_iff,
      and_iff_left root_notMem_inner]
    rfl

theorem liesIn_moduleFile {file : String} (hslash : '/' ∉ file.toList) (hfilled : file ≠ "")
    (hpoint : file ≠ ".") (hpoints : file ≠ "..") (h : layout.HoldsModule m.name) :
    ((layout.moduleDir m.name).join file).LiesIn layout.sourceDir :=
  liesIn_of_directory _ (components_join_name (text_moduleDir_ne_empty layout m.name) hslash hfilled
    hpoint hpoints) (by simp) (by simp) (liesIn_moduleDir_iff.2 h)

/-! ### The files of a model -/

theorem up_mem_below_iff : .up ∈ below m model ↔ ∃ word ∈ m.routeWords model, Climbs word := by
  rw [below, up_mem_inner_iff, ← Module.climbs_subPath_iff, Climbs]

theorem liesIn_handler_iff {file : String} (hrelative : file.toList.head? ≠ some '/')
    (hup : .up ∉ inner file.toList) :
    ((layout.routeDir (m.basePath model)).join file).LiesIn layout.sourceDir ↔
      ∀ word ∈ m.routeWords model, ¬Climbs word := by
  have hcomponents : ((layout.routeDir (m.basePath model)).join file).components =
      layout.sourceDir.components ++
        (.name "api" :: .name "admin" :: (below m model ++ inner file.toList)) := by
    rw [components_handler hrelative, handlerDirectory, components_apiDir]
    simp only [List.append_assoc, List.cons_append, List.nil_append]
  have hroot : .root ∉ below m model := root_notMem_inner
  rw [liesIn_iff hcomponents]
  simp only [List.mem_cons, List.mem_append, reduceCtorEq, false_or, hup, or_false, hroot,
    root_notMem_inner, not_false_eq_true, and_true, up_mem_below_iff, not_exists, not_and]

theorem components_adminDir :
    layout.adminDir.components = layout.sourceDir.components ++ [.name "admin"] := by
  rw [Layout.adminDir, components_join (by decide) fun _ => by decide]
  rfl

theorem liesIn_listPage (h : m.Accepted) (hmodel : model ∈ m.models)
    (hwords : ∀ word ∈ m.routeWords model, ¬Climbs word) :
    (((layout.adminDir.join "routes").join (pageRoute (m.basePath model))).join
      "page.tsx").LiesIn layout.sourceDir := by
  have hup : .up ∉ below m model := by
    rw [up_mem_below_iff]
    exact fun ⟨word, hword, hclimbs⟩ => hwords word hword hclimbs
  have hroot : .root ∉ below m model := root_notMem_inner
  refine ⟨.name "admin" :: .name "routes" :: below m model ++ [.name "page.tsx"], ?_, ?_, ?_⟩
  · rw [components_listPage (h.head?_subPath_ne_slash hmodel), components_adminDir]
    simp only [List.append_assoc, List.cons_append, List.nil_append]
  · simp [hup]
  · simp [hroot]

/-- There is no point in an identifier, so the forms of a model do not lead up. -/
theorem liesIn_form {action : String} (haction : '/' ∉ action.toList)
    (hname : Text.isIdentifier model.name = true) :
    (formPath layout action model).LiesIn layout.sourceDir := by
  have hpoint : '.' ∉ model.name.toList := fun hmem =>
    absurd (Text.isWordPart_of_isIdentifierChars hname _ hmem) (by decide)
  have hup : .up ∉ inner (Text.Style.kebab.apply model.name).toList :=
    up_notMem_inner (Text.notMem_apply (by decide) (by decide) hpoint)
  have hroot : .root ∉ inner (Text.Style.kebab.apply model.name).toList := root_notMem_inner
  have hcomponents : (formPath layout action model).components = _ :=
    components_form haction (slash_notMem_of_isIdentifier hname)
  rw [components_adminDir, List.append_assoc, List.append_assoc] at hcomponents
  refine (liesIn_iff hcomponents).2 ⟨?_, ?_⟩
  · simp [hup]
  · simp [hroot]

theorem liesIn_definition (hname : Text.isIdentifier model.name = true)
    (h : layout.HoldsModule m.name) :
    (((layout.moduleDir m.name).join "models").join
      (Text.Style.snake.apply model.name ++ ".ts")).LiesIn layout.sourceDir := by
  refine liesIn_of_directory [.name "models", .name (Text.Style.snake.apply model.name ++ ".ts")]
    ?_ (by simp) (by simp)
    (liesIn_moduleDir_iff.2 h)
  rw [components_definition (slash_notMem_of_isIdentifier hname), definitionSpot, Spot.components,
    List.append_assoc]
  rfl

theorem liesIn_modelPath (h : m.Accepted) (hmodel : model ∈ m.models)
    (hname : layout.HoldsModule m.name) (hwords : ∀ word ∈ m.routeWords model, ¬Climbs word)
    {template : Template} {path : Path} (hpath : template.modelPath layout m model = some path) :
    path.LiesIn layout.sourceDir := by
  have hnamed := (h.wellNamed model hmodel).name
  cases template with
  | model => exact Option.some.inj hpath ▸ liesIn_definition hnamed hname
  | validators =>
    exact Option.some.inj hpath ▸ (liesIn_handler_iff (by decide) (by decide)).2 hwords
  | routeCollection =>
    exact Option.some.inj hpath ▸ (liesIn_handler_iff (by decide) (by decide)).2 hwords
  | routeItem =>
    exact Option.some.inj hpath ▸ (liesIn_handler_iff (by decide) (by decide)).2 hwords
  | listPage => exact Option.some.inj hpath ▸ liesIn_listPage h hmodel hwords
  | createForm => exact Option.some.inj hpath ▸ liesIn_form (by decide) hnamed
  | editForm => exact Option.some.inj hpath ▸ liesIn_form (by decide) hnamed
  | _ => cases hpath

/-! ### All files -/

/-- **The files of an accepted module lie in the source directory exactly if its name is that of a
directory there and no word of a route leads up.** -/
theorem filesInside_iff (layout : Layout) (h : m.check = .ok ()) :
    FilesInside layout m ↔ layout.HoldsModule m.name ∧
      ∀ model ∈ m.models, ∀ word ∈ m.routeWords model, ¬Climbs word := by
  have haccepted := Module.check_eq_ok_iff.1 h
  constructor
  · intro hinside
    have hown : ∀ model ∈ (none : Option Model), model ∈ m.models := fun _ h => nomatch h
    have hne := text_moduleDir_ne_empty layout m.name
    refine ⟨liesIn_moduleDir_iff.1 ?_, fun model hmodel => ?_⟩
    · exact liesIn_of_files
        (components_join_name hne (by decide) (by decide) (by decide) (by decide))
        (components_join_name hne (by decide) (by decide) (by decide) (by decide)) (by decide)
        (hinside moduleService none hown _ rfl) (hinside moduleIndex none hown _ rfl)
    · have hone : ∀ other ∈ some model, other ∈ m.models := by
        rintro other ⟨⟩
        exact hmodel
      exact (liesIn_handler_iff (by decide) (by decide)).1 (hinside validators _ hone _ rfl)
  · rintro ⟨hname, hwords⟩ template model? hmodels path hpath
    cases template with
    | unlessPath =>
      refine Option.some.inj hpath ▸
        ⟨[.name "api", .name "utils", .name "unless-path.ts"], ?_, by simp, by simp⟩
      rw [components_join (by decide) fun _ => by decide, components_apiDir, List.append_assoc]
      rfl
    | sdk =>
      refine Option.some.inj hpath ▸
        ⟨[.name "admin", .name "lib", .name "sdk.ts"], ?_, by simp, by simp⟩
      rw [components_join (by decide) fun _ => by decide, components_adminDir, List.append_assoc]
      rfl
    | moduleService =>
      exact Option.some.inj hpath ▸
        liesIn_moduleFile (by decide) (by decide) (by decide) (by decide) hname
    | moduleIndex =>
      exact Option.some.inj hpath ▸
        liesIn_moduleFile (by decide) (by decide) (by decide) (by decide) hname
    | _ =>
      obtain ⟨model, hsome, hmodel⟩ := Option.bind_eq_some_iff.1 hpath
      have hmem := hmodels model hsome
      exact liesIn_modelPath haccepted hmem hname (hwords model hmem) hmodel

/-- A module of the given name with one model, whose route is the plural of the module. -/
def shopModule (name plural : String) : Module :=
  ⟨name, plural, [⟨"Item", "item", "items", true, none, []⟩]⟩

theorem filesInside_shopModule : (shopModule "shop" "shop").check = .ok () ∧
    FilesInside {} (shopModule "shop" "shop") := by
  have hcheck : (shopModule "shop" "shop").check = .ok () := by decide +kernel
  have hname : ({} : Layout).HoldsModule "shop" := by
    rw [Layout.HoldsModule, if_neg (by decide)]
    decide
  exact ⟨hcheck, (filesInside_iff {} hcheck).2 ⟨hname, by decide +kernel⟩⟩

/-- Modules that are named by a path, or whose plural is the directory above, are accepted. Their
services or their handlers do not lie in the source directory. -/
theorem outside_shopModule :
    (shopModule "../../etc" "shop").check = .ok () ∧
      ¬FilesInside {} (shopModule "../../etc" "shop") ∧
      (shopModule "/etc" "shop").check = .ok () ∧ ¬FilesInside {} (shopModule "/etc" "shop") ∧
      (shopModule "shop" "..").check = .ok () ∧ ¬FilesInside {} (shopModule "shop" "..") := by
  have hservice : ∀ name, ¬(((({} : Layout).moduleDir name).join "service.ts").LiesIn ⟨"src"⟩) →
      ¬FilesInside {} (shopModule name "shop") :=
    fun name houtside hinside =>
      houtside (hinside moduleService none (fun _ h => nomatch h) _ rfl)
  refine ⟨by decide +kernel, hservice _ (by decide +kernel), by decide +kernel,
    hservice _ (by decide +kernel), by decide +kernel, fun hinside => ?_⟩
  have hroute := hinside routeCollection (some ⟨"Item", "item", "items", true, none, []⟩)
    (by rintro model ⟨⟩; exact List.mem_singleton_self _) _ rfl
  exact absurd hroute (by decide +kernel)

end Template

end ModuleScaffold
