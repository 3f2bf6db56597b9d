import ModuleScaffold.Proofs.Modules.Rendering
import ModuleScaffold.Proofs.Paths.Joining
import ModuleScaffold.Proofs.Text.Marks

/-!
# Where the files of a module lie

Every file of a module lies in a directory under a name, its *spot*
(`ModuleScaffold.Template.Spot`). The directory of the definitions belongs to the module, those of
the handlers and of the list are made of the route of the collection, and that of the forms of the
name of the model; the name of a file tells the templates apart but for the handlers of a collection
and of its items.

The name of a module can be any text, also a path from the root. Below the other directories nothing
can leave them: a route does not begin with a slash behind the part that all routes share, and the
name of a model has none.

Main statement: `ModuleScaffold.Template.components_places` – **the files of an accepted module lie
at its spots**.
-/

namespace ModuleScaffold

open Schema

/-! ### Routes as paths -/

namespace Schema

variable {m : Module} {model : Model}

/-- The route of a model's collection behind the part that all routes share. -/
def Module.subPath (m : Module) (model : Model) : String :=
  if model.isParent then m.plural
  else match model.parent with
    | some parent => parent.route ++ "/" ++ model.plural
    | none => m.plural ++ "/" ++ model.plural

theorem Module.basePath_eq (m : Module) (model : Model) :
    m.basePath model = "/admin/" ++ m.subPath model := by
  rw [basePath, subPath]
  split
  · rfl
  · cases model.parent with
    | some parent => simp only [String.append_assoc]
    | none => simp only [String.append_assoc]

theorem IsSegment.head?_ne_slash {word : String} (h : IsSegment word) :
    word.toList.head? ≠ some '/' :=
  fun hhead => (h.solid '/' (List.mem_of_mem_head? hhead)).2 rfl

/-- A route prefix does not begin with a slash. -/
theorem Parent.head?_route_ne_slash (parent : Parent) : parent.route.toList.head? ≠ some '/' := by
  rw [Parent.route, Text.trimMatches, String.toList_ofList]
  intro hhead
  have hprefix : Text.dropEndWhile (· == '/') (parent.routePrefix.toList.dropWhile (· == '/')) <+:
      parent.routePrefix.toList.dropWhile (· == '/') := List.rdropWhile_prefix _ _
  obtain ⟨cut, hcut⟩ := hprefix
  have hfirst : (parent.routePrefix.toList.dropWhile (· == '/')).head? = some '/' := by
    rw [← hcut, List.head?_append, hhead]
    rfl
  have hnot := List.head?_dropWhile_not (· == '/') parent.routePrefix.toList
  rw [hfirst] at hnot
  cases hnot

theorem head?_append_ne_slash {word : String} (hne : word ≠ "")
    (h : word.toList.head? ≠ some '/') (rest : String) :
    (word ++ "/" ++ rest).toList.head? ≠ some '/' := by
  rw [String.toList_append, String.toList_append, List.append_assoc,
    List.head?_append_of_ne_nil _ fun hnil => hne (String.toList_inj.1 hnil)]
  exact h

/-- Behind the part that all routes share, no slash follows. -/
theorem Module.Accepted.head?_subPath_ne_slash (h : m.Accepted) (hmodel : model ∈ m.models) :
    (m.subPath model).toList.head? ≠ some '/' := by
  rw [Module.subPath]
  split
  · exact h.plural.head?_ne_slash
  · split
    · next parent hparent =>
      exact head?_append_ne_slash ((h.linked model hmodel).route parent hparent)
        parent.head?_route_ne_slash _
    · exact head?_append_ne_slash h.plural.ne_empty h.plural.head?_ne_slash _

end Schema

namespace Template

open ModuleScaffold.Path

variable {layout : Layout} {m : Module} {model a b : Model} {rest : String}

theorem relativeRoute_admin (rest : String) :
    Layout.relativeRoute ("/admin/" ++ rest) = "admin/" ++ rest := by
  rw [Layout.relativeRoute, String.toList_append, ← String.toList_inj, String.toList_ofList,
    String.toList_append]
  rfl

theorem pageRoute_admin (h : rest.toList.head? ≠ some '/') :
    pageRoute ("/admin/" ++ rest) = rest := by
  have hstop : ∀ fuel, withoutLeading "/admin/".toList fuel rest.toList = rest.toList := by
    intro fuel
    cases fuel with
    | zero => rfl
    | succ fuel =>
      have hapart : "/admin/".toList.isPrefixOf rest.toList = false := by
        rw [Bool.eq_false_iff, ne_eq, List.isPrefixOf_iff_prefix]
        rintro ⟨behind, hbehind⟩
        rw [← hbehind] at h
        exact h rfl
      rw [withoutLeading, hapart, if_neg Bool.false_ne_true]
  have htext : ("/admin/" ++ rest).toList = "/admin/".toList ++ rest.toList :=
    String.toList_append
  have hlength : ∃ fuel, ("/admin/" ++ rest).toList.length = fuel + 1 := by
    rw [htext, List.length_append]
    exact ⟨6 + rest.toList.length, by rw [Nat.add_right_comm]; rfl⟩
  obtain ⟨fuel, hfuel⟩ := hlength
  rw [pageRoute, hfuel, htext, withoutLeading,
    if_pos (List.isPrefixOf_iff_prefix.2 (List.prefix_append _ _)), List.drop_left, hstop,
    String.ofList_toList]

/-- The components of a model's route behind the part that all routes share. -/
def below (m : Module) (model : Model) : List Component :=
  inner (m.subPath model).toList

theorem components_basePath (m : Module) (model : Model) :
    (⟨m.basePath model⟩ : Path).components = .root :: .name "admin" :: below m model := by
  have htext : (⟨m.basePath model⟩ : Path).text.toList =
      '/' :: ("admin".toList ++ '/' :: (m.subPath model).toList) := by
    rw [Module.basePath_eq, String.toList_append]
    rfl
  rw [components_of_absolute htext, inner_append_slash]
  rfl

/-! ### Directories -/

theorem components_apiDir :
    layout.apiDir.components = layout.sourceDir.components ++ [.name "api"] := by
  rw [Layout.apiDir, components_join (by decide) fun _ => by decide]
  rfl

theorem components_routeDir : (layout.routeDir (m.basePath model)).components =
    layout.apiDir.components ++ .name "admin" :: below m model := by
  have hbase : layout.apiDir.text ≠ "" := text_join_ne_empty (.inr (by decide))
  have htext : ("admin/" ++ m.subPath model).toList =
      "admin".toList ++ '/' :: (m.subPath model).toList := by
    rw [String.toList_append]
    rfl
  have hrelative : ("admin/" ++ m.subPath model).toList.head? ≠ some '/' := by
    rw [htext]
    exact fun h => nomatch Option.some.inj h
  rw [Layout.routeDir, Module.basePath_eq, relativeRoute_admin,
    components_join hrelative fun h => absurd h hbase, htext, inner_append_slash]
  rfl

/-- A module whose name does not start at the root lies in the directory of the modules. -/
theorem components_moduleDir {name : String} (h : name.toList.head? ≠ some '/') :
    (layout.moduleDir name).components =
      layout.sourceDir.components ++ .name "modules" :: inner name.toList := by
  have hne : layout.modulesDir.text ≠ "" := text_join_ne_empty (.inr (by decide))
  rw [Layout.moduleDir, components_join h fun hempty => absurd hempty hne, Layout.modulesDir,
    components_join (by decide) fun _ => by decide, List.append_assoc]
  rfl

theorem text_moduleDir_ne_empty (layout : Layout) (name : String) :
    (layout.moduleDir name).text ≠ "" :=
  text_join_ne_empty (.inl (text_join_ne_empty (.inr (by decide))))

theorem text_routeDir_ne_empty (layout : Layout) (route : String) :
    (layout.routeDir route).text ≠ "" :=
  text_join_ne_empty (.inl (text_join_ne_empty (.inr (by decide))))

theorem text_adminDir_join_ne_empty (layout : Layout) (piece : String) :
    (layout.adminDir.join piece).text ≠ "" :=
  text_join_ne_empty (.inl (text_join_ne_empty (.inr (by decide))))

/-! ### Spots -/

/-- Where a file lies: a directory and a name in it. -/
structure Spot where
  /-- The components of the directory. -/
  directory : List Component
  /-- The name of the file. -/
  file : String
  deriving DecidableEq

/-- The components of the path of the file. -/
def Spot.components (spot : Spot) : List Component :=
  spot.directory ++ [.name spot.file]

theorem Spot.components_injective : Function.Injective Spot.components := by
  rintro ⟨directory, file⟩ ⟨directory', file'⟩ h
  obtain ⟨hdirectory, hfile⟩ := List.append_inj' h rfl
  rw [List.singleton_inj, Component.name.injEq] at hfile
  exact congrArg₂ Spot.mk hdirectory hfile

/-- The spot of the definition of a model. -/
def definitionSpot (layout : Layout) (m : Module) (model : Model) : Spot :=
  ⟨(layout.moduleDir m.name).components ++ [.name "models"],
    Text.Style.snake.apply model.name ++ ".ts"⟩

/-- The directory of the handlers of a model. -/
def handlerDirectory (layout : Layout) (m : Module) (model : Model) : List Component :=
  layout.apiDir.components ++ .name "admin" :: below m model

/-- The spots of the checks of a model and of the handlers of its collection and of its items. -/
def handlerSpots (layout : Layout) (m : Module) (model : Model) : List Spot :=
  [⟨handlerDirectory layout m model, "validators.ts"⟩,
    ⟨handlerDirectory layout m model, "route.ts"⟩,
    ⟨handlerDirectory layout m model ++ [.name "[id]"], "route.ts"⟩]

/-- The spots of the list and of the two forms of a model. -/
def pageSpots (layout : Layout) (m : Module) (model : Model) : List Spot :=
  let name := Text.Style.kebab.apply model.name
  let forms := layout.adminDir.components ++ .name "components" :: inner name.toList
  [⟨layout.adminDir.components ++ .name "routes" :: below m model, "page.tsx"⟩,
    ⟨forms, "create-" ++ name ++ "-form.tsx"⟩, ⟨forms, "edit-" ++ name ++ "-form.tsx"⟩]

/-- The spots of the two files of the module itself. -/
def moduleSpots (layout : Layout) (m : Module) : List Spot :=
  [⟨(layout.moduleDir m.name).components, "service.ts"⟩,
    ⟨(layout.moduleDir m.name).components, "index.ts"⟩]

/-! ### The files lie at the spots -/

theorem getLast?_append {stem ending : String} {c : Char} (h : ending.toList.getLast? = some c) :
    (stem ++ ending).toList.getLast? = some c := by
  rw [String.toList_append, List.getLast?_append, h]
  rfl

/-- A file with an ending lies in its directory. -/
theorem components_join_file {base : Path} (hne : base.text ≠ "") {stem ending : String}
    (hslash : '/' ∉ stem.toList) (hending : '/' ∉ ending.toList)
    (hlast : ∃ c, ending.toList.getLast? = some c ∧ c ≠ '.') :
    (base.join (stem ++ ending)).components = base.components ++ [.name (stem ++ ending)] := by
  obtain ⟨c, hlast, hc⟩ := hlast
  have hapart : ∀ name : String, name.toList.getLast? ≠ some c → stem ++ ending ≠ name := by
    rintro name hname rfl
    exact hname (getLast?_append hlast)
  refine components_join_name hne ?_ (hapart "" (by simp)) (hapart "." ?_) (hapart ".." ?_)
  · rw [String.toList_append, List.mem_append, not_or]
    exact ⟨hslash, hending⟩
  · exact fun h => hc (Option.some.inj h).symm
  · exact fun h => hc (Option.some.inj h).symm

theorem slash_notMem_of_isIdentifier {name : String} (h : Text.isIdentifier name = true) :
    '/' ∉ name.toList :=
  fun hmem => absurd (Text.isWordPart_of_isIdentifierChars h _ hmem) (by decide)

theorem components_definition (hname : '/' ∉ model.name.toList) :
    (((layout.moduleDir m.name).join "models").join
      (Text.Style.snake.apply model.name ++ ".ts")).components =
        (definitionSpot layout m model).components := by
  have hne := text_moduleDir_ne_empty layout m.name
  rw [components_join_file (text_join_ne_empty (.inl hne))
    (Text.notMem_apply (by decide) (by decide) hname) (by decide) ⟨'s', rfl, by decide⟩,
    components_join_name hne (by decide) (by decide) (by decide) (by decide)]
  rfl

theorem components_handler {file : String} (hrelative : file.toList.head? ≠ some '/') :
    ((layout.routeDir (m.basePath model)).join file).components =
      handlerDirectory layout m model ++ inner file.toList := by
  rw [components_join hrelative fun h => absurd h (text_routeDir_ne_empty _ _),
    components_routeDir]
  rfl

theorem components_listPage (h : (m.subPath model).toList.head? ≠ some '/') :
    (((layout.adminDir.join "routes").join (pageRoute (m.basePath model))).join
      "page.tsx").components =
        layout.adminDir.components ++ .name "routes" :: below m model ++ [.name "page.tsx"] := by
  have hne := text_adminDir_join_ne_empty layout "routes"
  have hadmin : layout.adminDir.text ≠ "" := text_join_ne_empty (.inr (by decide))
  rw [Module.basePath_eq, pageRoute_admin h,
    components_join_name (text_join_ne_empty (.inl hne)) (by decide) (by decide) (by decide)
      (by decide),
    components_join h fun hempty => absurd hempty hne,
    components_join_name hadmin (by decide) (by decide) (by decide) (by decide)]
  simp only [List.append_assoc, List.singleton_append]
  rfl

theorem components_form {action : String} (haction : '/' ∉ action.toList)
    (hname : '/' ∉ model.name.toList) : (formPath layout action model).components =
      layout.adminDir.components ++
        .name "components" :: inner (Text.Style.kebab.apply model.name).toList ++
        [.name (action ++ "-" ++ Text.Style.kebab.apply model.name ++ "-form.tsx")] := by
  have hkebab : '/' ∉ (Text.Style.kebab.apply model.name).toList :=
    Text.notMem_apply (by decide) (by decide) hname
  have hrelative : (Text.Style.kebab.apply model.name).toList.head? ≠ some '/' :=
    fun h => hkebab (List.mem_of_mem_head? h)
  have hstem : '/' ∉ (action ++ "-" ++ Text.Style.kebab.apply model.name).toList := by
    rw [String.toList_append, String.toList_append, List.mem_append, List.mem_append, not_or,
      not_or]
    exact ⟨⟨haction, by decide⟩, hkebab⟩
  have hne := text_adminDir_join_ne_empty layout "components"
  have hadmin : layout.adminDir.text ≠ "" := text_join_ne_empty (.inr (by decide))
  rw [formPath, components_join_file (text_join_ne_empty (.inl hne)) hstem (by decide)
      ⟨'x', rfl, by decide⟩,
    components_join hrelative fun hempty => absurd hempty hne,
    components_join_name hadmin (by decide) (by decide) (by decide) (by decide)]
  simp only [List.append_assoc, List.singleton_append]

/-- The files of a model lie at its spots. -/
theorem components_modelPlaces (h : m.Accepted) (hmodel : model ∈ m.models) :
    (modelPlaces layout m model).map Path.components =
      (definitionSpot layout m model ::
        (handlerSpots layout m model ++ pageSpots layout m model)).map Spot.components := by
  have hname : '/' ∉ model.name.toList :=
    slash_notMem_of_isIdentifier (h.wellNamed model hmodel).name
  have hplaces : modelPlaces layout m model =
      [((layout.moduleDir m.name).join "models").join
          (Text.Style.snake.apply model.name ++ ".ts"),
        (layout.routeDir (m.basePath model)).join "validators.ts",
        (layout.routeDir (m.basePath model)).join "route.ts",
        (layout.routeDir (m.basePath model)).join "[id]/route.ts",
        ((layout.adminDir.join "routes").join (pageRoute (m.basePath model))).join "page.tsx",
        formPath layout "create" model, formPath layout "edit" model] := rfl
  have hitem : (handlerDirectory layout m model ++ [.name "[id]"]) ++ [.name "route.ts"] =
      handlerDirectory layout m model ++ inner "[id]/route.ts".toList := by
    rw [List.append_assoc]
    rfl
  rw [hplaces]
  simp only [List.map_cons, List.map_nil, handlerSpots, pageSpots, List.cons_append,
    List.nil_append, Spot.components, hitem, components_definition hname,
    components_form (by decide : '/' ∉ "create".toList) hname,
    components_form (by decide : '/' ∉ "edit".toList) hname,
    components_listPage (h.head?_subPath_ne_slash hmodel)]
  simp only [components_handler (by decide : "validators.ts".toList.head? ≠ some '/'),
    components_handler (by decide : "route.ts".toList.head? ≠ some '/'),
    components_handler (by decide : "[id]/route.ts".toList.head? ≠ some '/')]
  rfl

/-- The spots of the files of a module. -/
def spots (layout : Layout) (m : Module) : List Spot :=
  moduleSpots layout m ++ m.models.flatMap fun model =>
    definitionSpot layout m model :: (handlerSpots layout m model ++ pageSpots layout m model)

/-- **The files of an accepted module lie at its spots.** -/
theorem components_places (h : m.Accepted) :
    (places layout m).map Path.components = (spots layout m).map Spot.components := by
  have hne := text_moduleDir_ne_empty layout m.name
  have hmodels : (m.models.flatMap (modelPlaces layout m)).map Path.components =
      (m.models.flatMap fun model => definitionSpot layout m model ::
        (handlerSpots layout m model ++ pageSpots layout m model)).map Spot.components := by
    rw [List.map_flatMap, List.map_flatMap]
    exact List.flatMap_congr fun model hmodel => components_modelPlaces h hmodel
  rw [places, spots, List.map_cons, List.map_cons, List.map_append, hmodels,
    components_join_name hne (by decide) (by decide) (by decide) (by decide),
    components_join_name hne (by decide) (by decide) (by decide) (by decide)]
  rfl

end Template

end ModuleScaffold
