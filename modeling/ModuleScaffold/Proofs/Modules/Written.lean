import ModuleScaffold.Proofs.Merge.Rewritten
import ModuleScaffold.Proofs.Modules.Declared
import ModuleScaffold.Proofs.Modules.Rendering

/-!
# Accepted modules that can be written

What an accepted module declares can always be written, once it could be put together: its routes
refer to nothing but schemas and checks that are bound, and no schema constant reads another one.
Putting it together is what can fail. The check says nothing of the names in which the words for
several items are used, nor of line ends in the prefixes of routes, so the files of a module can all
be rendered and its declarations refused.

Main statements:

* `ModuleScaffold.Declarations.exists_serialize` – **what an accepted module declares can be
  written**;
* `ModuleScaffold.Declarations.generation_succeeds_iff` – **all files of an accepted module can be
  rendered, and its declarations can be written exactly if they can be expressed**.
-/

namespace ModuleScaffold

namespace Text

/-- A name is not used in a text that lacks its first character. -/
theorem mentionsFrom_eq_false {c : Char} {name text : List Char} (h : c ∉ text)
    (before : Option Char) (skip : ℕ) : mentionsFrom (c :: name) before skip text = false := by
  induction text generalizing before skip with
  | nil => rfl
  | cons d text ih =>
    rw [List.mem_cons, not_or] at h
    cases skip with
    | succ skip => exact ih h.2 _ _
    | zero =>
      have hapart : (c :: name).isPrefixOf (d :: text) = false := by
        rw [List.isPrefixOf_cons_cons, beq_eq_false_iff_ne.2 h.1, Bool.false_and]
      rw [mentionsFrom, hapart, if_neg Bool.false_ne_true]
      exact ih h.2 _ _

end Text

namespace Declarations

open Schema

variable {layout : Layout} {middlewareDir : Path} {m : Module} {model : Model} {store : Store}

/-! ### What the routes refer to -/

theorem references_queryCheck (model : Model) (isList : Bool) :
    (queryCheck model isList).references = [model.listSchema] := by
  have hnone : ∀ texts : List String, Value.referencesAll (texts.map .string) = [] := by
    intro texts
    induction texts with
    | nil => rfl
    | cons text texts ih => exact ih
  simp only [Call.references, queryCheck, Value.referencesAll, Value.references,
    Value.referencesMembers, Value.strings, hnone, List.append_nil]

theorem references_listMiddleware : (listMiddleware m model).references = [model.listSchema] := by
  have hquery := references_queryCheck model true
  rw [listMiddleware]
  split
  · simp only [Call.references] at hquery
    simp only [Call.references, Call.unlessPath, Value.ofPattern, Call.toValue,
      Value.referencesAll, Value.references, hquery, List.nil_append, List.append_nil]
  · exact hquery

/-- The routes of a model refer to its schema and to its checks. -/
theorem mem_of_mem_references {route : Route} (hroute : route ∈ routes m model) {path : String}
    (hpath : path ∈ route.references) :
    path ∈ [model.listSchema, model.createValidator, model.updateValidator] := by
  have hsingle : ∀ (method : Method) (matcher : String) (call : Call),
      (⟨method, matcher, [call], []⟩ : Route).references = call.references := fun _ _ _ => by
    simp only [Route.references, List.flatMap_cons, List.flatMap_nil, Value.referencesMembers,
      List.append_nil]
  simp only [routes, List.mem_cons, List.not_mem_nil, or_false] at hroute ⊢
  rcases hroute with rfl | rfl | rfl | rfl
  · rw [hsingle, references_listMiddleware, List.mem_singleton] at hpath
    exact .inl hpath
  · exact .inr (.inl (List.mem_singleton.1 hpath))
  · rw [hsingle, references_queryCheck, List.mem_singleton] at hpath
    exact .inl hpath
  · exact .inr (.inr (List.mem_singleton.1 hpath))

/-- What the routes of a model refer to is bound by its declarations. -/
theorem exists_boundBy_of_refersTo (hmodel : Declarable m model)
    (hname : Text.isIdentifier model.name = true) {route : Route} (hroute : route ∈ routes m model)
    {name : String} (hrefers : route.RefersTo name) :
    ∃ binder, (declared layout middlewareDir m model).BoundBy name binder := by
  simp only [boundBy_declared hname]
  rw [← Route.mem_roots_iff, List.mem_map] at hrefers
  obtain ⟨path, hpath, rfl⟩ := hrefers
  have hmem := mem_of_mem_references hroute hpath
  simp only [List.mem_cons, List.not_mem_nil, or_false] at hmem
  rcases hmem with rfl | rfl | rfl
  · rw [Text.pathRoot_of_isIdentifier hmodel.listSchema]
    exact ⟨_, .listSchema⟩
  · rw [Text.pathRoot_of_isIdentifier (Model.isIdentifier_createValidator hname)]
    exact ⟨_, .validator List.mem_cons_self⟩
  · rw [Text.pathRoot_of_isIdentifier (Model.isIdentifier_updateValidator hname)]
    exact ⟨_, .validator (List.mem_cons_of_mem _ List.mem_cons_self)⟩

/-! ### What can be written -/

/-- No schema constant reads a name that one of the others binds. -/
theorem exists_ordered (hstatements : store.statements = [])
    (hdefinitions : ∀ d ∈ store.definitions, ∃ model, d = definition model) :
    ∃ out, store.ordered = .ok out := by
  rw [Store.exists_ordered_iff]
  have hnone : ∀ i j, ¬Store.Reads store.nodes i j := by
    rintro i j ⟨-, a, b, ha, hb, name, hname, hmentions⟩
    have hnodes : store.nodes = store.definitions.map Store.Node.ofDefinition := by
      rw [Store.nodes, hstatements, List.map_nil, List.append_nil]
    rw [hnodes] at ha hb
    obtain ⟨d, hd, rfl⟩ := List.mem_map.1 (List.mem_of_getElem? ha)
    obtain ⟨e, he, rfl⟩ := List.mem_map.1 (List.mem_of_getElem? hb)
    obtain ⟨reader, rfl⟩ := hdefinitions d hd
    obtain ⟨read, rfl⟩ := hdefinitions e he
    obtain rfl := List.mem_singleton.1 hname
    -- the initializers are all the same, and the first letter of a schema is not in them
    have hfirst : ∃ rest, read.listSchema.toList = 'G' :: rest := by
      rw [Model.listSchema, String.toList_append, String.toList_append]
      exact ⟨_, rfl⟩
    obtain ⟨rest, hrest⟩ := hfirst
    have hapart : 'G' ∉ (findParams ++ "()").toList := by decide +kernel
    rw [Text.mentions, Bool.and_eq_true] at hmentions
    have hfalse : Text.mentionsFrom ('G' :: rest) none 0 (findParams ++ "()").toList = false :=
      Text.mentionsFrom_eq_false hapart none 0
    rw [← hrest] at hfalse
    exact absurd (hfalse.symm.trans hmentions.2) Bool.false_ne_true
  rintro ⟨i, h⟩
  obtain ⟨j, -, hread⟩ := Relation.TransGen.tail'_iff.1 h
  exact hnone _ _ hread

/-- **What an accepted module declares can be written.** -/
theorem exists_serialize (h : m.Accepted)
    (hstore : ofModule layout middlewareDir m = .ok store) : Succeeds store.serialize := by
  obtain ⟨hmodels, rfl⟩ := ofModule_eq_ok_iff.1 hstore
  have hstatements : ∀ upper ∈ m.models.map (declared layout middlewareDir m),
      upper.statements = [] := by
    intro upper hupper
    obtain ⟨model, -, rfl⟩ := List.mem_map.1 hupper
    exact statements_declared
  obtain ⟨hdefinitions, hroutes, hnone⟩ := mem_overlayAll .empty hstatements
  have hordered := exists_ordered hnone fun d hd => by
    obtain ⟨upper, hupper, hd⟩ := (hdefinitions d hd).resolve_left List.not_mem_nil
    obtain ⟨model, -, rfl⟩ := List.mem_map.1 hupper
    rw [definitions_declared, List.mem_singleton] at hd
    exact ⟨model, hd⟩
  have hbound : (Store.empty.overlayAll (m.models.map (declared layout middlewareDir m))).dangling
      = [] := by
    refine Store.dangling_eq_nil_iff.2 fun route hroute name hrefers _ => ?_
    obtain ⟨upper, hupper, hroute⟩ := (hroutes route hroute).resolve_left List.not_mem_nil
    obtain ⟨model, hmodel, rfl⟩ := List.mem_map.1 hupper
    obtain ⟨binder, hbinder⟩ : ∃ binder,
        (declared layout middlewareDir m model).BoundBy name binder :=
      exists_boundBy_of_refersTo (hmodels model hmodel) (h.wellNamed model hmodel).name
        (mem_routes_declared hroute) hrefers
    refine Store.binds_iff_exists_boundBy.2 ⟨binder, ?_⟩
    exact (Store.boundBy_overlayAll Store.Canonical.empty.imports
      (canonical_of_mem_declared hmodels)).2 (.inr ⟨_, hupper, hbinder⟩)
  obtain ⟨out, hout⟩ := hordered
  exact ⟨_, Store.serialize_eq_ok_iff.2 ⟨hbound, out, hout, rfl⟩⟩

/-- The declarations of an accepted module are made exactly if they can be expressed. -/
theorem succeeds_ofModule_iff (layout : Layout) (middlewareDir : Path) (h : m.Accepted) :
    Succeeds (ofModule layout middlewareDir m) ↔ m.Expressible := by
  rw [← forall_declarable_iff h]
  constructor
  · rintro ⟨store, hstore⟩
    exact (ofModule_eq_ok_iff.1 hstore).1
  · exact fun hall => ⟨_, ofModule_eq_ok_iff.2 ⟨hall, rfl⟩⟩

/-- **All files of an accepted module can be rendered, and its declarations can be written exactly
if they can be expressed.** -/
theorem generation_succeeds_iff (layout : Layout) (middlewareDir : Path) (h : m.check = .ok ()) :
    Succeeds ((⟨.standard, layout⟩ : Renderer).renderModule m) ∧
      (∀ template model,
        Succeeds ((⟨.standard, layout⟩ : Renderer).render template m (some model))) ∧
      (∀ store, ofModule layout middlewareDir m = .ok store → Succeeds store.serialize) ∧
      (Succeeds (ofModule layout middlewareDir m) ↔ m.Expressible) := by
  have haccepted := Module.check_eq_ok_iff.1 h
  exact ⟨Renderer.succeeds_renderModule layout m,
    fun template model => Renderer.succeeds_render layout template m model,
    fun store hstore => exists_serialize haccepted hstore,
    succeeds_ofModule_iff layout middlewareDir haccepted⟩

/-- A module with a model and, below the route prefix, another one with the given plural. -/
def partsModule (plural routePrefix : String) : Module :=
  ⟨"parts", "parts", [⟨"Part", "part", "parts", true, none, []⟩,
    ⟨"PartKit", "kit", plural, false, some ⟨"Part", routePrefix⟩, []⟩]⟩

theorem generation_succeeds_partsModule : (partsModule "kits" "parts").check = .ok () ∧
    Succeeds (ofModule {} ⟨"src/api"⟩ (partsModule "kits" "parts")) := by
  have hcheck : (partsModule "kits" "parts").check = .ok () := by decide +kernel
  obtain ⟨-, -, -, hsucceeds⟩ := generation_succeeds_iff {} ⟨"src/api"⟩ hcheck
  exact ⟨hcheck, hsucceeds.2 (by decide +kernel)⟩

/-- A plural that stands in a path but not in a name, and a route prefix that spans lines, are
accepted. Their declarations are refused, when all files have been rendered. -/
theorem accepted_refused : (partsModule "kits.v2+" "parts").check = .ok () ∧
    (partsModule "kits" "parts/a\nb").check = .ok () ∧ ∀ layout middlewareDir,
      ¬Succeeds (ofModule layout middlewareDir (partsModule "kits.v2+" "parts")) ∧
        ¬Succeeds (ofModule layout middlewareDir (partsModule "kits" "parts/a\nb")) := by
  have hplural : (partsModule "kits.v2+" "parts").check = .ok () := by decide +kernel
  have hprefix : (partsModule "kits" "parts/a\nb").check = .ok () := by decide +kernel
  refine ⟨hplural, hprefix, fun layout middlewareDir => ?_⟩
  rw [succeeds_ofModule_iff layout middlewareDir (Module.check_eq_ok_iff.1 hplural),
    succeeds_ofModule_iff layout middlewareDir (Module.check_eq_ok_iff.1 hprefix)]
  decide +kernel

end Declarations

end ModuleScaffold
