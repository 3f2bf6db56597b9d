import ModuleScaffold.Proofs.Modules.Written
import Mathlib.Data.List.Dedup

/-!
# Routes of a module

Every model declares four routes, and a route replaces the one with the same method and path. What
is found in the end are the routes of all models if their paths are apart
(`ModuleScaffold.Declarations.RoutesApart`). The check of a module does not see to that: a path is
put together by three rules, and two parents of a module have the same one.

Main statement: `ModuleScaffold.Declarations.routes_kept_iff` – **a module has four routes for each
model, and the routes of each model are found under its paths, exactly if these paths are apart**.
-/

namespace ModuleScaffold

namespace Store

variable {added : List Route}

theorem mem_keys_foldl_insertRoute {k : Method × String} :
    k ∈ (added.foldl (fun routes route => insertRoute route routes) []).map routeKey ↔
      k ∈ added.map routeKey := by
  constructor
  · rw [List.mem_map, List.mem_map]
    rintro ⟨route, hroute, rfl⟩
    exact ⟨route, (Declarations.mem_foldl_insertRoute hroute).resolve_right List.not_mem_nil, rfl⟩
  · intro hk
    obtain ⟨route, hroute, rfl⟩ := List.mem_map.1 hk
    have hlast : HoldsLast routeKey added
        (added.foldl (fun routes route => insertRoute route routes) []) :=
      holdsLast_foldl_insertRoute
    exact hlast.mem_keys hroute

/-- Routes with different keys are all kept. -/
theorem perm_foldl_insertRoute (h : (added.map routeKey).Nodup) :
    (added.foldl (fun routes route => insertRoute route routes) []).Perm added := by
  refine perm_of_lookup routeKey (nodup_routeKeys (pairwise_foldl_insertRoute .nil)) h fun k => ?_
  rw [lookup_foldl_insertRoute h]
  exact Option.or_none

/-- Routes are all kept only if they have different keys. -/
theorem length_foldl_insertRoute_iff :
    (added.foldl (fun routes route => insertRoute route routes) []).length = added.length ↔
      (added.map routeKey).Nodup := by
  refine ⟨fun hlength => ?_, fun h => (perm_foldl_insertRoute h).length_eq⟩
  -- the keys that are kept are those that are added, each once
  have hkeys : ((added.foldl (fun routes route => insertRoute route routes) []).map
      routeKey).Perm (added.map routeKey).dedup :=
    (List.perm_ext_iff_of_nodup (nodup_routeKeys (pairwise_foldl_insertRoute .nil))
      (List.nodup_dedup _)).2 fun k => by rw [mem_keys_foldl_insertRoute, List.mem_dedup]
  have hcount : (added.map routeKey).dedup.length = (added.map routeKey).length := by
    rw [← hkeys.length_eq, List.length_map, List.length_map, hlength]
  rw [← (List.dedup_sublist (added.map routeKey)).eq_of_length hcount]
  exact List.nodup_dedup _

end Store

namespace Declarations

open Schema Store

variable {layout : Layout} {middlewareDir : Path} {m : Module} {model a b : Model} {store : Store}

/-! ### The paths of two models -/

/-- The paths of two models are apart: their collections have different paths, and no collection has
the path of the items of the other one. -/
structure RoutesApart (m : Module) (a b : Model) : Prop where
  /-- The collections. -/
  collections : m.basePath a ≠ m.basePath b
  /-- The first collection and the items of the second one. -/
  left : m.basePath a ≠ m.basePath b ++ "/:id"
  /-- The second collection and the items of the first one. -/
  right : m.basePath b ≠ m.basePath a ++ "/:id"

instance (m : Module) (a b : Model) : Decidable (RoutesApart m a b) :=
  decidable_of_iff (m.basePath a ≠ m.basePath b ∧ m.basePath a ≠ m.basePath b ++ "/:id" ∧
      m.basePath b ≠ m.basePath a ++ "/:id")
    ⟨fun h => ⟨h.1, h.2.1, h.2.2⟩, fun h => ⟨h.collections, h.left, h.right⟩⟩

theorem ne_append_id (path : String) : path ≠ path ++ "/:id" := by
  intro h
  have hlength := congrArg String.length h
  rw [String.length_append] at hlength
  have hid : "/:id".length = 4 := by decide
  omega

/-- The keys of a model: reading and posting, its collection and its items. -/
theorem mem_keys_routes {k : Method × String} : k ∈ (routes m model).map routeKey ↔
    (k.1 = .get ∨ k.1 = .post) ∧ (k.2 = m.basePath model ∨ k.2 = m.basePath model ++ "/:id") := by
  obtain ⟨method, matcher⟩ := k
  simp only [routes, routeKey, List.map_cons, List.map_nil, List.mem_cons, List.not_mem_nil,
    or_false, Prod.mk.injEq]
  tauto

theorem nodup_keys_routes : ((routes m model).map routeKey).Nodup := by
  have hid := ne_append_id (m.basePath model)
  simp [routes, routeKey, hid]

theorem disjoint_keys_iff :
    ((routes m a).map routeKey).Disjoint ((routes m b).map routeKey) ↔ RoutesApart m a b := by
  constructor
  · intro hdisjoint
    have hapart : ∀ path, (path = m.basePath a ∨ path = m.basePath a ++ "/:id") →
        ¬(path = m.basePath b ∨ path = m.basePath b ++ "/:id") := fun path ha hb =>
      hdisjoint (mem_keys_routes (k := (.get, path)).2 ⟨.inl rfl, ha⟩)
        (mem_keys_routes.2 ⟨.inl rfl, hb⟩)
    exact ⟨fun h => hapart _ (.inl rfl) (.inl h), fun h => hapart _ (.inl rfl) (.inr h),
      fun h => hapart _ (.inr rfl) (.inl h.symm)⟩
  · intro h k ha hb
    rcases (mem_keys_routes.1 ha).2 with ha | ha <;>
      rcases (mem_keys_routes.1 hb).2 with hb | hb <;> rw [ha] at hb
    · exact h.collections hb
    · exact h.left hb
    · exact h.right hb.symm
    · have hlists := congrArg String.toList hb
      rw [String.toList_append, String.toList_append, List.append_cancel_right_eq] at hlists
      exact h.collections (String.toList_inj.1 hlists)

/-! ### The routes of a module -/

theorem perm_routes_declared :
    (declared layout middlewareDir m model).routes.Perm (routes m model) :=
  perm_foldl_insertRoute nodup_keys_routes

/-- The routes that the models of a module declare, one model after the other. -/
def declaredRoutes (layout : Layout) (middlewareDir : Path) (m : Module) : List Route :=
  m.models.flatMap fun model => (declared layout middlewareDir m model).routes

theorem routes_ofModule (hstore : ofModule layout middlewareDir m = .ok store) :
    store.routes = (declaredRoutes layout middlewareDir m).foldl
      (fun routes route => insertRoute route routes) [] := by
  obtain ⟨-, rfl⟩ := ofModule_eq_ok_iff.1 hstore
  have hjoined : (joined (m.models.map (declared layout middlewareDir m))).routes =
      declaredRoutes layout middlewareDir m := List.flatMap_map _ _ _
  rw [overlayAll_eq, overlay, hjoined]
  rfl

theorem length_declaredRoutes (layout : Layout) (middlewareDir : Path) (m : Module) :
    (declaredRoutes layout middlewareDir m).length = 4 * m.models.length := by
  have hfour : ∀ model, (declared layout middlewareDir m model).routes.length = 4 :=
    fun model => perm_routes_declared.length_eq
  rw [declaredRoutes, List.length_flatMap]
  simp only [hfour, List.map_const', List.sum_replicate_nat, Nat.mul_comm]

/-- The keys that are declared are different exactly if the paths of the models are apart. -/
theorem nodup_keys_declaredRoutes_iff :
    ((declaredRoutes layout middlewareDir m).map routeKey).Nodup ↔
      m.models.Pairwise (RoutesApart m) := by
  have hperm : ∀ model, ((declared layout middlewareDir m model).routes.map routeKey).Perm
      ((routes m model).map routeKey) := fun model => perm_routes_declared.map routeKey
  rw [declaredRoutes, List.map_flatMap, List.nodup_flatMap,
    and_iff_right fun model _ => (hperm model).nodup_iff.2 nodup_keys_routes]
  refine Iff.of_eq (congrArg (List.Pairwise · m.models) ?_)
  funext a b
  exact propext (((hperm a).disjoint_left).trans
    (((hperm b).disjoint_right).trans disjoint_keys_iff))

/-- The routes that post to the collection and to the items of a model. -/
theorem post_mem_routes (m : Module) (model : Model) :
    ⟨.post, m.basePath model, [bodyCheck model.createValidator], []⟩ ∈ routes m model ∧
      ⟨.post, m.basePath model ++ "/:id", [bodyCheck model.updateValidator], []⟩ ∈
        routes m model := by
  simp [routes]

/-- Models whose routes do not replace each other have paths that are apart: the routes that post
have different checks. -/
theorem routesApart_of_mem_routes (hne : a.name ≠ b.name)
    (h : ∀ route ∈ routes m a, ∀ other ∈ routes m b, routeKey route = routeKey other →
      route = other) : RoutesApart m a b := by
  have hchecks : ∀ {path other check check' : String},
      ⟨.post, path, [bodyCheck check], []⟩ ∈ routes m a →
      ⟨.post, other, [bodyCheck check'], []⟩ ∈ routes m b → path = other → check = check' := by
    rintro path other check check' hroute hother rfl
    have hsame := h _ hroute _ hother rfl
    simp only [Route.mk.injEq, bodyCheck, List.cons.injEq, Call.mk.injEq, Value.identifier.injEq,
      and_true, true_and] at hsame
    exact hsame
  obtain ⟨hcreate, hupdate⟩ := post_mem_routes m a
  obtain ⟨hcreate', hupdate'⟩ := post_mem_routes m b
  constructor
  · exact fun hpath => hne (Model.createValidator_inj.1 (hchecks hcreate hcreate' hpath))
  · exact fun hpath =>
      Model.createValidator_ne_updateValidator a b (hchecks hcreate hupdate' hpath)
  · exact fun hpath =>
      Model.createValidator_ne_updateValidator b a (hchecks hupdate hcreate' hpath.symm).symm

/-- **A module has four routes for each model, and the routes of each model are found under its
paths, exactly if these paths are apart.** -/
theorem routes_kept_iff (h : m.check = .ok ())
    (hstore : ofModule layout middlewareDir m = .ok store) :
    (store.routes.length = 4 * m.models.length ↔ m.models.Pairwise (RoutesApart m)) ∧
      ((∀ model ∈ m.models, ∀ route ∈ routes m model,
        store.route? route.method route.matcher = some route) ↔
          m.models.Pairwise (RoutesApart m)) := by
  have haccepted := Module.check_eq_ok_iff.1 h
  have hroutes := routes_ofModule hstore
  have hkeys : (store.routes.map routeKey).Nodup := by
    rw [hroutes]
    exact nodup_routeKeys (pairwise_foldl_insertRoute .nil)
  refine ⟨?_, fun hfound => ?_, fun hapart model hmodel route hroute => ?_⟩
  · rw [hroutes, ← length_declaredRoutes layout middlewareDir m, length_foldl_insertRoute_iff,
      nodup_keys_declaredRoutes_iff]
  · refine (List.pairwise_map.1 haccepted.names).imp_of_mem fun {a b} ha hb hne => ?_
    refine routesApart_of_mem_routes hne fun route hroute other hother hkey => ?_
    obtain ⟨hmethod, hmatcher⟩ := Prod.mk.inj hkey
    have hroute := hfound a ha route hroute
    rw [hmethod, hmatcher, hfound b hb other hother] at hroute
    exact (Option.some.inj hroute).symm
  · have hnodup : ((declaredRoutes layout middlewareDir m).map routeKey).Nodup :=
      nodup_keys_declaredRoutes_iff.2 hapart
    have hmem : route ∈ store.routes := by
      rw [hroutes, (perm_foldl_insertRoute hnodup).mem_iff, declaredRoutes, List.mem_flatMap]
      exact ⟨model, hmodel, perm_routes_declared.mem_iff.2 hroute⟩
    rw [route?_eq_lookup]
    exact lookup_of_mem routeKey hkeys hmem

theorem routes_kept_partsModule : (partsModule "kits" "parts").check = .ok () ∧
    ∃ store, ofModule {} ⟨"src/api"⟩ (partsModule "kits" "parts") = .ok store ∧
      store.routes.length = 8 := by
  have hcheck : (partsModule "kits" "parts").check = .ok () := by decide +kernel
  obtain ⟨store, hstore⟩ := (succeeds_ofModule_iff {} ⟨"src/api"⟩
    (Module.check_eq_ok_iff.1 hcheck)).2 (by decide +kernel)
  exact ⟨hcheck, store, hstore, (routes_kept_iff hcheck hstore).1.2 (by decide +kernel)⟩

/-- A module whose two models are both its parent. -/
def twoParents : Module :=
  ⟨"shop", "shop", [⟨"Brand", "brand", "brands", true, none, []⟩,
    ⟨"Item", "item", "items", true, none, []⟩]⟩

/-- Two parents are accepted. They have the same path, so the routes of the first one are replaced
by those of the second one. -/
theorem replaced_twoParents : twoParents.check = .ok () ∧
    twoParents.models.map twoParents.basePath = ["/admin/shop", "/admin/shop"] ∧
      ∃ store, ofModule {} ⟨"src/api"⟩ twoParents = .ok store ∧ store.routes.length = 4 ∧
        (store.route? .post "/admin/shop").map Route.references = some ["PostAdminCreateItem"] := by
  have hcheck : twoParents.check = .ok () := by decide +kernel
  have hmodels := (forall_declarable_iff (Module.check_eq_ok_iff.1 hcheck)).2 (by decide +kernel)
  refine ⟨hcheck, by decide +kernel, _, ofModule_eq_ok_iff.2 ⟨hmodels, rfl⟩, ?_⟩
  decide +kernel

end Declarations

end ModuleScaffold
