import ModuleScaffold.Proofs.Merge.Rewritten
import ModuleScaffold.Proofs.Merge.Run

/-!
# The schemas that routes refer to

A route refers to bindings in two ways: a path in one of its values leads from a binding to a member
of it, and a call in one of its values calls what such a path leads to. Values are nested, so both
can stand at any depth. Before a store is written, the references of the first kind are collected
and each of them that has the name of a schema must be bound; the callees are not collected. A store
that is written may therefore call a schema that nothing binds, and in no other way refer to one.

Main statements:

* `ModuleScaffold.Route.mem_references_iff` – the paths that are collected are the references at
  every depth;
* `ModuleScaffold.Store.checkReferences_eq_ok_iff` – the check succeeds exactly if the schemas that
  are referred to are bound;
* `ModuleScaffold.Store.resolves_iff_of_serialize` – **the schemas of a store that is written
  resolve exactly if those that are called do**;
* `ModuleScaffold.Store.serialize_unboundCallee` – a store that is written although a schema that is
  called is not bound.
-/

namespace ModuleScaffold

namespace Value

variable {path : String} {v : Value} {vs : List Value} {ms : List (String × Value)}

/-- The value `inner` stands in a value: it is the value itself, or stands in an item, in a member
or in an argument. -/
inductive Within (inner : Value) : Value → Prop
  /-- The value itself. -/
  | self : Within inner inner
  /-- An item of an array. -/
  | item {v : Value} {items : List Value} : v ∈ items → Within inner v →
      Within inner (.array items)
  /-- A member of an object. -/
  | member {m : String × Value} {members : List (String × Value)} : m ∈ members →
      Within inner m.2 → Within inner (.object members)
  /-- An argument of a call. -/
  | argument {v : Value} {callee : String} {args : List Value} : v ∈ args → Within inner v →
      Within inner (.call callee args)

theorem mem_referencesAll : path ∈ referencesAll vs ↔ ∃ v ∈ vs, path ∈ v.references := by
  induction vs with
  | nil => simp [referencesAll]
  | cons v vs ih => simp only [referencesAll, List.mem_append, ih, List.mem_cons, exists_eq_or_imp]

theorem mem_referencesMembers :
    path ∈ referencesMembers ms ↔ ∃ m ∈ ms, path ∈ m.2.references := by
  induction ms with
  | nil => simp [referencesMembers]
  | cons m ms ih =>
    simp only [referencesMembers, List.mem_append, ih, List.mem_cons, exists_eq_or_imp]

theorem within_of_mem_references : ∀ {v : Value}, path ∈ v.references →
    (identifier path).Within v
  | identifier _, h => by
    rw [references, List.mem_singleton] at h
    rw [h]
    exact .self
  | array items, h => by
    rw [references, mem_referencesAll] at h
    obtain ⟨v, hv, h⟩ := h
    exact .item hv (within_of_mem_references h)
  | object members, h => by
    rw [references, mem_referencesMembers] at h
    obtain ⟨⟨k, v⟩, hm, h⟩ := h
    have hsmaller : sizeOf v < sizeOf members := by
      have hpair := List.sizeOf_lt_of_mem hm
      rw [Prod.mk.sizeOf_spec] at hpair
      omega
    exact .member hm (within_of_mem_references h)
  | call callee args, h => by
    rw [references, mem_referencesAll] at h
    obtain ⟨v, hv, h⟩ := h
    exact .argument hv (within_of_mem_references h)
  | string _, h | number _, h | boolean _, h | null, h | regex .., h => absurd h List.not_mem_nil

/-- **The paths that are collected from a value are the references at every depth.** -/
theorem mem_references_iff : path ∈ v.references ↔ (identifier path).Within v := by
  refine ⟨within_of_mem_references, fun h => ?_⟩
  induction h with
  | self => exact List.mem_singleton.2 rfl
  | item hv _ ih => exact mem_referencesAll.2 ⟨_, hv, ih⟩
  | member hm _ ih => exact mem_referencesMembers.2 ⟨_, hm, ih⟩
  | argument hv _ ih => exact mem_referencesAll.2 ⟨_, hv, ih⟩

end Value

namespace Route

variable {route : Route} {path : String}

/-- The value stands in an argument of a middleware or in a further property. -/
def Holds (route : Route) (v : Value) : Prop :=
  (∃ call ∈ route.middlewares, ∃ arg ∈ call.args, v.Within arg) ∨ ∃ m ∈ route.extra, v.Within m.2

/-- A path in the route starts at the name. -/
def RefersTo (route : Route) (name : String) : Prop :=
  ∃ path, route.Holds (.identifier path) ∧ Text.pathRoot path = name

/-- What a call in the route calls starts at the name. -/
def Calls (route : Route) (name : String) : Prop :=
  ∃ callee args, route.Holds (.call callee args) ∧ Text.pathRoot callee = name

theorem mem_references_iff : path ∈ route.references ↔ route.Holds (.identifier path) := by
  simp only [references, Call.references, List.mem_append, List.mem_flatMap,
    Value.mem_referencesAll, Value.mem_referencesMembers, Value.mem_references_iff, Holds]

theorem mem_roots_iff {name : String} :
    name ∈ route.references.map Text.pathRoot ↔ route.RefersTo name := by
  simp only [List.mem_map, mem_references_iff, RefersTo]

end Route

namespace Store

variable {store : Store} {name text : String} {refs : List Reference}

/-- An import or a constant binds the name. -/
def Binds (store : Store) (name : String) : Prop :=
  (∃ i ∈ store.imports, name ∈ i.bindings) ∨ ∃ d ∈ store.definitions, d.name = name

/-- Every schema is bound that a route refers to in the given way. -/
def BindsSchemas (store : Store) (refers : Route → String → Prop) : Prop :=
  ∀ route ∈ store.routes, ∀ name, refers route name → isSchemaName name = true → store.Binds name

/-- Every schema is bound that a route refers to or that a call in it calls. -/
def Resolves (store : Store) : Prop :=
  store.BindsSchemas fun route name => route.RefersTo name ∨ route.Calls name

theorem isBound_iff : store.isBound name = true ↔ store.Binds name := by
  simp only [isBound, Binds, Bool.or_eq_true, List.any_eq_true, beq_iff_eq, List.contains_iff_mem,
    or_comm]

theorem firstReferences_eq_nil_iff : firstReferences refs = [] ↔ refs = [] := by
  -- what is there once stays there
  have hgrows : ∀ (refs out : List Reference), out ≠ [] →
      refs.foldl (fun out r => if out.any (·.schema == r.schema) then out else out ++ [r]) out ≠
        [] := by
    intro refs
    induction refs with
    | nil => exact fun _ hout => hout
    | cons r refs ih =>
      intro out hout
      rw [List.foldl_cons]
      refine ih _ ?_
      split
      · exact hout
      · exact List.append_ne_nil_of_right_ne_nil out (List.cons_ne_nil r [])
  cases refs with
  | nil => exact iff_of_true rfl rfl
  | cons r refs =>
    exact iff_of_false (hgrows refs [r] (List.cons_ne_nil r [])) (List.cons_ne_nil r refs)

theorem unboundIn_eq_nil_iff {route : Route} : store.unboundIn route = [] ↔
    ∀ name, route.RefersTo name → isSchemaName name = true → store.Binds name := by
  rw [unboundIn, List.filterMap_eq_nil_iff]
  refine forall_congr' fun name => ?_
  rw [Route.mem_roots_iff, ← isBound_iff]
  refine imp_congr_right fun _ => ?_
  cases isSchemaName name <;> cases store.isBound name <;> simp

theorem dangling_eq_nil_iff : store.dangling = [] ↔ store.BindsSchemas Route.RefersTo := by
  simp only [dangling, firstReferences_eq_nil_iff, List.flatMap_eq_nil_iff, unboundIn_eq_nil_iff,
    BindsSchemas]

/-- **The check succeeds exactly if the schemas that are referred to are bound.** -/
theorem checkReferences_eq_ok_iff :
    store.checkReferences = .ok () ↔ store.BindsSchemas Route.RefersTo := by
  rw [← dangling_eq_nil_iff, checkReferences]
  cases store.dangling with
  | nil => exact iff_of_true rfl rfl
  | cons r refs =>
    refine iff_of_false (fun h => ?_) (List.cons_ne_nil r refs)
    cases h

/-- **The schemas of a store that is written resolve exactly if those that are called do**; those
that are referred to are bound. -/
theorem resolves_iff_of_serialize (h : store.serialize = .ok text) :
    store.BindsSchemas Route.RefersTo ∧ (store.Resolves ↔ store.BindsSchemas Route.Calls) := by
  have hbound : store.BindsSchemas Route.RefersTo :=
    dangling_eq_nil_iff.1 (serialize_eq_ok_iff.1 h).1
  refine ⟨hbound, fun hresolves route hroute name hcalls => ?_, fun hcalled route hroute name => ?_⟩
  · exact hresolves route hroute name (.inr hcalls)
  · rintro (hrefers | hcalls)
    · exact hbound route hroute name hrefers
    · exact hcalled route hroute name hcalls

/-! ### A call that is not collected -/

/-- A route whose middleware is given a member of one schema and what a call makes of another. -/
def listRoute : Route :=
  ⟨.get, "/lists", [⟨"validate", [.array [.identifier "PageSchema.first",
    .call "ListSchema.partial" []]]⟩], []⟩

/-- A store with that route in which both schemas are imported. -/
def boundCallee : Store :=
  built [.addImport "./lists" "ListSchema", .addImport "./pages" "* as PageSchema",
    .addRoute listRoute]

/-- A store with that route in which the schema that is called is not imported. -/
def unboundCallee : Store :=
  built [.addImport "./pages" "* as PageSchema", .addRoute listRoute]

theorem routes_run_addRoute (h : store.routes = []) :
    ((Change.addRoute listRoute).run store).1.routes = [listRoute] := by
  have hwritable : listRoute.problem?.isNone = true := by decide +kernel
  rw [Change.run, addRoute_eq_ok_iff.2 ⟨Option.isNone_iff_eq_none.1 hwritable, rfl⟩]
  change insertRoute listRoute store.routes = [listRoute]
  rw [h, insertRoute]

theorem exists_serialize_callee :
    (∃ text, boundCallee.serialize = .ok text) ∧ ∃ text, unboundCallee.serialize = .ok text := by
  have hdangling : boundCallee.dangling.isEmpty = true ∧ unboundCallee.dangling.isEmpty = true := by
    decide +kernel
  have hordered : boundCallee.ordered = .ok [] ∧ unboundCallee.ordered = .ok [] := by
    decide +kernel
  exact ⟨⟨_, serialize_eq_ok_iff.2 ⟨List.isEmpty_iff.1 hdangling.1, _, hordered.1, rfl⟩⟩,
    ⟨_, serialize_eq_ok_iff.2 ⟨List.isEmpty_iff.1 hdangling.2, _, hordered.2, rfl⟩⟩⟩

theorem calls_listRoute : listRoute.Calls name ↔ name = "ListSchema" := by
  have hroot : Text.pathRoot "ListSchema.partial" = "ListSchema" := by decide +kernel
  constructor
  · rintro ⟨callee, args, hholds, rfl⟩
    simp only [Route.Holds, listRoute, List.mem_singleton, exists_eq_left, List.not_mem_nil,
      false_and, exists_false, or_false] at hholds
    cases hholds with
    | item hv hwithin =>
      rw [List.mem_cons, List.mem_singleton] at hv
      rcases hv with rfl | rfl
      · cases hwithin
      · cases hwithin with
        | self => exact hroot
        | argument harg => cases harg
  · rintro rfl
    exact ⟨_, [], .inl ⟨_, List.mem_singleton.2 rfl, _, List.mem_singleton.2 rfl,
      .item (List.mem_cons_of_mem _ (List.mem_singleton.2 rfl)) .self⟩, hroot⟩

/-- A store that is written, and in which the schema that is called is bound as well. -/
theorem resolves_boundCallee :
    (∃ text, boundCallee.serialize = .ok text) ∧ boundCallee.Resolves := by
  obtain ⟨text, htext⟩ := exists_serialize_callee.1
  refine ⟨⟨text, htext⟩, (resolves_iff_of_serialize htext).2.2 fun route hroute name hcalls _ => ?_⟩
  have hroutes : boundCallee.routes = [listRoute] := routes_run_addRoute rfl
  rw [hroutes, List.mem_singleton] at hroute
  rw [hroute, calls_listRoute] at hcalls
  rw [hcalls, ← isBound_iff]
  decide +kernel

/-- **A store can be written although nothing binds a schema that a route calls a member of.** -/
theorem serialize_unboundCallee :
    (∃ text, unboundCallee.serialize = .ok text) ∧ ¬unboundCallee.Resolves := by
  refine ⟨exists_serialize_callee.2, fun hresolves => ?_⟩
  have hroutes : unboundCallee.routes = [listRoute] := routes_run_addRoute rfl
  have hroute : listRoute ∈ unboundCallee.routes := by
    rw [hroutes]
    exact List.mem_singleton_self listRoute
  have hbinds := hresolves listRoute hroute "ListSchema" (.inr (calls_listRoute.2 rfl))
    (by decide +kernel)
  have hunbound : unboundCallee.isBound "ListSchema" = false := by decide +kernel
  rw [isBound_iff.2 hbinds] at hunbound
  cases hunbound

end Store

end ModuleScaffold
