import ModuleScaffold.Proofs.Merge.Monoid
import ModuleScaffold.Store.Render
import Mathlib.Data.List.Perm.Basic

/-!
# The order of registrations

Imports and routes may be registered in any order. An import adds to the set of names of its source,
and a route takes the place of the one with its key, so two calls that register change a store in
the same way whichever comes first, unless they are routes with one key. Whether such a call
succeeds does not depend on the store at all. As imports and routes are held in ascending order,
nothing in a store tells in which order they came.

This needs the imports and the routes of the store to ascend already, so the calls are run on
canonical stores (`ModuleScaffold.Store.step`).

Main statement: `ModuleScaffold.Store.runAll_perm` – **runs of the same registrations in another
order make the same store, and the same file**.
-/

namespace ModuleScaffold

namespace Change

/-- A call that registers imports or a route. -/
inductive Registers : Change → Prop
  /-- A name is imported. -/
  | addImport (source name : String) : Registers (.addImport source name)
  /-- Names are imported. -/
  | addImports (source : String) (names : List String) : Registers (.addImports source names)
  /-- A route is added. -/
  | addRoute (route : Route) : Registers (.addRoute route)

/-- The route that a call adds. -/
def route? : Change → Option Route
  | .addRoute route => some route
  | _ => none

end Change

namespace Store

variable {store : Store} {imports : List Import} {routes : List Route}

/-! ### Two registrations -/

/-- A route that is added takes its place, if it can be written. -/
theorem run_addRoute (store : Store) (route : Route) :
    (Change.run store (.addRoute route)).1 =
      if route.problem? = none then { store with routes := insertRoute route store.routes }
      else store := by
  rw [Change.run]
  cases hadded : store.addRoute route with
  | ok next =>
    obtain ⟨hroute, rfl⟩ := addRoute_eq_ok_iff.1 hadded
    exact (if_pos hroute).symm
  | error p =>
    refine (if_neg fun hroute => ?_).symm
    rw [addRoute_eq_ok_iff.2 ⟨hroute, rfl⟩] at hadded
    cases hadded

theorem ImportsAscend.withImport (h : ImportsAscend imports) (i : Import) :
    ImportsAscend (withImport imports i) :=
  h.updateImport fun _ => pairwise_foldl_withSpecifier

theorem isSome_lookup_withImport (h : ImportsAscend imports) (i : Import) (source : String) :
    (lookup Import.source source (withImport imports i)).isSome =
      ((lookup Import.source source imports).isSome || decide (i.source = source)) := by
  rw [withImport, lookup_updateImport h.sources]
  split
  · next hsource => rw [decide_eq_true hsource, Bool.or_true, Option.isSome_some]
  · next hsource => rw [decide_eq_false hsource, Bool.or_false]

/-- An import that is added brings the names that it brings to an import without names. -/
theorem mem_namesFrom_withImport (h : ImportsAscend imports) (i : Import) (source name : String) :
    name ∈ namesFrom source (withImport imports i) ↔
      name ∈ namesFrom source imports ∨
        i.source = source ∧ name ∈ i.names.foldl withSpecifier [] := by
  rw [namesFrom_withImport h]
  split
  · next hsource =>
    rw [mem_foldl_withSpecifier, mem_foldl_withSpecifier, and_iff_right hsource,
      or_iff_right List.not_mem_nil]
  · next hsource => rw [or_iff_left fun hmem => hsource hmem.1]

/-- **It does not matter which of two imports is added first.** -/
theorem withImport_comm (h : ImportsAscend imports) (i j : Import) :
    withImport (withImport imports i) j = withImport (withImport imports j) i := by
  refine ((h.withImport i).withImport j).eq_of_lookup ((h.withImport j).withImport i)
    (fun source => ?_) fun source name => ?_
  · rw [isSome_lookup_withImport (h.withImport i), isSome_lookup_withImport h,
      isSome_lookup_withImport (h.withImport j), isSome_lookup_withImport h, Bool.or_right_comm]
  · rw [mem_namesFrom_withImport (h.withImport i), mem_namesFrom_withImport h,
      mem_namesFrom_withImport (h.withImport j), mem_namesFrom_withImport h, or_right_comm]

/-- **It does not matter which of two routes with different keys is added first.** -/
theorem insertRoute_comm (h : routes.Pairwise fun r s => r.keyBefore s = true) {a b : Route}
    (hapart : routeKey a ≠ routeKey b) :
    insertRoute b (insertRoute a routes) = insertRoute a (insertRoute b routes) := by
  refine eq_of_lookup_routeKey (pairwise_insertRoute (pairwise_insertRoute h))
    (pairwise_insertRoute (pairwise_insertRoute h)) fun k => ?_
  rw [lookup_insertRoute, lookup_insertRoute, lookup_insertRoute, lookup_insertRoute]
  split
  · next hb => rw [if_neg (hb ▸ hapart)]
  · rfl

/-- **It does not matter which of two registrations comes first**, unless both are routes with the
same key. -/
theorem run_comm {c d : Change} (h : store.WellFormed) (hc : c.Registers) (hd : d.Registers)
    (hapart : ∀ a ∈ c.route?, ∀ b ∈ d.route?, routeKey a ≠ routeKey b) :
    (d.run (c.run store).1).1 = (c.run (d.run store).1).1 := by
  -- imports and routes are held apart, so only calls of one kind can meet
  have himports : ∀ i j : Import,
      { store with imports := withImport (withImport store.imports i) j } =
        { store with imports := withImport (withImport store.imports j) i } := fun i j => by
    rw [withImport_comm h.imports]
  have hroute : ∀ (source : String) (names : List String) (a : Route),
      (Change.run (store.addImports source names) (.addRoute a)).1 =
        (Change.run store (.addRoute a)).1.addImports source names := by
    intro source names a
    rw [run_addRoute, run_addRoute]
    split <;> rfl
  cases hc with
  | addImport source name =>
    cases hd with
    | addImport source' name' => exact himports ⟨source, [name]⟩ ⟨source', [name']⟩
    | addImports source' names => exact himports ⟨source, [name]⟩ ⟨source', names⟩
    | addRoute b => exact hroute source [name] b
  | addImports source names =>
    cases hd with
    | addImport source' name => exact himports ⟨source, names⟩ ⟨source', [name]⟩
    | addImports source' names' => exact himports ⟨source, names⟩ ⟨source', names'⟩
    | addRoute b => exact hroute source names b
  | addRoute a =>
    cases hd with
    | addImport source name => exact (hroute source [name] a).symm
    | addImports source names => exact (hroute source names a).symm
    | addRoute b =>
      rw [run_addRoute, run_addRoute, run_addRoute, run_addRoute]
      split
      · split
        · rw [insertRoute_comm h.routes (hapart a rfl b rfl)]
        · rfl
      · rfl

/-- Whether a registration succeeds does not depend on the store. -/
theorem failure_of_registers {c : Change} (hc : c.Registers) (store other : Store) :
    (c.run store).2 = (c.run other).2 := by
  cases hc with
  | addImport source name => rfl
  | addImports source names => rfl
  | addRoute route =>
    simp only [Change.run, addRoute]
    cases route.problem? <;> rfl

/-! ### Runs of registrations -/

/-- What a call makes of a canonical store. -/
def step (store : { store : Store // store.Canonical }) (change : Change) :
    { store : Store // store.Canonical } :=
  ⟨(change.run store.1).1, kept_canonical.run .empty store.2 change⟩

theorem runAll_eq_foldl_step (store : { store : Store // store.Canonical })
    (changes : List Change) : Change.runAll store.1 changes = (changes.foldl step store).1 := by
  induction changes generalizing store with
  | nil => rfl
  | cons change changes ih => exact ih (step store change)

/-- Of different calls, the routes they add have different keys, if no key is there twice. -/
theorem routeKey_ne_of_nodup {calls : List Change} {c d : Change}
    (hkeys : ((calls.filterMap Change.route?).map routeKey).Nodup) (hc : c ∈ calls)
    (hd : d ∈ calls) (hne : c ≠ d) : ∀ a ∈ c.route?, ∀ b ∈ d.route?, routeKey a ≠ routeKey b := by
  intro a ha b hb hkey
  have hsame : a = b := List.inj_on_of_nodup_map hkeys (List.mem_filterMap.2 ⟨c, hc, ha⟩)
    (List.mem_filterMap.2 ⟨d, hd, hb⟩) hkey
  have hadds : ∀ {c : Change} {r : Route}, r ∈ c.route? → c = .addRoute r := by
    intro c r hr
    cases c with
    | addRoute route =>
      obtain rfl : route = r := Option.some.inj hr
      rfl
    | _ => cases hr
  rw [hadds ha, hadds hb, hsame] at hne
  exact hne rfl

/-- **Runs of the same registrations in another order make the same store, and the same file or the
same problem with it.** No two of them may be routes with one key; which of those that are there
already are replaced does not matter. -/
theorem runAll_perm (changes : List Change) {calls turned : List Change}
    (hperm : calls.Perm turned) (hregisters : ∀ call ∈ calls, call.Registers)
    (hkeys : ((calls.filterMap Change.route?).map routeKey).Nodup) :
    Change.runAll (built changes) calls = Change.runAll (built changes) turned ∧
      (Change.runAll (built changes) calls).serialize =
        (Change.runAll (built changes) turned).serialize := by
  have hcomm : ∀ c ∈ calls, ∀ d ∈ calls, ∀ store,
      step (step store c) d = step (step store d) c := by
    intro c hc d hd store
    by_cases hsame : c = d
    · rw [hsame]
    · exact Subtype.ext (run_comm store.2.toWellFormed (hregisters c hc) (hregisters d hd)
        (routeKey_ne_of_nodup hkeys hc hd hsame))
  have hstores : Change.runAll (built changes) calls = Change.runAll (built changes) turned := by
    have hbuilt := canonical_built changes
    rw [runAll_eq_foldl_step ⟨_, hbuilt⟩, runAll_eq_foldl_step ⟨_, hbuilt⟩,
      hperm.foldl_eq' hcomm]
  exact ⟨hstores, congrArg serialize hstores⟩

/-- A route, its import and a module that is imported for its effects, in either order, over a route
with the same key. -/
theorem runAll_perm_orders :
    let store := built [.addRoute ⟨.post, "/orders", [⟨"audit", []⟩], []⟩]
    let calls : List Change := [.addRoute ⟨.post, "/orders", [⟨"check", []⟩], []⟩,
      .addImport "./orders" "check", .addImports "./setup" []]
    Change.runAll store calls = Change.runAll store calls.reverse ∧
      (Change.runAll store calls).serialize = (Change.runAll store calls.reverse).serialize := by
  intro store calls
  have hregisters : ∀ call ∈ calls, call.Registers :=
    List.forall_mem_cons.2 ⟨.addRoute _, List.forall_mem_cons.2 ⟨.addImport _ _,
      List.forall_mem_singleton.2 (.addImports _ _)⟩⟩
  exact runAll_perm [.addRoute ⟨.post, "/orders", [⟨"audit", []⟩], []⟩]
    (List.reverse_perm calls).symm hregisters (List.nodup_singleton _)

end Store

end ModuleScaffold
