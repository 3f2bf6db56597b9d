import ModuleScaffold.Proofs.Merge.Read
import ModuleScaffold.Proofs.Text.Spacing
import ModuleScaffold.Store.Change

/-!
# Runs of changes

A store is only ever changed by a few kinds of calls, so what each of them keeps holds after every
run of calls, whether they succeed or fail. In particular everything a store holds is in the one
form in which it is put there (`ModuleScaffold.Store.Canonical`). A merge fails only at a route that
cannot be written, and no store that was built holds one, so a call that fails has changed nothing.

Main statements:

* `ModuleScaffold.Store.Kept.built` – **what every change keeps holds of a store that is built**;
* `ModuleScaffold.Store.merge_eq_mergeStepwise` – **a merge is its steps, one after the other**;
* `ModuleScaffold.Store.consistent_built` – **every store that is built is consistent, and a call
  that fails leaves it as it was**.
-/

namespace ModuleScaffold

namespace Store

variable {store other : Store} {P : Store → Prop}

/-! ### Merging step by step -/

theorem addRoutes_of_writable {routes : List Route}
    (h : ∀ route ∈ routes, route.problem? = none) (store : Store) :
    store.addRoutes routes = ({ store with
      routes := routes.foldl (fun routes route => insertRoute route routes) store.routes },
      none) := by
  induction routes generalizing store with
  | nil => rfl
  | cons route routes ih =>
    obtain ⟨hroute, hroutes⟩ := List.forall_mem_cons.1 h
    rw [addRoutes, addRoute_eq_ok_iff.2 ⟨hroute, rfl⟩]
    exact ih hroutes _

/-- If all routes can be written, a merge comes to its end. -/
theorem mergeStepwise_of_writable (h : other.Writable) :
    store.mergeStepwise other = (store.overlay other, none) := by
  simp only [mergeStepwise, foldl_addImports, foldl_insertDefinition, addRoutes_of_writable h,
    foldl_addStatement, foldl_addSetting]
  rfl

theorem addRoutes_eq_foldlM (routes : List Route) (store : Store) :
    routes.foldlM addRoute store =
      match store.addRoutes routes with
      | (next, none) => .ok next
      | (_, some p) => .error p := by
  induction routes generalizing store with
  | nil => rfl
  | cons route routes ih =>
    rw [List.foldlM_cons, addRoutes]
    cases store.addRoute route with
    | error p => rfl
    | ok next => exact ih next

/-- **A merge is its steps, one after the other.** -/
theorem merge_eq_mergeStepwise (store other : Store) :
    store.merge other =
      match store.mergeStepwise other with
      | (next, none) => .ok next
      | (_, some p) => .error p := by
  rw [merge, mergeStepwise]
  simp only [addRoutes_eq_foldlM]
  split <;> simp_all [bind, Except.bind, pure, Except.pure]

/-! ### What every change keeps -/

/-- A constant that is defined has been inserted. -/
theorem exists_of_addDefinition {next : Store} {name expression : String} {exported : Bool}
    (h : store.addDefinition name expression exported = .ok next) :
    ∃ d, next = store.insertDefinition d := by
  rw [addDefinition] at h
  split at h
  · dsimp only at h
    split at h
    · exact ⟨_, (Except.ok.inj h).symm⟩
    · cases h
  · cases h

namespace Kept

theorem foldl {α : Type} {step : Store → α → Store}
    (hstep : ∀ (store : Store) (a : α), P store → P (step store a)) (as : List α) (h : P store) :
    P (as.foldl step store) := by
  induction as generalizing store with
  | nil => exact h
  | cons a as ih => exact ih (hstep store a h)

theorem addRoutes (hP : Kept P) (routes : List Route) (h : P store) :
    P (store.addRoutes routes).1 := by
  induction routes generalizing store with
  | nil => exact h
  | cons route routes ih =>
    rw [Store.addRoutes]
    cases hadded : store.addRoute route with
    | error p => exact h
    | ok next => exact ih (hP.addRoute h hadded)

/-- A merge keeps what every change keeps, also if it fails. -/
theorem mergeStepwise (hP : Kept P) (other : Store) (h : P store) :
    P (store.mergeStepwise other).1 := by
  have himports : P (other.imports.foldl (fun s i => s.addImports i.source i.names) store) :=
    foldl (P := P) (fun _ i hs => hP.addImports i.source i.names hs) other.imports h
  have hdefinitions : P (other.definitions.foldl Store.insertDefinition
      (other.imports.foldl (fun s i => s.addImports i.source i.names) store)) :=
    foldl (P := P) (fun _ d hs => hP.insertDefinition d hs) other.definitions himports
  have hroutes := hP.addRoutes other.routes hdefinitions
  rw [Store.mergeStepwise]
  split
  · next hfailed => rwa [hfailed] at hroutes
  · next hdone =>
    rw [hdone] at hroutes
    refine foldl (P := P) (fun _ c hs => hP.addSetting c.key c.value hs) other.settings ?_
    exact foldl (P := P) (fun _ s hs => hP.addStatement s hs) other.statements hroutes

/-- A call keeps what every change keeps, whether it succeeds or fails. -/
theorem run (hP : Kept P) (hempty : P .empty) (h : P store) (change : Change) :
    P (change.run store).1 := by
  cases change with
  | addImport source name =>
    simpa only [Change.run, addImport] using hP.addImports source [name] h
  | addImports source names =>
    simpa only [Change.run] using hP.addImports source names h
  | addDefinition name expression exported =>
    rw [Change.run]
    split
    · next hadded =>
      obtain ⟨d, rfl⟩ := exists_of_addDefinition hadded
      exact hP.insertDefinition d h
    · exact h
  | addRoute route =>
    rw [Change.run]
    split
    · next hadded => exact hP.addRoute h hadded
    · exact h
  | addStatement statement =>
    simpa only [Change.run] using hP.addStatement statement h
  | addSetting key value =>
    simpa only [Change.run] using hP.addSetting key value h
  | read source =>
    simpa only [Change.run] using hP.readMiddlewares hempty source
  | merge changes =>
    simpa only [Change.run] using hP.mergeStepwise _ h

theorem runAll (hP : Kept P) (hempty : P .empty) (changes : List Change) (h : P store) :
    P (Change.runAll store changes) := by
  induction changes generalizing store with
  | nil => exact h
  | cons change changes ih =>
    rw [Change.runAll]
    exact ih (hP.run hempty h change)

/-- **What every change keeps, and the empty store has, holds of a store that is built.** -/
theorem built (hP : Kept P) (hempty : P .empty) (changes : List Change) : P (built changes) :=
  hP.runAll hempty changes hempty

end Kept

/-! ### Canonical stores -/

/-- A store in which everything has the form in which it is put there. -/
structure Canonical (store : Store) : Prop extends store.WellFormed where
  /-- The names of imports are collapsed, and there is something in them. -/
  names : ∀ i ∈ store.imports, ∀ name ∈ i.names,
    name.isEmpty = false ∧ Text.collapse name = name
  /-- The routes can be written. -/
  writable : store.Writable
  /-- No statement is there twice. -/
  distinct : store.statements.Nodup
  /-- The statements are trimmed, and there is something in them. -/
  trimmed : ∀ statement ∈ store.statements,
    statement.isEmpty = false ∧ Text.trim statement = statement
  /-- The values of settings are trimmed. -/
  values : ∀ setting ∈ store.settings, heldSetting setting = setting

namespace Canonical

theorem empty : Canonical .empty where
  toWellFormed := .empty
  names _ h := absurd h List.not_mem_nil
  writable _ h := absurd h List.not_mem_nil
  distinct := .nil
  trimmed _ h := absurd h List.not_mem_nil
  values _ h := absurd h List.not_mem_nil

theorem addImports (h : store.Canonical) (source : String) (names : List String) :
    (store.addImports source names).Canonical where
  toWellFormed := h.toWellFormed.addImports source names
  names i hi name hname := by
    -- a name that is new is a specifier with its blanks collapsed
    have hnew : ∀ held : List String,
        (∀ n ∈ held, n.isEmpty = false ∧ Text.collapse n = n) →
        name ∈ names.foldl withSpecifier held →
          name.isEmpty = false ∧ Text.collapse name = name := by
      intro held hheld hmem
      rcases mem_foldl_withSpecifier.1 hmem with hmem | ⟨specifier, -, rfl, hne⟩
      · exact hheld name hmem
      · exact ⟨hne, Text.collapse_collapse specifier⟩
    rcases mem_updateImport hi with hi | ⟨-, hi | ⟨j, hj, -, hi⟩⟩
    · exact h.names i hi name hname
    · rw [hi] at hname
      exact hnew [] (fun _ h => absurd h List.not_mem_nil) hname
    · rw [hi] at hname
      exact hnew j.names (h.names j hj) hname
  writable := h.writable
  distinct := h.distinct
  trimmed := h.trimmed
  values := h.values

theorem insertDefinition (h : store.Canonical) (d : Definition) :
    (store.insertDefinition d).Canonical :=
  { h with toWellFormed := h.toWellFormed.insertDefinition d }

theorem addRoute (h : store.Canonical) {route : Route} {next : Store}
    (hadded : store.addRoute route = .ok next) : next.Canonical := by
  have hwell := h.toWellFormed.addRoute hadded
  obtain ⟨hroute, rfl⟩ := addRoute_eq_ok_iff.1 hadded
  refine { h with toWellFormed := hwell, writable := fun r hr => ?_ }
  rcases mem_insertRoute hr with rfl | hr
  · exact hroute
  · exact h.writable r hr

theorem addStatement (h : store.Canonical) (statement : String) :
    (store.addStatement statement).Canonical := by
  have hwell := h.toWellFormed.addStatement statement
  rw [addStatement_eq] at hwell ⊢
  by_cases hthere : ((Text.trim statement).isEmpty ||
      store.statements.contains (Text.trim statement)) = true
  · rw [withStatement, if_pos hthere]
    exact h
  · rw [withStatement, if_neg hthere] at hwell ⊢
    rw [Bool.or_eq_true, not_or, List.contains_iff_mem, Bool.not_eq_true] at hthere
    refine { h with toWellFormed := hwell, distinct := ?_, trimmed := fun s hs => ?_ }
    · exact List.nodup_append.2 ⟨h.distinct, List.nodup_singleton _,
        by simpa using fun s hs => ne_of_mem_of_not_mem hs hthere.2⟩
    · rcases List.mem_append.1 hs with hs | hs
      · exact h.trimmed s hs
      · obtain rfl := List.mem_singleton.1 hs
        exact ⟨hthere.1, Text.trim_trim statement⟩

theorem addSetting (h : store.Canonical) (key value : String) :
    (store.addSetting key value).Canonical := by
  refine { h with toWellFormed := h.toWellFormed.addSetting key value, values := fun c hc => ?_ }
  rcases mem_upsert hc with rfl | hc
  · rw [heldSetting, Text.trim_trim]
  · exact h.values c hc

end Canonical

theorem kept_canonical : Kept Canonical where
  addImports source names h := h.addImports source names
  insertDefinition d h := h.insertDefinition d
  addRoute h hadded := h.addRoute hadded
  addStatement statement h := h.addStatement statement
  addSetting key value h := h.addSetting key value

/-- Every store that is built is canonical. -/
theorem canonical_built (changes : List Change) : (built changes).Canonical :=
  kept_canonical.built .empty changes

/-- A call that fails has changed nothing: nothing was changed before a constant or a route was
refused, and a merge does not fail. -/
theorem run_of_failed (store : Store) (change : Change)
    (hfailed : (change.run store).2 ≠ none) : (change.run store).1 = store := by
  cases change with
  | addImport source name => exact absurd rfl hfailed
  | addImports source names => exact absurd rfl hfailed
  | addDefinition name expression exported =>
    rw [Change.run] at hfailed ⊢
    split
    · next hadded =>
      rw [hadded] at hfailed
      exact absurd rfl hfailed
    · rfl
  | addRoute route =>
    rw [Change.run] at hfailed ⊢
    split
    · next hadded =>
      rw [hadded] at hfailed
      exact absurd rfl hfailed
    · rfl
  | addStatement statement => exact absurd rfl hfailed
  | addSetting key value => exact absurd rfl hfailed
  | read source => exact absurd rfl hfailed
  | merge changes =>
    have hmerged : store.mergeStepwise (built changes) = (store.overlay (built changes), none) :=
      mergeStepwise_of_writable (canonical_built changes).writable
    refine absurd ?_ hfailed
    rw [Change.run]
    exact congrArg (fun merged => merged.2.map Failure.value) hmerged

/-! ### Consistent stores -/

/-- What may be relied on in a store: every list by key has one member for each key, which is found
under it, and every member is in order by itself. -/
structure Consistent (store : Store) : Prop where
  /-- The imports have different sources. -/
  sources : (store.imports.map Import.source).Nodup
  /-- The constants have different names. -/
  definitions : (store.definitions.map Definition.name).Nodup
  /-- The routes have different keys. -/
  routes : (store.routes.map fun route => (route.method, route.matcher)).Nodup
  /-- The settings have different keys. -/
  settings : (store.settings.map Setting.key).Nodup
  /-- No statement is there twice. -/
  statements : store.statements.Nodup
  /-- Every import is found under its source. -/
  foundImport : ∀ i ∈ store.imports, store.import? i.source = some i
  /-- Every route is found under its key. -/
  foundRoute : ∀ route ∈ store.routes, store.route? route.method route.matcher = some route
  /-- No name of an import is empty, and single spaces between words are its only blanks. -/
  names : ∀ i ∈ store.imports, ∀ name ∈ i.names, name ≠ "" ∧ Text.SingleSpaced name.toList
  /-- No statement is empty, and none begins or ends with a blank. -/
  trimmed : ∀ statement ∈ store.statements, statement ≠ "" ∧ Text.Trimmed statement.toList
  /-- Every route can be written. -/
  valid : ∀ route ∈ store.routes, route.problem? = none

theorem import?_eq_lookup (source : String) :
    store.import? source = lookup Import.source source store.imports :=
  find?_eq_lookup Import.source (fun _ => beq_iff_eq) store.imports

theorem route?_eq_lookup (method : Method) (matcher : String) :
    store.route? method matcher = lookup routeKey (method, matcher) store.routes := by
  refine find?_eq_lookup routeKey (fun route => ?_) store.routes
  rw [Bool.and_eq_true, beq_iff_eq, beq_iff_eq, routeKey, Prod.mk.injEq]

theorem Canonical.consistent (h : store.Canonical) : store.Consistent where
  sources := h.imports.nodup_sources
  definitions := h.definitions
  routes := nodup_routeKeys h.routes
  settings := h.settings
  statements := h.distinct
  foundImport i hi := by
    rw [import?_eq_lookup]
    exact lookup_of_mem Import.source h.imports.nodup_sources hi
  foundRoute route hroute := by
    rw [route?_eq_lookup]
    exact lookup_of_mem routeKey (nodup_routeKeys h.routes) hroute
  names i hi name hname := by
    obtain ⟨hne, hcollapsed⟩ := h.names i hi name hname
    constructor
    · rintro rfl
      cases hne
    · rw [← hcollapsed]
      exact Text.singleSpaced_collapse name
  trimmed statement hs := by
    obtain ⟨hne, htrimmed⟩ := h.trimmed statement hs
    constructor
    · rintro rfl
      cases hne
    · rw [← htrimmed]
      exact Text.trimmed_trim statement
  valid := h.writable

/-- **After every run of calls, whether they succeed or fail, the store is consistent, and a call
that fails leaves the whole of it as it was.** -/
theorem consistent_built (changes : List Change) :
    (built changes).Consistent ∧ ∀ change : Change,
      (change.run (built changes)).2 ≠ none → (change.run (built changes)).1 = built changes :=
  ⟨(canonical_built changes).consistent, run_of_failed (built changes)⟩

end Store

end ModuleScaffold
