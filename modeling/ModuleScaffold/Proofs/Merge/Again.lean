import ModuleScaffold.Proofs.Merge.Ascending

/-!
# Merging again

A store that is merged on top of another one changes every list of it by itself
(`ModuleScaffold.Store.overlay`), so a merge only fails if a route cannot be written. After a merge
every declaration of the upper store has its final value, and merging the same stores once more
changes nothing – also if the constants and the statements came into another order in between, as
they do when a file is written and read back.

Main statements:

* `ModuleScaffold.Store.merge_eq_ok_iff` – **what a merge gives**;
* `ModuleScaffold.Store.overlayAll_again` – **stores that were merged change nothing when they are
  merged again**.
-/

namespace ModuleScaffold

namespace Store

variable {store other result : Store}

/-! ### What a merge gives -/

/-- Imports with the names of another import added. -/
def withImport (imports : List Import) (added : Import) : List Import :=
  updateImport added.source (added.names.foldl withSpecifier) imports

/-- Statements with one more, if it is not there yet. -/
def withStatement (statements : List String) (statement : String) : List String :=
  if (Text.trim statement).isEmpty || statements.contains (Text.trim statement) then statements
  else statements ++ [Text.trim statement]

/-- A setting as it is held. -/
def heldSetting (setting : Setting) : Setting :=
  ⟨setting.key, Text.trim setting.value⟩

/-- The declarations of a store on top of those of another one. -/
def overlay (store other : Store) : Store where
  imports := other.imports.foldl withImport store.imports
  definitions := putAll Definition.name other.definitions store.definitions
  routes := other.routes.foldl (fun routes route => insertRoute route routes) store.routes
  statements := other.statements.foldl withStatement store.statements
  settings := putAll Setting.key (other.settings.map heldSetting) store.settings

/-- Whether all routes of a store can be written. -/
def Writable (store : Store) : Prop :=
  ∀ route ∈ store.routes, route.problem? = none

theorem foldl_addImports (added : List Import) (store : Store) :
    added.foldl (fun s i => s.addImports i.source i.names) store =
      { store with imports := added.foldl withImport store.imports } := by
  induction added generalizing store with
  | nil => rfl
  | cons i added ih => exact ih _

theorem foldl_insertDefinition (added : List Definition) (store : Store) :
    added.foldl insertDefinition store =
      { store with definitions := putAll Definition.name added store.definitions } := by
  induction added generalizing store with
  | nil => rfl
  | cons d added ih => exact ih _

theorem addStatement_eq (statement : String) :
    store.addStatement statement =
      { store with statements := withStatement store.statements statement } := by
  rw [addStatement, withStatement]
  split <;> rfl

theorem foldl_addStatement (added : List String) (store : Store) :
    added.foldl addStatement store =
      { store with statements := added.foldl withStatement store.statements } := by
  induction added generalizing store with
  | nil => rfl
  | cons statement added ih => rw [List.foldl_cons, addStatement_eq, ih, List.foldl_cons]

theorem addSetting_eq (setting : Setting) :
    store.addSetting setting.key setting.value =
      { store with settings := put Setting.key (heldSetting setting) store.settings } := by
  rw [addSetting, put, heldSetting]

theorem foldl_addSetting (added : List Setting) (store : Store) :
    added.foldl (fun s c => s.addSetting c.key c.value) store =
      { store with settings := putAll Setting.key (added.map heldSetting) store.settings } := by
  induction added generalizing store with
  | nil => rfl
  | cons setting added ih =>
    rw [List.foldl_cons, addSetting_eq, ih, List.map_cons, putAll_cons]

theorem addRoute_eq_ok_iff {route : Route} : store.addRoute route = .ok result ↔
    route.problem? = none ∧ result = { store with routes := insertRoute route store.routes } := by
  rw [addRoute]
  split
  · next h =>
    rw [h]
    exact ⟨fun h => (nomatch h), fun h => (nomatch h.1)⟩
  · next h =>
    rw [Except.ok.injEq, eq_comm]
    exact (and_iff_right h).symm

theorem foldlM_addRoute_eq_ok_iff (added : List Route) (store : Store) :
    added.foldlM addRoute store = .ok result ↔ (∀ route ∈ added, route.problem? = none) ∧
      result = { store with
        routes := added.foldl (fun routes route => insertRoute route routes) store.routes } := by
  induction added generalizing store with
  | nil =>
    constructor
    · intro h
      cases h
      exact ⟨fun _ h => absurd h List.not_mem_nil, rfl⟩
    · rintro ⟨-, rfl⟩
      rfl
  | cons route added ih =>
    rw [List.foldlM_cons, List.forall_mem_cons]
    cases hroute : store.addRoute route with
    | error p =>
      constructor
      · intro h
        cases h
      · rintro ⟨⟨h, -⟩, -⟩
        rw [addRoute, h] at hroute
        cases hroute
    | ok next =>
      obtain ⟨hproblem, rfl⟩ := addRoute_eq_ok_iff.1 hroute
      rw [and_assoc, and_iff_right hproblem]
      exact ih _

/-- **A merge gives the declarations of the upper store on top of those of the lower one**, unless
a route of the upper store cannot be written. -/
theorem merge_eq_ok_iff :
    store.merge other = .ok result ↔ other.Writable ∧ result = store.overlay other := by
  rw [merge]
  simp only [foldl_addImports, foldl_insertDefinition]
  cases hroutes : other.routes.foldlM addRoute
    { store with
      imports := other.imports.foldl withImport store.imports
      definitions := putAll Definition.name other.definitions store.definitions } with
  | error p =>
    constructor
    · intro h
      cases h
    · rintro ⟨hwritable, -⟩
      rw [(foldlM_addRoute_eq_ok_iff other.routes _).2 ⟨hwritable, rfl⟩] at hroutes
      cases hroutes
  | ok next =>
    obtain ⟨hwritable, rfl⟩ := (foldlM_addRoute_eq_ok_iff other.routes _).1 hroutes
    change Except.ok (other.settings.foldl (fun s c => s.addSetting c.key c.value)
      (other.statements.foldl addStatement _)) = Except.ok result ↔ _
    rw [foldl_addStatement, foldl_addSetting, Except.ok.injEq, eq_comm]
    exact (and_iff_right hwritable).symm

/-! ### Well-formed stores -/

/-- A store whose imports and routes ascend, and whose constants and settings have different
keys. -/
structure WellFormed (store : Store) : Prop where
  /-- The imports ascend. -/
  imports : ImportsAscend store.imports
  /-- The constants have different names. -/
  definitions : (store.definitions.map Definition.name).Nodup
  /-- The routes ascend. -/
  routes : store.routes.Pairwise fun r s => r.keyBefore s = true
  /-- The settings have different keys. -/
  settings : (store.settings.map Setting.key).Nodup

namespace WellFormed

theorem empty : WellFormed {} :=
  ⟨⟨.nil, fun _ h => absurd h List.not_mem_nil⟩, .nil, .nil, .nil⟩

theorem addImports (h : store.WellFormed) (source : String) (names : List String) :
    (store.addImports source names).WellFormed :=
  { h with imports := h.imports.updateImport fun _ => pairwise_foldl_withSpecifier }

theorem insertDefinition (h : store.WellFormed) (d : Definition) :
    (store.insertDefinition d).WellFormed :=
  { h with definitions := nodup_keys_put Definition.name h.definitions }

theorem addRoute (h : store.WellFormed) {route : Route}
    (hadded : store.addRoute route = .ok result) : result.WellFormed := by
  obtain ⟨-, rfl⟩ := addRoute_eq_ok_iff.1 hadded
  exact { h with routes := pairwise_insertRoute h.routes }

theorem addStatement (h : store.WellFormed) (statement : String) :
    (store.addStatement statement).WellFormed := by
  rw [addStatement_eq]
  exact ⟨h.imports, h.definitions, h.routes, h.settings⟩

theorem addSetting (h : store.WellFormed) (key value : String) :
    (store.addSetting key value).WellFormed := by
  rw [addSetting_eq ⟨key, value⟩]
  exact { h with settings := nodup_keys_put Setting.key h.settings }

theorem foldl_withImport {imports added : List Import} (h : ImportsAscend imports) :
    ImportsAscend (added.foldl withImport imports) := by
  induction added generalizing imports with
  | nil => exact h
  | cons i added ih => exact ih (h.updateImport fun _ => pairwise_foldl_withSpecifier)

theorem overlay (h : store.WellFormed) (other : Store) : (store.overlay other).WellFormed where
  imports := foldl_withImport h.imports
  definitions := nodup_keys_putAll Definition.name h.definitions
  routes := pairwise_foldl_insertRoute h.routes
  settings := nodup_keys_putAll Setting.key h.settings

end WellFormed

/-! ### Merging again -/

theorem foldl_withImport_of_offers {imports added : List Import} (h : ImportsAscend imports)
    (hoffers : ∀ i ∈ added, OffersImport imports i) : added.foldl withImport imports = imports := by
  induction added with
  | nil => rfl
  | cons i added ih =>
    rw [List.foldl_cons, withImport, updateImport_of_offers h (hoffers i List.mem_cons_self)]
    exact ih fun j hj => hoffers j (List.mem_cons_of_mem _ hj)

theorem OffersImport.foldl_withImport {imports added : List Import} {i : Import}
    (h : OffersImport imports i) : OffersImport (added.foldl withImport imports) i := by
  induction added generalizing imports with
  | nil => exact h
  | cons j added ih => exact ih (h.updateImport j.names)

theorem offersImport_foldl_withImport {imports added : List Import} :
    ∀ i ∈ added, OffersImport (added.foldl withImport imports) i := by
  induction added generalizing imports with
  | nil => exact fun i hi => absurd hi List.not_mem_nil
  | cons j added ih =>
    intro i hi
    rcases List.mem_cons.1 hi with rfl | hi
    · exact (offersImport_updateImport i).foldl_withImport
    · exact ih i hi

theorem mem_withStatement {statements : List String} {statement text : String}
    (h : text ∈ statements) : text ∈ withStatement statements statement := by
  rw [withStatement]
  split
  · exact h
  · exact List.mem_append_left _ h

theorem mem_foldl_withStatement {statements added : List String} {text : String}
    (h : text ∈ statements) : text ∈ added.foldl withStatement statements := by
  induction added generalizing statements with
  | nil => exact h
  | cons statement added ih =>
    rw [List.foldl_cons]
    exact ih (mem_withStatement h)

/-- Every statement that is not empty is there after it was added. -/
theorem mem_foldl_withStatement_of_mem {statements added : List String} :
    ∀ statement ∈ added, (Text.trim statement).isEmpty = true ∨
      Text.trim statement ∈ added.foldl withStatement statements := by
  induction added generalizing statements with
  | nil => exact fun statement h => absurd h List.not_mem_nil
  | cons other added ih =>
    intro statement h
    rw [List.foldl_cons]
    rcases List.mem_cons.1 h with rfl | h
    · by_cases hempty : (Text.trim statement).isEmpty = true
      · exact .inl hempty
      · refine .inr (mem_foldl_withStatement ?_)
        rw [withStatement]
        split
        · next hor =>
          rw [Bool.or_eq_true] at hor
          exact List.contains_iff_mem.1 (hor.resolve_left hempty)
        · exact List.mem_append_right _ (List.mem_singleton_self _)
    · exact ih statement h

theorem foldl_withStatement_of_mem {statements added : List String}
    (h : ∀ statement ∈ added, (Text.trim statement).isEmpty = true ∨
      Text.trim statement ∈ statements) : added.foldl withStatement statements = statements := by
  induction added with
  | nil => rfl
  | cons statement added ih =>
    have hsame : withStatement statements statement = statements := by
      rw [withStatement]
      refine if_pos ?_
      rw [Bool.or_eq_true]
      exact (h statement List.mem_cons_self).imp id List.contains_iff_mem.2
    rw [List.foldl_cons, hsame]
    exact ih fun s hs => h s (List.mem_cons_of_mem _ hs)

/-- A store with the same declarations, whose constants and statements may be in another order. -/
structure Reordered (store other : Store) : Prop where
  /-- The imports are the same. -/
  imports : other.imports = store.imports
  /-- The constants are the same up to their order. -/
  definitions : store.definitions.Perm other.definitions
  /-- The routes are the same. -/
  routes : other.routes = store.routes
  /-- The statements are the same up to their order. -/
  statements : store.statements.Perm other.statements
  /-- The settings are the same. -/
  settings : other.settings = store.settings

/-- A store that was merged changes nothing when it is merged again. -/
theorem overlay_again {base : Store} (hbase : base.WellFormed)
    (h : (base.overlay other).Reordered store) : store.overlay other = store := by
  have hwell := hbase.overlay other
  -- list by list, what is added has its final value
  have himports : other.imports.foldl withImport store.imports = store.imports := by
    rw [h.imports]
    exact foldl_withImport_of_offers hwell.imports offersImport_foldl_withImport
  have hdefinitions : putAll Definition.name other.definitions store.definitions =
      store.definitions :=
    putAll_of_holdsLast ((h.definitions.map _).nodup_iff.1 hwell.definitions)
      ((holdsLast_putAll Definition.name).perm _ hwell.definitions h.definitions)
  have hroutes : other.routes.foldl (fun routes route => insertRoute route routes) store.routes =
      store.routes := by
    rw [h.routes]
    exact foldl_insertRoute_of_holdsLast hwell.routes holdsLast_foldl_insertRoute
  have hstatements : other.statements.foldl withStatement store.statements = store.statements :=
    foldl_withStatement_of_mem fun statement hs =>
      (mem_foldl_withStatement_of_mem statement hs).imp id fun hmem => h.statements.subset hmem
  have hsettings : putAll Setting.key (other.settings.map heldSetting) store.settings =
      store.settings := by
    rw [h.settings]
    exact putAll_of_holdsLast hwell.settings (holdsLast_putAll Setting.key)
  rw [overlay, himports, hdefinitions, hroutes, hstatements, hsettings]

/-! ### Several stores -/

/-- A store with the declarations of further stores on top, one after the other. -/
def overlayAll (store : Store) (added : List Store) : Store :=
  added.foldl overlay store

/-- The declarations of several stores, one after the other. -/
def joined (added : List Store) : Store where
  imports := added.flatMap Store.imports
  definitions := added.flatMap Store.definitions
  routes := added.flatMap Store.routes
  statements := added.flatMap Store.statements
  settings := added.flatMap Store.settings

theorem overlayAll_eq (store : Store) (added : List Store) :
    store.overlayAll added = store.overlay (joined added) := by
  induction added generalizing store with
  | nil => rfl
  | cons other added ih =>
    rw [overlayAll, List.foldl_cons]
    refine (ih (store.overlay other)).trans ?_
    simp only [overlay, joined, putAll, List.flatMap_cons, List.map_append, List.foldl_append]

/-- **Stores that were merged change nothing when they are merged again**, whatever the order in
which the constants and the statements are found then. -/
theorem overlayAll_again {base : Store} {added : List Store} (hbase : base.WellFormed)
    (h : (base.overlayAll added).Reordered store) : store.overlayAll added = store := by
  rw [overlayAll_eq] at h ⊢
  exact overlay_again hbase h

end Store

end ModuleScaffold
