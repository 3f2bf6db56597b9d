import ModuleScaffold.Proofs.Merge.Again
import ModuleScaffold.Proofs.Order.Stable
import ModuleScaffold.Generator

/-!
# Merging modules into a file that was written

A file is written with its constants and statements in dependency order, and it is read back in
that order. When the modules that were merged into it are merged into it again, nothing changes:
every declaration of them has its final value already.

Main statements:

* `ModuleScaffold.mergeModules_again` – **modules that were merged change nothing when they are
  merged again**;
* `ModuleScaffold.Store.serialize_inOrder` – **a settled file is written as it was**.
-/

namespace ModuleScaffold

namespace Store

variable {store other : Store} {out : List Declaration} {text : String}

/-! ### Stores whose declarations are reordered -/

theorem itemsAt_perm (nodes : List Node) {places : List ℕ}
    (h : places.Perm (List.range nodes.length)) :
    (itemsAt nodes places).Perm (nodes.map (·.item)) := by
  rw [← itemsAt_range]
  exact h.filterMap _

theorem map_item_nodes (store : Store) : store.nodes.map (·.item) =
    store.definitions.map .schema ++ store.statements.map .statement := by
  have hstatement : ∀ text, (Node.ofStatement text).item = .statement text := fun text => by
    rw [Node.ofStatement]
    split <;> rfl
  rw [nodes, List.map_append, List.map_map, List.map_map]
  exact congrArg _ (List.map_congr_left fun text _ => hstatement text)

/-- The declarations in the order of the file are those of the store. -/
theorem reordered_inOrder (h : store.ordered = .ok out) : store.Reordered (store.inOrder out) := by
  obtain ⟨places, hplaces, rfl, -⟩ := exists_places_of_ordered h
  have hperm := itemsAt_perm store.nodes hplaces
  rw [map_item_nodes] at hperm
  have hdefinitions := (hperm.filterMap Declaration.definition?).symm
  have hstatements := (hperm.filterMap Declaration.statement?).symm
  have hkept : (store.definitions.map Declaration.schema ++
      store.statements.map Declaration.statement).filterMap Declaration.definition? =
      store.definitions := by
    simp [List.filterMap_map, Function.comp_def, Declaration.definition?]
  have hkept' : (store.definitions.map Declaration.schema ++
      store.statements.map Declaration.statement).filterMap Declaration.statement? =
      store.statements := by
    simp [List.filterMap_map, Function.comp_def, Declaration.statement?]
  rw [hkept] at hdefinitions
  rw [hkept'] at hstatements
  exact ⟨rfl, hdefinitions, rfl, hstatements, rfl⟩

/-- A file has no statement if its store has none. -/
theorem statements_inOrder_eq_nil (h : store.ordered = .ok out) (hnone : store.statements = []) :
    (store.inOrder out).statements = [] := by
  have hperm := (reordered_inOrder h).statements
  rw [hnone] at hperm
  exact hperm.symm.eq_nil

/-- What routes may refer to does not depend on the order of the constants. -/
theorem Reordered.dangling (h : store.Reordered other) : other.dangling = store.dangling := by
  have hbound : other.isBound = store.isBound := by
    funext name
    have hnames : other.definitions.any (·.name == name) =
        store.definitions.any (·.name == name) := by
      rw [Bool.eq_iff_iff, List.any_eq_true, List.any_eq_true]
      exact exists_congr fun d => and_congr_left fun _ => h.definitions.mem_iff.symm
    rw [isBound, isBound, h.imports, hnames]
  have hunbound : other.unboundIn = store.unboundIn := by
    funext route
    rw [unboundIn, unboundIn, hbound]
  rw [Store.dangling, Store.dangling, h.routes, hunbound]

theorem serialize_eq_ok_iff : store.serialize = .ok text ↔
    store.dangling = [] ∧ ∃ out, store.ordered = .ok out ∧
      text = String.ofList (store.renderOrdered out) := by
  rw [serialize, checkReferences]
  cases store.dangling with
  | cons r rs =>
    constructor
    · intro h
      cases h
    · rintro ⟨h, -⟩
      cases h
  | nil =>
    rw [and_iff_right rfl]
    cases store.ordered with
    | error labels =>
      constructor
      · intro h
        cases h
      · rintro ⟨out, h, -⟩
        cases h
    | ok out =>
      constructor
      · intro h
        cases h
        exact ⟨out, rfl, rfl⟩
      · rintro ⟨out', h, rfl⟩
        cases h
        rfl

/-- **A settled file that is read back as it was written is written again as it was.** -/
theorem serialize_inOrder (hserialize : store.serialize = .ok text)
    (hordered : store.ordered = .ok out) (hsettled : Settled out) :
    (store.inOrder out).serialize = .ok text := by
  obtain ⟨hdangling, out', hordered', rfl⟩ := serialize_eq_ok_iff.1 hserialize
  obtain rfl := Except.ok.inj (hordered.symm.trans hordered')
  refine serialize_eq_ok_iff.2 ⟨?_, out, (ordered_inOrder_eq_ok_iff hordered).2 hsettled, rfl⟩
  rw [(reordered_inOrder hordered).dangling, hdangling]

end Store

/-! ### Modules -/

variable {project : Project} {base store other : Store} {modules : List Schema.Module}

/-- Modules are merged by merging what each of them declares. -/
theorem mergeModules_cons_eq_ok_iff {m : Schema.Module} :
    mergeModules project base (m :: modules) = .ok store ↔
      ∃ added, Declarations.ofModule project.layout project.middlewareDir m = .ok added ∧
        added.Writable ∧ mergeModules project (base.overlay added) modules = .ok store := by
  rw [mergeModules]
  cases hadded : Declarations.ofModule project.layout project.middlewareDir m with
  | error p =>
    constructor
    · intro h
      cases h
    · rintro ⟨added, h, -⟩
      cases h
  | ok added =>
    change ((base.merge added).mapError Failure.value >>= fun store =>
      mergeModules project store modules) = _ ↔ _
    cases hmerge : base.merge added with
    | error p =>
      constructor
      · intro h
        cases h
      · rintro ⟨added', h, hwritable, -⟩
        cases h
        rw [Store.merge_eq_ok_iff.2 ⟨hwritable, rfl⟩] at hmerge
        cases hmerge
    | ok merged =>
      obtain ⟨hwritable, rfl⟩ := Store.merge_eq_ok_iff.1 hmerge
      constructor
      · exact fun h => ⟨added, rfl, hwritable, h⟩
      · rintro ⟨added', h, -, hrest⟩
        cases h
        exact hrest

/-- What modules declare, one store for each module. -/
def Declared (project : Project) (modules : List Schema.Module) (added : List Store) : Prop :=
  List.Forall₂ (fun m store => Declarations.ofModule project.layout project.middlewareDir m =
    .ok store ∧ store.Writable) modules added

theorem mergeModules_eq_ok_iff : mergeModules project base modules = .ok store ↔
    ∃ added, Declared project modules added ∧ store = base.overlayAll added := by
  induction modules generalizing base with
  | nil =>
    constructor
    · intro h
      cases h
      exact ⟨[], .nil, rfl⟩
    · rintro ⟨added, h, rfl⟩
      cases h
      rfl
  | cons m modules ih =>
    rw [mergeModules_cons_eq_ok_iff]
    constructor
    · rintro ⟨first, hfirst, hwritable, h⟩
      obtain ⟨added, hadded, rfl⟩ := ih.1 h
      exact ⟨first :: added, .cons ⟨hfirst, hwritable⟩ hadded, rfl⟩
    · rintro ⟨added, h, rfl⟩
      cases h with
      | cons hfirst hadded =>
        exact ⟨_, hfirst.1, hfirst.2, ih.2 ⟨_, hadded, rfl⟩⟩

/-- **Modules that were merged change nothing when they are merged again**, whatever the order in
which the constants and the statements are found then. -/
theorem mergeModules_again (hbase : base.WellFormed)
    (h : mergeModules project base modules = .ok store) (hother : store.Reordered other) :
    mergeModules project other modules = .ok other := by
  obtain ⟨added, hadded, rfl⟩ := mergeModules_eq_ok_iff.1 h
  exact mergeModules_eq_ok_iff.2 ⟨added, hadded, (Store.overlayAll_again hbase hother).symm⟩

end ModuleScaffold
