import ModuleScaffold.Proofs.Merge.Monoid
import ModuleScaffold.Proofs.References.Declared

/-!
# What binds a name

A name is bound by the import of a source or by a schema constant. A store that is put together adds
binders only, and laying one store over another one unites them, so what binds a name in a merged
file can be told from what was merged.

Main statement: `ModuleScaffold.Store.boundBy_overlayAll` – **a merged store binds a name by
whatever binds it in the stores that were merged**.
-/

namespace ModuleScaffold

namespace Store

/-- What binds a name. -/
inductive Binder
  /-- The import of a source. -/
  | imported (source : String)
  /-- A schema constant. -/
  | defined
  deriving DecidableEq, Repr

/-- The name is bound in the store, by the given binder. -/
def BoundBy (store : Store) (name : String) : Binder → Prop
  | .imported source => ∃ i ∈ store.imports, i.source = source ∧ name ∈ i.bindings
  | .defined => ∃ d ∈ store.definitions, d.name = name

/-- No name has two binders. -/
def BindsOnce (store : Store) : Prop :=
  ∀ name binder other, store.BoundBy name binder → store.BoundBy name other → binder = other

section Binders

variable {store upper : Store} {name : String} {binder : Binder}

theorem binds_iff_exists_boundBy : store.Binds name ↔ ∃ binder, store.BoundBy name binder := by
  constructor
  · rintro (⟨i, hi, hname⟩ | ⟨d, hd, hname⟩)
    · exact ⟨.imported i.source, i, hi, rfl, hname⟩
    · exact ⟨.defined, d, hd, hname⟩
  · rintro ⟨_ | _, h⟩
    · obtain ⟨i, hi, -, hname⟩ := h
      exact .inl ⟨i, hi, hname⟩
    · exact .inr h

theorem boundBy_empty : ¬Store.empty.BoundBy name binder := by
  cases binder with
  | imported source => exact fun ⟨_, hi, _⟩ => List.not_mem_nil hi
  | defined => exact fun ⟨_, hd, _⟩ => List.not_mem_nil hd

theorem boundBy_imported_iff (h : ImportsAscend store.imports) {source : String} :
    store.BoundBy name (.imported source) ↔
      ∃ specifier ∈ namesFrom source store.imports, Import.binding specifier = name := by
  simp only [BoundBy, mem_namesFrom h.nodup_sources, Import.bindings, List.mem_map]
  constructor
  · rintro ⟨i, hi, hsource, specifier, hspecifier, hname⟩
    exact ⟨specifier, ⟨i, hi, hsource, hspecifier⟩, hname⟩
  · rintro ⟨specifier, ⟨i, hi, hsource, hspecifier⟩, hname⟩
    exact ⟨i, hi, hsource, specifier, hspecifier, hname⟩

/-! ### Adding to a store -/

theorem collapse_of_isWord (h : Text.IsWord name.toList) : Text.collapse name = name := by
  have hwords : Text.words name.toList = [name.toList] :=
    Text.words_joinWith fun w hw => List.mem_singleton.1 hw ▸ h
  rw [Text.collapse, hwords, Text.joinWith, String.ofList_toList]

/-- Words that are imported from a source are bound by it. -/
theorem boundBy_addImports (h : ImportsAscend store.imports) {source : String}
    {specifiers : List String} (hwords : ∀ s ∈ specifiers, Text.IsWord s.toList) :
    (store.addImports source specifiers).BoundBy name binder ↔
      store.BoundBy name binder ∨ binder = .imported source ∧ name ∈ specifiers := by
  cases binder with
  | defined => exact (or_iff_left fun ⟨h, _⟩ => nomatch h).symm
  | imported other =>
    have hascend : ImportsAscend (store.addImports source specifiers).imports :=
      h.updateImport fun _ => pairwise_foldl_withSpecifier
    have hadded : (store.addImports source specifiers).imports =
        withImport store.imports ⟨source, specifiers⟩ := rfl
    -- a word is its own specifier, and that specifier binds it
    have hnames : (∃ n, (∃ s ∈ specifiers, n = Text.collapse s ∧
        (Text.collapse s).isEmpty = false) ∧ Import.binding n = name) ↔ name ∈ specifiers := by
      constructor
      · rintro ⟨_, ⟨s, hs, rfl, -⟩, rfl⟩
        rwa [collapse_of_isWord (hwords s hs), Import.binding_of_spells (hwords s hs) .alone]
      · intro hname
        have hword := hwords name hname
        refine ⟨name, ⟨name, hname, (collapse_of_isWord hword).symm, ?_⟩,
          Import.binding_of_spells hword .alone⟩
        rw [collapse_of_isWord hword]
        exact Import.Spells.alone.isEmpty_eq_false hword
    rw [boundBy_imported_iff hascend, boundBy_imported_iff h, hadded, namesFrom_withImport h,
      Binder.imported.injEq]
    split
    · next hsource =>
      simp only at hsource
      simp only [mem_foldl_withSpecifier, or_and_right, exists_or, hnames, hsource, true_and]
    · next hsource => rw [or_iff_left fun hbound => hsource hbound.1.symm]

theorem boundBy_insertDefinition {d : Definition} :
    (store.insertDefinition d).BoundBy name binder ↔
      store.BoundBy name binder ∨ binder = .defined ∧ name = d.name := by
  cases binder with
  | imported source => exact (or_iff_left fun ⟨h, _⟩ => nomatch h).symm
  | defined =>
    have hkeys : name ∈ (store.insertDefinition d).definitions.map Definition.name ↔
        name = d.name ∨ name ∈ store.definitions.map Definition.name :=
      mem_keys_put Definition.name
    rw [List.mem_map, List.mem_map] at hkeys
    rw [BoundBy, BoundBy, hkeys, or_comm, and_iff_right rfl]

/-! ### Merging -/

theorem boundBy_overlay (h : ImportsAscend store.imports) (hupper : upper.Canonical) :
    (store.overlay upper).BoundBy name binder ↔
      store.BoundBy name binder ∨ upper.BoundBy name binder := by
  cases binder with
  | imported source =>
    have hascend : ImportsAscend (store.overlay upper).imports := WellFormed.foldl_withImport h
    rw [boundBy_imported_iff hascend, boundBy_imported_iff h, boundBy_imported_iff hupper.imports]
    simp only [overlay, mem_namesFrom_foldl h hupper.collapsed,
      ← mem_namesFrom hupper.imports.nodup_sources, or_and_right, exists_or]
  | defined =>
    have hkeys : name ∈ (store.overlay upper).definitions.map Definition.name ↔
        name ∈ store.definitions.map Definition.name ∨
          name ∈ upper.definitions.map Definition.name := by
      rw [overlay, keys_putAll_eq]
      exact mem_foldl_withNew
    rw [List.mem_map, List.mem_map, List.mem_map] at hkeys
    exact hkeys

theorem Canonical.overlayAll {store : Store} (h : store.Canonical) {added : List Store}
    (hadded : ∀ upper ∈ added, upper.Canonical) : (store.overlayAll added).Canonical := by
  induction added generalizing store with
  | nil => exact h
  | cons upper added ih =>
    obtain ⟨hupper, hadded⟩ := List.forall_mem_cons.1 hadded
    exact ih (h.overlay hupper) hadded

/-- **A merged store binds a name by whatever binds it in the stores that were merged.** -/
theorem boundBy_overlayAll (h : ImportsAscend store.imports) {added : List Store}
    (hadded : ∀ upper ∈ added, upper.Canonical) :
    (store.overlayAll added).BoundBy name binder ↔
      store.BoundBy name binder ∨ ∃ upper ∈ added, upper.BoundBy name binder := by
  induction added generalizing store with
  | nil => simp [overlayAll]
  | cons upper added ih =>
    obtain ⟨hupper, hadded⟩ := List.forall_mem_cons.1 hadded
    have hascend : ImportsAscend (store.overlay upper).imports := WellFormed.foldl_withImport h
    have hstep := ih hascend hadded
    rw [boundBy_overlay h hupper, or_assoc] at hstep
    simp only [List.mem_cons, exists_eq_or_imp]
    exact hstep

end Binders

end Store

end ModuleScaffold
