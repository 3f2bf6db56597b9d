import ModuleScaffold.Proofs.Merge.Run

/-!
# The algebra of merging

Stores that are built out of calls form a monoid under merging: a merge never fails, the empty store
changes nothing on either side, and it does not matter which of two merges is done first. Merging
the same store twice is merging it once. The reason is that each of the five lists of a store is
determined by what is found in it and, where it is not ascending, by the order of its keys, and that
a merge says of each list what is found in it afterwards (`ModuleScaffold.Store.OnTop`).

Main statements:

* `ModuleScaffold.Store.onTop_overlay` – **what is found after a merge**;
* `ModuleScaffold.Store.overlay_assoc` – **merging is associative**;
* `ModuleScaffold.Store.merge_idempotent_monoid` – **the stores that are built are an idempotent
  monoid**.
-/

namespace ModuleScaffold

namespace Store

variable {a b c : Store}

/-! ### Imports -/

section Imports

variable {imports added : List Import} {source name : String}

/-- The names of imports are collapsed, and there is something in them. -/
def Collapsed (imports : List Import) : Prop :=
  ∀ i ∈ imports, ∀ name ∈ i.names, name.isEmpty = false ∧ Text.collapse name = name

theorem mem_namesFrom (hnd : (imports.map Import.source).Nodup) :
    name ∈ namesFrom source imports ↔ ∃ i ∈ imports, i.source = source ∧ name ∈ i.names := by
  rw [namesFrom]
  constructor
  · intro hname
    cases hi : lookup Import.source source imports with
    | none =>
      rw [hi] at hname
      exact absurd hname List.not_mem_nil
    | some i =>
      rw [hi] at hname
      obtain ⟨hmem, hsource⟩ := mem_of_lookup Import.source hi
      exact ⟨i, hmem, hsource, hname⟩
  · rintro ⟨i, hi, rfl, hname⟩
    rw [lookup_of_mem Import.source hnd hi]
    exact hname

theorem namesFrom_withImport (h : ImportsAscend imports) (i : Import) (source : String) :
    namesFrom source (withImport imports i) =
      if i.source = source then i.names.foldl withSpecifier (namesFrom source imports)
      else namesFrom source imports := by
  rw [namesFrom, withImport, lookup_updateImport h.sources]
  split
  · next hsource =>
    rw [hsource]
    rfl
  · rfl

/-- **The names from a source are united.** -/
theorem mem_namesFrom_foldl (h : ImportsAscend imports) (hadded : Collapsed added) :
    name ∈ namesFrom source (added.foldl withImport imports) ↔
      name ∈ namesFrom source imports ∨ ∃ i ∈ added, i.source = source ∧ name ∈ i.names := by
  induction added generalizing imports with
  | nil => simp
  | cons i added ih =>
    obtain ⟨hi, hrest⟩ := List.forall_mem_cons.1 hadded
    have hascend : ImportsAscend (withImport imports i) :=
      h.updateImport fun _ => pairwise_foldl_withSpecifier
    -- collapsing leaves the names that are added as they are
    have hnames : (∃ specifier ∈ i.names, name = Text.collapse specifier ∧
        (Text.collapse specifier).isEmpty = false) ↔ name ∈ i.names := by
      constructor
      · rintro ⟨specifier, hmem, rfl, -⟩
        rwa [(hi specifier hmem).2]
      · intro hmem
        obtain ⟨hne, hcollapsed⟩ := hi name hmem
        exact ⟨name, hmem, hcollapsed.symm, by rwa [hcollapsed]⟩
    have hstep : name ∈ namesFrom source (withImport imports i) ↔
        name ∈ namesFrom source imports ∨ i.source = source ∧ name ∈ i.names := by
      rw [namesFrom_withImport h]
      split
      · next hsource => rw [mem_foldl_withSpecifier, hnames, and_iff_right hsource]
      · next hsource => rw [or_iff_left fun hmem => hsource hmem.1]
    rw [List.foldl_cons, ih hascend hrest, hstep, or_assoc]
    simp only [List.mem_cons, exists_eq_or_imp]

/-- A source is found if it was there or is added. -/
theorem isSome_lookup_foldl (h : ImportsAscend imports) (added : List Import) (source : String) :
    (lookup Import.source source (added.foldl withImport imports)).isSome =
      ((lookup Import.source source imports).isSome ||
        (lookup Import.source source added).isSome) := by
  induction added generalizing imports with
  | nil => exact (Bool.or_false _).symm
  | cons i added ih =>
    have hascend : ImportsAscend (withImport imports i) :=
      h.updateImport fun _ => pairwise_foldl_withSpecifier
    rw [List.foldl_cons, ih hascend, withImport, lookup_updateImport h.sources, lookup_cons]
    split
    · rw [Option.isSome_some, Option.isSome_some, Bool.true_or, Bool.or_true]
    · rfl

theorem sublist_sources_foldl (imports added : List Import) :
    (imports.map Import.source).Sublist
      ((added.foldl withImport imports).map Import.source) := by
  induction added generalizing imports with
  | nil => exact List.Sublist.refl _
  | cons i added ih => exact sublist_sources_updateImport.trans (ih (withImport imports i))

/-- Imports that may share sources, and import the same as others: they have the same sources, and
the same names from each of them. -/
structure SameImports (added imports : List Import) : Prop where
  /-- The sources are the same. -/
  source : ∀ source, (∃ i ∈ added, i.source = source) ↔ ∃ i ∈ imports, i.source = source
  /-- The names from a source are the same. -/
  name : ∀ source name, (∃ i ∈ added, i.source = source ∧ name ∈ i.names) ↔
    ∃ i ∈ imports, i.source = source ∧ name ∈ i.names

theorem SameImports.of_perm (h : added.Perm imports) : SameImports added imports where
  source _ := exists_congr fun _ => and_congr_left fun _ => h.mem_iff
  name _ _ := exists_congr fun _ => and_congr_left fun _ => h.mem_iff

theorem SameImports.trans {more : List Import} (h : SameImports more added)
    (h' : SameImports added imports) : SameImports more imports where
  source source := (h.source source).trans (h'.source source)
  name source name := (h.name source name).trans (h'.name source name)

theorem SameImports.append {more others : List Import} (h : SameImports added imports)
    (h' : SameImports more others) : SameImports (added ++ more) (imports ++ others) where
  source source := by
    simp only [List.mem_append, or_and_right, exists_or, h.source, h'.source]
  name source name := by
    simp only [List.mem_append, or_and_right, exists_or, h.name, h'.name]

theorem isSome_lookup_iff :
    (lookup Import.source source imports).isSome = true ↔ ∃ i ∈ imports, i.source = source := by
  rw [lookup, List.find?_isSome]
  simp only [beq_iff_eq]

/-- Adding imports to no imports gives those that import the same. -/
theorem SameImports.foldl_withImport (h : SameImports added imports) (hascend : ImportsAscend imports)
    (hcollapsed : Collapsed imports) : added.foldl withImport [] = imports := by
  have hnil : ImportsAscend [] := ⟨.nil, fun _ hi => absurd hi List.not_mem_nil⟩
  have hadded : Collapsed added := by
    intro i hi name hname
    obtain ⟨j, hj, -, hmem⟩ := (h.name i.source name).1 ⟨i, hi, rfl, hname⟩
    exact hcollapsed j hj name hmem
  refine (WellFormed.foldl_withImport hnil).eq_of_lookup hascend (fun source => ?_)
    fun source name => ?_
  · rw [isSome_lookup_foldl hnil, Bool.eq_iff_iff]
    exact (isSome_lookup_iff.trans (h.source source)).trans isSome_lookup_iff.symm
  · rw [mem_namesFrom_foldl hnil hadded, mem_namesFrom hascend.nodup_sources, h.name]
    exact or_iff_right List.not_mem_nil

/-- Adding imports to no imports gives them. -/
theorem foldl_withImport_nil (h : ImportsAscend imports) (hcollapsed : Collapsed imports) :
    imports.foldl withImport [] = imports :=
  (SameImports.of_perm (List.Perm.refl _)).foldl_withImport h hcollapsed

/-- **Adding imports is associative.** -/
theorem foldl_withImport_assoc {more : List Import} (h : ImportsAscend imports)
    (hadded : ImportsAscend added) (hcollapsed : Collapsed added) (hmore : Collapsed more)
    (hboth : Collapsed (more.foldl withImport added)) :
    more.foldl withImport (added.foldl withImport imports) =
      (more.foldl withImport added).foldl withImport imports := by
  have hlower : ImportsAscend (added.foldl withImport imports) := WellFormed.foldl_withImport h
  have hupper : ImportsAscend (more.foldl withImport added) := WellFormed.foldl_withImport hadded
  refine (WellFormed.foldl_withImport hlower).eq_of_lookup (WellFormed.foldl_withImport h)
    (fun source => ?_) fun source name => ?_
  · rw [isSome_lookup_foldl hlower, isSome_lookup_foldl h, isSome_lookup_foldl h,
      isSome_lookup_foldl hadded, Bool.or_assoc]
  · rw [mem_namesFrom_foldl hlower hmore, mem_namesFrom_foldl h hcollapsed,
      mem_namesFrom_foldl h hboth, ← mem_namesFrom hadded.nodup_sources,
      ← mem_namesFrom hupper.nodup_sources, mem_namesFrom_foldl hadded hmore, or_assoc]

end Imports

/-! ### Routes, statements and settings -/

theorem lookup_foldl_insertRoute {routes added : List Route} (hnd : (added.map routeKey).Nodup)
    (k : Method × String) :
    lookup routeKey k (added.foldl (fun routes route => insertRoute route routes) routes) =
      (lookup routeKey k added).or (lookup routeKey k routes) :=
  lookup_foldl_of_nodup routeKey lookup_insertRoute hnd k

theorem sublist_keys_foldl (routes added : List Route) :
    (routes.map routeKey).Sublist
      ((added.foldl (fun routes route => insertRoute route routes) routes).map routeKey) := by
  induction added generalizing routes with
  | nil => exact List.Sublist.refl _
  | cons route added ih => exact sublist_keys_insertRoute.trans (ih (insertRoute route routes))

/-- Statements that are trimmed and not empty are added as they are. -/
theorem foldl_withStatement_eq {statements added : List String}
    (h : ∀ s ∈ added, s.isEmpty = false ∧ Text.trim s = s) :
    added.foldl withStatement statements = added.foldl withNew statements := by
  induction added generalizing statements with
  | nil => rw [List.foldl_nil, List.foldl_nil]
  | cons s added ih =>
    obtain ⟨⟨hne, htrimmed⟩, hrest⟩ := List.forall_mem_cons.1 h
    have hone : withStatement statements s = withNew statements s := by
      rw [withStatement, htrimmed, hne, Bool.false_or, withNew]
      simp only [List.contains_iff_mem]
    rw [List.foldl_cons, List.foldl_cons, hone, ih hrest]

namespace Canonical

theorem collapsed (h : a.Canonical) : Collapsed a.imports :=
  h.names

theorem map_heldSetting (h : a.Canonical) : a.settings.map heldSetting = a.settings :=
  (List.map_congr_left h.values).trans (List.map_id' a.settings)

theorem nodup_routeKeys (h : a.Canonical) : (a.routes.map routeKey).Nodup :=
  Store.nodup_routeKeys h.routes

/-- A canonical store on top of another one gives a canonical store. -/
theorem overlay (ha : a.Canonical) (hb : b.Canonical) : (a.overlay b).Canonical := by
  have hmerged := kept_canonical.mergeStepwise b ha
  rwa [mergeStepwise_of_writable hb.writable] at hmerged

end Canonical

/-! ### What is found after a merge -/

/-- The setting of the given key. -/
def setting? (store : Store) (key : String) : Option Setting :=
  store.settings.find? (·.key == key)

/-- The declarations of the store `upper` on top of those of `lower`: what `upper` declares has its
value there, everything else has that of `lower`, and what was in `lower` keeps its place. -/
structure OnTop (lower upper result : Store) : Prop where
  /-- A source is imported from if it is in one of the stores. -/
  source : ∀ source, (result.import? source).isSome =
    ((lower.import? source).isSome || (upper.import? source).isSome)
  /-- The names from a source are united. -/
  names : ∀ source name, name ∈ namesFrom source result.imports ↔
    name ∈ namesFrom source lower.imports ∨ name ∈ namesFrom source upper.imports
  /-- The sources of the lower store keep their order. -/
  sources : (lower.imports.map Import.source).Sublist (result.imports.map Import.source)
  /-- A constant of the upper store replaces the one of its name. -/
  definition : ∀ name, result.definition? name =
    (upper.definition? name).or (lower.definition? name)
  /-- The constants of the lower store keep their places. -/
  definitions : lower.definitions.map Definition.name <+: result.definitions.map Definition.name
  /-- A route of the upper store replaces the one of its key. -/
  route : ∀ method matcher, result.route? method matcher =
    (upper.route? method matcher).or (lower.route? method matcher)
  /-- The routes of the lower store keep their order. -/
  routes : (lower.routes.map routeKey).Sublist (result.routes.map routeKey)
  /-- A statement is kept if it is in one of the stores. -/
  statement : ∀ text, text ∈ result.statements ↔ text ∈ lower.statements ∨ text ∈ upper.statements
  /-- The statements of the lower store keep their places. -/
  statements : lower.statements <+: result.statements
  /-- A setting of the upper store replaces the one of its key. -/
  setting : ∀ key, result.setting? key = (upper.setting? key).or (lower.setting? key)
  /-- The settings of the lower store keep their places. -/
  settings : lower.settings.map Setting.key <+: result.settings.map Setting.key

theorem definition?_eq_lookup (store : Store) (name : String) :
    store.definition? name = lookup Definition.name name store.definitions :=
  find?_eq_lookup Definition.name (fun _ => beq_iff_eq) store.definitions

theorem setting?_eq_lookup (store : Store) (key : String) :
    store.setting? key = lookup Setting.key key store.settings :=
  find?_eq_lookup Setting.key (fun _ => beq_iff_eq) store.settings

/-- **What is found after a merge.** -/
theorem onTop_overlay (ha : a.Canonical) (hb : b.Canonical) : OnTop a b (a.overlay b) where
  source source := by
    simp only [import?_eq_lookup]
    exact isSome_lookup_foldl ha.imports b.imports source
  names source name := by
    rw [mem_namesFrom hb.imports.nodup_sources]
    exact mem_namesFrom_foldl ha.imports hb.collapsed
  sources := sublist_sources_foldl a.imports b.imports
  definition name := by
    simp only [definition?_eq_lookup]
    exact lookup_putAll_of_nodup Definition.name hb.definitions name
  definitions := by
    rw [overlay, keys_putAll_eq]
    exact prefix_foldl_withNew _ _
  route method matcher := by
    simp only [route?_eq_lookup]
    exact lookup_foldl_insertRoute hb.nodup_routeKeys (method, matcher)
  routes := sublist_keys_foldl a.routes b.routes
  statement text := by
    rw [overlay, foldl_withStatement_eq hb.trimmed]
    exact mem_foldl_withNew
  statements := by
    rw [overlay, foldl_withStatement_eq hb.trimmed]
    exact prefix_foldl_withNew _ _
  setting key := by
    simp only [setting?_eq_lookup, overlay, hb.map_heldSetting]
    exact lookup_putAll_of_nodup Setting.key hb.settings key
  settings := by
    rw [overlay, hb.map_heldSetting, keys_putAll_eq]
    exact prefix_foldl_withNew _ _

/-! ### The laws -/

theorem overlay_empty (a : Store) : a.overlay .empty = a :=
  rfl

theorem empty_overlay (ha : a.Canonical) : Store.empty.overlay a = a := by
  have himports : a.imports.foldl withImport [] = a.imports :=
    foldl_withImport_nil ha.imports ha.collapsed
  have hdefinitions : putAll Definition.name a.definitions [] = a.definitions :=
    putAll_nil Definition.name ha.definitions
  have hroutes : a.routes.foldl (fun routes route => insertRoute route routes) [] = a.routes := by
    refine eq_of_lookup_routeKey (pairwise_foldl_insertRoute .nil) ha.routes fun k => ?_
    rw [lookup_foldl_insertRoute ha.nodup_routeKeys]
    exact Option.or_none
  have hstatements : a.statements.foldl withStatement [] = a.statements := by
    rw [foldl_withStatement_eq ha.trimmed]
    exact foldl_withNew_of_nodup ha.distinct
  have hsettings : putAll Setting.key (a.settings.map heldSetting) [] = a.settings := by
    rw [ha.map_heldSetting]
    exact putAll_nil Setting.key ha.settings
  rw [overlay, empty, himports, hdefinitions, hroutes, hstatements, hsettings]

/-- **Merging is associative.** -/
theorem overlay_assoc (ha : a.Canonical) (hb : b.Canonical) (hc : c.Canonical) :
    (a.overlay b).overlay c = a.overlay (b.overlay c) := by
  have hbc := hb.overlay hc
  have himports : c.imports.foldl withImport (b.imports.foldl withImport a.imports) =
      (b.overlay c).imports.foldl withImport a.imports :=
    foldl_withImport_assoc ha.imports hb.imports hb.collapsed hc.collapsed hbc.collapsed
  have hdefinitions : putAll Definition.name c.definitions
      (putAll Definition.name b.definitions a.definitions) =
      putAll Definition.name (b.overlay c).definitions a.definitions :=
    putAll_putAll Definition.name ha.definitions hb.definitions hc.definitions
  have hroutes : c.routes.foldl (fun routes route => insertRoute route routes)
      (b.routes.foldl (fun routes route => insertRoute route routes) a.routes) =
      (b.overlay c).routes.foldl (fun routes route => insertRoute route routes) a.routes := by
    refine eq_of_lookup_routeKey (pairwise_foldl_insertRoute (pairwise_foldl_insertRoute ha.routes))
      (pairwise_foldl_insertRoute ha.routes) fun k => ?_
    rw [lookup_foldl_insertRoute hc.nodup_routeKeys, lookup_foldl_insertRoute hb.nodup_routeKeys,
      lookup_foldl_insertRoute hbc.nodup_routeKeys, overlay,
      lookup_foldl_insertRoute hc.nodup_routeKeys, Option.or_assoc]
  have hstatements : c.statements.foldl withStatement
      (b.statements.foldl withStatement a.statements) =
      (b.overlay c).statements.foldl withStatement a.statements := by
    rw [foldl_withStatement_eq hbc.trimmed, overlay, foldl_withStatement_eq hb.trimmed,
      foldl_withStatement_eq hc.trimmed, foldl_withStatement_eq hc.trimmed, foldl_withNew_assoc]
  have hsettings : putAll Setting.key (c.settings.map heldSetting)
      (putAll Setting.key (b.settings.map heldSetting) a.settings) =
      putAll Setting.key ((b.overlay c).settings.map heldSetting) a.settings := by
    rw [hbc.map_heldSetting, overlay, hb.map_heldSetting, hc.map_heldSetting]
    exact putAll_putAll Setting.key ha.settings hb.settings hc.settings
  rw [overlay, overlay, himports, hdefinitions, hroutes, hstatements, hsettings]
  rfl

/-- A store that is canonical is merged without failure. -/
theorem merge_of_canonical (a : Store) (hb : b.Canonical) : a.merge b = .ok (a.overlay b) :=
  merge_eq_ok_iff.2 ⟨hb.writable, rfl⟩

/-- **The stores that are built are an idempotent monoid under merging.** No merge of them fails;
the empty store changes nothing on either side; merging is associative, and merging a store twice
is merging it once. What is found after a merge is what is found in the upper store and, where
there is nothing, what is found in the lower one. -/
theorem merge_idempotent_monoid (changesA changesB changesC : List Change) :
    let a := built changesA
    let b := built changesB
    let c := built changesC
    ∃ ab bc abc : Store,
      a.merge b = .ok ab ∧ OnTop a b ab ∧
      a.merge .empty = .ok a ∧ Store.empty.merge a = .ok a ∧
      ab.merge b = .ok ab ∧
      b.merge c = .ok bc ∧ ab.merge c = .ok abc ∧ a.merge bc = .ok abc := by
  intro a b c
  have ha : a.Canonical := canonical_built changesA
  have hb : b.Canonical := canonical_built changesB
  have hc : c.Canonical := canonical_built changesC
  refine ⟨a.overlay b, b.overlay c, (a.overlay b).overlay c, merge_of_canonical a hb,
    onTop_overlay ha hb, ?_, ?_, ?_, merge_of_canonical b hc, merge_of_canonical _ hc, ?_⟩
  · rw [merge_of_canonical a .empty, overlay_empty]
  · rw [merge_of_canonical _ ha, empty_overlay ha]
  · have hagain : (a.overlay b).Reordered (a.overlay b) :=
      ⟨rfl, List.Perm.refl _, rfl, List.Perm.refl _, rfl⟩
    rw [merge_of_canonical _ hb, overlay_again ha.toWellFormed hagain]
  · rw [merge_of_canonical _ (hb.overlay hc), overlay_assoc ha hb hc]

end Store

end ModuleScaffold
