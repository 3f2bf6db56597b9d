import ModuleScaffold.Proofs.Merge.Keyed
import Mathlib.Data.String.Basic

/-!
# Ascending lists

The names of an import, the imports of a store and its routes are held in ascending order. What is
put into an ascending list leaves it ascending, and what is there already is found at its place: a
name that is a member changes nothing, and a route whose key is there takes its place as in any
list by key.

Main statements:

* `ModuleScaffold.Store.updateImport_of_offers` – **names that an import has change nothing**;
* `ModuleScaffold.Store.foldl_insertRoute_of_holdsLast` – **routes that are found already change
  nothing**;
* `ModuleScaffold.Store.ImportsAscend.eq_of_lookup`, `ModuleScaffold.Store.eq_of_lookup_routeKey` –
  **ascending lists in which the same is found are equal**.
-/

namespace ModuleScaffold

/-! ### Sets of names -/

namespace Text

variable {name other : String} {names : List String}

theorem mem_insertName : other ∈ insertName name names ↔ other = name ∨ other ∈ names := by
  induction names with
  | nil => rw [insertName, List.mem_singleton]; simp
  | cons n ns ih =>
    rw [insertName]
    split
    · rw [List.mem_cons]
    · split
      · next h =>
        rw [h, List.mem_cons]
        exact ⟨.inr, fun h => h.elim .inl id⟩
      · rw [List.mem_cons, ih, List.mem_cons, or_left_comm]

theorem pairwise_insertName (h : names.Pairwise (· < ·)) :
    (insertName name names).Pairwise (· < ·) := by
  induction names with
  | nil => exact List.pairwise_singleton _ _
  | cons n ns ih =>
    obtain ⟨hn, hns⟩ := List.pairwise_cons.1 h
    rw [insertName]
    split
    · next hlt =>
      refine List.pairwise_cons.2 ⟨fun m hm => ?_, h⟩
      rcases List.mem_cons.1 hm with rfl | hm
      · exact hlt
      · exact lt_trans hlt (hn m hm)
    · split
      · exact h
      · next hlt hne =>
        refine List.pairwise_cons.2 ⟨fun m hm => ?_, ih hns⟩
        rcases mem_insertName.1 hm with rfl | hm
        · exact lt_of_le_of_ne (not_lt.1 hlt) (Ne.symm hne)
        · exact hn m hm

/-- A member of an ascending list of names is not inserted again. -/
theorem insertName_of_mem (h : names.Pairwise (· < ·)) (hmem : name ∈ names) :
    insertName name names = names := by
  induction names with
  | nil => exact absurd hmem List.not_mem_nil
  | cons n ns ih =>
    obtain ⟨hn, hns⟩ := List.pairwise_cons.1 h
    rw [insertName]
    rcases List.mem_cons.1 hmem with rfl | hmem
    · rw [if_neg (lt_irrefl _), if_pos rfl]
    · have hlt := hn name hmem
      rw [if_neg (lt_asymm hlt), if_neg hlt.ne', ih hns hmem]

/-- Ascending lists of names with the same members are equal. -/
theorem eq_of_mem_iff {more : List String} (h : names.Pairwise (· < ·))
    (h' : more.Pairwise (· < ·)) (hmem : ∀ name, name ∈ names ↔ name ∈ more) : names = more := by
  have hperm : names.Perm more :=
    (List.perm_ext_iff_of_nodup (h.imp ne_of_lt) (h'.imp ne_of_lt)).2 hmem
  exact hperm.eq_of_pairwise (fun _ _ _ _ hlt hgt => absurd hgt (lt_asymm hlt)) h h'

end Text

namespace Store

/-! ### The names of an import -/

section Specifiers

variable {names more : List String} {specifier name : String}

theorem pairwise_withSpecifier (h : names.Pairwise (· < ·)) :
    (withSpecifier names specifier).Pairwise (· < ·) := by
  rw [withSpecifier]
  split
  · exact h
  · exact Text.pairwise_insertName h

theorem mem_withSpecifier : name ∈ withSpecifier names specifier ↔
    name ∈ names ∨ name = Text.collapse specifier ∧ (Text.collapse specifier).isEmpty = false := by
  rw [withSpecifier]
  split
  · next h => rw [h]; simp
  · next h => rw [Text.mem_insertName, or_comm, Bool.eq_false_iff.2 h, and_iff_left rfl]

theorem pairwise_foldl_withSpecifier (h : names.Pairwise (· < ·)) :
    (more.foldl withSpecifier names).Pairwise (· < ·) := by
  induction more generalizing names with
  | nil => exact h
  | cons specifier more ih => exact ih (pairwise_withSpecifier h)

theorem mem_foldl_withSpecifier : name ∈ more.foldl withSpecifier names ↔
    name ∈ names ∨ ∃ specifier ∈ more,
      name = Text.collapse specifier ∧ (Text.collapse specifier).isEmpty = false := by
  induction more generalizing names with
  | nil => simp
  | cons specifier more ih =>
    rw [List.foldl_cons, ih, mem_withSpecifier, or_assoc]
    simp only [List.mem_cons, exists_eq_or_imp]

/-- The specifiers are names of the set, apart from those without a name. -/
def Offers (names more : List String) : Prop :=
  ∀ specifier ∈ more, (Text.collapse specifier).isEmpty = false → Text.collapse specifier ∈ names

theorem offers_foldl_withSpecifier : Offers (more.foldl withSpecifier names) more :=
  fun specifier hs hne => mem_foldl_withSpecifier.2 (.inr ⟨specifier, hs, rfl, hne⟩)

theorem Offers.mono {names' : List String} (h : Offers names more)
    (hsub : ∀ name ∈ names, name ∈ names') : Offers names' more :=
  fun specifier hs hne => hsub _ (h specifier hs hne)

theorem foldl_withSpecifier_of_offers (hnames : names.Pairwise (· < ·)) (h : Offers names more) :
    more.foldl withSpecifier names = names := by
  induction more with
  | nil => rfl
  | cons specifier more ih =>
    have hsame : withSpecifier names specifier = names := by
      rw [withSpecifier]
      split
      · rfl
      · next hne =>
        exact Text.insertName_of_mem hnames
          (h specifier List.mem_cons_self (Bool.eq_false_iff.2 hne))
    rw [List.foldl_cons, hsame]
    exact ih fun s hs => h s (List.mem_cons_of_mem _ hs)

end Specifiers

/-! ### Imports by source -/

section Imports

variable {source : String} {change : List String → List String} {imports : List Import}
  {i : Import}

/-- Imports in ascending order of their sources, each with ascending names. -/
structure ImportsAscend (imports : List Import) : Prop where
  /-- The sources ascend. -/
  sources : imports.Pairwise fun i j => i.source < j.source
  /-- The names of each import ascend. -/
  names : ∀ i ∈ imports, i.names.Pairwise (· < ·)

/-- Changing an import leaves the others as they are, and adds at most the one that is changed. -/
theorem mem_updateImport (h : i ∈ updateImport source change imports) :
    i ∈ imports ∨ i.source = source ∧ (i.names = change [] ∨
      ∃ j ∈ imports, j.source = source ∧ i.names = change j.names) := by
  induction imports with
  | nil =>
    obtain rfl := List.mem_singleton.1 h
    exact .inr ⟨rfl, .inl rfl⟩
  | cons j imports ih =>
    rw [updateImport] at h
    split at h
    · rcases List.mem_cons.1 h with rfl | h
      · exact .inr ⟨rfl, .inl rfl⟩
      · exact .inl h
    · split at h
      · next hsource =>
        rcases List.mem_cons.1 h with rfl | h
        · exact .inr ⟨hsource.symm, .inr ⟨j, List.mem_cons_self, hsource.symm, rfl⟩⟩
        · exact .inl (List.mem_cons_of_mem _ h)
      · rcases List.mem_cons.1 h with rfl | h
        · exact .inl List.mem_cons_self
        · rcases ih h with h | ⟨hs, h | ⟨k, hk, hks, hn⟩⟩
          · exact .inl (List.mem_cons_of_mem _ h)
          · exact .inr ⟨hs, .inl h⟩
          · exact .inr ⟨hs, .inr ⟨k, List.mem_cons_of_mem _ hk, hks, hn⟩⟩

theorem ImportsAscend.updateImport (h : ImportsAscend imports)
    (hchange : ∀ names : List String, names.Pairwise (· < ·) → (change names).Pairwise (· < ·)) :
    ImportsAscend (updateImport source change imports) := by
  constructor
  · obtain ⟨h, -⟩ := h
    induction imports with
    | nil => exact List.pairwise_singleton _ _
    | cons j imports ih =>
      obtain ⟨hj, hrest⟩ := List.pairwise_cons.1 h
      rw [Store.updateImport]
      split
      · next hlt =>
        refine List.pairwise_cons.2 ⟨fun k hk => ?_, h⟩
        rcases List.mem_cons.1 hk with rfl | hk
        · exact hlt
        · exact lt_trans hlt (hj k hk)
      · split
        · exact List.pairwise_cons.2 ⟨hj, hrest⟩
        · next hlt hne =>
          refine List.pairwise_cons.2 ⟨fun k hk => ?_, ih hrest⟩
          rcases mem_updateImport hk with hk | ⟨hk, -⟩
          · exact hj k hk
          · rw [hk]
            exact lt_of_le_of_ne (not_lt.1 hlt) (Ne.symm hne)
  · intro i hi
    rcases mem_updateImport hi with hi | ⟨-, hi | ⟨j, hj, -, hi⟩⟩
    · exact h.names i hi
    · rw [hi]
      exact hchange [] .nil
    · rw [hi]
      exact hchange j.names (h.names j hj)

theorem ImportsAscend.nodup_sources (h : ImportsAscend imports) :
    (imports.map Import.source).Nodup :=
  List.pairwise_map.2 (h.sources.imp fun hlt => ne_of_lt hlt)

/-- The names that are imported from a source. -/
def namesFrom (source : String) (imports : List Import) : List String :=
  ((lookup Import.source source imports).map Import.names).getD []

/-- After a change the changed import is found under its source, and the others as before. -/
theorem lookup_updateImport (h : imports.Pairwise fun i j => i.source < j.source)
    (other : String) :
    lookup Import.source other (updateImport source change imports) =
      if source = other then some ⟨source, change (namesFrom source imports)⟩
      else lookup Import.source other imports := by
  induction imports with
  | nil => exact lookup_cons Import.source _
  | cons j imports ih =>
    obtain ⟨hj, hrest⟩ := List.pairwise_cons.1 h
    rw [Store.updateImport]
    split
    · next hlt =>
      -- a source before the first one is not among the others
      have hnone : lookup Import.source source (j :: imports) = none := by
        refine lookup_eq_none Import.source fun hmem => ?_
        rcases List.mem_cons.1 hmem with rfl | hmem
        · exact lt_irrefl _ hlt
        · obtain ⟨k, hk, rfl⟩ := List.mem_map.1 hmem
          exact lt_asymm hlt (hj k hk)
      rw [lookup_cons, namesFrom, hnone]
      rfl
    · split
      · next hsame =>
        have hnames : namesFrom source (j :: imports) = j.names := by
          rw [namesFrom, lookup_cons, if_pos hsame.symm]
          rfl
        rw [lookup_cons, hnames, lookup_cons, hsame]
        split <;> rfl
      · next hapart =>
        have hnames : namesFrom source (j :: imports) = namesFrom source imports := by
          rw [namesFrom, lookup_cons, if_neg (Ne.symm hapart), namesFrom]
        rw [lookup_cons, ih hrest, hnames, lookup_cons]
        split
        · next hother =>
          rw [if_neg]
          rintro rfl
          exact hapart hother.symm
        · rfl

/-- A change leaves all sources there, in their order. -/
theorem sublist_sources_updateImport : (imports.map Import.source).Sublist
    ((updateImport source change imports).map Import.source) := by
  induction imports with
  | nil => exact List.nil_sublist _
  | cons j imports ih =>
    rw [updateImport]
    split
    · exact List.sublist_cons_self _ _
    · split
      · exact List.Sublist.refl _
      · exact ih.cons_cons _

/-- **Imports in which the same sources are found with the same names are equal.** -/
theorem ImportsAscend.eq_of_lookup {more : List Import} (h : ImportsAscend imports)
    (h' : ImportsAscend more)
    (hfound : ∀ source, (lookup Import.source source imports).isSome =
      (lookup Import.source source more).isSome)
    (hnames : ∀ source name, name ∈ namesFrom source imports ↔ name ∈ namesFrom source more) :
    imports = more := by
  have hlookup : ∀ source,
      lookup Import.source source imports = lookup Import.source source more := by
    intro source
    have hsome := hfound source
    have hmem := hnames source
    rw [namesFrom, namesFrom] at hmem
    cases hi : lookup Import.source source imports with
    | none =>
      rw [hi] at hsome
      exact (Option.isSome_eq_false_iff.1 hsome.symm |> Option.isNone_iff_eq_none.1).symm
    | some i =>
      rw [hi] at hsome hmem
      obtain ⟨j, hj⟩ := Option.isSome_iff_exists.1 hsome.symm
      rw [hj] at hmem ⊢
      obtain ⟨himem, hisource⟩ := mem_of_lookup Import.source hi
      obtain ⟨hjmem, hjsource⟩ := mem_of_lookup Import.source hj
      have hsame := Text.eq_of_mem_iff (h.names i himem) (h'.names j hjmem) hmem
      obtain ⟨source', names⟩ := i
      obtain ⟨source'', names'⟩ := j
      obtain rfl : source' = source'' := hisource.trans hjsource.symm
      obtain rfl : names = names' := hsame
      rfl
  exact (perm_of_lookup Import.source h.nodup_sources h'.nodup_sources hlookup).eq_of_pairwise
    (fun _ _ _ _ hlt hgt => absurd hgt (lt_asymm hlt)) h.sources h'.sources

/-- An import that is there is changed at its place. -/
theorem updateImport_of_mem (h : imports.Pairwise fun i j => i.source < j.source)
    (hi : i ∈ imports) (hsame : change i.names = i.names) :
    updateImport i.source change imports = imports := by
  induction imports with
  | nil => exact absurd hi List.not_mem_nil
  | cons j imports ih =>
    obtain ⟨hj, hrest⟩ := List.pairwise_cons.1 h
    rw [updateImport]
    rcases List.mem_cons.1 hi with rfl | hi
    · rw [if_neg (lt_irrefl _), if_pos rfl, hsame]
    · have hlt := hj i hi
      rw [if_neg (lt_asymm hlt), if_neg hlt.ne', ih hrest hi]

/-- The imports of a source have the given specifiers. -/
def OffersImport (imports : List Import) (added : Import) : Prop :=
  ∃ i ∈ imports, i.source = added.source ∧ Offers i.names added.names

/-- **Names that an import has change nothing.** -/
theorem updateImport_of_offers {added : Import} (h : ImportsAscend imports)
    (hoffers : OffersImport imports added) :
    updateImport added.source (added.names.foldl withSpecifier) imports = imports := by
  obtain ⟨i, hi, hsource, hnames⟩ := hoffers
  rw [← hsource]
  exact updateImport_of_mem h.sources hi (foldl_withSpecifier_of_offers (h.names i hi) hnames)

/-- A changed import is there. -/
theorem exists_mem_updateImport (source : String) (change : List String → List String)
    (imports : List Import) : ∃ i ∈ updateImport source change imports,
    i.source = source ∧ ∃ names, i.names = change names := by
  induction imports with
  | nil => exact ⟨_, List.mem_singleton_self _, rfl, [], rfl⟩
  | cons j imports ih =>
    rw [updateImport]
    split
    · exact ⟨_, List.mem_cons_self, rfl, [], rfl⟩
    · split
      · next hsource => exact ⟨_, List.mem_cons_self, hsource.symm, j.names, rfl⟩
      · obtain ⟨i, hi, h⟩ := ih
        exact ⟨i, List.mem_cons_of_mem _ hi, h⟩

theorem offersImport_updateImport (added : Import) :
    OffersImport (updateImport added.source (added.names.foldl withSpecifier) imports) added := by
  obtain ⟨i, hi, hsource, names, hnames⟩ :=
    exists_mem_updateImport added.source (added.names.foldl withSpecifier) imports
  refine ⟨i, hi, hsource, ?_⟩
  rw [hnames]
  exact offers_foldl_withSpecifier

/-- Changing an import leaves a place for every import that was there. -/
theorem exists_mem_updateImport_of_mem (source : String) (change : List String → List String)
    (hi : i ∈ imports) :
    i ∈ updateImport source change imports ∨
      i.source = source ∧ ⟨source, change i.names⟩ ∈ updateImport source change imports := by
  induction imports with
  | nil => exact absurd hi List.not_mem_nil
  | cons j imports ih =>
    rw [updateImport]
    split
    · exact .inl (List.mem_cons_of_mem _ hi)
    · split
      · next hsource =>
        rcases List.mem_cons.1 hi with rfl | hi
        · refine .inr ⟨hsource.symm, ?_⟩
          rw [hsource]
          exact List.mem_cons_self
        · exact .inl (List.mem_cons_of_mem _ hi)
      · rcases List.mem_cons.1 hi with rfl | hi
        · exact .inl List.mem_cons_self
        · rcases ih hi with h | ⟨hs, h⟩
          · exact .inl (List.mem_cons_of_mem _ h)
          · exact .inr ⟨hs, List.mem_cons_of_mem _ h⟩

theorem OffersImport.updateImport {added : Import} (h : OffersImport imports added)
    (more : List String) :
    OffersImport (updateImport source (more.foldl withSpecifier) imports) added := by
  obtain ⟨i, hi, hsource, hnames⟩ := h
  rcases exists_mem_updateImport_of_mem source (more.foldl withSpecifier) hi with hi | ⟨hs, hi⟩
  · exact ⟨i, hi, hsource, hnames⟩
  · exact ⟨_, hi, hs.symm.trans hsource,
      hnames.mono fun name hname => mem_foldl_withSpecifier.2 (.inl hname)⟩

end Imports

/-! ### Routes by key -/

section Routes

variable {a b c : Route} {routes items : List Route}

/-- The key of a route, its method and its matcher. -/
def routeKey (route : Route) : Method × String :=
  (route.method, route.matcher)

theorem sameKey_iff : a.sameKey b = true ↔ routeKey a = routeKey b := by
  rw [Route.sameKey, Bool.and_eq_true, beq_iff_eq, beq_iff_eq, routeKey, routeKey, Prod.mk.injEq]

theorem keyBefore_iff : a.keyBefore b = true ↔
    a.method.index < b.method.index ∨ a.method = b.method ∧ a.matcher < b.matcher := by
  rw [Route.keyBefore, Bool.or_eq_true, Bool.and_eq_true, decide_eq_true_iff, decide_eq_true_iff,
    beq_iff_eq]

theorem keyBefore_congr (h : routeKey a = routeKey b) : a.keyBefore c = b.keyBefore c := by
  obtain ⟨hmethod, hmatcher⟩ := Prod.mk.inj h
  rw [Route.keyBefore, Route.keyBefore, hmethod, hmatcher]

theorem keyBefore_trans (h : a.keyBefore b = true) (h' : b.keyBefore c = true) :
    a.keyBefore c = true := by
  rw [keyBefore_iff] at *
  rcases h with h | ⟨hm, h⟩ <;> rcases h' with h' | ⟨hm', h'⟩
  · exact .inl (h.trans h')
  · exact .inl (hm' ▸ h)
  · exact .inl (hm ▸ h')
  · exact .inr ⟨hm.trans hm', h.trans h'⟩

theorem routeKey_ne_of_keyBefore (h : a.keyBefore b = true) : routeKey a ≠ routeKey b := by
  intro hkey
  obtain ⟨hmethod, hmatcher⟩ := Prod.mk.inj hkey
  rw [keyBefore_iff, hmethod, hmatcher] at h
  rcases h with h | ⟨-, h⟩
  · exact lt_irrefl _ h
  · exact lt_irrefl _ h

theorem index_injective {m m' : Method} (h : m.index = m'.index) : m = m' := by
  cases m <;> cases m' <;> first | rfl | cases h

/-- Of two routes with different keys one comes before the other. -/
theorem keyBefore_of_not (h : a.keyBefore b = false) (hne : routeKey a ≠ routeKey b) :
    b.keyBefore a = true := by
  rw [Bool.eq_false_iff, Ne, keyBefore_iff, not_or, not_lt] at h
  rw [keyBefore_iff]
  rcases h.1.lt_or_eq with hlt | heq
  · exact .inl hlt
  · have hmethod := index_injective heq
    refine .inr ⟨hmethod, lt_of_le_of_ne (not_lt.1 fun hlt => h.2 ⟨hmethod.symm, hlt⟩) ?_⟩
    intro hmatcher
    exact hne (Prod.ext hmethod.symm hmatcher.symm)

theorem mem_insertRoute (h : b ∈ insertRoute a routes) : b = a ∨ b ∈ routes := by
  induction routes with
  | nil => exact .inl (List.mem_singleton.1 h)
  | cons r rs ih =>
    rw [insertRoute] at h
    split at h
    · exact List.mem_cons.1 h
    · split at h
      · exact (List.mem_cons.1 h).imp id (List.mem_cons_of_mem _)
      · rcases List.mem_cons.1 h with rfl | h
        · exact .inr List.mem_cons_self
        · exact (ih h).imp id (List.mem_cons_of_mem _)

/-- An inserted route takes its place among ascending routes. -/
theorem pairwise_insertRoute (h : routes.Pairwise fun r s => r.keyBefore s = true) :
    (insertRoute a routes).Pairwise fun r s => r.keyBefore s = true := by
  induction routes with
  | nil => exact List.pairwise_singleton _ _
  | cons r rs ih =>
    obtain ⟨hr, hrest⟩ := List.pairwise_cons.1 h
    rw [insertRoute]
    split
    · next hbefore =>
      refine List.pairwise_cons.2 ⟨fun s hs => ?_, h⟩
      rcases List.mem_cons.1 hs with rfl | hs
      · exact hbefore
      · exact keyBefore_trans hbefore (hr s hs)
    · split
      · next hsame =>
        refine List.pairwise_cons.2 ⟨fun s hs => ?_, hrest⟩
        rw [keyBefore_congr (sameKey_iff.1 hsame)]
        exact hr s hs
      · next hbefore hsame =>
        refine List.pairwise_cons.2 ⟨fun s hs => ?_, ih hrest⟩
        rcases mem_insertRoute hs with rfl | hs
        · exact keyBefore_of_not (Bool.eq_false_iff.2 hbefore) fun hkey =>
            hsame (sameKey_iff.2 hkey)
        · exact hr s hs

theorem nodup_routeKeys (h : routes.Pairwise fun r s => r.keyBefore s = true) :
    (routes.map routeKey).Nodup :=
  List.pairwise_map.2 (h.imp routeKey_ne_of_keyBefore)

theorem lookup_insertRoute (routes : List Route) (a : Route) (k : Method × String) :
    lookup routeKey k (insertRoute a routes) =
      if routeKey a = k then some a else lookup routeKey k routes := by
  induction routes with
  | nil => exact lookup_cons routeKey a
  | cons r rs ih =>
    rw [insertRoute]
    split
    · exact lookup_cons routeKey a
    · split
      · next hsame =>
        rw [lookup_cons, lookup_cons, sameKey_iff.1 hsame]
        split <;> rfl
      · next hsame =>
        rw [lookup_cons, ih, lookup_cons]
        split
        · next hr =>
          rw [if_neg]
          rintro rfl
          exact hsame (sameKey_iff.2 hr.symm)
        · rfl

/-- An inserted route leaves all keys there, in their order. -/
theorem sublist_keys_insertRoute :
    (routes.map routeKey).Sublist ((insertRoute a routes).map routeKey) := by
  induction routes with
  | nil => exact List.nil_sublist _
  | cons r rs ih =>
    rw [insertRoute]
    split
    · exact List.sublist_cons_self _ _
    · split
      · next hsame =>
        rw [List.map_cons, List.map_cons, sameKey_iff.1 hsame]
      · exact ih.cons_cons _

/-- **Ascending routes of which the same are found under every key are equal.** -/
theorem eq_of_lookup_routeKey (h : routes.Pairwise fun r s => r.keyBefore s = true)
    (h' : items.Pairwise fun r s => r.keyBefore s = true)
    (hlookup : ∀ k, lookup routeKey k routes = lookup routeKey k items) : routes = items :=
  (perm_of_lookup routeKey (nodup_routeKeys h) (nodup_routeKeys h') hlookup).eq_of_pairwise
    (fun _ _ _ _ hbefore hbehind =>
      absurd rfl (routeKey_ne_of_keyBefore (keyBefore_trans hbefore hbehind))) h h'

/-- Among ascending routes, a route whose key is there takes the place of the one with its key. -/
theorem insertRoute_of_mem_keys (h : routes.Pairwise fun r s => r.keyBefore s = true)
    (hkey : routeKey a ∈ routes.map routeKey) : insertRoute a routes = put routeKey a routes := by
  induction routes with
  | nil => cases hkey
  | cons r rs ih =>
    obtain ⟨hr, hrest⟩ := List.pairwise_cons.1 h
    rw [insertRoute, put_cons]
    by_cases hsame : routeKey r = routeKey a
    · have hbefore : a.keyBefore r = false := Bool.eq_false_iff.2 fun hbefore =>
        routeKey_ne_of_keyBefore hbefore hsame.symm
      rw [hbefore, if_pos hsame, if_pos (sameKey_iff.2 hsame.symm)]
      rfl
    · have hmem : routeKey a ∈ rs.map routeKey := by
        rw [List.map_cons] at hkey
        exact (List.mem_cons.1 hkey).resolve_left (Ne.symm hsame)
      -- the route with the key of `a` stands behind `r`
      have hbefore : ¬a.keyBefore r = true := by
        obtain ⟨s, hs, hkeys⟩ := List.mem_map.1 hmem
        intro hbefore
        rw [keyBefore_congr hkeys.symm] at hbefore
        exact routeKey_ne_of_keyBefore (keyBefore_trans hbefore (hr s hs)) rfl
      rw [if_neg hbefore, if_neg hsame, if_neg fun h => hsame (sameKey_iff.1 h).symm, ih hrest hmem]

/-- Of the routes that were inserted, the last one of each key is found. -/
theorem holdsLast_foldl_insertRoute : HoldsLast routeKey items
    (items.foldl (fun routes route => insertRoute route routes) routes) := by
  intro k x hx
  rw [lookup_foldl routeKey (fun l => lookup_insertRoute l), hx]
  rfl

theorem pairwise_foldl_insertRoute (h : routes.Pairwise fun r s => r.keyBefore s = true) :
    (items.foldl (fun routes route => insertRoute route routes) routes).Pairwise fun r s =>
      r.keyBefore s = true := by
  induction items generalizing routes with
  | nil => exact h
  | cons route items ih => exact ih (pairwise_insertRoute h)

/-- Among ascending routes, routes whose keys are there are put as in any list by key. -/
theorem foldl_insertRoute_eq_putAll (h : routes.Pairwise fun r s => r.keyBefore s = true)
    (hkeys : ∀ r ∈ items, routeKey r ∈ routes.map routeKey) :
    items.foldl (fun routes route => insertRoute route routes) routes =
      putAll routeKey items routes := by
  induction items generalizing routes with
  | nil => rfl
  | cons route items ih =>
    have hput := insertRoute_of_mem_keys h (hkeys route List.mem_cons_self)
    rw [List.foldl_cons, ih (pairwise_insertRoute h), hput, putAll_cons]
    intro r hr
    rw [hput, mem_keys_put]
    exact .inr (hkeys r (List.mem_cons_of_mem _ hr))

/-- **Routes that are found already change nothing.** -/
theorem foldl_insertRoute_of_holdsLast (h : routes.Pairwise fun r s => r.keyBefore s = true)
    (hlast : HoldsLast routeKey items routes) :
    items.foldl (fun routes route => insertRoute route routes) routes = routes := by
  rw [foldl_insertRoute_eq_putAll h fun r hr => hlast.mem_keys hr]
  exact putAll_of_holdsLast (nodup_routeKeys h) hlast

end Routes

end Store

end ModuleScaffold
