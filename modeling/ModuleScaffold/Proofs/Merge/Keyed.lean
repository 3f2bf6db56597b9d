import ModuleScaffold.Store
import Mathlib.Data.List.Nodup
import Mathlib.Data.List.Perm.Basic

/-!
# Lists by key

Constants, routes and settings are held in lists whose members have different keys. An item that is
put into such a list takes the place of the member with its key, or the end of the list. So of the
items that are put one after the other the last one of each key is found, and putting all of them
again changes nothing, whatever happened to the order of the list.

Main statements:

* `ModuleScaffold.Store.lookup_putAll` – **the last item of a key is found**;
* `ModuleScaffold.Store.putAll_of_holdsLast` – **items that are found already change nothing**;
* `ModuleScaffold.Store.putAll_putAll` – **putting lists into each other is associative**.
-/

namespace ModuleScaffold

namespace Store

variable {α κ : Type} [DecidableEq κ] (key : α → κ) {k : κ} {item : α} {items l l' : List α}

/-- The first member of a list with the given key. -/
def lookup (k : κ) (l : List α) : Option α :=
  l.find? fun x => key x == k

/-- A list in which an item takes the place of the first member with its key, or the end. -/
def put (item : α) (l : List α) : List α :=
  upsert (fun x => key x == key item) item l

/-- A list into which items are put one after the other. -/
def putAll (items l : List α) : List α :=
  items.foldl (fun l item => put key item l) l

/-! ### Looking up -/

theorem lookup_cons (x : α) :
    lookup key k (x :: l) = if key x = k then some x else lookup key k l := by
  rw [lookup, List.find?_cons]
  by_cases h : key x = k
  · rw [if_pos h, beq_iff_eq.2 h]
  · rw [if_neg h, beq_eq_false_iff_ne.2 h]
    rfl

theorem lookup_eq_none (h : k ∉ l.map key) : lookup key k l = none := by
  refine List.find?_eq_none.2 fun x hx => ?_
  rw [beq_iff_eq]
  rintro rfl
  exact h (List.mem_map_of_mem hx)

theorem mem_of_lookup (h : lookup key k l = some item) : item ∈ l ∧ key item = k := by
  have hkey := List.find?_some h
  exact ⟨List.mem_of_find?_eq_some h, beq_iff_eq.1 hkey⟩

theorem exists_lookup (h : k ∈ l.map key) : ∃ x, lookup key k l = some x := by
  obtain ⟨x, hx, rfl⟩ := List.mem_map.1 h
  exact Option.isSome_iff_exists.1 (List.find?_isSome.2 ⟨x, hx, beq_self_eq_true _⟩)

/-- A search for a key, whatever way the key is tested. -/
theorem find?_eq_lookup {p : α → Bool} (hp : ∀ x, p x = true ↔ key x = k) (l : List α) :
    l.find? p = lookup key k l := by
  rw [lookup]
  refine congrArg (l.find? ·) (funext fun x => ?_)
  rw [Bool.eq_iff_iff, hp, beq_iff_eq]

/-- If all keys are different, every member is found under its key. -/
theorem lookup_of_mem (hnd : (l.map key).Nodup) (h : item ∈ l) :
    lookup key (key item) l = some item := by
  obtain ⟨x, hx⟩ := exists_lookup key (List.mem_map_of_mem (f := key) h)
  obtain ⟨hmem, hkey⟩ := mem_of_lookup key hx
  rw [hx, List.inj_on_of_nodup_map hnd hmem h hkey]

/-- What is found does not depend on the order of a list whose keys are different. -/
theorem lookup_perm (hnd : (l.map key).Nodup) (hp : l.Perm l') (k : κ) :
    lookup key k l' = lookup key k l := by
  rcases h : lookup key k l with _ | x
  · refine lookup_eq_none key fun hk => ?_
    obtain ⟨x, hx⟩ := exists_lookup key ((hp.map key).symm.subset hk)
    rw [h] at hx
    cases hx
  · obtain ⟨hx, rfl⟩ := mem_of_lookup key h
    exact lookup_of_mem key ((hp.map key).nodup_iff.1 hnd) (hp.subset hx)

/-- Lists in which the same is found under every key have the same members. -/
theorem perm_of_lookup (hnd : (l.map key).Nodup) (hnd' : (l'.map key).Nodup)
    (h : ∀ k, lookup key k l = lookup key k l') : l.Perm l' := by
  refine (List.perm_ext_iff_of_nodup hnd.of_map hnd'.of_map).2 fun x => ?_
  constructor
  · intro hx
    have hfound := lookup_of_mem key hnd hx
    rw [h] at hfound
    exact (mem_of_lookup key hfound).1
  · intro hx
    have hfound := lookup_of_mem key hnd' hx
    rw [← h] at hfound
    exact (mem_of_lookup key hfound).1

/-- A list whose keys are different is determined by its keys and what is found under them. -/
theorem eq_of_lookup (hnd : (l.map key).Nodup) (hkeys : l'.map key = l.map key)
    (h : ∀ k ∈ l.map key, lookup key k l' = lookup key k l) : l' = l := by
  induction l generalizing l' with
  | nil => exact List.map_eq_nil_iff.1 hkeys
  | cons x l ih =>
    rw [List.map_cons] at hkeys hnd
    obtain ⟨x', l', rfl, hx, hl⟩ := List.map_eq_cons_iff.1 hkeys
    obtain ⟨hfresh, hrest⟩ := List.nodup_cons.1 hnd
    have hhead := h (key x) (by simp)
    rw [lookup_cons, if_pos hx, lookup_cons, if_pos rfl] at hhead
    obtain rfl := Option.some.inj hhead
    refine congrArg (x' :: ·) (ih hrest hl fun k hk => ?_)
    -- a key of the rest is not that of the head, so it is looked up in the rest
    have hne : key x' ≠ k := by
      rintro rfl
      exact hfresh hk
    have htail := h k (List.mem_cons_of_mem _ hk)
    rwa [lookup_cons, if_neg hne, lookup_cons, if_neg hne] at htail

/-! ### Adding what is new -/

section New

variable {β : Type} [DecidableEq β] {as bs cs : List β} {b : β}

/-- A list with one more member at its end, if it is not there yet. -/
def withNew (l : List β) (b : β) : List β :=
  if b ∈ l then l else l ++ [b]

theorem mem_withNew {c : β} : c ∈ withNew as b ↔ c ∈ as ∨ c = b := by
  rw [withNew]
  split
  · next h =>
    refine ⟨.inl, ?_⟩
    rintro (hc | rfl)
    · exact hc
    · exact h
  · rw [List.mem_append, List.mem_singleton]

theorem mem_foldl_withNew {c : β} : c ∈ bs.foldl withNew as ↔ c ∈ as ∨ c ∈ bs := by
  induction bs generalizing as with
  | nil => simp
  | cons b bs ih => rw [List.foldl_cons, ih, mem_withNew, List.mem_cons, or_assoc]

theorem prefix_foldl_withNew (as bs : List β) : as <+: bs.foldl withNew as := by
  induction bs generalizing as with
  | nil => exact List.prefix_rfl
  | cons b bs ih =>
    have hone : as <+: withNew as b := by
      rw [withNew]
      split
      · exact List.prefix_rfl
      · exact List.prefix_append as [b]
    exact hone.trans (ih (withNew as b))

theorem foldl_withNew_of_nodup (h : (as ++ bs).Nodup) : bs.foldl withNew as = as ++ bs := by
  induction bs generalizing as with
  | nil => exact (List.append_nil as).symm
  | cons b bs ih =>
    have hassoc : as ++ b :: bs = (as ++ [b]) ++ bs := by simp
    have hfresh : b ∉ as := fun hb =>
      (List.nodup_append.1 h).2.2 b hb b List.mem_cons_self rfl
    rw [List.foldl_cons, withNew, if_neg hfresh, hassoc]
    exact ih (hassoc ▸ h)

/-- What is new in a list with one more member is added with that member last. -/
theorem foldl_withNew_withNew (as bs : List β) (b : β) :
    (withNew bs b).foldl withNew as = withNew (bs.foldl withNew as) b := by
  by_cases hb : b ∈ bs
  · have hthere : b ∈ bs.foldl withNew as := mem_foldl_withNew.2 (.inr hb)
    rw [withNew, if_pos hb, withNew, if_pos hthere]
  · rw [withNew, if_neg hb, List.foldl_append]
    rfl

theorem foldl_withNew_assoc (as bs cs : List β) :
    cs.foldl withNew (bs.foldl withNew as) = (cs.foldl withNew bs).foldl withNew as := by
  induction cs generalizing bs with
  | nil => rfl
  | cons c cs ih => rw [List.foldl_cons, List.foldl_cons, ← ih, foldl_withNew_withNew]

end New

/-! ### Putting an item -/

theorem mem_upsert {replaces : α → Bool} {x : α} (h : x ∈ upsert replaces item l) :
    x = item ∨ x ∈ l := by
  induction l with
  | nil => exact .inl (List.mem_singleton.1 h)
  | cons y l ih =>
    rw [upsert] at h
    split at h
    · exact (List.mem_cons.1 h).imp id (List.mem_cons_of_mem _)
    · rcases List.mem_cons.1 h with rfl | h
      · exact .inr List.mem_cons_self
      · exact (ih h).imp id (List.mem_cons_of_mem _)

theorem put_cons (x : α) : put key item (x :: l) =
    if key x = key item then item :: l else x :: put key item l := by
  rw [put, upsert]
  by_cases h : key x = key item
  · rw [if_pos h, if_pos (beq_iff_eq.2 h)]
  · rw [if_neg h, if_neg (by rwa [beq_iff_eq])]
    rfl

theorem lookup_put (k : κ) :
    lookup key k (put key item l) = if key item = k then some item else lookup key k l := by
  induction l with
  | nil => exact lookup_cons key item
  | cons x l ih =>
    rw [put_cons]
    split
    · next hsame =>
      rw [lookup_cons, lookup_cons, hsame]
      split <;> rfl
    · next hapart =>
      rw [lookup_cons, ih, lookup_cons]
      split
      · next hx =>
        rw [if_neg]
        rintro rfl
        exact hapart hx
      · rfl

theorem keys_put : (put key item l).map key =
    if key item ∈ l.map key then l.map key else l.map key ++ [key item] := by
  induction l with
  | nil => rfl
  | cons x l ih =>
    rw [put_cons]
    by_cases hx : key x = key item
    · rw [if_pos hx, if_pos (by rw [← hx]; exact List.mem_cons_self), List.map_cons, List.map_cons,
        hx]
    · rw [if_neg hx, List.map_cons, ih, List.map_cons]
      have hmem : key item ∈ key x :: l.map key ↔ key item ∈ l.map key := by
        rw [List.mem_cons]
        exact or_iff_right fun h => hx h.symm
      by_cases h : key item ∈ l.map key
      · rw [if_pos h, if_pos (hmem.2 h)]
      · rw [if_neg h, if_neg fun h' => h (hmem.1 h')]
        rfl

theorem mem_keys_put : k ∈ (put key item l).map key ↔ k = key item ∨ k ∈ l.map key := by
  rw [keys_put]
  split
  · next h =>
    constructor
    · exact .inr
    · rintro (rfl | hk)
      · exact h
      · exact hk
  · rw [List.mem_append, List.mem_singleton, or_comm]

theorem nodup_keys_put (hnd : (l.map key).Nodup) : ((put key item l).map key).Nodup := by
  rw [keys_put]
  split
  · exact hnd
  · next h => exact List.nodup_append.2 ⟨hnd, List.nodup_singleton _, by simpa using h⟩

/-! ### Putting items -/

theorem putAll_cons (x : α) : putAll key (x :: items) l = putAll key items (put key x l) :=
  rfl

/-- There is nothing in a list but what was there and what was put. -/
theorem mem_putAll {x : α} (h : x ∈ putAll key items l) : x ∈ items ∨ x ∈ l := by
  induction items generalizing l with
  | nil => exact .inr h
  | cons y items ih =>
    rcases ih h with h | h
    · exact .inl (List.mem_cons_of_mem _ h)
    · rcases mem_upsert h with rfl | h
      · exact .inl List.mem_cons_self
      · exact .inr h

/-- Where every step puts one item under its key, the last item of a key is found. -/
theorem lookup_foldl {step : List α → α → List α}
    (hstep : ∀ l item k, lookup key k (step l item) =
      if key item = k then some item else lookup key k l) (k : κ) :
    lookup key k (items.foldl step l) = (lookup key k items.reverse).or (lookup key k l) := by
  induction items generalizing l with
  | nil => rfl
  | cons x items ih =>
    -- `x` is the last of the items from behind
    have hreverse : lookup key k (x :: items).reverse =
        (lookup key k items.reverse).or (if key x = k then some x else none) := by
      rw [List.reverse_cons, lookup, List.find?_append]
      exact congrArg _ (lookup_cons key x)
    rw [List.foldl_cons, ih, hstep, hreverse]
    cases lookup key k items.reverse with
    | some y => rfl
    | none => split <;> rfl

/-- **Of the items that were put, the last one of a key is found.** -/
theorem lookup_putAll (k : κ) : lookup key k (putAll key items l) =
    (lookup key k items.reverse).or (lookup key k l) :=
  lookup_foldl key (fun _ _ => lookup_put key) k

/-- The keys that are new are added behind the others. -/
theorem keys_putAll_eq : (putAll key items l).map key =
    (items.map key).foldl withNew (l.map key) := by
  induction items generalizing l with
  | nil => rfl
  | cons x items ih => rw [putAll_cons, ih, keys_put, List.map_cons, List.foldl_cons, withNew]

/-- Items whose keys are there leave the keys as they are. -/
theorem keys_putAll (h : ∀ x ∈ items, key x ∈ l.map key) :
    (putAll key items l).map key = l.map key := by
  induction items generalizing l with
  | nil => rfl
  | cons x items ih =>
    have hput : (put key x l).map key = l.map key := by
      rw [keys_put, if_pos (h x List.mem_cons_self)]
    rw [putAll_cons, ih fun y hy => by rw [hput]; exact h y (List.mem_cons_of_mem _ hy), hput]

theorem nodup_keys_putAll (hnd : (l.map key).Nodup) : ((putAll key items l).map key).Nodup := by
  induction items generalizing l with
  | nil => exact hnd
  | cons x items ih => exact ih (nodup_keys_put key hnd)

/-- The last of the items of each key is found in the list. -/
def HoldsLast (items l : List α) : Prop :=
  ∀ k x, lookup key k items.reverse = some x → lookup key k l = some x

theorem holdsLast_putAll : HoldsLast key items (putAll key items l) := by
  intro k x hx
  rw [lookup_putAll, hx]
  rfl

theorem HoldsLast.perm (hnd : (l.map key).Nodup) (hp : l.Perm l') (h : HoldsLast key items l) :
    HoldsLast key items l' := by
  intro k x hx
  rw [lookup_perm key hnd hp]
  exact h k x hx

/-! ### Putting lists into each other -/

/-- Where every step puts one item under its key and the keys of the items are different, an item
is found if there is one with the key. -/
theorem lookup_foldl_of_nodup {step : List α → α → List α}
    (hstep : ∀ l item k, lookup key k (step l item) =
      if key item = k then some item else lookup key k l)
    (hnd : (items.map key).Nodup) (k : κ) :
    lookup key k (items.foldl step l) = (lookup key k items).or (lookup key k l) := by
  rw [lookup_foldl key hstep, lookup_perm key hnd (List.reverse_perm items).symm]

theorem lookup_putAll_of_nodup (hnd : (items.map key).Nodup) (k : κ) :
    lookup key k (putAll key items l) = (lookup key k items).or (lookup key k l) :=
  lookup_foldl_of_nodup key (fun _ _ => lookup_put key) hnd k

theorem putAll_nil (hnd : (items.map key).Nodup) : putAll key items [] = items := by
  refine eq_of_lookup key hnd ?_ fun k _ => ?_
  · rw [keys_putAll_eq]
    exact foldl_withNew_of_nodup hnd
  · rw [lookup_putAll_of_nodup key hnd]
    exact Option.or_none

/-- **Putting lists into each other is associative.** -/
theorem putAll_putAll {a b c : List α} (ha : (a.map key).Nodup) (hb : (b.map key).Nodup)
    (hc : (c.map key).Nodup) :
    putAll key c (putAll key b a) = putAll key (putAll key c b) a := by
  have hcb : ((putAll key c b).map key).Nodup := nodup_keys_putAll key hb
  refine eq_of_lookup key (nodup_keys_putAll key ha) ?_ fun k _ => ?_
  · rw [keys_putAll_eq, keys_putAll_eq, keys_putAll_eq, keys_putAll_eq, foldl_withNew_assoc]
  · rw [lookup_putAll_of_nodup key hc, lookup_putAll_of_nodup key hb,
      lookup_putAll_of_nodup key hcb, lookup_putAll_of_nodup key hc, Option.or_assoc]

variable {key}

theorem HoldsLast.mem_keys (h : HoldsLast key items l) {x : α} (hx : x ∈ items) :
    key x ∈ l.map key := by
  obtain ⟨y, hy⟩ := exists_lookup key (k := key x) (l := items.reverse)
    (List.mem_map_of_mem (List.mem_reverse.2 hx))
  obtain ⟨hmem, hkey⟩ := mem_of_lookup key (h _ _ hy)
  rw [← hkey]
  exact List.mem_map_of_mem hmem

/-- **Items that are found already change nothing.** -/
theorem putAll_of_holdsLast (hnd : (l.map key).Nodup) (h : HoldsLast key items l) :
    putAll key items l = l := by
  refine eq_of_lookup key hnd (keys_putAll key fun x hx => h.mem_keys hx) fun k _ => ?_
  rw [lookup_putAll]
  rcases hlast : lookup key k items.reverse with _ | x
  · rfl
  · rw [h k x hlast]
    rfl

end Store

end ModuleScaffold
