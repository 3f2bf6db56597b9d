import ModuleScaffold.Proofs.Order.Walk
import ModuleScaffold.Store.Order

/-!
# Declarations in dependency order

The declarations of a store as the nodes of a graph: one declaration *reads* another one
(`ModuleScaffold.Store.Reads`) when its eager text mentions a name that the other one binds. What
`ModuleScaffold.PostOrder` knows of walks says when the declarations can be put in order, and what
the order is.

Main statement: `ModuleScaffold.Store.ordered_topological_or_cycle` – **the declarations are
ordered exactly if they do not read each other in a circle**; the order is a permutation with
what is read first, it is the order of insertion where that serves, and a refusal names the
declarations along a circle.
-/

namespace ModuleScaffold

namespace Store

/-! ### The graph of declarations -/

/-- The declaration at one place mentions, in the text that is evaluated in its place, a name that
the declaration at another place binds. -/
def Reads (nodes : List Node) (i j : ℕ) : Prop :=
  i ≠ j ∧ ∃ a b, nodes[i]? = some a ∧ nodes[j]? = some b ∧
    ∃ name ∈ b.bindings, Text.mentions a.eager name = true

variable {nodes : List Node} {i j : ℕ}

theorem Reads.left_lt (h : Reads nodes i j) : i < nodes.length := by
  obtain ⟨-, a, -, ha, -⟩ := h
  exact (List.getElem?_eq_some_iff.1 ha).1

theorem Reads.right_lt (h : Reads nodes i j) : j < nodes.length := by
  obtain ⟨-, -, b, -, hb, -⟩ := h
  exact (List.getElem?_eq_some_iff.1 hb).1

theorem Node.dependsOn_iff {node other : Node} :
    node.dependsOn other = true ↔
      ∃ name ∈ other.bindings, Text.mentions node.eager name = true := by
  rw [Node.dependsOn, List.any_eq_true]

/-- The dependencies that the walk follows are the declarations that are read. -/
theorem mem_dependencies : j ∈ dependencies nodes i ↔ Reads nodes i j := by
  rw [dependencies]
  rcases hi : nodes[i]? with _ | a
  · simp [Reads, hi]
  · rcases hj : nodes[j]? with _ | b
    · have hlen : nodes.length ≤ j := List.getElem?_eq_none_iff.1 hj
      simp [Reads, hi, hlen]
    · have hlen : j < nodes.length := (List.getElem?_eq_some_iff.1 hj).1
      simp [Reads, hi, hlen, Node.dependsOn_iff, ne_comm]

theorem dependencies_lt (a : ℕ) : ∀ b ∈ dependencies nodes a, b < nodes.length :=
  fun _ hb => (mem_dependencies.1 hb).right_lt

/-- A circle in the graph is a closed walk along dependencies. -/
theorem exists_isCycle_iff :
    (∃ cyc, PostOrder.IsCycle (dependencies nodes) cyc ∧ ∀ a ∈ cyc, a < nodes.length) ↔
      ∃ a, Relation.TransGen (Reads nodes) a a := by
  constructor
  · rintro ⟨cyc, ⟨⟨a, mid, rfl⟩, hchain⟩, -⟩
    refine ⟨a, ?_⟩
    have hreads : (a :: (mid ++ [a])).IsChain (Relation.TransGen (Reads nodes)) :=
      hchain.imp fun x y hxy => .single (mem_dependencies.1 hxy)
    exact hreads.rel_cons (by simp)
  · rintro ⟨a, h⟩
    obtain ⟨b, hab, hba⟩ := Relation.TransGen.head'_iff.1 h
    obtain ⟨walk, hwalk, hlast⟩ := List.exists_isChain_cons_of_relationReflTransGen hba
    have hsplit : b :: walk = (b :: walk).dropLast ++ [a] := by
      rw [← hlast, List.dropLast_append_getLast]
    have hchain : (a :: b :: walk).IsChain (Reads nodes) := hwalk.cons_cons hab
    refine ⟨a :: b :: walk, ⟨⟨a, (b :: walk).dropLast, by rw [← hsplit]⟩, ?_⟩, ?_⟩
    · exact hchain.imp fun x y hxy => mem_dependencies.2 hxy
    · intro c hc
      rcases List.mem_cons.1 hc with rfl | hc
      · exact hab.left_lt
      · -- what stands behind another declaration is read by it
        obtain ⟨front, back, hfront⟩ := List.append_of_mem hc
        rcases List.eq_nil_or_concat front with rfl | ⟨front, d, rfl⟩
        · obtain rfl : b = c := by simpa using congrArg List.head? hfront
          exact hab.right_lt
        · rw [hfront, List.concat_eq_append] at hchain
          have hdc : Reads nodes d c := by
            have heq : a :: (front ++ [d] ++ c :: back) = (a :: front) ++ d :: c :: back := by simp
            exact List.isChain_iff_forall_rel_of_append_cons_cons.1 hchain heq
          exact hdc.right_lt

/-! ### The order -/

/-- The declarations at the given places. -/
def itemsAt (nodes : List Node) (places : List ℕ) : List Declaration :=
  places.filterMap fun i => (nodes[i]?).map (·.item)

/-- The labels of the declarations at the given places. -/
def labelsAt (nodes : List Node) (places : List ℕ) : List String :=
  places.filterMap fun i => (nodes[i]?).map (·.label)

theorem itemsAt_range (nodes : List Node) :
    itemsAt nodes (List.range nodes.length) = nodes.map (·.item) := by
  induction nodes using List.reverseRecOn with
  | nil => rfl
  | append_singleton nodes node ih =>
    have hfront : itemsAt (nodes ++ [node]) (List.range nodes.length) =
        itemsAt nodes (List.range nodes.length) := by
      refine List.filterMap_congr fun i hi => ?_
      rw [List.getElem?_append_left (List.mem_range.1 hi)]
    have hlast : itemsAt (nodes ++ [node]) [nodes.length] = [node.item] := by
      simp [itemsAt]
    rw [List.length_append, List.length_singleton, List.range_succ, itemsAt, List.filterMap_append]
    rw [← itemsAt, ← itemsAt, hfront, hlast, ih, List.map_append]
    rfl

/-- The declaration at a place of an order. -/
theorem getElem?_itemsAt {places : List ℕ} (h : ∀ a ∈ places, a < nodes.length) (i : ℕ) :
    (itemsAt nodes places)[i]? = places[i]?.bind fun a => (nodes[a]?).map (·.item) := by
  induction places generalizing i with
  | nil => rfl
  | cons a places ih =>
    have hcons : itemsAt nodes (a :: places) =
        (nodes.get ⟨a, h a (by simp)⟩).item :: itemsAt nodes places := by
      rw [itemsAt, List.filterMap_cons, List.getElem?_eq_getElem (h a (by simp))]
      rfl
    rw [hcons]
    cases i with
    | zero => simp [h a (by simp)]
    | succ i => exact ih (fun b hb => h b (List.mem_cons_of_mem _ hb)) i

theorem ordered_of_order_ok {store : Store} {places : List ℕ}
    (h : PostOrder.order (dependencies store.nodes) store.nodes.length = .ok places) :
    store.ordered = .ok (itemsAt store.nodes places) := by
  simp only [ordered, h]
  rfl

theorem ordered_of_order_error {store : Store} {places : List ℕ}
    (h : PostOrder.order (dependencies store.nodes) store.nodes.length = .error places) :
    store.ordered = .error (labelsAt store.nodes places) := by
  simp only [ordered, h]
  rfl

/-- In the order each declaration stands once, behind all that it reads. -/
theorem exists_places_of_ordered {store : Store} {out : List Declaration}
    (h : store.ordered = .ok out) : ∃ places : List ℕ,
      places.Perm (List.range store.nodes.length) ∧ out = itemsAt store.nodes places ∧
        ∀ i j, Reads store.nodes i j → places.idxOf j < places.idxOf i := by
  rcases ho : PostOrder.order (dependencies store.nodes) store.nodes.length with walk | places
  · rw [ordered_of_order_error ho] at h
    cases h
  · rw [ordered_of_order_ok ho] at h
    obtain ⟨hperm, hbehind⟩ := PostOrder.perm_of_walk_eq_ok dependencies_lt (.refl _) ho
    have hnd : places.Nodup := hperm.nodup_iff.2 List.nodup_range
    refine ⟨places, hperm, (Except.ok.inj h).symm, fun i j hij => ?_⟩
    exact hbehind.idxOf_lt hnd (hperm.symm.subset (List.mem_range.2 hij.left_lt))
      (mem_dependencies.2 hij)

/-- The declarations are ordered exactly if the graph has no cycle. -/
theorem exists_ordered_iff (store : Store) :
    (∃ out, store.ordered = .ok out) ↔ ¬∃ i, Relation.TransGen (Reads store.nodes) i i := by
  rw [← exists_isCycle_iff, ← PostOrder.walk_isOk_iff (n := store.nodes.length) dependencies_lt
    (.refl _), ← PostOrder.order_eq_walk]
  constructor
  · rintro ⟨out, h⟩
    rcases ho : PostOrder.order (dependencies store.nodes) store.nodes.length with walk | places
    · rw [ordered_of_order_error ho] at h
      cases h
    · exact ⟨places, rfl⟩
  · rintro ⟨places, h⟩
    exact ⟨_, ordered_of_order_ok h⟩

/-- **The declarations are ordered exactly if they do not read each other in a circle.** In the
order each declaration stands once, behind all that it reads; where the order of insertion does
that already, nothing is moved. A refusal names the declarations along a circle of at least two,
the first again at the end. -/
theorem ordered_topological_or_cycle (store : Store) :
    ((∃ out, store.ordered = .ok out) ↔ ¬∃ i, Relation.TransGen (Reads store.nodes) i i) ∧
    (∀ out, store.ordered = .ok out → ∃ places : List ℕ,
      places.Perm (List.range store.nodes.length) ∧ out = itemsAt store.nodes places ∧
        ∀ i j, Reads store.nodes i j → places.idxOf j < places.idxOf i) ∧
    ((∀ i j, Reads store.nodes i j → j < i) → store.ordered = .ok (store.nodes.map (·.item))) ∧
    (∀ labels, store.ordered = .error labels → ∃ first mid, (∃ i ∈ mid, i ≠ first) ∧
      (first :: (mid ++ [first])).IsChain (Reads store.nodes) ∧
        labels = labelsAt store.nodes (first :: (mid ++ [first]))) := by
  refine ⟨exists_ordered_iff store, fun out h => exists_places_of_ordered h, ?_, ?_⟩
  · intro h
    have hbehind := PostOrder.Behind.range (n := store.nodes.length) fun a b hb =>
      h a b (mem_dependencies.1 hb)
    have ho := PostOrder.foldlM_of_behind store.nodes.length (List.range store.nodes.length) []
      List.nodup_range hbehind
    rw [ordered_of_order_ok ho, List.nil_append, itemsAt_range]
  · intro labels h
    rcases ho : PostOrder.order (dependencies store.nodes) store.nodes.length with walk | places
    · rw [ordered_of_order_error ho] at h
      have hroots : ∀ a ∈ List.range store.nodes.length, a < store.nodes.length :=
        fun a ha => List.mem_range.1 ha
      have hout := PostOrder.walk_outcome dependencies_lt hroots
      rw [← PostOrder.order_eq_walk, ho] at hout
      obtain ⟨⟨⟨first, mid, rfl⟩, hchain⟩, -⟩ := hout
      have hreads : (first :: (mid ++ [first])).IsChain (Reads store.nodes) :=
        hchain.imp fun x y hxy => mem_dependencies.1 hxy
      refine ⟨first, mid, ?_, hreads, (Except.error.inj h).symm⟩
      cases mid with
      | nil => exact absurd rfl (List.isChain_pair.1 hreads).1
      | cons b mid =>
        rw [List.cons_append, List.isChain_cons_cons] at hreads
        exact ⟨b, by simp, hreads.1.1.symm⟩
    · rw [ordered_of_order_ok ho] at h
      cases h

end Store

end ModuleScaffold
