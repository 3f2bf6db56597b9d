import ModuleScaffold.Proofs.Order.Declarations
import ModuleScaffold.Proofs.Order.Repeat

/-!
# Ordering declarations again

A file is read back as two lists, its schema constants and its statements, each in the order of
the file (`ModuleScaffold.Store.inOrder`). When the two lists are put in order again, the
declarations need not come back in the order they had: a statement in front of a constant is
emitted there only if the walk from that constant comes down to it.

Main statement: `ModuleScaffold.Store.ordered_inOrder_iff` – **the declarations of a file that has
been written are always ordered again, and they keep their places exactly if the file is settled**
(`ModuleScaffold.Store.Settled`).
-/

namespace ModuleScaffold

namespace Store

/-! ### Declarations by kind -/

/-- Whether a declaration is a statement. -/
def Declaration.isStatement : Declaration → Bool
  | .schema _ => false
  | .statement _ => true

/-- The node of a declaration. -/
def Declaration.node : Declaration → Node
  | .schema d => .ofDefinition d
  | .statement text => .ofStatement text

/-- The schema constant of a declaration. -/
def Declaration.definition? : Declaration → Option Definition
  | .schema d => some d
  | .statement _ => none

/-- The text of a statement. -/
def Declaration.statement? : Declaration → Option String
  | .schema _ => none
  | .statement text => some text

/-- The store whose constants and statements are those of a file, in the order of the file. -/
def inOrder (store : Store) (out : List Declaration) : Store :=
  { store with
    definitions := out.filterMap Declaration.definition?
    statements := out.filterMap Declaration.statement? }

/-- A node is determined by its declaration. -/
theorem node_item_of_mem {store : Store} {node : Node} (h : node ∈ store.nodes) :
    node.item.node = node := by
  rcases List.mem_append.1 h with h | h
  · obtain ⟨d, -, rfl⟩ := List.mem_map.1 h
    rfl
  · obtain ⟨text, -, rfl⟩ := List.mem_map.1 h
    rw [Node.ofStatement]
    split <;> rename_i hd <;> simp only [Declaration.node, Node.ofStatement, hd]

theorem Declaration.item_node (d : Declaration) : d.node.item = d := by
  cases d with
  | schema d => rfl
  | statement text =>
    rw [Declaration.node, Node.ofStatement]
    split <;> rfl

theorem map_ofDefinition_filterMap (out : List Declaration) :
    (out.filterMap Declaration.definition?).map Node.ofDefinition =
      (out.filter fun d => ! d.isStatement).map Declaration.node := by
  induction out with
  | nil => rfl
  | cons d out ih =>
    cases d with
    | schema d => exact congrArg (Node.ofDefinition d :: ·) ih
    | statement text => exact ih

theorem map_ofStatement_filterMap (out : List Declaration) :
    (out.filterMap Declaration.statement?).map Node.ofStatement =
      (out.filter Declaration.isStatement).map Declaration.node := by
  induction out with
  | nil => rfl
  | cons d out ih =>
    cases d with
    | schema d => exact ih
    | statement text => exact congrArg (Node.ofStatement text :: ·) ih

/-! ### Places in the file -/

section Places

variable (store : Store) (out : List Declaration)

/-- Whether a statement stands at a place of the file. -/
def statementAt (place : ℕ) : Bool :=
  (out[place]?.map Declaration.isStatement).getD false

/-- The places of the file, those of the constants first: the order in which they are read back. -/
def placesByKind : List ℕ :=
  PostOrder.heldFirst (statementAt out) (List.range out.length)

/-- The place in the file of a node that is read back. -/
def placeOf (i : ℕ) : ℕ :=
  ((placesByKind out)[i]?).getD i

theorem placesByKind_perm : (placesByKind out).Perm (List.range out.length) := by
  refine (List.perm_append_comm).trans ?_
  have := List.filter_append_perm (statementAt out) (List.range out.length)
  simpa using this

theorem length_placesByKind : (placesByKind out).length = out.length := by
  simpa using (placesByKind_perm out).length_eq

theorem nodup_placesByKind : (placesByKind out).Nodup :=
  (placesByKind_perm out).nodup_iff.2 List.nodup_range

theorem placeOf_of_lt {i : ℕ} (h : i < out.length) :
    placeOf out i = (placesByKind out).get ⟨i, by rwa [length_placesByKind]⟩ := by
  rw [placeOf, List.getElem?_eq_getElem (by rwa [length_placesByKind])]
  rfl

theorem placeOf_of_le {i : ℕ} (h : out.length ≤ i) : placeOf out i = i := by
  rw [placeOf, List.getElem?_eq_none (by rwa [length_placesByKind])]
  rfl

theorem placeOf_lt {i : ℕ} (h : i < out.length) : placeOf out i < out.length := by
  rw [placeOf_of_lt out h]
  exact List.mem_range.1 ((placesByKind_perm out).subset (List.getElem_mem _))

theorem placeOf_injective : Function.Injective (placeOf out) := by
  intro i j h
  rcases Nat.lt_or_ge i out.length with hi | hi <;> rcases Nat.lt_or_ge j out.length with hj | hj
  · rw [placeOf_of_lt out hi, placeOf_of_lt out hj] at h
    exact (nodup_placesByKind out).getElem_inj_iff.1 h
  · have := placeOf_lt out hi
    rw [h, placeOf_of_le out hj] at this
    omega
  · have := placeOf_lt out hj
    rw [← h, placeOf_of_le out hi] at this
    omega
  · rwa [placeOf_of_le out hi, placeOf_of_le out hj] at h

theorem map_placeOf_range : (List.range out.length).map (placeOf out) = placesByKind out := by
  refine List.ext_getElem (by simp [length_placesByKind]) fun i hi _ => ?_
  rw [List.getElem_map, List.getElem_range]
  exact placeOf_of_lt out (by simpa using hi)

/-- The part of the file with the declarations of one kind, with their places. -/
theorem map_getElem?_filter (q : Declaration → Bool) :
    ((List.range out.length).filter fun i => (out[i]?.map q).getD false).map (out[·]?) =
      (out.filter q).map some := by
  -- from the end, so that the places of the other declarations stay the same
  induction out using List.reverseRecOn with
  | nil => rfl
  | append_singleton out d ih =>
    have hold : ∀ i ∈ List.range out.length, (out ++ [d])[i]? = out[i]? := fun i hi =>
      List.getElem?_append_left (List.mem_range.1 hi)
    have hfilter : (List.range out.length).filter
        (fun i => (((out ++ [d])[i]?).map q).getD false) =
        (List.range out.length).filter fun i => (out[i]?.map q).getD false :=
      List.filter_congr fun i hi => by rw [hold i hi]
    rw [List.length_append, List.length_singleton, List.range_succ, List.filter_append,
      List.map_append, hfilter, List.map_congr_left fun i hi => hold i (List.mem_filter.1 hi).1, ih,
      List.filter_append, List.map_append]
    cases hq : q d <;> simp [hq]

/-- The nodes that are read back are those of the file, place by place. -/
theorem getElem?_nodes_inOrder (i : ℕ) :
    (store.inOrder out).nodes[i]? = (out.map Declaration.node)[placeOf out i]? := by
  have hheld : (List.range out.length).filter (fun i => ! statementAt out i) =
      (List.range out.length).filter fun i =>
        (out[i]?.map fun d => ! d.isStatement).getD false := by
    refine List.filter_congr fun i hi => ?_
    rw [statementAt, List.getElem?_eq_getElem (List.mem_range.1 hi)]
    rfl
  -- the places by kind hold the constants and then the statements, and so does the store
  have hmap : (placesByKind out).map (out[·]?) =
      ((out.filter fun d => ! d.isStatement) ++ out.filter Declaration.isStatement).map some := by
    rw [placesByKind, PostOrder.heldFirst, List.map_append, hheld, map_getElem?_filter]
    rw [List.map_append, ← map_getElem?_filter out Declaration.isStatement]
    rfl
  have hnodes : (store.inOrder out).nodes =
      ((out.filter fun d => ! d.isStatement) ++ out.filter Declaration.isStatement).map
        Declaration.node := by
    rw [List.map_append, ← map_ofDefinition_filterMap, ← map_ofStatement_filterMap]
    rfl
  have hsome : (store.inOrder out).nodes.map some =
      (placesByKind out).map fun i => (out.map Declaration.node)[i]? := by
    rw [hnodes, List.map_map]
    have := congrArg (List.map (Option.map Declaration.node)) hmap
    rw [List.map_map, List.map_map] at this
    simpa [Function.comp_def] using this.symm
  have hlen : (store.inOrder out).nodes.length = out.length := by
    simpa [length_placesByKind] using congrArg List.length hsome
  rcases Nat.lt_or_ge i out.length with hi | hi
  · have hget := congrArg (·[i]?) hsome
    simp only [List.getElem?_map] at hget
    rw [List.getElem?_eq_getElem (by rwa [hlen]),
      List.getElem?_eq_getElem (l := placesByKind out) (by rwa [length_placesByKind])] at hget
    rw [List.getElem?_eq_getElem (by rwa [hlen]), placeOf_of_lt out hi]
    simpa using hget
  · rw [placeOf_of_le out hi, List.getElem?_eq_none (by omega), List.getElem?_eq_none (by simpa)]

theorem length_nodes_inOrder : (store.inOrder out).nodes.length = out.length := by
  refine Nat.le_antisymm ?_ ?_
  · rw [← List.getElem?_eq_none_iff, getElem?_nodes_inOrder, placeOf_of_le out le_rfl]
    simp
  · by_contra hc
    have hnone : (store.inOrder out).nodes[(store.inOrder out).nodes.length]? = none := by simp
    rw [getElem?_nodes_inOrder] at hnone
    have := placeOf_lt out (Nat.lt_of_not_le hc)
    simp at hnone
    omega

end Places

/-! ### The graph that is read back -/

section Graph

variable {store : Store} {out : List Declaration}

/-- The declarations that the one at a place of the file reads, as they are listed once the file
is read back: constants first. -/
def dependenciesByKind (out : List Declaration) (place : ℕ) : List ℕ :=
  match (out.map Declaration.node)[place]? with
  | none => []
  | some node => (placesByKind out).filter fun other =>
      other != place && (((out.map Declaration.node)[other]?).map node.dependsOn).getD false

theorem mem_dependenciesByKind {place other : ℕ} : other ∈ dependenciesByKind out place ↔
    Reads (out.map Declaration.node) place other := by
  rw [← mem_dependencies, dependenciesByKind, dependencies, List.length_map]
  rcases (out.map Declaration.node)[place]? with _ | node
  · rfl
  · exact ((placesByKind_perm out).filter _).mem_iff

theorem dependenciesByKind_placeOf (i : ℕ) : dependenciesByKind out (placeOf out i) =
    (dependencies (store.inOrder out).nodes i).map (placeOf out) := by
  rw [dependenciesByKind, dependencies, ← getElem?_nodes_inOrder store]
  rcases (store.inOrder out).nodes[i]? with _ | node
  · rfl
  · rw [length_nodes_inOrder, ← map_placeOf_range]
    change ((List.range out.length).map (placeOf out)).filter _ =
      ((List.range out.length).filter _).map (placeOf out)
    rw [List.filter_map]
    refine congrArg _ (List.filter_congr fun other _ => ?_)
    rw [Function.comp_apply, getElem?_nodes_inOrder, bne, bne, (placeOf_injective out).beq_eq]

theorem Reads.placeOf {i j : ℕ} (h : Reads (store.inOrder out).nodes i j) :
    Reads (out.map Declaration.node) (placeOf out i) (placeOf out j) := by
  have hmem := List.mem_map_of_mem (f := Store.placeOf out) (mem_dependencies.2 h)
  rw [← dependenciesByKind_placeOf] at hmem
  exact mem_dependenciesByKind.1 hmem

/-- In a file that has been written, what is read stands first. -/
theorem lt_of_reads (h : store.ordered = .ok out) {place other : ℕ}
    (hr : Reads (out.map Declaration.node) place other) : other < place := by
  obtain ⟨places, hperm, rfl, hbefore⟩ := exists_places_of_ordered h
  have hnd : places.Nodup := hperm.nodup_iff.2 List.nodup_range
  have hnode : ∀ i : ℕ, ((itemsAt store.nodes places).map Declaration.node)[i]? =
      places[i]?.bind fun a => store.nodes[a]? := by
    intro i
    rw [List.getElem?_map, getElem?_itemsAt fun a ha => List.mem_range.1 (hperm.subset ha)]
    rcases places[i]? with _ | a
    · rfl
    rcases ha : store.nodes[a]? with _ | node
    · simp [ha]
    · simpa [ha] using node_item_of_mem (List.mem_of_getElem? ha)
  -- the nodes at two places of the file are nodes of the store, and one reads the other there
  obtain ⟨hne, a, b, ha, hb, hmentions⟩ := hr
  rw [hnode, Option.bind_eq_some_iff] at ha hb
  obtain ⟨i, hi, ha⟩ := ha
  obtain ⟨j, hj, hb⟩ := hb
  obtain ⟨hplace, rfl⟩ := List.getElem?_eq_some_iff.1 hi
  obtain ⟨hother, rfl⟩ := List.getElem?_eq_some_iff.1 hj
  have hread : Reads store.nodes places[place] places[other] :=
    ⟨fun hc => hne ((hnd.getElem_inj_iff).1 hc), a, b, ha, hb, hmentions⟩
  have := hbefore _ _ hread
  rwa [hnd.idxOf_getElem, hnd.idxOf_getElem] at this

/-- What is listed for a place of a written file stands before it. -/
theorem lt_of_mem_dependenciesByKind (h : store.ordered = .ok out) (place : ℕ) :
    ∀ other ∈ dependenciesByKind out place, other < place := fun _ hother =>
  lt_of_reads h (mem_dependenciesByKind.1 hother)

/-- What is read back has no circle, so it can be ordered. -/
theorem exists_ordered_inOrder (h : store.ordered = .ok out) :
    ∃ again, (store.inOrder out).ordered = .ok again := by
  rw [exists_ordered_iff]
  rintro ⟨i, hcycle⟩
  -- along what is read the places in the file descend
  have hdesc : ∀ j, Relation.TransGen (Reads (store.inOrder out).nodes) i j →
      placeOf out j < placeOf out i := by
    intro j hj
    induction hj with
    | single hij => exact lt_of_reads h hij.placeOf
    | tail _ hjk ih => exact (lt_of_reads h hjk.placeOf).trans ih
  exact lt_irrefl _ (hdesc i hcycle)

/-! ### Keeping the places -/

/-- Lists of places with the same declarations are the same if equal declarations stand in the
same order in both. -/
theorem eq_of_map_eq {α β : Type} [DecidableEq β] {g : α → β} : ∀ {l₁ l₂ : List α},
    l₁.map g = l₂.map g → (∀ c, l₁.filter (g · = c) = l₂.filter (g · = c)) → l₁ = l₂
  | [], [], _, _ => rfl
  | a :: l₁, b :: l₂, hmap, hfilter => by
    obtain ⟨hab, hrest⟩ := List.cons.inj hmap
    have hhead : a :: l₁.filter (g · = g a) = b :: l₂.filter (g · = g a) := by
      have := hfilter (g a)
      rwa [List.filter_cons_of_pos (by simp), List.filter_cons_of_pos (by simp [hab])] at this
    obtain ⟨rfl, htail⟩ := List.cons.inj hhead
    refine congrArg _ (eq_of_map_eq hrest fun c => ?_)
    by_cases hc : g a = c
    · rw [← hc]
      exact htail
    · have := hfilter c
      rwa [List.filter_cons_of_neg (by simpa using hc), List.filter_cons_of_neg (by simpa using hc)]
        at this

/-- What is listed first has the smaller index. -/
theorem idxOf_lt_of_sublist {u v : ℕ} {l : List ℕ} (hnd : l.Nodup) (hsub : [u, v].Sublist l) :
    l.idxOf u < l.idxOf v := by
  have hpw : l.Pairwise fun a b => l.idxOf a < l.idxOf b := by
    rw [List.pairwise_iff_getElem]
    intro i j hi hj hij
    rwa [hnd.idxOf_getElem, hnd.idxOf_getElem]
  exact List.pairwise_iff_forall_sublist.1 hpw hsub

/-- A permutation of the places with the same declarations leaves them where they are if equal
declarations are not exchanged. -/
theorem eq_range_of_map_eq {β : Type} [DecidableEq β] {g : ℕ → β} {n : ℕ} {places : List ℕ}
    (hperm : places.Perm (List.range n)) (hmap : places.map g = (List.range n).map g)
    (hsub : ∀ u v, u < v → v < n → g u = g v → [u, v].Sublist places) :
    places = List.range n := by
  refine eq_of_map_eq hmap fun c => ?_
  have hnd : places.Nodup := hperm.nodup_iff.2 List.nodup_range
  have hasymm : ∀ a b, a ∈ places.filter (fun a => g a = c) →
      b ∈ (List.range n).filter (fun a => g a = c) → a < b → b < a → a = b :=
    fun a b _ _ hab hba => absurd hab hba.asymm
  refine (hperm.filter _).eq_of_pairwise hasymm ?_ ?_
  · refine List.pairwise_iff_forall_sublist.2 fun {a b} hab => ?_
    have hsubset := hab.subset
    have ha := List.mem_filter.1 (hsubset (List.mem_cons_self))
    have hb := List.mem_filter.1 (hsubset (List.mem_cons_of_mem _ (List.mem_singleton_self b)))
    have hlt := idxOf_lt_of_sublist hnd (hab.trans List.filter_sublist)
    -- places in the wrong order would be an exchange of equal declarations
    rcases Nat.lt_trichotomy a b with h | rfl | h
    · exact h
    · exact absurd hlt (lt_irrefl _)
    · have han : a < n := List.mem_range.1 (hperm.subset ha.1)
      have hg : g b = g a := (of_decide_eq_true hb.2).trans (of_decide_eq_true ha.2).symm
      exact absurd (idxOf_lt_of_sublist hnd (hsub b a h han hg)) hlt.asymm
  · exact List.Pairwise.filter _ List.pairwise_lt_range

theorem pair_sublist_range {u v n : ℕ} (huv : u < v) (hv : v < n) :
    [u, v].Sublist (List.range n) := by
  induction n with
  | zero => omega
  | succ n ih =>
    rw [List.range_succ]
    rcases Nat.lt_or_ge v n with h | h
    · exact (ih h).trans (List.sublist_append_left _ _)
    · obtain rfl : v = n := by omega
      exact List.Sublist.append (List.singleton_sublist.2 (List.mem_range.2 huv)) (.refl [v])

/-- What stands in front of the second of two nodes. -/
theorem mem_front_of_sublist {u v : ℕ} {l front back : List ℕ} (hnd : l.Nodup)
    (hsub : [u, v].Sublist l) (hl : l = front ++ v :: back) : u ∈ front := by
  subst hl
  by_contra hu
  have hv : v ∉ front := fun hc => (List.nodup_append.1 hnd).2.2 v hc v (by simp) rfl
  have hlt := idxOf_lt_of_sublist hnd hsub
  rw [List.idxOf_append_of_notMem hu, List.idxOf_append_of_notMem hv, List.idxOf_cons_self] at hlt
  omega

theorem pair_sublist_filter {u v : ℕ} {l : List ℕ} {q : ℕ → Bool} (hu : u ∈ l.filter q)
    (hv : v ∈ l.filter q) (hsub : [u, v].Sublist l) : [u, v].Sublist (l.filter q) := by
  simpa [(List.mem_filter.1 hu).2, (List.mem_filter.1 hv).2] using hsub.filter q

/-- A file keeps its places when it is read back if from each constant the way down, always to
the first declaration that is read and does not stand too early, leads to the statements between
it and the constant before it. -/
def Settled (out : List Declaration) : Prop :=
  ∀ p m, p < m → m < out.length → statementAt out m = false →
    (∀ m', p ≤ m' → m' < m → statementAt out m' = true) →
    PostOrder.LeadsTo (dependencies (out.map Declaration.node)) p m

/-- A file without statements keeps its places. -/
theorem settled_of_no_statement (h : out.filterMap Declaration.statement? = []) : Settled out := by
  intro p m hlt hm _ hfree
  have hp := hfree p le_rfl hlt
  rw [statementAt, List.getElem?_eq_getElem (hlt.trans hm)] at hp
  have hnone := List.filterMap_eq_nil_iff.1 h _ (List.getElem_mem (hlt.trans hm))
  generalize out[p] = d at hp hnone
  cases d with
  | schema d => cases hp
  | statement text => cases hnone

theorem dependenciesByKind_sorted (place : ℕ) : (dependenciesByKind out place).Pairwise fun a b =>
    statementAt out a = true → statementAt out b = true → a < b := by
  have hkind : (placesByKind out).Pairwise fun a b =>
      statementAt out a = true → statementAt out b = true → a < b := by
    refine List.pairwise_append.2 ⟨?_, ?_, ?_⟩
    · refine (List.Pairwise.filter _ List.pairwise_lt_range).imp fun hlt _ _ => hlt
    · refine (List.Pairwise.filter _ List.pairwise_lt_range).imp fun hlt _ _ => hlt
    · intro a ha b _ hstatement
      simp_all
  rw [dependenciesByKind]
  split
  · exact .nil
  · exact hkind.filter _

/-- Equal declarations are read back in the order they had. -/
theorem pair_sublist_placesByKind {u v : ℕ} (huv : u < v) (hv : v < out.length)
    (heq : out[u]? = out[v]?) : [u, v].Sublist (placesByKind out) := by
  have hrange := pair_sublist_range huv hv
  have hkind : statementAt out u = statementAt out v := by rw [statementAt, heq, statementAt]
  rw [placesByKind, PostOrder.heldFirst]
  cases hs : statementAt out v with
  | false =>
    refine List.Sublist.trans ?_ (List.sublist_append_left _ _)
    simpa [hkind, hs] using hrange.filter fun a => ! statementAt out a
  | true =>
    refine List.Sublist.trans ?_ (List.sublist_append_right _ _)
    simpa [hkind, hs] using hrange.filter (statementAt out)

/-- Of equal declarations, the one that stands first is read first. -/
theorem mem_front_of_dependenciesByKind {u v : ℕ} (h : store.ordered = .ok out) (huv : u < v)
    (hv : v < out.length) (heq : out[u]? = out[v]?) (a : ℕ) (front back : List ℕ)
    (hdeps : dependenciesByKind out a = front ++ v :: back) : u ∈ front := by
  have hnd : (dependenciesByKind out a).Nodup := by
    rw [dependenciesByKind]
    split
    · exact .nil
    · exact (nodup_placesByKind out).filter _
  have hreads : Reads (out.map Declaration.node) a v :=
    mem_dependenciesByKind.1 (by rw [hdeps]; simp)
  have hau : a ≠ u := by
    have := lt_of_reads h hreads
    omega
  -- what reads the one reads the other, since both bind the same names
  have hreads' : Reads (out.map Declaration.node) a u := by
    obtain ⟨-, x, y, hx, hy, hmentions⟩ := hreads
    refine ⟨hau, x, y, hx, ?_, hmentions⟩
    rwa [List.getElem?_map, heq, ← List.getElem?_map]
  refine mem_front_of_sublist hnd ?_ hdeps
  have hu := mem_dependenciesByKind.2 hreads'
  have hv' := mem_dependenciesByKind.2 hreads
  rw [dependenciesByKind] at hu hv' ⊢
  rcases hnode : (out.map Declaration.node)[a]? with _ | node
  · rw [hnode] at hu
    cases hu
  · rw [hnode] at hu hv'
    exact pair_sublist_filter hu hv' (pair_sublist_placesByKind huv hv heq)

/-- The walk that is made when the file is read back, in places of the file. -/
theorem walk_dependenciesByKind {places : List ℕ}
    (ho : PostOrder.order (dependencies (store.inOrder out).nodes)
      (store.inOrder out).nodes.length = .ok places) :
    PostOrder.walk (dependenciesByKind out) out.length (placesByKind out) =
      .ok (places.map (placeOf out)) := by
  rw [PostOrder.order_eq_walk, length_nodes_inOrder] at ho
  rw [← map_placeOf_range]
  exact PostOrder.walk_map (placeOf_injective out) dependenciesByKind_placeOf ho

/-- The walk gives the places back exactly if the file is settled. -/
theorem walk_eq_range_iff_settled (h : store.ordered = .ok out) :
    PostOrder.walk (dependenciesByKind out) out.length (placesByKind out) =
      .ok (List.range out.length) ↔ Settled out := by
  have hsame : ∀ a b, b ∈ dependenciesByKind out a ↔
      b ∈ dependencies (out.map Declaration.node) a := fun a b => by
    rw [mem_dependenciesByKind, mem_dependencies]
  rw [placesByKind, PostOrder.walk_eq_range_iff (lt_of_mem_dependenciesByKind h)
    dependenciesByKind_sorted]
  -- both sides ask for the same ways down, in graphs that list their dependencies differently
  constructor
  · exact fun hl p m hpm hm hs hbetween => (hl p m hpm hm hs hbetween).congr hsame
  · exact fun hl p m hpm hm hs hbetween =>
      (hl p m hpm hm hs hbetween).congr fun a b => (hsame a b).symm

/-- A declaration that is written again stood in the file at the place of its node. -/
theorem getElem?_itemsAt_inOrder {places : List ℕ}
    (hlt : ∀ a ∈ places, a < (store.inOrder out).nodes.length) (i : ℕ) :
    (itemsAt (store.inOrder out).nodes places)[i]? =
      (places.map (placeOf out))[i]?.bind fun a => out[a]? := by
  rw [getElem?_itemsAt hlt, List.getElem?_map]
  rcases places[i]? with _ | a
  · rfl
  · change ((store.inOrder out).nodes[a]?).map (·.item) = out[placeOf out a]?
    rw [getElem?_nodes_inOrder, List.getElem?_map]
    rcases out[placeOf out a]? with _ | d
    · rfl
    · exact congrArg some d.item_node

/-- The declarations of a file keep their places exactly if the file is settled. -/
theorem ordered_inOrder_eq_ok_iff (h : store.ordered = .ok out) :
    (store.inOrder out).ordered = .ok out ↔ Settled out := by
  obtain ⟨again, hagain⟩ := exists_ordered_inOrder h
  rcases ho : PostOrder.order (dependencies (store.inOrder out).nodes)
    (store.inOrder out).nodes.length with walk | places
  · rw [ordered_of_order_error ho] at hagain
    cases hagain
  obtain ⟨hperm, -⟩ := PostOrder.perm_of_walk_eq_ok dependencies_lt (.refl _) ho
  have hwalk := walk_dependenciesByKind ho
  have hpermOut : (places.map (placeOf out)).Perm (List.range out.length) := by
    rw [length_nodes_inOrder] at hperm
    refine (hperm.map (placeOf out)).trans ?_
    rw [map_placeOf_range]
    exact placesByKind_perm out
  have hitems : ∀ i : ℕ, (itemsAt (store.inOrder out).nodes places)[i]? =
      (places.map (placeOf out))[i]?.bind fun a => out[a]? :=
    getElem?_itemsAt_inOrder fun a ha => List.mem_range.1 (hperm.subset ha)
  rw [← walk_eq_range_iff_settled h, hwalk, ordered_of_order_ok ho, Except.ok.injEq,
    Except.ok.injEq]
  constructor
  · intro hsame
    -- equal declarations may stand at several places, and none of them is exchanged
    refine eq_range_of_map_eq (g := (out[·]?)) hpermOut ?_ ?_
    · refine List.ext_getElem (by simpa using hpermOut.length_eq) fun i hi hi' => ?_
      have hget := hitems i
      rw [hsame, List.getElem?_eq_getElem (l := places.map _) (by simpa using hi)] at hget
      simpa using hget.symm
    · intro u v huv hv heq
      refine PostOrder.sublist_of_walk (lt_of_mem_dependenciesByKind h)
        (mem_front_of_dependenciesByKind h huv hv heq)
        (fun a ha => List.mem_range.1 ((placesByKind_perm out).subset ha)) ?_ hwalk
        (hpermOut.symm.subset (List.mem_range.2 hv))
      exact fun front back hl => mem_front_of_sublist (nodup_placesByKind out)
        (pair_sublist_placesByKind huv hv heq) hl
  · intro hplaces
    refine List.ext_getElem? fun i => ?_
    rw [hitems, hplaces]
    rcases Nat.lt_or_ge i out.length with hi | hi
    · rw [List.getElem?_range hi]
      rfl
    · rw [List.getElem?_eq_none (by simpa using hi), List.getElem?_eq_none hi]
      rfl

/-- **The declarations of a file that has been written are always ordered again, and they keep
their places exactly if the file is settled.** -/
theorem ordered_inOrder_iff (h : store.ordered = .ok out) :
    (∃ again, (store.inOrder out).ordered = .ok again) ∧
      ((store.inOrder out).ordered = .ok out ↔ Settled out) :=
  ⟨exists_ordered_inOrder h, ordered_inOrder_eq_ok_iff h⟩

end Graph

/-! ### Declarations that move -/

/-- Two constants and two statements: the first constant reads both statements, and the second
statement reads the second constant. -/
def interleaved : Store where
  definitions := [⟨"ASchema", "[X, Y]", false⟩, ⟨"BSchema", "[]", false⟩]
  statements := ["const X = 1;", "const Y = BSchema;"]

/-- The declarations of `interleaved` as they are written. -/
def interleavedFile : List Declaration :=
  [.statement "const X = 1;", .schema ⟨"BSchema", "[]", false⟩, .statement "const Y = BSchema;",
    .schema ⟨"ASchema", "[X, Y]", false⟩]

/-- A file that has been written is ordered again. -/
theorem ordered_inOrder_interleaved :
    (∃ again, (interleaved.inOrder interleavedFile).ordered = .ok again) ∧
      ((interleaved.inOrder interleavedFile).ordered = .ok interleavedFile ↔
        Settled interleavedFile) :=
  ordered_inOrder_iff (by decide +kernel)

/-- **Writing a file again can move its declarations**: the constant that nothing leads down from
comes first the second time. -/
theorem interleaved_moves : interleaved.ordered = .ok interleavedFile ∧
    (interleaved.inOrder interleavedFile).ordered =
      .ok [.schema ⟨"BSchema", "[]", false⟩, .statement "const X = 1;",
        .statement "const Y = BSchema;", .schema ⟨"ASchema", "[X, Y]", false⟩] ∧
    (interleaved.inOrder interleavedFile).ordered ≠ .ok interleavedFile := by
  refine ⟨?_, ?_, ?_⟩ <;> decide +kernel

end Store

end ModuleScaffold
