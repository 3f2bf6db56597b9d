import ModuleScaffold.Store.PostOrder
import Mathlib.Data.List.Chain
import Mathlib.Data.List.Nodup
import Mathlib.Data.List.Range
import Mathlib.Data.List.Perm.Subperm

/-!
# The walk that emits dependencies first

What `ModuleScaffold.PostOrder.visit` does to the list of emitted nodes, whatever the graph. Two
invariants are carried through the recursion: what has been emitted is closed under dependencies
and in order (`ModuleScaffold.PostOrder.Emitted`), and the open nodes form a chain of dependencies
none of which has been emitted (`ModuleScaffold.PostOrder.Trail`). The second is what makes a
node that is met again below itself close a cycle, and what bounds the depth: the trail has no
repetition, so it is never longer than the number of nodes.

Main statements:

* `ModuleScaffold.PostOrder.visit_outcome` – **a visit emits its node behind everything the node
  depends on, or reports a cycle**;
* `ModuleScaffold.PostOrder.walk_outcome` – the same for a walk from a list of roots;
* `ModuleScaffold.PostOrder.walk_isOk_iff` – the walk succeeds exactly on graphs without cycles;
* `ModuleScaffold.PostOrder.foldlM_of_behind` – roots that stand behind their dependencies are
  emitted as they stand;
* `ModuleScaffold.PostOrder.not_isCycle_of_behind` – an order with dependencies first leaves no
  room for a cycle.
-/

namespace ModuleScaffold

namespace PostOrder

variable {deps : ℕ → List ℕ} {n : ℕ}

/-! ### Cycles and orders -/

/-- A walk along dependencies that ends where it started. -/
def IsCycle (deps : ℕ → List ℕ) (walk : List ℕ) : Prop :=
  (∃ a mid, walk = a :: (mid ++ [a])) ∧ walk.IsChain fun a b => b ∈ deps a

/-- Every member of a list stands behind what it depends on. -/
def Behind (deps : ℕ → List ℕ) (out : List ℕ) : Prop :=
  ∀ front a back, out = front ++ a :: back → ∀ b ∈ deps a, b ∈ front

theorem Behind.nil : Behind deps [] := by
  intro front a back h
  simp at h

theorem Behind.concat {out : List ℕ} (h : Behind deps out) {a : ℕ}
    (ha : ∀ b ∈ deps a, b ∈ out) : Behind deps (out ++ [a]) := by
  intro front c back heq b hb
  -- `a` stands last, so what stands at the split is `a` or a member from before
  rcases List.eq_nil_or_concat back with rfl | ⟨back, d, rfl⟩
  · obtain ⟨rfl, hc⟩ := List.append_inj' heq rfl
    obtain rfl : a = c := by simpa using hc
    exact ha b hb
  · rw [List.concat_eq_append, ← List.cons_append, ← List.append_assoc] at heq
    obtain ⟨rfl, -⟩ := List.append_inj' heq rfl
    exact h front c back rfl b hb

/-- What stands before a place in a range. -/
theorem eq_range_of_range_eq_append {front back : List ℕ} {a : ℕ}
    (h : List.range n = front ++ a :: back) : front = List.range a ∧ a < n := by
  rw [List.range_eq_range', List.range'_eq_append_iff] at h
  obtain ⟨k, hk, rfl, hback⟩ := h
  obtain ⟨rfl, hpos, -⟩ := List.range'_eq_cons_iff.1 hback.symm
  rw [List.range_eq_range']
  refine ⟨by simp, ?_⟩
  omega

/-- Nodes that depend on lower ones only are in order. -/
theorem Behind.range (h : ∀ a, ∀ b ∈ deps a, b < a) : Behind deps (List.range n) := by
  intro front a back heq b hb
  rw [(eq_range_of_range_eq_append heq).1]
  exact List.mem_range.2 (h a b hb)

/-- What is reached from a member of an ordered list without repetition stands before it. -/
theorem Behind.idxOf_lt {out : List ℕ} (h : Behind deps out) (hnd : out.Nodup) {a b : ℕ}
    (ha : a ∈ out) (hb : b ∈ deps a) : out.idxOf b < out.idxOf a := by
  obtain ⟨front, back, rfl⟩ := List.append_of_mem ha
  have hbf : b ∈ front := h front a back rfl b hb
  have haf : a ∉ front := by
    intro hc
    exact (List.nodup_append.1 hnd).2.2 a hc a (by simp) rfl
  rw [List.idxOf_append_of_mem hbf, List.idxOf_append_of_notMem haf]
  have := List.idxOf_lt_length_of_mem hbf
  omega

/-- **An order with dependencies first leaves no room for a cycle**: along a walk the places
descend, so it cannot come back. -/
theorem not_isCycle_of_behind {out : List ℕ} (h : Behind deps out) (hnd : out.Nodup)
    {walk : List ℕ} (hw : IsCycle deps walk) (hmem : ∀ a ∈ walk, a ∈ out) : False := by
  obtain ⟨⟨a, mid, rfl⟩, hchain⟩ := hw
  have hdesc : (a :: (mid ++ [a])).IsChain fun x y => out.idxOf y < out.idxOf x :=
    hchain.imp_of_mem_imp fun x y hx _ hy => h.idxOf_lt hnd (hmem x hx) hy
  have : Trans (fun x y => out.idxOf y < out.idxOf x) (fun x y => out.idxOf y < out.idxOf x)
      (fun x y => out.idxOf y < out.idxOf x) := ⟨fun h₁ h₂ => lt_trans h₂ h₁⟩
  have hlt : out.idxOf a < out.idxOf a := hdesc.rel_cons (by simp)
  exact lt_irrefl _ hlt

/-! ### Outcomes -/

/-- What is emitted at some point of a walk: nodes of the graph, none twice, in order. -/
structure Emitted (deps : ℕ → List ℕ) (n : ℕ) (out : List ℕ) : Prop where
  /-- No node is emitted twice. -/
  nodup : out.Nodup
  /-- Nodes of the graph are emitted. -/
  below : ∀ a ∈ out, a < n
  /-- Dependencies are emitted first. -/
  behind : Behind deps out

/-- The open nodes, the last of which waits for `node`: each depends on the next one, and none
has been emitted. -/
structure Trail (deps : ℕ → List ℕ) (n : ℕ) (out trail : List ℕ) (node : ℕ) : Prop where
  /-- No node is open twice. -/
  nodup : trail.Nodup
  /-- Nodes of the graph are open. -/
  below : ∀ a ∈ trail ++ [node], a < n
  /-- Each open node depends on the next one. -/
  chain : (trail ++ [node]).IsChain fun a b => b ∈ deps a
  /-- An open node has not been emitted. -/
  fresh : ∀ a ∈ trail, a ∉ out

/-- What is known of a step that is asked to emit `goal` on top of `out` while the nodes of `trail`
are open: it does so, or it reports a cycle. -/
def Outcome (deps : ℕ → List ℕ) (n : ℕ) (trail out goal : List ℕ) :
    Except (List ℕ) (List ℕ) → Prop
  | .ok out' => Emitted deps n out' ∧ out <+: out' ∧ (∀ a ∈ goal, a ∈ out') ∧ ∀ a ∈ trail, a ∉ out'
  | .error walk => IsCycle deps walk ∧ ∀ a ∈ walk, a < n

/-- One step after the other: the outcome of a list is that of its members, each on top of what
the ones before it have emitted. -/
theorem outcome_foldlM {trail : List ℕ} {step : List ℕ → ℕ → Except (List ℕ) (List ℕ)} :
    ∀ {nodes out : List ℕ}, Emitted deps n out → (∀ a ∈ trail, a ∉ out) →
      (∀ node ∈ nodes, ∀ out, Emitted deps n out → (∀ a ∈ trail, a ∉ out) →
        Outcome deps n trail out [node] (step out node)) →
      Outcome deps n trail out nodes (nodes.foldlM step out)
  | [], out, hout, hfresh, _ => by
    exact ⟨hout, List.prefix_rfl, by simp, hfresh⟩
  | node :: nodes, out, hout, hfresh, hstep => by
    have h₁ := hstep node (by simp) out hout hfresh
    rw [List.foldlM_cons]
    rcases hs : step out node with walk | out₁
    · rw [hs] at h₁
      exact h₁
    · rw [hs] at h₁
      obtain ⟨hout₁, hpre₁, hgoal₁, hfresh₁⟩ := h₁
      -- the rest is emitted on top of what the first step has emitted
      have h₂ := outcome_foldlM hout₁ hfresh₁ fun a ha => hstep a (List.mem_cons_of_mem _ ha)
      change Outcome deps n trail out (node :: nodes) (nodes.foldlM step out₁)
      rcases hr : nodes.foldlM step out₁ with walk | out₂
      · rw [hr] at h₂
        exact h₂
      · rw [hr] at h₂
        obtain ⟨hout₂, hpre₂, hgoal₂, hfresh₂⟩ := h₂
        refine ⟨hout₂, hpre₁.trans hpre₂, ?_, hfresh₂⟩
        intro a ha
        rcases List.mem_cons.1 ha with rfl | ha
        · exact hpre₂.subset (hgoal₁ a (by simp))
        · exact hgoal₂ a ha

/-! ### Visits -/

/-- A node that is met again below itself closes a cycle. -/
theorem isCycle_fromNode {out trail : List ℕ} {node : ℕ} (ht : Trail deps n out trail node)
    (hmem : node ∈ trail) : IsCycle deps (fromNode node trail ++ [node]) ∧
      ∀ a ∈ fromNode node trail ++ [node], a < n := by
  -- the part of the trail from `node` on is the cycle
  obtain ⟨front, back, rfl, hnot⟩ := List.eq_append_cons_of_mem hmem
  have hfrom : fromNode node (front ++ node :: back) = node :: back := by
    rw [fromNode, List.dropWhile_append_of_pos (by
      intro a ha
      simpa using fun hc : a = node => hnot (hc ▸ ha))]
    simp
  rw [hfrom]
  refine ⟨⟨⟨node, back, rfl⟩, ?_⟩, fun a ha => ht.below a ?_⟩
  · have hchain := ht.chain
    rw [List.append_assoc] at hchain
    exact (List.isChain_append.1 hchain).2.1
  · rw [List.append_assoc]
    exact List.mem_append_right _ ha

/-- The trail grows by the node that is opened. -/
theorem Trail.push {out trail : List ℕ} {node dep : ℕ} (ht : Trail deps n out trail node)
    (hout : node ∉ out) (htrail : node ∉ trail) (hdep : dep ∈ deps node) (hlt : dep < n) :
    Trail deps n out (trail ++ [node]) dep := by
  refine ⟨?_, ?_, ?_, ?_⟩
  · exact List.nodup_append.2 ⟨ht.nodup, by simp, by rintro a ha b hb rfl; simp_all⟩
  · intro a ha
    rcases List.mem_append.1 ha with ha | ha
    · exact ht.below a ha
    · obtain rfl : a = dep := by simpa using ha
      exact hlt
  · rw [List.isChain_append]
    refine ⟨ht.chain, List.isChain_singleton _, ?_⟩
    intro a ha b hb
    obtain rfl : node = a := by simpa using ha
    obtain rfl : dep = b := by simpa using hb
    exact hdep
  · intro a ha
    rcases List.mem_append.1 ha with ha | ha
    · exact ht.fresh a ha
    · obtain rfl : a = node := by simpa using ha
      exact hout

/-- Open nodes are nodes of the graph and none is open twice, so there are at most `n`. -/
theorem Trail.length_le {out trail : List ℕ} {node : ℕ} (ht : Trail deps n out trail node) :
    trail.length ≤ n := by
  have hsub : trail ⊆ List.range n := fun a ha =>
    List.mem_range.2 (ht.below a (List.mem_append_left _ ha))
  simpa using (List.subperm_of_subset ht.nodup hsub).length_le

/-- What has been emitted is not visited again. -/
theorem visit_of_mem {fuel : ℕ} {trail out : List ℕ} {node : ℕ} (h : node ∈ out) :
    visit deps fuel trail out node = .ok out := by
  cases fuel <;> rw [visit, if_pos (by simpa using h)]

/-- **A visit emits its node behind everything the node depends on, or reports a cycle.** The
induction is on the fuel; it never runs out, because every level of the recursion opens a node. -/
theorem visit_outcome (hdeps : ∀ a, ∀ b ∈ deps a, b < n) :
    ∀ (fuel : ℕ) (trail out : List ℕ) (node : ℕ), Emitted deps n out →
      Trail deps n out trail node → n < fuel + trail.length →
      Outcome deps n trail out [node] (visit deps fuel trail out node) := by
  intro fuel
  induction fuel with
  | zero =>
    -- without fuel the trail would be longer than there are nodes
    intro trail out node _ ht hfuel
    have := ht.length_le
    omega
  | succ fuel ih =>
    intro trail out node hout ht hfuel
    by_cases hmem : node ∈ out
    · rw [visit_of_mem hmem]
      exact ⟨hout, List.prefix_rfl, by simpa using hmem, ht.fresh⟩
    rw [visit, if_neg (by simpa using hmem)]
    by_cases htrail : node ∈ trail
    · rw [if_pos (by simpa using htrail)]
      exact isCycle_fromNode ht htrail
    rw [if_neg (by simpa using htrail)]
    have hfresh : ∀ a ∈ trail ++ [node], a ∉ out := by
      intro a ha
      rcases List.mem_append.1 ha with ha | ha
      · exact ht.fresh a ha
      · obtain rfl : a = node := by simpa using ha
        exact hmem
    have hlength : n < fuel + (trail ++ [node]).length := by
      rw [List.length_append, List.length_singleton]
      omega
    -- the dependencies are visited with `node` open, so none of them emits it
    have hbelow : Outcome deps n (trail ++ [node]) out (deps node)
        ((deps node).foldlM (visit deps fuel (trail ++ [node])) out) :=
      outcome_foldlM hout hfresh fun dep hdep out' hout' hfresh' =>
        ih (trail ++ [node]) out' dep hout'
          { ht.push hmem htrail hdep (hdeps node dep hdep) with fresh := hfresh' } hlength
    change Outcome deps n trail out [node]
      (((deps node).foldlM (visit deps fuel (trail ++ [node])) out).bind
        fun out => .ok (out ++ [node]))
    rcases hr : (deps node).foldlM (visit deps fuel (trail ++ [node])) out with walk | out'
    · rw [hr] at hbelow
      exact hbelow
    · rw [hr] at hbelow
      obtain ⟨hout', hpre, hgoal, hfresh'⟩ := hbelow
      have hnode : node ∉ out' := hfresh' node (by simp)
      refine ⟨⟨?_, ?_, hout'.behind.concat hgoal⟩, hpre.trans (List.prefix_append _ _), by simp, ?_⟩
      · exact List.nodup_append.2 ⟨hout'.nodup, by simp, by rintro a ha b hb rfl; simp_all⟩
      · intro a ha
        rcases List.mem_append.1 ha with ha | ha
        · exact hout'.below a ha
        · obtain rfl : a = node := by simpa using ha
          exact ht.below a (by simp)
      · intro a ha hc
        rcases List.mem_append.1 hc with hc | hc
        · exact hfresh' a (List.mem_append_left _ ha) hc
        · obtain rfl : a = node := by simpa using hc
          exact htrail ha

/-! ### Walks from roots -/

/-- The walk that visits roots one after the other. -/
def walk (deps : ℕ → List ℕ) (n : ℕ) (roots : List ℕ) : Except (List ℕ) (List ℕ) :=
  roots.foldlM (visit deps (n + 1) []) []

theorem order_eq_walk (deps : ℕ → List ℕ) (n : ℕ) : order deps n = walk deps n (List.range n) :=
  rfl

/-- **A walk emits its roots and all they depend on, or reports a cycle.** -/
theorem walk_outcome (hdeps : ∀ a, ∀ b ∈ deps a, b < n) {roots : List ℕ}
    (hroots : ∀ a ∈ roots, a < n) : Outcome deps n [] [] roots (walk deps n roots) := by
  refine outcome_foldlM ⟨List.nodup_nil, by simp, Behind.nil⟩ (by simp) ?_
  intro root hroot out hout _
  refine visit_outcome hdeps (n + 1) [] out root hout ⟨List.nodup_nil, ?_, ?_, by simp⟩ (by simp)
  · simpa using hroots root hroot
  · exact List.isChain_singleton _

/-- The walk over all nodes gives each node once, dependencies first. -/
theorem perm_of_walk_eq_ok (hdeps : ∀ a, ∀ b ∈ deps a, b < n) {roots out : List ℕ}
    (hroots : roots.Perm (List.range n)) (h : walk deps n roots = .ok out) :
    out.Perm (List.range n) ∧ Behind deps out := by
  have hout := walk_outcome hdeps fun a ha => List.mem_range.1 (hroots.subset ha)
  rw [h] at hout
  obtain ⟨hem, -, hgoal, -⟩ := hout
  refine ⟨(List.perm_ext_iff_of_nodup hem.nodup List.nodup_range).2 fun a => ?_, hem.behind⟩
  constructor
  · exact fun ha => List.mem_range.2 (hem.below a ha)
  · exact fun ha => hgoal a (hroots.symm.subset ha)

/-- **The walk succeeds exactly on graphs without cycles.** -/
theorem walk_isOk_iff (hdeps : ∀ a, ∀ b ∈ deps a, b < n) {roots : List ℕ}
    (hroots : roots.Perm (List.range n)) :
    (∃ out, walk deps n roots = .ok out) ↔ ¬∃ cyc, IsCycle deps cyc ∧ ∀ a ∈ cyc, a < n := by
  constructor
  · rintro ⟨out, h⟩ ⟨cyc, hcyc, hlt⟩
    obtain ⟨hperm, hbehind⟩ := perm_of_walk_eq_ok hdeps hroots h
    refine not_isCycle_of_behind hbehind (hperm.nodup_iff.2 List.nodup_range) hcyc fun a ha => ?_
    exact hperm.symm.subset (List.mem_range.2 (hlt a ha))
  · intro hno
    have hout := walk_outcome hdeps fun a ha => List.mem_range.1 (hroots.subset ha)
    rcases h : walk deps n roots with cyc | out
    · rw [h] at hout
      exact absurd ⟨cyc, hout⟩ hno
    · exact ⟨out, rfl⟩

/-- A node whose dependencies have been emitted is emitted next. -/
theorem visit_of_emitted {fuel : ℕ} {trail out : List ℕ} {node : ℕ} (hnode : node ∉ out)
    (htrail : node ∉ trail) (h : ∀ b ∈ deps node, b ∈ out) :
    visit deps (fuel + 1) trail out node = .ok (out ++ [node]) := by
  -- visiting what has been emitted leaves the list as it is
  have hskip : ∀ l : List ℕ, (∀ b ∈ l, b ∈ out) →
      l.foldlM (visit deps fuel (trail ++ [node])) out = .ok out := by
    intro l hl
    induction l with
    | nil => rfl
    | cons b l ih =>
      rw [List.foldlM_cons, visit_of_mem (hl b (by simp))]
      exact ih fun c hc => hl c (by simp [hc])
  rw [visit, if_neg (by simpa using hnode), if_neg (by simpa using htrail), hskip _ h]
  rfl

/-- **Roots that stand behind their dependencies are emitted as they stand.** -/
theorem foldlM_of_behind (fuel : ℕ) : ∀ roots out : List ℕ, (out ++ roots).Nodup →
    Behind deps (out ++ roots) → roots.foldlM (visit deps (fuel + 1) []) out = .ok (out ++ roots)
  | [], out, _, _ => by
    rw [List.append_nil]
    rfl
  | root :: roots, out, hnd, hb => by
    have hroot : root ∉ out := by
      intro hc
      exact (List.nodup_append.1 hnd).2.2 root hc root (by simp) rfl
    rw [List.foldlM_cons, visit_of_emitted hroot (by simp) (hb out root roots rfl)]
    have happ : out ++ root :: roots = (out ++ [root]) ++ roots := by simp
    rw [happ] at hnd hb ⊢
    exact foldlM_of_behind fuel roots _ hnd hb

end PostOrder

end ModuleScaffold
