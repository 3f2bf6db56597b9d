import ModuleScaffold.Proofs.Order.Walk
import Mathlib.Data.List.Sort

/-!
# Walking an order again

A graph whose nodes are numbered in an order that has every node behind its dependencies is walked
again, from another list of roots: the *held* nodes come first and the *free* ones after them,
each in the order of their numbers. Does the walk give the same order back?

The held nodes keep their places among each other, because all that a held node depends on among
them has been emitted before it is visited. A free node in front of a held one is another
matter: it is emitted in front of that node only if the walk from that node comes down to it, and
only at the right time. The walk goes from each open node to its first dependency that has not
been emitted, so the one thing that matters is the way down that always takes the first dependency
not in front of the free node (`ModuleScaffold.PostOrder.LeadsTo`).

Main statements:

* `ModuleScaffold.PostOrder.walk_eq_range_iff` – **the order comes back exactly if from each held
  node the way down leads to all free nodes between it and the held node before it**;
* `ModuleScaffold.PostOrder.visit_map` – a walk does not depend on how the nodes are named;
* `ModuleScaffold.PostOrder.sublist_of_walk` – of two nodes that are always visited one before the
  other, that one is emitted first.
-/

namespace ModuleScaffold

namespace PostOrder

variable {deps : ℕ → List ℕ} {free : ℕ → Bool} {n : ℕ}

/-! ### The way down -/

/-- From one node down to `p`, always to the first dependency that is not before `p`. -/
inductive LeadsTo (deps : ℕ → List ℕ) (p : ℕ) : ℕ → Prop
  /-- The way ends at `p`. -/
  | here : LeadsTo deps p p
  /-- The way goes on to the first dependency that is not before `p`. -/
  | down {u d : ℕ} : d ∈ deps u → p ≤ d → (∀ e ∈ deps u, p ≤ e → d ≤ e) → LeadsTo deps p d →
      LeadsTo deps p u

/-- The way down depends on which dependencies there are, not on how they are listed. -/
theorem LeadsTo.congr {deps' : ℕ → List ℕ} (h : ∀ a b, b ∈ deps a ↔ b ∈ deps' a) {p u : ℕ}
    (hl : LeadsTo deps p u) : LeadsTo deps' p u := by
  induction hl with
  | here => exact .here
  | down hd hpd hmin _ ih => exact .down ((h _ _).1 hd) hpd (fun e he => hmin e ((h _ e).2 he)) ih

theorem leadsTo_iff_of_lt {p u : ℕ} (hlt : p < u) : LeadsTo deps p u ↔
    ∃ d ∈ deps u, p ≤ d ∧ (∀ e ∈ deps u, p ≤ e → d ≤ e) ∧ LeadsTo deps p d := by
  constructor
  · intro h
    cases h with
    | here => exact absurd hlt (lt_irrefl _)
    | down hd hpd hmin hl => exact ⟨_, hd, hpd, hmin, hl⟩
  · rintro ⟨d, hd, hpd, hmin, hl⟩
    exact .down hd hpd hmin hl

/-! ### Visits taken apart -/

theorem foldlM_cons_eq_ok {step : List ℕ → ℕ → Except (List ℕ) (List ℕ)} {a : ℕ}
    {nodes out out' : List ℕ} : (a :: nodes).foldlM step out = .ok out' ↔
      ∃ mid, step out a = .ok mid ∧ nodes.foldlM step mid = .ok out' := by
  rw [List.foldlM_cons]
  rcases step out a with cyc | mid
  · constructor
    · intro h
      cases h
    · rintro ⟨mid, h, -⟩
      cases h
  · constructor
    · exact fun h => ⟨mid, rfl, h⟩
    · rintro ⟨mid', h, h'⟩
      cases h
      exact h'

theorem visit_succ_eq_ok {fuel : ℕ} {trail out out' : List ℕ} {node : ℕ} (hnode : node ∉ out) :
    visit deps (fuel + 1) trail out node = .ok out' ↔ node ∉ trail ∧
      ∃ mid, (deps node).foldlM (visit deps fuel (trail ++ [node])) out = .ok mid ∧
        out' = mid ++ [node] := by
  rw [visit, if_neg (by simpa using hnode)]
  by_cases htrail : node ∈ trail
  · rw [if_pos (by simpa using htrail)]
    constructor
    · intro h
      cases h
    · exact fun h => absurd htrail h.1
  rw [if_neg (by simpa using htrail)]
  change ((deps node).foldlM (visit deps fuel (trail ++ [node])) out).bind
    (fun out => .ok (out ++ [node])) = .ok out' ↔ _
  rcases (deps node).foldlM (visit deps fuel (trail ++ [node])) out with cyc | mid
  · constructor
    · intro h
      cases h
    · rintro ⟨-, mid, h, -⟩
      cases h
  · constructor
    · intro h
      cases h
      exact ⟨htrail, mid, rfl, rfl⟩
    · rintro ⟨-, mid', h, rfl⟩
      cases h
      rfl

/-- What has been emitted stays, through every step. -/
theorem prefix_of_foldlM {step : List ℕ → ℕ → Except (List ℕ) (List ℕ)}
    (hstep : ∀ out out' a, step out a = .ok out' → out <+: out') :
    ∀ {nodes out out' : List ℕ}, nodes.foldlM step out = .ok out' → out <+: out'
  | [], out, out', h => by
    cases h
    exact List.prefix_rfl
  | a :: nodes, out, out', h => by
    obtain ⟨mid, ha, h⟩ := foldlM_cons_eq_ok.1 h
    exact (hstep out mid a ha).trans (prefix_of_foldlM hstep h)

/-- What has been emitted stays. -/
theorem prefix_of_visit {fuel : ℕ} : ∀ {trail : List ℕ} (out out' : List ℕ) (node : ℕ),
    visit deps fuel trail out node = .ok out' → out <+: out' := by
  induction fuel with
  | zero =>
    -- without fuel nothing is emitted
    intro trail out out' node h
    rw [visit] at h
    split at h
    · cases h
      exact List.prefix_rfl
    · split at h
      · cases h
      · cases h
        exact List.prefix_rfl
  | succ fuel ih =>
    intro trail out out' node h
    by_cases hnode : node ∈ out
    · rw [visit_of_mem hnode] at h
      cases h
      exact List.prefix_rfl
    · obtain ⟨-, mid, hmid, rfl⟩ := (visit_succ_eq_ok hnode).1 h
      exact (prefix_of_foldlM ih hmid).trans (List.prefix_append _ _)

/-- A visit with fuel emits its node. -/
theorem mem_of_visit {fuel : ℕ} {trail out out' : List ℕ} {node : ℕ}
    (h : visit deps (fuel + 1) trail out node = .ok out') : node ∈ out' := by
  by_cases hnode : node ∈ out
  · rw [visit_of_mem hnode] at h
    cases h
    exact hnode
  · obtain ⟨-, mid, -, rfl⟩ := (visit_succ_eq_ok hnode).1 h
    simp

/-- All nodes of a list are emitted. -/
theorem mem_of_foldlM {fuel : ℕ} {trail : List ℕ} : ∀ {nodes out out' : List ℕ},
    nodes.foldlM (visit deps (fuel + 1) trail) out = .ok out' → ∀ a ∈ nodes, a ∈ out'
  | [], _, _, _, a, ha => by cases ha
  | b :: nodes, out, out', h, a, ha => by
    obtain ⟨mid, hb, hrest⟩ := foldlM_cons_eq_ok.1 h
    rcases List.mem_cons.1 ha with rfl | ha
    · exact (prefix_of_foldlM prefix_of_visit hrest).subset (mem_of_visit hb)
    · exact mem_of_foldlM hrest a ha

/-- What stands in front of a node at the end of a part of a range. -/
theorem eq_range_of_isPrefix_append {out : List ℕ} {node : ℕ} (h : out ++ [node] <+: List.range n) :
    out = List.range node := by
  obtain ⟨back, h⟩ := h
  rw [List.append_assoc, List.singleton_append] at h
  exact (eq_range_of_range_eq_append h.symm).1

/-! ### Visits from a range -/

/-- The nodes of one list, visited when the nodes below `q` have been emitted and none from `q` to
`u` is held. -/
theorem foldlM_eq_range_iff {step : List ℕ → ℕ → Except (List ℕ) (List ℕ)}
    (hskip : ∀ out a, a ∈ out → step out a = .ok out)
    (hpre : ∀ out out' a, step out a = .ok out' → out <+: out') {u : ℕ}
    (hmem : ∀ out out' a, a < u → a ∉ out → step out a = .ok out' → ∃ mid, out' = mid ++ [a])
    (hstep : ∀ q a, q ≤ a → a < u → (∀ p, q ≤ p → p < a → free p = true) →
      (step (List.range q) a = .ok (List.range (a + 1)) ↔
        ∀ p, q ≤ p → p < a → LeadsTo deps p a)) :
    ∀ {nodes : List ℕ} {q : ℕ}, q ≤ u → (∀ p, q ≤ p → p < u → free p = true) →
      (∀ a ∈ nodes, a < u) → nodes.Pairwise (fun a b => free a = true → free b = true → a < b) →
      (nodes.foldlM step (List.range q) = .ok (List.range u) ↔
        ∀ p, q ≤ p → p < u → ∃ d ∈ nodes, p ≤ d ∧ (∀ e ∈ nodes, p ≤ e → d ≤ e) ∧ LeadsTo deps p d)
  | [], q, hq, _, _, _ => by
    constructor
    · intro h
      have hlen : q = u := by simpa using congrArg List.length (Except.ok.inj h)
      omega
    · intro h
      rcases Nat.eq_or_lt_of_le hq with rfl | hlt
      · rfl
      · obtain ⟨d, hd, -⟩ := h q le_rfl hlt
        cases hd
  | a :: nodes, q, hq, hfree, hlt, hpw => by
    obtain ⟨ha, hpw⟩ := List.pairwise_cons.1 hpw
    have hau : a < u := hlt a (by simp)
    have hlt' : ∀ b ∈ nodes, b < u := fun b hb => hlt b (List.mem_cons_of_mem _ hb)
    rw [foldlM_cons_eq_ok]
    rcases Nat.lt_or_ge a q with haq | haq
    · -- `a` has been emitted, and is out of the way of what is not
      rw [hskip _ _ (List.mem_range.2 haq)]
      simp only [Except.ok.injEq, exists_eq_left', List.mem_cons, exists_eq_or_imp,
        forall_eq_or_imp]
      rw [foldlM_eq_range_iff hskip hpre hmem hstep hq hfree hlt' hpw]
      refine forall_congr' fun p => forall_congr' fun hqp => forall_congr' fun hpu => ?_
      constructor
      · rintro ⟨d, hd, hpd, hmin, hl⟩
        exact .inr ⟨d, hd, hpd, ⟨by omega, hmin⟩, hl⟩
      · rintro (⟨hpa, -⟩ | ⟨d, hd, hpd, ⟨-, hmin⟩, hl⟩)
        · omega
        · exact ⟨d, hd, hpd, hmin, hl⟩
    · -- `a` is the first that has not been emitted
      have hq' : a + 1 ≤ u := hau
      have hfree' : ∀ p, a + 1 ≤ p → p < u → free p = true := fun p hp => hfree p (by omega)
      have hnext : ∀ b ∈ nodes, q ≤ b → a < b := fun b hb hqb =>
        ha b hb (hfree a haq hau) (hfree b hqb (hlt' b hb))
      have ih := foldlM_eq_range_iff hskip hpre hmem hstep hq' hfree' hlt' hpw
      have hone := hstep q a haq hau fun p hqp hpa => hfree p hqp (by omega)
      -- what stands in front of `a` at the end is all that is below it
      have hmid : ∀ mid, step (List.range q) a = .ok mid →
          nodes.foldlM step mid = .ok (List.range u) → mid = List.range (a + 1) := by
        intro mid hmid h
        obtain ⟨mid, rfl⟩ := hmem _ _ a hau (by simpa using haq) hmid
        rw [eq_range_of_isPrefix_append (prefix_of_foldlM hpre h), List.range_succ]
      constructor
      · rintro ⟨mid, hm, h⟩ p hqp hpu
        obtain rfl := hmid mid hm h
        rcases Nat.lt_or_ge a p with hap | hpa
        · obtain ⟨d, hd, hpd, hmin, hl⟩ := ih.1 h p hap hpu
          refine ⟨d, List.mem_cons_of_mem _ hd, hpd, ?_, hl⟩
          intro e he hpe
          rcases List.mem_cons.1 he with rfl | he
          · omega
          · exact hmin e he hpe
        · refine ⟨a, by simp, hpa, ?_, ?_⟩
          · intro e he hpe
            rcases List.mem_cons.1 he with rfl | he
            · exact le_rfl
            · exact (hnext e he (by omega)).le
          · rcases Nat.eq_or_lt_of_le hpa with rfl | hpa
            · exact .here
            · exact hone.1 hm p hqp hpa
      · intro h
        refine ⟨List.range (a + 1), hone.2 ?_, ih.2 ?_⟩
        · intro p hqp hpa
          obtain ⟨d, hd, hpd, hmin, hl⟩ := h p hqp (by omega)
          rcases List.mem_cons.1 hd with rfl | hd
          · exact hl
          · have := hmin a (by simp) hpa.le
            have := hnext d hd (by omega)
            omega
        · intro p hap hpu
          obtain ⟨d, hd, hpd, hmin, hl⟩ := h p (by omega) hpu
          rcases List.mem_cons.1 hd with rfl | hd
          · omega
          · exact ⟨d, hd, hpd, fun e he => hmin e (List.mem_cons_of_mem _ he), hl⟩

theorem mem_last_of_visit {fuel : ℕ} {trail out out' : List ℕ} {node : ℕ} (hnode : node ∉ out)
    (h : visit deps (fuel + 1) trail out node = .ok out') : ∃ mid, out' = mid ++ [node] := by
  obtain ⟨-, mid, -, rfl⟩ := (visit_succ_eq_ok hnode).1 h
  exact ⟨mid, rfl⟩

/-- **What a visit adds to a range.** When no node from `q` to `u` is held, the visit of `u` fills
the range exactly if the way down from `u` leads to all of them. -/
theorem visit_eq_range_iff (low : ∀ a, ∀ b ∈ deps a, b < a)
    (sorted : ∀ a, (deps a).Pairwise fun b c => free b = true → free c = true → b < c) :
    ∀ {fuel q u : ℕ} {trail : List ℕ}, u < fuel → q ≤ u → (∀ t ∈ trail, u < t) →
      (∀ p, q ≤ p → p < u → free p = true) →
      (visit deps fuel trail (List.range q) u = .ok (List.range (u + 1)) ↔
        ∀ p, q ≤ p → p < u → LeadsTo deps p u) := by
  intro fuel
  induction fuel with
  | zero =>
    intro q u trail hu
    omega
  | succ fuel ih =>
    intro q u trail hu hq htrail hfree
    have hnode : u ∉ List.range q := by simpa using hq
    have hnot : u ∉ trail := fun hc => lt_irrefl _ (htrail u hc)
    rw [visit_succ_eq_ok hnode, List.range_succ]
    -- what is emitted below `u` fills the range up to `u`, by the statement for lists
    have hstep : (deps u).foldlM (visit deps fuel (trail ++ [u])) (List.range q) =
        .ok (List.range u) ↔ ∀ p, q ≤ p → p < u →
          ∃ d ∈ deps u, p ≤ d ∧ (∀ e ∈ deps u, p ≤ e → d ≤ e) ∧ LeadsTo deps p d := by
      refine foldlM_eq_range_iff (fun out a ha => visit_of_mem ha) prefix_of_visit ?_ ?_ hq hfree
        (low u) (sorted u)
      · intro out out' a hau ha h
        obtain ⟨fuel, rfl⟩ := Nat.exists_eq_add_one.2 (show 0 < fuel by omega)
        exact mem_last_of_visit ha h
      · intro q a hqa hau hfree
        refine ih (by omega) hqa ?_ hfree
        intro t ht
        rcases List.mem_append.1 ht with ht | ht
        · have := htrail t ht
          omega
        · obtain rfl : t = u := by simpa using ht
          exact hau
    constructor
    · rintro ⟨-, mid, hmid, h⟩ p hqp hpu
      obtain rfl : List.range u = mid := List.append_cancel_right h
      exact (leadsTo_iff_of_lt hpu).2 (hstep.1 hmid p hqp hpu)
    · intro h
      refine ⟨hnot, List.range u, hstep.2 ?_, rfl⟩
      exact fun p hqp hpu => (leadsTo_iff_of_lt hpu).1 (h p hqp hpu)

/-! ### Walks from held nodes -/

/-- The held nodes of a list, in front of the free ones. -/
def heldFirst (free : ℕ → Bool) (nodes : List ℕ) : List ℕ :=
  nodes.filter (fun a => ! free a) ++ nodes.filter free

/-- The held nodes come back in their places exactly if the way down from each leads to the free
ones in front of it. -/
theorem foldlM_held_iff (low : ∀ a, ∀ b ∈ deps a, b < a)
    (sorted : ∀ a, (deps a).Pairwise fun b c => free b = true → free c = true → b < c) :
    ∀ {held : List ℕ} {q : ℕ}, q ≤ n → held.Pairwise (· < ·) → (∀ m ∈ held, m < n) →
      (∀ m ∈ held, q ≤ m) → (∀ p m, m ∈ held → q ≤ p → p < m → free p = false → p ∈ held) →
      ((∃ k ≤ n, held.foldlM (visit deps (n + 1) []) (List.range q) = .ok (List.range k)) ↔
        ∀ p m, m ∈ held → q ≤ p → p < m → (∀ m' ∈ held, m' < m → m' < p) → LeadsTo deps p m)
  | [], q, hqn, _, _, _, _ => by
    constructor
    · intro _ p m hm
      cases hm
    · exact fun _ => ⟨q, hqn, rfl⟩
  | m :: held, q, hqn, hpw, hlt, hq, hall => by
    obtain ⟨hm, hpw⟩ := List.pairwise_cons.1 hpw
    have hqm : q ≤ m := hq m (by simp)
    -- `m` is the first held node from `q` on
    have hfree : ∀ p, q ≤ p → p < m → free p = true := by
      intro p hqp hpm
      by_contra hc
      rcases List.mem_cons.1 (hall p m (by simp) hqp hpm (by simpa using hc)) with rfl | hp
      · exact lt_irrefl _ hpm
      · exact absurd (hm p hp) (by omega)
    have hmn : m < n := hlt m (by simp)
    have hfuel : m < n + 1 := by omega
    have htrail : ∀ t ∈ ([] : List ℕ), m < t := by simp
    have hone := visit_eq_range_iff low sorted hfuel hqm htrail hfree
    have ih := foldlM_held_iff low sorted (q := m + 1) hmn hpw
      (fun a ha => hlt a (List.mem_cons_of_mem _ ha)) hm fun p a ha hmp hpa hp => by
        rcases List.mem_cons.1 (hall p a (List.mem_cons_of_mem _ ha) (by omega) hpa hp) with h | h
        · omega
        · exact h
    constructor
    · rintro ⟨k, hk, h⟩ p a ha hqp hpa hbelow
      obtain ⟨mid, hmid, hrest⟩ := foldlM_cons_eq_ok.1 h
      obtain ⟨front, rfl⟩ := mem_last_of_visit (by simpa using hqm) hmid
      rw [eq_range_of_isPrefix_append (prefix_of_foldlM prefix_of_visit hrest), ← List.range_succ]
        at hmid hrest
      rcases List.mem_cons.1 ha with rfl | ha
      · exact hone.1 hmid p hqp hpa
      · refine ih.1 ⟨k, hk, hrest⟩ p a ha (hbelow m (by simp) (hm a ha)) hpa ?_
        exact fun m' hm' => hbelow m' (List.mem_cons_of_mem _ hm')
    · intro h
      have hmid := hone.2 fun p hqp hpm => h p m (by simp) hqp hpm fun m' hm' hlt' => by
        rcases List.mem_cons.1 hm' with rfl | hm'
        · exact absurd hlt' (lt_irrefl _)
        · exact absurd (hm m' hm') (by omega)
      obtain ⟨k, hkn, hk⟩ := ih.2 fun p a ha hmp hpa hbelow => by
        refine h p a (List.mem_cons_of_mem _ ha) (by omega) hpa fun m' hm' hlt => ?_
        rcases List.mem_cons.1 hm' with rfl | hm'
        · exact hmp
        · exact hbelow m' hm' hlt
      exact ⟨k, hkn, foldlM_cons_eq_ok.2 ⟨_, hmid, hk⟩⟩

/-- Once the held nodes are emitted in their places, the free ones follow in theirs. -/
theorem foldlM_ascending (low : ∀ a, ∀ b ∈ deps a, b < a) {fuel : ℕ} : ∀ {l : List ℕ} {k : ℕ},
    k ≤ n → l.Pairwise (· < ·) → (∀ a ∈ l, a < n) → (∀ a, k ≤ a → a < n → a ∈ l) →
      l.foldlM (visit deps (fuel + 1) []) (List.range k) = .ok (List.range n)
  | [], k, hk, _, _, hall => by
    rcases Nat.eq_or_lt_of_le hk with rfl | hlt
    · rfl
    · cases hall k le_rfl hlt
  | a :: l, k, hk, hsort, hlt, hall => by
    obtain ⟨ha, hpw⟩ := List.pairwise_cons.1 hsort
    have hlt' : ∀ b ∈ l, b < n := fun b hb => hlt b (List.mem_cons_of_mem _ hb)
    rw [foldlM_cons_eq_ok]
    rcases Nat.lt_or_ge a k with hak | hka
    · refine ⟨_, visit_of_mem (List.mem_range.2 hak), foldlM_ascending low hk hpw hlt' ?_⟩
      intro b hkb hbn
      rcases List.mem_cons.1 (hall b hkb hbn) with rfl | hb
      · omega
      · exact hb
    · -- the first free node that is missing is the lowest one
      obtain rfl : k = a := by
        rcases List.mem_cons.1 (hall k le_rfl (by have := hlt a (by simp); omega)) with h | h
        · exact h
        · have := ha k h
          omega
      have hvisit : visit deps (fuel + 1) [] (List.range k) k = .ok (List.range (k + 1)) := by
        rw [visit_of_emitted (by simp) (by simp) fun b hb => List.mem_range.2 (low k b hb),
          List.range_succ]
      refine ⟨_, hvisit, foldlM_ascending low (hlt k (by simp)) hpw hlt' ?_⟩
      intro b hkb hbn
      rcases List.mem_cons.1 (hall b (by omega) hbn) with rfl | hb
      · omega
      · exact hb

theorem mem_held {m : ℕ} :
    m ∈ (List.range n).filter (fun a => ! free a) ↔ m < n ∧ free m = false := by
  simp

theorem pairwise_filter_range (q : ℕ → Bool) : ((List.range n).filter q).Pairwise (· < ·) :=
  List.Pairwise.filter q List.pairwise_lt_range

/-- The held nodes of a range fill a range exactly if from each of them the way down leads to all
free nodes between it and the held node before it. -/
theorem foldlM_held_range_iff (low : ∀ a, ∀ b ∈ deps a, b < a)
    (sorted : ∀ a, (deps a).Pairwise fun b c => free b = true → free c = true → b < c) :
    (∃ k ≤ n, ((List.range n).filter fun a => ! free a).foldlM (visit deps (n + 1) []) [] =
        .ok (List.range k)) ↔
      ∀ p m, p < m → m < n → free m = false → (∀ m', p ≤ m' → m' < m → free m' = true) →
        LeadsTo deps p m := by
  have hheld := foldlM_held_iff low sorted (Nat.zero_le n) (pairwise_filter_range fun a => ! free a)
    (fun m hm => (mem_held.1 hm).1) (fun m _ => Nat.zero_le m)
    (fun p m hm _ hpm hp => mem_held.2 ⟨hpm.trans (mem_held.1 hm).1, hp⟩)
  rw [List.range_zero] at hheld
  rw [hheld]
  simp only [mem_held]
  constructor
  · intro h p m hpm hm hf hbetween
    refine h p m ⟨hm, hf⟩ (Nat.zero_le _) hpm ?_
    rintro m' ⟨-, hf'⟩ hlt
    by_contra hc
    have := hbetween m' (by omega) hlt
    simp_all
  · rintro h p m ⟨hm, hf⟩ - hpm hbelow
    refine h p m hpm hm hf fun m' hpm' hlt => ?_
    by_contra hc
    have := hbelow m' ⟨by omega, by simpa using hc⟩ hlt
    omega

/-- The walk gives the order back exactly if the held nodes fill a range: the free ones follow in
any case. -/
theorem walk_heldFirst_iff (low : ∀ a, ∀ b ∈ deps a, b < a) :
    walk deps n (heldFirst free (List.range n)) = .ok (List.range n) ↔
      ∃ k ≤ n, ((List.range n).filter fun a => ! free a).foldlM (visit deps (n + 1) []) [] =
        .ok (List.range k) := by
  rw [walk, heldFirst, List.foldlM_append]
  constructor
  · intro h
    rcases hk : ((List.range n).filter fun a => ! free a).foldlM (visit deps (n + 1) []) [] with
      cyc | out
    · rw [hk] at h
      cases h
    · rw [hk] at h
      have hpre : out <+: List.range n := prefix_of_foldlM prefix_of_visit h
      have hlen : out.length ≤ n := by simpa using hpre.length_le
      refine ⟨out.length, hlen, congrArg Except.ok ?_⟩
      rw [List.prefix_iff_eq_take.1 hpre, List.take_range, List.length_range]
  · rintro ⟨k, hkn, hk⟩
    rw [hk]
    refine foldlM_ascending low hkn (pairwise_filter_range free) ?_ ?_
    · exact fun a ha => List.mem_range.1 (List.mem_filter.1 ha).1
    · intro a hka han
      -- a held node from `k` on would have been emitted
      refine List.mem_filter.2 ⟨List.mem_range.2 han, ?_⟩
      by_contra hc
      have := mem_of_foldlM hk a (mem_held.2 ⟨han, by simpa using hc⟩)
      have := List.mem_range.1 this
      omega

/-- **The order comes back exactly if from each held node the way down leads to all free nodes
between it and the held node before it.** -/
theorem walk_eq_range_iff (low : ∀ a, ∀ b ∈ deps a, b < a)
    (sorted : ∀ a, (deps a).Pairwise fun b c => free b = true → free c = true → b < c) :
    walk deps n (heldFirst free (List.range n)) = .ok (List.range n) ↔
      ∀ p m, p < m → m < n → free m = false → (∀ m', p ≤ m' → m' < m → free m' = true) →
        LeadsTo deps p m := by
  rw [walk_heldFirst_iff low, foldlM_held_range_iff low sorted]

/-! ### Names of nodes -/

/-- A walk does not depend on how the nodes are named, one step after the other. -/
theorem foldlM_map {step step' : List ℕ → ℕ → Except (List ℕ) (List ℕ)} {f : ℕ → ℕ}
    (hstep : ∀ out out' a, step out a = .ok out' → step' (out.map f) (f a) = .ok (out'.map f)) :
    ∀ {nodes out out' : List ℕ}, nodes.foldlM step out = .ok out' →
      (nodes.map f).foldlM step' (out.map f) = .ok (out'.map f)
  | [], out, out', h => by
    cases h
    rfl
  | a :: nodes, out, out', h => by
    obtain ⟨mid, ha, hrest⟩ := foldlM_cons_eq_ok.1 h
    rw [List.map_cons, foldlM_cons_eq_ok]
    exact ⟨mid.map f, hstep out mid a ha, foldlM_map hstep hrest⟩

/-- **A walk does not depend on how the nodes are named.** -/
theorem visit_map {deps' : ℕ → List ℕ} {f : ℕ → ℕ} (hf : Function.Injective f)
    (hdeps : ∀ a, deps' (f a) = (deps a).map f) {fuel : ℕ} :
    ∀ (trail out out' : List ℕ) (node : ℕ),
      visit deps fuel trail out node = .ok out' →
        visit deps' fuel (trail.map f) (out.map f) (f node) = .ok (out'.map f) := by
  induction fuel with
  | zero =>
    intro trail out out' node h
    by_cases hnode : node ∈ out
    · rw [visit_of_mem hnode] at h
      cases h
      rw [visit_of_mem (List.mem_map_of_mem hnode)]
    · rw [visit, if_neg (by simpa using hnode)] at h
      by_cases htrail : node ∈ trail
      · rw [if_pos (by simpa using htrail)] at h
        cases h
      · rw [if_neg (by simpa using htrail)] at h
        cases h
        rw [visit, if_neg (by simpa [hf.eq_iff] using hnode),
          if_neg (by simpa [hf.eq_iff] using htrail)]
  | succ fuel ih =>
    intro trail out out' node h
    by_cases hnode : node ∈ out
    · rw [visit_of_mem hnode] at h
      cases h
      rw [visit_of_mem (List.mem_map_of_mem hnode)]
    · obtain ⟨htrail, mid, hmid, rfl⟩ := (visit_succ_eq_ok hnode).1 h
      rw [visit_succ_eq_ok (by simpa [hf.eq_iff] using hnode)]
      refine ⟨by simpa [hf.eq_iff] using htrail, mid.map f, ?_, by simp⟩
      rw [hdeps]
      simpa using foldlM_map (ih _) hmid

theorem walk_map {deps' : ℕ → List ℕ} {f : ℕ → ℕ} (hf : Function.Injective f)
    (hdeps : ∀ a, deps' (f a) = (deps a).map f) {roots out : List ℕ}
    (h : walk deps n roots = .ok out) : walk deps' n (roots.map f) = .ok (out.map f) :=
  foldlM_map (visit_map hf hdeps []) h

/-! ### Nodes that are visited one before the other -/

/-- Visited one before the other, emitted one before the other: the nodes of one list. -/
theorem sublist_of_foldlM {step : List ℕ → ℕ → Except (List ℕ) (List ℕ)} {u v : ℕ}
    (hpre : ∀ out out' a, step out a = .ok out' → out <+: out') :
    ∀ {nodes out out' : List ℕ}, (∀ a ∈ nodes, ∀ out out', step out a = .ok out' → a ∈ out') →
      (∀ a ∈ nodes, ∀ out out', (v ∈ out → [u, v].Sublist out) → (a = v → u ∈ out) →
        step out a = .ok out' → v ∈ out' → [u, v].Sublist out') →
      (∀ front back, nodes = front ++ v :: back → u ∈ front ∨ u ∈ out) →
      (v ∈ out → [u, v].Sublist out) → nodes.foldlM step out = .ok out' →
      v ∈ out' → [u, v].Sublist out'
  | [], out, out', _, _, _, hout, h => by
    cases h
    exact hout
  | a :: nodes, out, out', hmem, hstep, hfront, hout, h => by
    obtain ⟨mid, ha, hrest⟩ := foldlM_cons_eq_ok.1 h
    -- if `a` is `v` itself, then `u` stands in front of it in the list or was emitted before
    have hmid : v ∈ mid → [u, v].Sublist mid := by
      refine hstep a (by simp) out mid hout ?_ ha
      rintro rfl
      simpa using hfront [] nodes rfl
    refine sublist_of_foldlM hpre (fun b hb => hmem b (List.mem_cons_of_mem _ hb))
      (fun b hb => hstep b (List.mem_cons_of_mem _ hb)) ?_ hmid hrest
    rintro front back rfl
    rcases hfront (a :: front) back rfl with hu | hu
    · rcases List.mem_cons.1 hu with rfl | hu
      · exact .inr (hmem u (by simp) out mid ha)
      · exact .inl hu
    · exact .inr ((hpre out mid a ha).subset hu)

theorem sublist_of_visit (low : ∀ a, ∀ b ∈ deps a, b < a) {u v : ℕ}
    (hfront : ∀ a front back, deps a = front ++ v :: back → u ∈ front) :
    ∀ {fuel : ℕ} {trail : List ℕ} {node : ℕ}, node < fuel → ∀ out out' : List ℕ,
      (v ∈ out → [u, v].Sublist out) → (node = v → u ∈ out) →
      visit deps fuel trail out node = .ok out' → v ∈ out' → [u, v].Sublist out' := by
  intro fuel
  induction fuel with
  | zero =>
    intro trail node hlt
    omega
  | succ fuel ih =>
    intro trail node hlt out out' hout hv h
    by_cases hnode : node ∈ out
    · rw [visit_of_mem hnode] at h
      cases h
      exact hout
    obtain ⟨-, mid, hmid, rfl⟩ := (visit_succ_eq_ok hnode).1 h
    have hsub : v ∈ mid → [u, v].Sublist mid := by
      refine sublist_of_foldlM prefix_of_visit ?_ ?_
        (fun front back hdeps => .inl (hfront node front back hdeps)) hout hmid
      · intro a ha out out' h
        obtain ⟨fuel, rfl⟩ := Nat.exists_eq_add_one.2
          (show 0 < fuel by have := low node a ha; omega)
        exact mem_of_visit h
      · intro a ha
        exact ih (by have := low node a ha; omega)
    intro hmem
    -- `v` has been emitted on the way, or it is the node itself
    by_cases hmidv : v ∈ mid
    · exact (hsub hmidv).trans (List.sublist_append_left _ _)
    · obtain rfl : v = node := by simpa [hmidv] using hmem
      have hu : u ∈ mid := (prefix_of_foldlM prefix_of_visit hmid).subset (hv rfl)
      exact List.Sublist.append (List.singleton_sublist.2 hu) (List.Sublist.refl [v])

/-- **Of two nodes that are always visited one before the other, that one is emitted first.** -/
theorem sublist_of_walk (low : ∀ a, ∀ b ∈ deps a, b < a) {u v : ℕ}
    (hfront : ∀ a front back, deps a = front ++ v :: back → u ∈ front) {roots out : List ℕ}
    (hlt : ∀ a ∈ roots, a < n) (hroots : ∀ front back, roots = front ++ v :: back → u ∈ front)
    (h : walk deps n roots = .ok out) (hv : v ∈ out) : [u, v].Sublist out := by
  refine sublist_of_foldlM prefix_of_visit (fun a _ _ _ => mem_of_visit) ?_
    (fun front back hr => .inl (hroots front back hr)) (by simp) h hv
  intro a ha
  exact sublist_of_visit low hfront (by have := hlt a ha; omega)

end PostOrder

end ModuleScaffold
