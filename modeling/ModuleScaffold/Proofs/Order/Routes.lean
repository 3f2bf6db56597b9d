import ModuleScaffold.Proofs.Merge.Run
import ModuleScaffold.Proofs.Text.Spacing

/-!
# Routes in the order of their groups

Routes are written by group, method, number of segments, number of parameters and matcher. The
comparison is a total order that tells all keys apart, so the order of the routes of a store is
determined: they ascend strictly.

The banners are written by a walk over the routes that remembers the last group. Since the group is
what the comparison looks at first, the routes of a group stand together, and the walk writes the
sections of the groups one after the other (`ModuleScaffold.Route.sections`).

Main statements:

* `ModuleScaffold.Route.compare_eq_eq_iff` – **only routes with the same key rank as equal**;
* `ModuleScaffold.Route.compare_of_extends` – **the longer of two matchers comes first**;
* `ModuleScaffold.Route.renderRoutes_sort` – **the walk writes the sections of the groups**;
* `ModuleScaffold.Store.routes_in_sections` – the order and the text of the routes of a store.
-/

namespace ModuleScaffold

namespace Route

/-! ### The comparison -/

variable {a b c r : Route} {rs routes : List Route}

/-- The comparison is lexicographic, with the numbers of segments the other way round. -/
instance transCmp_compare : Std.TransCmp Route.compare :=
  inferInstanceAs <| Std.TransCmp <| compareLex (compareOn fun r : Route => r.group.index) <|
    compareLex (compareOn fun r => r.method.rank) <|
      compareLex (fun a b => compareOn (fun r : Route => r.segmentCount) b a) <|
        compareLex (compareOn paramCount) (compareOn matcher)

theorem compare_swap (a b : Route) : a.compare b = (b.compare a).swap :=
  Std.OrientedCmp.eq_swap

theorem compare_self (a : Route) : a.compare a = .eq :=
  Std.ReflCmp.compare_self

theorem rank_injective {m m' : Method} (h : m.rank = m'.rank) : m = m' := by
  cases m <;> cases m' <;> first | rfl | cases h

/-- **Only routes with the same key rank as equal.** -/
theorem compare_eq_eq_iff :
    a.compare b = .eq ↔ Store.routeKey a = Store.routeKey b := by
  simp only [compare, Ordering.then_eq_eq, Std.compare_eq_iff_eq, Store.routeKey, Prod.mk.injEq]
  constructor
  · rintro ⟨-, hrank, -, -, hmatcher⟩
    exact ⟨rank_injective hrank, hmatcher⟩
  · rintro ⟨hmethod, hmatcher⟩
    have hsegments : a.segments = b.segments := by rw [segments, segments, hmatcher]
    have hparams : a.paramCount = b.paramCount := by rw [paramCount, paramCount, hsegments]
    have hgroup : a.group = b.group := by rw [group, group, hasParam, hasParam, hparams, hmethod]
    rw [hgroup, hmethod, segmentCount, segmentCount, hsegments]
    exact ⟨rfl, rfl, rfl, hparams, hmatcher⟩

/-- **The longer of two matchers comes first**, where one extends the other. -/
theorem compare_of_extends (hgroup : a.group = b.group) (hmethod : a.method = b.method)
    (hlead : a.segments <+: b.segments) (hne : a.segments ≠ b.segments) :
    b.compare a = .lt := by
  have hlt : a.segmentCount < b.segmentCount := by
    refine lt_of_le_of_ne hlead.length_le fun heq => ?_
    exact hne (hlead.eq_of_length heq)
  have hself : ∀ n : ℕ, Ord.compare n n = .eq := fun _ => Std.ReflOrd.compare_self
  rw [compare, hgroup, hmethod, hself, hself, Nat.compare_eq_lt.2 hlt]
  rfl

theorem index_le_of_compare (h : a.compare b ≠ .gt) : a.group.index ≤ b.group.index := by
  by_contra hlt
  refine h ?_
  rw [compare, Nat.compare_eq_gt.2 (not_le.1 hlt)]
  rfl

/-! ### The sorted routes -/

theorem sort_perm (routes : List Route) : (sort routes).Perm routes :=
  List.mergeSort_perm _ _

theorem pairwise_sort (routes : List Route) :
    (sort routes).Pairwise fun a b => a.compare b ≠ .gt := by
  refine (List.pairwise_mergeSort (fun a b c hab hbc => ?_) (fun a b => ?_) routes).imp ?_
  · simp only [bne_iff_ne, Ordering.ne_gt_iff_isLE] at *
    exact Std.TransCmp.isLE_trans hab hbc
  · rw [compare_swap b a]
    cases a.compare b <;> rfl
  · intro a b h
    exact bne_iff_ne.1 h

/-- Routes with different keys ascend strictly. -/
theorem pairwise_sort_lt (h : (routes.map Store.routeKey).Nodup) :
    (sort routes).Pairwise fun a b => a.compare b = .lt := by
  have hkeys : ((sort routes).map Store.routeKey).Nodup :=
    ((sort_perm routes).map _).nodup_iff.2 h
  refine ((pairwise_sort routes).and (List.pairwise_map.1 hkeys)).imp ?_
  rintro a b ⟨hle, hne⟩
  cases hab : a.compare b with
  | lt => rfl
  | eq => exact absurd (compare_eq_eq_iff.1 hab) hne
  | gt => exact absurd hab hle

/-! ### The sections -/

/-- The groups in the order of their banners. -/
def Group.all : List Group := [.get, .create, .update, .delete, .other]

theorem Group.mem_all (group : Group) : group ∈ Group.all := by
  cases group <;> decide

/-- The lines of a route in the list of routes. -/
def lines (route : Route) : List Char :=
  Text.spaces 4 ++ route.render ++ [',', '\n']

/-- The lines of a group: its banner, and below it its routes among the given ones. -/
def Group.lines (group : Group) (routes : List Route) : List Char :=
  Text.spaces 4 ++ group.banner.toList ++ ['\n'] ++ routes.flatMap Route.lines

/-- The sections of a list of routes, one for each group that has routes in it. -/
def sections (routes : List Route) : List (List Char) :=
  (Group.all.filter fun group => routes.any (·.group = group)).map fun group =>
    group.lines (routes.filter (·.group = group))

theorem group_injective {g h : Group} (heq : g.index = h.index) : g = h := by
  cases g <;> cases h <;> first | rfl | cases heq

/-- What meets a condition comes first, if nothing that meets it stands behind something that does
not. -/
theorem filter_append_filter_not {p : Route → Bool} (h : rs.Pairwise fun a b => p b → p a) :
    rs.filter p ++ rs.filter (! p ·) = rs := by
  induction rs with
  | nil => rfl
  | cons r rs ih =>
    obtain ⟨hr, hrs⟩ := List.pairwise_cons.1 h
    cases hp : p r with
    | true => simp [hp, ih hrs]
    | false =>
      have hnone : ∀ s ∈ r :: rs, ¬ p s = true := by
        rintro s hs hps
        rcases List.mem_cons.1 hs with rfl | hs
        · rw [hp] at hps
          cases hps
        · rw [hr s hs hps] at hp
          cases hp
      rw [List.filter_eq_nil_iff.2 hnone, List.nil_append, List.filter_eq_self]
      intro s hs
      rw [Bool.not_eq_true', Bool.eq_false_iff]
      exact hnone s hs

/-- Routes that ascend by group are made up of the routes of one group after the other. -/
theorem flatMap_filter_group {groups : List Group} (hgroups : groups.Pairwise (·.index < ·.index))
    (hrs : rs.Pairwise fun a b => a.group.index ≤ b.group.index)
    (hmem : ∀ r ∈ rs, r.group ∈ groups) :
    (groups.flatMap fun group => rs.filter (·.group = group)) = rs := by
  induction groups generalizing rs with
  | nil =>
    cases rs with
    | nil => rfl
    | cons r rs => exact absurd (hmem r List.mem_cons_self) List.not_mem_nil
  | cons group groups ih =>
    obtain ⟨hlt, hgroups⟩ := List.pairwise_cons.1 hgroups
    set back := rs.filter (fun r => ! decide (r.group = group)) with hback
    have hfirst : rs.Pairwise fun a b => decide (b.group = group) → decide (a.group = group) := by
      refine hrs.imp_of_mem fun {a b} ha hb hle heq => ?_
      rw [of_decide_eq_true heq] at hle
      rcases List.mem_cons.1 (hmem a ha) with hgroup | hlater
      · exact decide_eq_true hgroup
      · have := hlt _ hlater
        omega
    -- the routes of the other groups are all behind those of the first one
    have hothers : ∀ g ∈ groups, back.filter (·.group = g) = rs.filter (·.group = g) := by
      intro g hg
      rw [hback, List.filter_filter]
      refine List.filter_congr fun r _ => ?_
      have hne : group ≠ g := fun heq => lt_irrefl _ (heq ▸ hlt g hg)
      by_cases hr : r.group = g
      · simp [hr, hne.symm]
      · simp [hr]
    have hbackmem : ∀ r ∈ back, r.group ∈ groups := by
      intro r hr
      obtain ⟨hr, hne⟩ := List.mem_filter.1 hr
      refine (List.mem_cons.1 (hmem r hr)).resolve_left fun heq => ?_
      simp [heq] at hne
    calc ((group :: groups).flatMap fun g => rs.filter (·.group = g))
        = rs.filter (·.group = group) ++ groups.flatMap fun g => rs.filter (·.group = g) := rfl
      _ = rs.filter (·.group = group) ++ groups.flatMap fun g => back.filter (·.group = g) := by
          rw [List.flatMap_congr hothers]
      _ = rs.filter (·.group = group) ++ back := by
          rw [ih hgroups (hrs.filter _) hbackmem]
      _ = rs := filter_append_filter_not hfirst

theorem flatMap_filter_sort (routes : List Route) :
    (Group.all.flatMap fun group => (sort routes).filter (·.group = group)) = sort routes :=
  flatMap_filter_group (by decide) ((pairwise_sort routes).imp index_le_of_compare)
    fun r _ => Group.mem_all r.group

/-- Below the first route of a group the walk writes no banner until the group ends. -/
theorem renderRoutes_group {group : Group} {before : Option Group} (hbefore : before ≠ some group)
    (hrs : ∀ r ∈ rs, r.group = group) (hne : rs ≠ []) (rest : List Route) :
    Store.renderRoutes before (rs ++ rest) =
      (if before.isSome then ['\n'] else []) ++ group.lines rs ++
        Store.renderRoutes (some group) rest := by
  have hlater : ∀ rs : List Route, (∀ r ∈ rs, r.group = group) →
      Store.renderRoutes (some group) (rs ++ rest) =
        rs.flatMap Route.lines ++ Store.renderRoutes (some group) rest := by
    intro rs
    induction rs with
    | nil => intro _; rfl
    | cons r rs ih =>
      intro hrs
      obtain ⟨hr, hrs⟩ := List.forall_mem_cons.1 hrs
      rw [List.cons_append, Store.renderRoutes, hr, if_pos rfl, ih hrs, List.flatMap_cons, lines]
      simp only [List.nil_append, List.append_assoc]
  obtain ⟨r, rs, rfl⟩ := List.exists_cons_of_ne_nil hne
  obtain ⟨hr, hrs⟩ := List.forall_mem_cons.1 hrs
  rw [List.cons_append, Store.renderRoutes, hr, if_neg hbefore, hlater rs hrs, Group.lines,
    List.flatMap_cons, lines]
  simp only [List.append_assoc]

/-- The walk over the routes of one group after the other, behind another group: each section
stands below an empty line. -/
theorem renderRoutes_flatMap {groups : List Group} (hgroups : groups.Nodup)
    {routesOf : Group → List Route} (hof : ∀ group, ∀ r ∈ routesOf group, r.group = group)
    {last : Group} (hlast : last ∉ groups) :
    Store.renderRoutes (some last) (groups.flatMap routesOf) =
      (groups.filter fun group => ! (routesOf group).isEmpty).flatMap fun group =>
        '\n' :: group.lines (routesOf group) := by
  induction groups generalizing last with
  | nil => rfl
  | cons group groups ih =>
    obtain ⟨hgroup, hgroups⟩ := List.nodup_cons.1 hgroups
    rw [List.mem_cons, not_or] at hlast
    obtain ⟨hne, hlast⟩ := hlast
    rw [List.flatMap_cons, List.filter_cons]
    cases hroutes : (routesOf group).isEmpty with
    | true =>
      rw [List.isEmpty_iff.1 hroutes]
      exact ih hgroups hlast
    | false =>
      have hsome : some last ≠ some group := fun h => hne (Option.some.inj h)
      rw [renderRoutes_group hsome (hof group) (by simpa using hroutes), ih hgroups hgroup]
      rfl

/-- The walk over the routes of one group after the other, from the start: the sections are joined
by empty lines. -/
theorem renderRoutes_none_flatMap {groups : List Group} (hgroups : groups.Nodup)
    {routesOf : Group → List Route} (hof : ∀ group, ∀ r ∈ routesOf group, r.group = group) :
    Store.renderRoutes none (groups.flatMap routesOf) =
      Text.joinWith ['\n'] ((groups.filter fun group => ! (routesOf group).isEmpty).map fun group =>
        group.lines (routesOf group)) := by
  induction groups with
  | nil => rfl
  | cons group groups ih =>
    obtain ⟨hgroup, hgroups⟩ := List.nodup_cons.1 hgroups
    rw [List.flatMap_cons, List.filter_cons]
    cases hroutes : (routesOf group).isEmpty with
    | true =>
      rw [List.isEmpty_iff.1 hroutes]
      exact ih hgroups
    | false =>
      rw [renderRoutes_group (Option.some_ne_none _).symm (hof group) (by simpa using hroutes),
        renderRoutes_flatMap hgroups hof hgroup, Bool.not_false, if_pos rfl, List.map_cons,
        Text.joinWith_cons, List.flatMap_map]
      rfl

/-- **The walk writes the sections of the groups**, joined by empty lines. -/
theorem renderRoutes_sort (routes : List Route) :
    Store.renderRoutes none (sort routes) = Text.joinWith ['\n'] (sections (sort routes)) := by
  have hof : ∀ group, ∀ r ∈ (sort routes).filter (·.group = group), r.group = group :=
    fun group r hr => of_decide_eq_true (List.mem_filter.1 hr).2
  conv_lhs => rw [← flatMap_filter_sort]
  rw [renderRoutes_none_flatMap (by decide) hof, sections]
  congr 2
  refine List.filter_congr fun group _ => ?_
  rw [Bool.eq_iff_iff, Bool.not_eq_true', List.isEmpty_eq_false_iff_exists_mem, List.any_eq_true]
  exact exists_congr fun r => List.mem_filter

/-- Of two routes in a strictly ascending list, the one that ranks before the other comes first. -/
theorem sublist_of_compare (hrs : rs.Pairwise fun a b => a.compare b = .lt) (ha : a ∈ rs)
    (hb : b ∈ rs) (h : b.compare a = .lt) : [b, a].Sublist rs := by
  obtain ⟨front, back, rfl⟩ := List.append_of_mem hb
  obtain ⟨-, -, hfront⟩ := List.pairwise_append.1 hrs
  rcases List.mem_append.1 ha with ha | ha
  · have hswap := compare_swap a b
    rw [hfront a ha b List.mem_cons_self, h] at hswap
    cases hswap
  · rcases List.mem_cons.1 ha with rfl | ha
    · rw [compare_self] at h
      cases h
    · exact (((List.singleton_sublist.2 ha).cons_cons b).trans (List.sublist_append_right front _))

end Route

namespace Store

/-- The registration, with the list of routes by sections. -/
theorem renderRegistration_eq (store : Store) : store.renderRegistration =
    "export default ".toList ++ registrationName.toList ++ "(\x7b\n".toList ++
      (if store.routes = [] then "  routes: [],\n".toList
        else "  routes: [\n".toList ++
          Text.joinWith ['\n'] (Route.sections (Route.sort store.routes)) ++ "  ],\n".toList) ++
      store.settings.flatMap renderSetting ++ "\x7d);".toList := by
  have hempty : (Route.sort store.routes).isEmpty = true ↔ store.routes = [] := by
    rw [List.isEmpty_iff, ← List.length_eq_zero_iff, (Route.sort_perm _).length_eq,
      List.length_eq_zero_iff]
  unfold renderRegistration
  refine congrArg (fun cs => "export default ".toList ++ registrationName.toList ++
    "(\x7b\n".toList ++ cs ++ store.settings.flatMap renderSetting ++ "\x7d);".toList) ?_
  refine if_congr hempty rfl ?_
  rw [Route.renderRoutes_sort]

/-- **The routes of a store ascend, in sections.** They are written in an order without ties, the
longer of two matchers before one that it extends; the text of the list is the sections of the
groups, in the order of the groups, each a banner with all routes of its group below it. -/
theorem routes_in_sections (changes : List Change) :
    let store := built changes
    let written := Route.sort store.routes
    written.Perm store.routes ∧ written.Pairwise (fun a b => a.compare b = .lt) ∧
    (∀ a b : Route, a.compare b = (b.compare a).swap) ∧
    (∀ a b c : Route, (a.compare b).isLE → (b.compare c).isLE → (a.compare c).isLE) ∧
    (∀ a b : Route, a.compare b = .eq ↔ (a.method, a.matcher) = (b.method, b.matcher)) ∧
    (∀ a ∈ written, ∀ b ∈ written, a.method = b.method → a.group = b.group →
      a.segments <+: b.segments → a.segments ≠ b.segments → [b, a].Sublist written) ∧
    (Route.Group.all.flatMap fun group => written.filter (·.group = group)) = written ∧
    store.renderRegistration =
      "export default ".toList ++ registrationName.toList ++ "(\x7b\n".toList ++
      (if store.routes = [] then "  routes: [],\n".toList
        else "  routes: [\n".toList ++ Text.joinWith ['\n'] (Route.sections written) ++
          "  ],\n".toList) ++
      store.settings.flatMap renderSetting ++ "\x7d);".toList := by
  intro store written
  have hlt : written.Pairwise fun a b => a.compare b = .lt :=
    Route.pairwise_sort_lt (nodup_routeKeys (canonical_built changes).routes)
  refine ⟨Route.sort_perm _, hlt, Route.compare_swap, ?_,
    fun a b => Route.compare_eq_eq_iff, ?_, Route.flatMap_filter_sort _, ?_⟩
  · intro a b c hab hbc
    exact Std.TransCmp.isLE_trans hab hbc
  · intro a ha b hb hmethod hgroup hlead hne
    exact Route.sublist_of_compare hlt ha hb (Route.compare_of_extends hgroup hmethod hlead hne)
  · exact renderRegistration_eq store

end Store

end ModuleScaffold
