import ModuleScaffold.Proofs.Denotation.Kept
import ModuleScaffold.Proofs.Merge.Run

/-!
# The list of routes as a union

The entries of the list of routes are read one after the other. An entry is taken as a whole or not
at all: the routes that it stands for differ in their methods only, and whether a route can be
written does not depend on its method. What is taken is put over what is there, so of the entries
that have a route with a given key the last one decides.

Main statements:

* `ModuleScaffold.Source.routes_of_routesOf` – **the routes of an entry are one for each method that
  it lists**;
* `ModuleScaffold.Source.Reading.addEntry_eq` – **an entry is taken as a whole, or there is a
  complaint about it**;
* `ModuleScaffold.Source.Reading.addEntries_union` – the list of routes.
-/

namespace ModuleScaffold

namespace Source

variable {e : Expr} {ms : List Member} {routes routes' : List Route} {reading : Reading}

/-! ### The routes of an entry -/

/-- What the last member with the key `method` lists. -/
def ListsMethods (ms : List Member) (methods : List Method) : Prop :=
  ∃ front key value f back v, ms = front ++ .pair key value f :: back ∧ key.text = "method" ∧
    (∀ m ∈ back, m.hasKey "method" = false) ∧ value.value = .ok v ∧ methodsOf v = .ok methods

/-- A member with another key leaves the methods of a draft as they are. -/
theorem methods_add {draft next : RouteDraft} {key : String} {value : Expr}
    (h : draft.add key value = .ok next) (hkey : key ≠ "method") : next.methods = draft.methods := by
  unfold RouteDraft.add at h
  split at h
  · obtain ⟨v, -, h⟩ := bind_eq_ok_iff.1 h
    cases v with
    | string text =>
      obtain rfl := Except.ok.inj h
      rfl
    | _ => cases h
  · exact absurd rfl hkey
  · split at h
    · obtain ⟨calls, -, h⟩ := bind_eq_ok_iff.1 h
      obtain rfl := Except.ok.inj h
      rfl
    · cases h
  · obtain ⟨v, -, h⟩ := bind_eq_ok_iff.1 h
    obtain rfl := Except.ok.inj h
    rfl

theorem listsMethods_of_foldlM {draft : RouteDraft}
    (h : ms.foldlM RouteDraft.addMember {} = .ok draft) (hne : draft.methods ≠ []) :
    ListsMethods ms draft.methods := by
  -- from behind, since the last member with the key decides
  induction ms using List.reverseRecOn generalizing draft with
  | nil =>
    obtain rfl := Except.ok.inj h
    exact absurd rfl hne
  | append_singleton ms m ih =>
    rw [List.foldlM_append] at h
    obtain ⟨before, hbefore, h⟩ := bind_eq_ok_iff.1 h
    rw [List.foldlM_cons] at h
    obtain ⟨next, hm, h⟩ := bind_eq_ok_iff.1 h
    obtain rfl := Except.ok.inj h
    cases m with
    | pair key value f =>
      by_cases hkey : key.text = "method"
      · rw [RouteDraft.addMember, hkey] at hm
        obtain ⟨v, hv, hm⟩ := bind_eq_ok_iff.1 hm
        obtain ⟨methods, hmethods, hm⟩ := bind_eq_ok_iff.1 hm
        obtain rfl := Except.ok.inj hm
        exact ⟨ms, key, value, f, [], v, rfl, hkey, by simp, hv, hmethods⟩
      · have hsame := methods_add hm hkey
        rw [hsame] at hne ⊢
        obtain ⟨front, key', value', f', back, v, rfl, hkey', hback, hv, hmethods⟩ := ih hbefore hne
        refine ⟨front, key', value', f', back ++ [.pair key value f], v, by simp, hkey', ?_, hv,
          hmethods⟩
        rintro m hm
        rcases List.mem_append.1 hm with hm | hm
        · exact hback m hm
        · obtain rfl := List.mem_singleton.1 hm
          exact beq_eq_false_iff_ne.2 hkey
    | shorthand f => cases hm
    | other kind f => cases hm
    | damaged key f => cases hm

/-- **The routes of an entry are one for each method that it lists**, and otherwise the same. -/
theorem routes_of_routesOf (h : routesOf ms = .ok routes) :
    ∃ methods matcher middlewares extra, ListsMethods ms methods ∧ methods ≠ [] ∧
      routes = methods.map fun method => ⟨method, matcher, middlewares, extra⟩ := by
  rw [routesOf] at h
  obtain ⟨draft, hdraft, h⟩ := bind_eq_ok_iff.1 h
  rw [RouteDraft.routes] at h
  split at h
  · cases h
  next matcher _ =>
  split at h
  · cases h
  · next hne =>
    rw [List.isEmpty_iff] at hne
    exact ⟨draft.methods, matcher, draft.middlewares, draft.extra,
      listsMethods_of_foldlM hdraft hne, hne, (Except.ok.inj h).symm⟩

/-! ### Entries that are taken -/

/-- An entry is taken: it is a sound object, its members stand for routes, and they can be
written. -/
def Yields (e : Expr) (routes : List Route) : Prop :=
  ∃ ms f, e = .object ms f ∧ e.isDamaged = false ∧ routesOf ms = .ok routes ∧
    ∀ route ∈ routes, route.problem? = none

/-- The routes that are taken of an entry. -/
def yielded (e : Expr) : List Route :=
  match e with
  | .object ms _ =>
    if e.isDamaged then []
    else match routesOf ms with
      | .ok routes => if routes.all (·.problem?.isNone) then routes else []
      | .error _ => []
  | _ => []

theorem yielded_of_yields (h : Yields e routes) : yielded e = routes := by
  obtain ⟨ms, f, rfl, hsound, hroutes, hproblem⟩ := h
  have hall : routes.all (·.problem?.isNone) = true :=
    List.all_eq_true.2 fun route hroute => Option.isNone_iff_eq_none.2 (hproblem route hroute)
  simp only [yielded, hsound, hroutes, hall]
  rfl

theorem yields_yielded (h : yielded e ≠ []) : Yields e (yielded e) := by
  rw [yielded.eq_def] at h ⊢
  split at h
  · next ms f =>
    split at h
    · exact absurd rfl h
    next hsound =>
    split at h
    · next routes hroutes =>
      split at h
      · next hall =>
        rw [if_neg hsound, if_pos hall]
        refine ⟨ms, f, rfl, Bool.eq_false_iff.2 hsound, hroutes, fun route hroute => ?_⟩
        exact Option.isNone_iff_eq_none.1 (List.all_eq_true.1 hall route hroute)
      · exact absurd rfl h
    · exact absurd rfl h
  · exact absurd rfl h

/-- An entry yields no routes or at least one. -/
theorem yielded_eq_nil_iff : yielded e = [] ↔ ¬∃ routes, Yields e routes := by
  constructor
  · rintro h ⟨routes, hyields⟩
    rw [yielded_of_yields hyields] at h
    obtain ⟨ms, f, -, -, hroutes, -⟩ := hyields
    exact ne_nil_of_routesOf hroutes h
  · intro h
    by_contra hne
    exact h ⟨_, yields_yielded hne⟩

namespace Reading

theorem addRoutes_of_writable (f : Fragment) (h : ∀ route ∈ routes, route.problem? = none)
    (reading : Reading) : reading.addRoutes f routes = { reading with
      store := { reading.store with
        routes := routes.foldl (fun routes route => Store.insertRoute route routes)
          reading.store.routes } } := by
  unfold addRoutes
  induction routes generalizing reading with
  | nil => rfl
  | cons route routes ih =>
    obtain ⟨hroute, hroutes⟩ := List.forall_mem_cons.1 h
    rw [List.foldl_cons, ih hroutes, Store.addRoute, hroute]
    rfl

theorem addRoutes_of_unwritable (f : Fragment) (h : ∀ route ∈ routes, route.problem? ≠ none)
    (reading : Reading) : reading.addRoutes f routes = { reading with
      complaints := reading.complaints ++
        (routes.filterMap Route.problem?).map fun p => (.unwritableRoute p, f) } := by
  have hcomplaints := complaints_addRoutes f routes reading
  have hrest : ∃ complaints, reading.addRoutes f routes = { reading with complaints } := by
    unfold addRoutes
    clear hcomplaints
    induction routes generalizing reading with
    | nil => exact ⟨_, rfl⟩
    | cons route routes ih =>
      obtain ⟨hroute, hroutes⟩ := List.forall_mem_cons.1 h
      obtain ⟨p, hp⟩ := Option.ne_none_iff_exists'.1 hroute
      rw [List.foldl_cons, Store.addRoute, hp]
      exact ih hroutes (reading.complain (.unwritableRoute p) f)
  obtain ⟨complaints, heq⟩ := hrest
  rw [heq] at hcomplaints ⊢
  rw [← hcomplaints]

theorem addEntry_object (reading : Reading) {f : Fragment}
    (hsound : (Expr.object ms f).isDamaged = false) : reading.addEntry (.object ms f) =
      match routesOf ms with
      | .ok routes => reading.addRoutes f routes
      | .error u => reading.complain (.unreadableRoute u) f := by
  have hkind : ¬ (Expr.object ms f).kind ≠ .object := not_not_intro rfl
  unfold addEntry
  rw [if_neg hkind, hsound]
  rfl

theorem addEntry_of_yields (h : Yields e routes) (reading : Reading) :
    reading.addEntry e = { reading with
      store := { reading.store with
        routes := routes.foldl (fun routes route => Store.insertRoute route routes)
          reading.store.routes } } := by
  obtain ⟨ms, f, rfl, hsound, hroutes, hproblem⟩ := h
  rw [addEntry_object reading hsound, hroutes]
  exact addRoutes_of_writable f hproblem reading

/-- Whether a route can be written does not depend on its method: if some of the routes of an entry
cannot be written, none of them can. -/
theorem problem_ne_none (hroutes : routesOf ms = .ok routes)
    (h : ¬∀ route ∈ routes, route.problem? = none) : ∀ route ∈ routes, route.problem? ≠ none := by
  obtain ⟨methods, matcher, middlewares, extra, -, -, rfl⟩ := routes_of_routesOf hroutes
  intro route hroute hnone
  refine h fun other hother => ?_
  obtain ⟨method, -, rfl⟩ := List.mem_map.1 hroute
  obtain ⟨method', -, rfl⟩ := List.mem_map.1 hother
  exact hnone

theorem exists_addEntry_eq_of_not_yields (h : ¬∃ routes, Yields e routes) :
    ∃ added ≠ [], ∀ reading : Reading,
      reading.addEntry e = { reading with complaints := reading.complaints ++ added } := by
  by_cases hkind : e.kind = .object
  case neg =>
    refine ⟨[(.notObject e.kind, e.fragment)], List.cons_ne_nil _ _, fun reading => ?_⟩
    unfold addEntry
    rw [if_pos hkind]
    rfl
  cases hsound : e.isDamaged with
  | true =>
    refine ⟨[(.damagedRoute, e.fragment)], List.cons_ne_nil _ _, fun reading => ?_⟩
    unfold addEntry
    rw [if_neg (not_not_intro hkind), if_pos hsound]
    rfl
  | false =>
    by_cases hobject : ∃ ms f, e = .object ms f
    case neg =>
      refine ⟨[(.notObject e.kind, e.fragment)], List.cons_ne_nil _ _, fun reading => ?_⟩
      unfold addEntry
      rw [if_neg (not_not_intro hkind), hsound]
      cases e with
      | object ms f => exact absurd ⟨ms, f, rfl⟩ hobject
      | _ => rfl
    obtain ⟨ms, f, rfl⟩ := hobject
    cases hroutes : routesOf ms with
    | error u =>
      refine ⟨[(.unreadableRoute u, f)], List.cons_ne_nil _ _, fun reading => ?_⟩
      rw [addEntry_object reading hsound, hroutes]
      rfl
    | ok routes =>
      have hproblem := problem_ne_none hroutes fun hnone =>
        h ⟨routes, ms, f, rfl, hsound, hroutes, hnone⟩
      refine ⟨(routes.filterMap Route.problem?).map fun p => (.unwritableRoute p, f), ?_,
        fun reading => ?_⟩
      · obtain ⟨route, hroute⟩ := List.exists_mem_of_ne_nil _ (ne_nil_of_routesOf hroutes)
        rw [Ne, List.map_eq_nil_iff, List.filterMap_eq_nil_iff]
        intro hnone
        exact hproblem route hroute (hnone route hroute)
      · rw [addEntry_object reading hsound, hroutes]
        exact addRoutes_of_unwritable f hproblem reading

end Reading

/-- The complaints about an entry. -/
def warned (e : Expr) : List (Complaint × Fragment) :=
  (({} : Reading).addEntry e).complaints

namespace Reading

/-- **An entry is taken as a whole, or there is a complaint about it**: either way nothing else
changes. -/
theorem addEntry_eq (reading : Reading) (e : Expr) : reading.addEntry e = { reading with
      store := { reading.store with
        routes := (yielded e).foldl (fun routes route => Store.insertRoute route routes)
          reading.store.routes }
      complaints := reading.complaints ++ warned e } := by
  by_cases h : ∃ routes, Yields e routes
  · obtain ⟨routes, h⟩ := h
    rw [warned, addEntry_of_yields h, addEntry_of_yields h, yielded_of_yields h, List.append_nil]
  · obtain ⟨added, -, hadded⟩ := exists_addEntry_eq_of_not_yields h
    rw [warned, hadded, hadded, yielded_eq_nil_iff.2 h]
    rfl

theorem warned_eq_nil_iff : warned e = [] ↔ ∃ routes, Yields e routes := by
  constructor
  · intro h
    by_contra hnot
    obtain ⟨added, hne, hadded⟩ := exists_addEntry_eq_of_not_yields hnot
    rw [warned, hadded] at h
    exact hne h
  · rintro ⟨routes, h⟩
    rw [warned, addEntry_of_yields h]

/-- The entries are taken one after the other. -/
theorem foldl_addEntry (items : List Expr) (reading : Reading) :
    items.foldl addEntry reading = { reading with
      store := { reading.store with
        routes := (items.flatMap yielded).foldl (fun routes route => Store.insertRoute route routes)
          reading.store.routes }
      complaints := reading.complaints ++ items.flatMap warned } := by
  induction items generalizing reading with
  | nil => simp
  | cons e items ih =>
    rw [List.foldl_cons, ih, addEntry_eq, List.flatMap_cons, List.flatMap_cons, List.foldl_append,
      List.append_assoc]

/-- Routes of one entry with the same key are the same. -/
theorem eq_of_routeKey_eq {a b : Route} (ha : a ∈ yielded e) (hb : b ∈ yielded e)
    (h : Store.routeKey a = Store.routeKey b) : a = b := by
  obtain ⟨ms, f, -, -, hroutes, -⟩ := yields_yielded (List.ne_nil_of_mem ha)
  obtain ⟨methods, matcher, middlewares, extra, -, -, heq⟩ := routes_of_routesOf hroutes
  rw [heq] at ha hb
  obtain ⟨method, -, rfl⟩ := List.mem_map.1 ha
  obtain ⟨method', -, rfl⟩ := List.mem_map.1 hb
  obtain ⟨rfl, -⟩ := Prod.mk.inj h
  rfl

/-- The route with the given key that an entry has. -/
def yieldedAt (method : Method) (matcher : String) (e : Expr) : Option Route :=
  (yielded e).find? fun route => route.method == method && route.matcher == matcher

theorem lookup_yielded (e : Expr) (k : Method × String) :
    Store.lookup Store.routeKey k (yielded e).reverse = yieldedAt k.1 k.2 e := by
  have hfind : yieldedAt k.1 k.2 e = Store.lookup Store.routeKey k (yielded e) :=
    Store.find?_eq_lookup Store.routeKey (fun route => by
      rw [Bool.and_eq_true, beq_iff_eq, beq_iff_eq, Store.routeKey, Prod.ext_iff]) _
  rw [hfind]
  cases h : Store.lookup Store.routeKey k (yielded e) with
  | none =>
    rw [Store.lookup, List.find?_eq_none] at h ⊢
    exact fun route hroute => h route (List.mem_reverse.1 hroute)
  | some route =>
    obtain ⟨hroute, hkey⟩ := Store.mem_of_lookup Store.routeKey h
    obtain ⟨found, hfound⟩ := Store.exists_lookup Store.routeKey
      (List.mem_map.2 ⟨route, List.mem_reverse.2 hroute, hkey⟩)
    obtain ⟨hmem, hkey'⟩ := Store.mem_of_lookup Store.routeKey hfound
    rw [hfound, eq_of_routeKey_eq (List.mem_reverse.1 hmem) hroute (hkey'.trans hkey.symm)]

/-- **Of the entries that have a route with a key, the last one decides.** -/
theorem route?_foldl_addEntry (items : List Expr) (reading : Reading) (method : Method)
    (matcher : String) : (items.foldl addEntry reading).store.route? method matcher =
      (items.reverse.findSome? (yieldedAt method matcher)).or
        (reading.store.route? method matcher) := by
  induction items generalizing reading with
  | nil => rfl
  | cons e items ih =>
    have hstep : (reading.addEntry e).store.route? method matcher =
        (yieldedAt method matcher e).or (reading.store.route? method matcher) := by
      rw [addEntry_eq, Store.route?_eq_lookup, Store.route?_eq_lookup,
        Store.lookup_foldl Store.routeKey (Store.lookup_insertRoute · · ·),
        lookup_yielded e (method, matcher)]
    rw [List.foldl_cons, ih, hstep, List.reverse_cons, List.findSome?_append, Option.or_assoc]
    cases h : yieldedAt method matcher e with
    | none => simp [h]
    | some route => simp [h]

/-- **The list of routes is read as a union.** An entry either has routes, one for each method that
it lists and otherwise the same, which are put over what is there, without a complaint; or nothing
is taken of it, and there is a complaint. A route is found as the last of the entries has it, and
otherwise as it was; the rest of what has been read stays as it is. -/
theorem addEntries_union (reading : Reading) (items : List Expr) :
    let after := items.foldl addEntry reading
    (∀ e : Expr,
      (∃ ms f methods matcher middlewares extra, e = .object ms f ∧ e.isDamaged = false ∧
        ListsMethods ms methods ∧ methods ≠ [] ∧ routesOf ms = .ok (yielded e) ∧
        (yielded e = methods.map fun method => ⟨method, matcher, middlewares, extra⟩) ∧
        (∀ route ∈ yielded e, route.problem? = none) ∧ warned e = []) ∨
      (¬∃ routes, Yields e routes) ∧ yielded e = [] ∧ warned e ≠ []) ∧
    (after = { reading with
      store := { reading.store with
        routes := (items.flatMap yielded).foldl (fun routes route => Store.insertRoute route routes)
          reading.store.routes }
      complaints := reading.complaints ++ items.flatMap warned }) ∧
    ∀ method matcher, after.store.route? method matcher =
      (items.reverse.findSome? (yieldedAt method matcher)).or
        (reading.store.route? method matcher) := by
  refine ⟨fun e => ?_, foldl_addEntry items reading, route?_foldl_addEntry items reading⟩
  by_cases h : ∃ routes, Yields e routes
  · obtain ⟨routes, hyields⟩ := h
    obtain rfl := yielded_of_yields hyields
    have hwarned := warned_eq_nil_iff.2 ⟨_, hyields⟩
    obtain ⟨ms, f, rfl, hsound, hroutes, hproblem⟩ := hyields
    obtain ⟨methods, matcher, middlewares, extra, hlists, hne, heq⟩ := routes_of_routesOf hroutes
    exact .inl ⟨ms, f, methods, matcher, middlewares, extra, rfl, hsound, hlists, hne, hroutes, heq,
      hproblem, hwarned⟩
  · exact .inr ⟨h, yielded_eq_nil_iff.2 h, mt warned_eq_nil_iff.1 h⟩

end Reading

end Source

end ModuleScaffold
