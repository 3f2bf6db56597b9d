import ModuleScaffold.Proofs.Reading.Layout
import ModuleScaffold.Store

/-!
# Written routes

A route is written as an object with its matcher, its method, its middlewares and its further
properties, a member to a line. The members are read back one by one, and all of them mean what
was written. But a route is more particular than an object: it wants a key and a value in each
member, and a property whose value is a reference to its own name is written as that name alone.

Main statement: `ModuleScaffold.Route.routesOf_render_iff` – **a route comes back exactly if none
of its further properties is written by its name alone**; otherwise it is refused.
-/

namespace ModuleScaffold

namespace Route

open Source

/-! ### What is asked of a route -/

/-- The paths in a route, those of its references and those of what it calls. -/
def paths (route : Route) : List String :=
  Value.pathsMembers route.members

/-- The numbers in a route. -/
def numbers (route : Route) : List Number.Double :=
  Value.numbersMembers route.members

/-- The keys of the properties that every route has. -/
def ownKeys : List String := ["matcher", "method", "middlewares"]

theorem problemAll?_calls {calls : List Call} (h : callsProblem? calls = none) :
    Value.problemAll? (calls.map Call.toValue) = none := by
  induction calls with
  | nil => rfl
  | cons call calls ih =>
    rw [callsProblem?] at h
    split at h
    · cases h
    · next hcall =>
      rw [Call.problem?] at hcall
      rw [List.map_cons, Value.problemAll?, hcall]
      exact ih h

theorem problemMembers?_extra {extra : List (String × Value)} (h : extraProblem? extra = none) :
    Value.problemMembers? extra = none := by
  induction extra with
  | nil => rfl
  | cons m extra ih =>
    obtain ⟨k, v⟩ := m
    rw [extraProblem?] at h
    split at h
    · cases h
    · next hk =>
      split at h
      · cases h
      · next hv =>
        rw [Value.problemMembers?, if_neg hk, hv]
        exact ih h

/-- A route that can be written is an object that can be written. -/
theorem problem?_members {route : Route} (h : route.problem? = none) :
    (Value.object route.members).problem? = none := by
  rw [problem?] at h
  split at h
  · cases h
  · next hcalls =>
    have hmiddlewares : (Value.array (route.middlewares.map Call.toValue)).problem? = none := by
      rw [Value.problem?]
      exact problemAll?_calls hcalls
    have hextra := problemMembers?_extra h
    have hstring : ∀ text, (Value.string text).problem? = none := fun text => by rw [Value.problem?]
    rw [Value.problem?, members, Value.problemMembers?, if_neg (by decide), hstring]
    simp only
    rw [Value.problemMembers?, if_neg (by decide), hstring]
    simp only
    rw [Value.problemMembers?, if_neg (by decide), hmiddlewares]
    exact hextra

/-! ### Reading the members -/

theorem ofName?_name (method : Method) : Method.ofName? method.name = some method := by
  cases method <;> decide

theorem values_cons_eq_ok {e : Expr} {es : List Expr} {vs : List Value}
    (h : Expr.values (e :: es) = .ok vs) :
    ∃ v vs', vs = v :: vs' ∧ e.value = .ok v ∧ Expr.values es = .ok vs' := by
  rw [Expr.values] at h
  split at h
  · cases h
  · next v hv =>
    split at h
    · cases h
    · next vs' hvs =>
      cases h
      exact ⟨v, vs', rfl, hv, hvs⟩

/-- Expressions that stand for calls are taken as calls. -/
theorem callsFrom_of_values : ∀ {es : List Expr} {calls : List Call} (place : ℕ),
    Expr.values es = .ok (calls.map Call.toValue) → callsFrom place es = .ok calls
  | [], calls, _, h => by
    obtain rfl : calls = [] := by
      rw [Expr.values] at h
      exact List.map_eq_nil_iff.1 (Except.ok.inj h).symm
    rfl
  | e :: es, calls, place, h => by
    obtain ⟨v, vs, hcalls, hv, hvs⟩ := values_cons_eq_ok h
    obtain ⟨call, calls, rfl, rfl, rfl⟩ := List.map_eq_cons_iff.1 hcalls
    rw [callsFrom, hv]
    change (do return call :: (← callsFrom (place + 1) es)) = _
    rw [callsFrom_of_values (place + 1) hvs]
    rfl

/-- A member that is not written by its name alone has a key and a value. -/
theorem exists_pair_of_stands {m : String × Value} {member : Member} (hm : member.Stands m)
    (hk : Value.isShorthand m.1 m.2 = false) :
    ∃ key e f, member = .pair key e f ∧ key.text = m.1 ∧ e.Stands m.2 := by
  cases hm with
  | shorthand h ht =>
    rw [h] at hk
    cases hk
  | pair _ _ ht hv => exact ⟨_, _, _, rfl, ht, hv⟩

theorem addMember_matcher {draft : RouteDraft} {text : String} {member : Member}
    (hm : member.Stands ("matcher", .string text)) :
    draft.addMember member = .ok { draft with matcher := some text } := by
  obtain ⟨key, e, f, rfl, ht, hv⟩ := exists_pair_of_stands hm rfl
  rw [RouteDraft.addMember, ht, RouteDraft.add, hv.value]
  rfl

theorem addMember_method {draft : RouteDraft} {method : Method} {member : Member}
    (hm : member.Stands ("method", .string method.name)) :
    draft.addMember member = .ok { draft with methods := [method] } := by
  obtain ⟨key, e, f, rfl, ht, hv⟩ := exists_pair_of_stands hm rfl
  rw [RouteDraft.addMember, ht, RouteDraft.add, hv.value]
  change (do
    let methods ← methodsOf (.string method.name)
    return { draft with methods }) = _
  rw [methodsOf, methodNamed, ofName?_name]
  rfl

theorem addMember_middlewares {draft : RouteDraft} {calls : List Call} {member : Member}
    (hm : member.Stands ("middlewares", .array (calls.map Call.toValue))) :
    draft.addMember member = .ok { draft with middlewares := draft.middlewares ++ calls } := by
  obtain ⟨key, e, f, rfl, ht, hv⟩ := exists_pair_of_stands hm rfl
  obtain ⟨items, f, rfl⟩ := hv.array _ rfl
  have hvalues : Expr.values items = .ok (calls.map Call.toValue) := by
    have hvalue := hv.value
    rw [Expr.value] at hvalue
    split at hvalue
    · next vs hvs =>
      rw [hvs]
      cases hvalue
      rfl
    · cases hvalue
  rw [RouteDraft.addMember, ht, RouteDraft.add, callsFrom_of_values 1 hvalues]
  rfl

/-- A further property with a key and a value is added to the draft. -/
theorem addMember_pair {draft : RouteDraft} {m : String × Value} {member : Member}
    (hm : member.Stands m) (hk : Value.isShorthand m.1 m.2 = false) (hkey : m.1 ∉ ownKeys) :
    draft.addMember member = .ok { draft with extra := draft.extra ++ [m] } := by
  obtain ⟨key, e, f, rfl, ht, hv⟩ := exists_pair_of_stands hm hk
  rw [RouteDraft.addMember, ht]
  unfold RouteDraft.add
  split
  · next heq => exact absurd (show m.1 ∈ ownKeys by rw [heq]; decide) hkey
  · next heq => exact absurd (show m.1 ∈ ownKeys by rw [heq]; decide) hkey
  · next heq => exact absurd (show m.1 ∈ ownKeys by rw [heq]; decide) hkey
  · rw [hv.value]
    rfl

/-- A property that is written by its name alone is refused. -/
theorem addMember_shorthand {draft : RouteDraft} {m : String × Value} {member : Member}
    (hm : member.Stands m) (hk : Value.isShorthand m.1 m.2 = true) :
    draft.addMember member = .error (.routeMember .shorthand) := by
  cases hm with
  | shorthand h ht => rfl
  | pair h hkind ht hv =>
    rw [h] at hk
    cases hk

/-- The further properties are added one after the other, up to the first that is refused. -/
theorem foldlM_addMember {extra : List (String × Value)} {ms : List Member}
    (h : List.Forall₂ Member.Stands extra ms) (hkeys : ∀ m ∈ extra, m.1 ∉ ownKeys) :
    ∀ draft : RouteDraft, ms.foldlM RouteDraft.addMember draft =
      if extra.any fun m => Value.isShorthand m.1 m.2 then .error (.routeMember .shorthand)
      else .ok { draft with extra := draft.extra ++ extra } := by
  induction h with
  | nil =>
    intro draft
    simp
    rfl
  | @cons m member extra ms hm _ ih =>
    intro draft
    rw [List.foldlM_cons]
    cases hk : Value.isShorthand m.1 m.2 with
    | true =>
      rw [addMember_shorthand hm hk, List.any_cons, hk, Bool.true_or, if_pos rfl]
      rfl
    | false =>
      rw [addMember_pair hm hk (hkeys m (by simp)), List.any_cons, hk, Bool.false_or]
      change ms.foldlM RouteDraft.addMember _ = _
      rw [ih fun m' hm' => hkeys m' (List.mem_cons_of_mem _ hm')]
      split
      · rfl
      · simp

/-- The members of a route are read as the route, or refused because of a property that is written
by its name alone. -/
theorem routesOf_members {route : Route} {ms : List Member}
    (h : List.Forall₂ Member.Stands route.members ms)
    (hkeys : ∀ m ∈ route.extra, m.1 ∉ ownKeys) : routesOf ms =
      if route.extra.any fun m => Value.isShorthand m.1 m.2 then .error (.routeMember .shorthand)
      else .ok [route] := by
  rw [members] at h
  cases h with
  | @cons _ matcher _ ms hmatcher h =>
  cases h with
  | @cons _ method _ ms hmethod h =>
  cases h with
  | @cons _ middlewares _ ms hmiddlewares hextra =>
    -- the properties that every route has come first, each once
    have hfold : (matcher :: method :: middlewares :: ms).foldlM RouteDraft.addMember {} =
        ms.foldlM RouteDraft.addMember
          ⟨some route.matcher, [route.method], route.middlewares, []⟩ := by
      rw [List.foldlM_cons, addMember_matcher hmatcher]
      change (method :: middlewares :: ms).foldlM RouteDraft.addMember _ = _
      rw [List.foldlM_cons, addMember_method hmethod]
      change (middlewares :: ms).foldlM RouteDraft.addMember _ = _
      rw [List.foldlM_cons, addMember_middlewares hmiddlewares]
      rfl
    rw [routesOf, hfold, foldlM_addMember hextra hkeys]
    split
    · rfl
    · rfl

/-! ### Reading the text -/

/-- A route is always written on several lines, also where an object would fit on one. -/
theorem render_eq (route : Route) : route.render = '\x7b' ::
    ('\n' :: ((Value.layoutMembers route.members 6).flatMap fun line =>
      Text.spaces (4 + 2) ++ line ++ [',', '\n']) ++ Text.spaces 4 ++ ['\x7d']) := by
  rw [render, Value.brokenObject, Value.bracketLines_eq]
  rfl

/-- The text of a route is read as an object with its members. -/
theorem render_readsAs {route : Route} (h : (Value.object route.members).IsRegular) :
    ReadsAs (.object route.members) route.render := by
  have hmembers := Value.layoutMembers_readsAs route.members 6 h.members
  rw [render_eq]
  exact .object hmembers (Value.isBody_lines (show '\x7d' ∈ enders by decide) 4
    (Value.begins_of_memberReadsAs hmembers))

/-- A route is read as an object whose members mean those of the route. -/
theorem exists_members_of_isRegular {route : Route}
    (hregular : (Value.object route.members).IsRegular) {depth : ℕ} {cs rest : Chars}
    (hdepth : route.render.length ≤ depth) (hrest : Ends rest)
    (hskip : skip cs = route.render ++ rest) :
    ∃ ms f, item (reader depth) cs = some (.object ms f, rest) ∧
      (Expr.object ms f).isDamaged = false ∧ List.Forall₂ Member.Stands route.members ms := by
  have hmembers := Value.layoutMembers_readsAs route.members 6 hregular.members
  have hbody := Value.isBody_lines (show '\x7d' ∈ enders by decide) 4
    (Value.begins_of_memberReadsAs hmembers)
  rw [render_eq] at hdepth hskip
  obtain ⟨depth, rfl⟩ := Nat.exists_eq_add_one.2 (Nat.lt_of_lt_of_le (Nat.succ_pos _) hdepth)
  obtain ⟨ms, f, hitem, hstands⟩ := item_object
    (hbody.item_members hmembers (Nat.le_of_succ_le_succ hdepth)) (hbody rest) hrest hskip
  exact ⟨ms, f, hitem, (entries_of_stands hstands).2, hstands⟩

/-- The reserved words at the start of a path and the names of own properties aside, a route that
can be written is read as an object whose members mean those of the route. -/
theorem exists_members_of_render {route : Route} (hproblem : route.problem? = none)
    (hpaths : ∀ path ∈ route.paths, Text.pathRoot path ∉ reservedWords)
    (hnumbers : ∀ n ∈ route.numbers, ReadsBack n) {depth : ℕ} {cs rest : Chars}
    (hdepth : route.render.length ≤ depth) (hrest : Ends rest)
    (hskip : skip cs = route.render ++ rest) :
    ∃ ms f, item (reader depth) cs = some (.object ms f, rest) ∧
      (Expr.object ms f).isDamaged = false ∧ List.Forall₂ Member.Stands route.members ms := by
  have hregular : (Value.object route.members).IsRegular :=
    ⟨problem?_members hproblem,
      Value.isReadable_of_paths _ (problem?_members hproblem) (by rwa [Value.paths]),
      by rwa [Value.numbers]⟩
  exact exists_members_of_isRegular hregular hdepth hrest hskip

/-- **A route comes back exactly if none of its further properties is written by its name alone.**
Its text is read as one element of a list without damage; what it means is the route, or it is
refused for the first such property. -/
theorem routesOf_render_iff {store added : Store} {route : Route}
    (hadded : store.addRoute route = .ok added)
    (hpaths : ∀ path ∈ route.paths, Text.pathRoot path ∉ reservedWords)
    (hkeys : ∀ m ∈ route.extra, m.1 ∉ ownKeys) (hnumbers : ∀ n ∈ route.numbers, ReadsBack n)
    {depth : ℕ} {cs rest : Chars} (hdepth : route.render.length ≤ depth) (hrest : Ends rest)
    (hskip : skip cs = route.render ++ rest) :
    ∃ ms f, item (reader depth) cs = some (.object ms f, rest) ∧
      (Expr.object ms f).isDamaged = false ∧
      (routesOf ms = .ok [route] ↔ ∀ m ∈ route.extra, Value.isShorthand m.1 m.2 = false) ∧
      (routesOf ms ≠ .ok [route] → routesOf ms = .error (.routeMember .shorthand)) := by
  have hproblem : route.problem? = none := by
    rw [Store.addRoute] at hadded
    split at hadded
    · cases hadded
    · assumption
  obtain ⟨ms, f, hitem, hsound, hstands⟩ :=
    exists_members_of_render hproblem hpaths hnumbers hdepth hrest hskip
  refine ⟨ms, f, hitem, hsound, ?_⟩
  rw [routesOf_members hstands hkeys]
  cases hany : route.extra.any fun m => Value.isShorthand m.1 m.2 with
  | true =>
    obtain ⟨m, hm, hk⟩ := List.any_eq_true.1 hany
    refine ⟨⟨fun h => (nomatch h), fun h => ?_⟩, fun _ => rfl⟩
    rw [h m hm] at hk
    cases hk
  | false =>
    refine ⟨⟨fun _ m hm => ?_, fun _ => rfl⟩, fun h => absurd rfl h⟩
    rw [List.any_eq_false] at hany
    simpa using hany m hm

/-- A route with a guard that is skipped on some paths, and with two further properties. -/
def guarded : Route where
  method := .post
  matcher := "/admin/brands"
  middlewares := [.unlessPath "/public/" "i" ⟨"auth", [.object [("role", .string "admin")]]⟩]
  extra := [("limit", .number (.ofRank false (1023 * Number.blockSize))),
    ("flags", .array [.boolean true, .null])]

/-- The guarded route comes back. -/
theorem routesOf_render_guarded :
    (∃ added, Store.empty.addRoute guarded = .ok added) ∧
      (∀ path ∈ guarded.paths, Text.pathRoot path ∉ reservedWords) ∧
      (∀ m ∈ guarded.extra, m.1 ∉ ownKeys) ∧ (∀ n ∈ guarded.numbers, ReadsBack n) ∧
      ∃ ms f, item (reader guarded.render.length) (guarded.render ++ [',']) =
          some (.object ms f, [',']) ∧ routesOf ms = .ok [guarded] := by
  have hadded : Store.empty.addRoute guarded = .ok { routes := [guarded] } := rfl
  have hpaths : ∀ path ∈ guarded.paths, Text.pathRoot path ∉ reservedWords := by decide +kernel
  have hkeys : ∀ m ∈ guarded.extra, m.1 ∉ ownKeys := by decide +kernel
  have hnumbers : ∀ n ∈ guarded.numbers, ReadsBack n := by
    unfold ReadsBack
    decide +kernel
  refine ⟨⟨_, hadded⟩, hpaths, hkeys, hnumbers, ?_⟩
  have hrest : Ends [','] := ⟨',', by decide, [], by decide⟩
  have hskip : skip (guarded.render ++ [',']) = guarded.render ++ [','] := by decide +kernel
  obtain ⟨ms, f, hitem, -, hiff, -⟩ :=
    routesOf_render_iff hadded hpaths hkeys hnumbers (Nat.le_refl _) hrest hskip
  exact ⟨ms, f, hitem, hiff.2 (by decide +kernel)⟩

/-- A route with a property whose value is a reference to the name of the property. -/
def named : Route where
  method := .get
  matcher := "/a"
  middlewares := []
  extra := [("fields", .identifier "fields")]

/-- The route with such a property is written, and it is refused when it is read. -/
theorem routesOf_render_named :
    (∃ added, Store.empty.addRoute named = .ok added) ∧
      (∀ path ∈ named.paths, Text.pathRoot path ∉ reservedWords) ∧
      (∀ m ∈ named.extra, m.1 ∉ ownKeys) ∧ (∀ n ∈ named.numbers, ReadsBack n) ∧
      ∃ ms f, item (reader named.render.length) (named.render ++ [',']) =
          some (.object ms f, [',']) ∧ routesOf ms = .error (.routeMember .shorthand) := by
  have hpaths : ∀ path ∈ named.paths, Text.pathRoot path ∉ reservedWords := by decide +kernel
  have hkeys : ∀ m ∈ named.extra, m.1 ∉ ownKeys := by decide +kernel
  have hnumbers : ∀ n ∈ named.numbers, ReadsBack n := by
    unfold ReadsBack
    decide +kernel
  refine ⟨⟨{ routes := [named] }, rfl⟩, hpaths, hkeys, hnumbers, ?_⟩
  have hrest : Ends [','] := ⟨',', by decide, [], by decide⟩
  have hskip : skip (named.render ++ [',']) = named.render ++ [','] := by decide +kernel
  have hproblem : named.problem? = none := rfl
  obtain ⟨ms, f, hitem, -, hstands⟩ :=
    exists_members_of_render hproblem hpaths hnumbers (Nat.le_refl _) hrest hskip
  refine ⟨ms, f, hitem, ?_⟩
  rw [routesOf_members hstands hkeys]
  exact if_pos (by decide +kernel)

end Route

end ModuleScaffold
