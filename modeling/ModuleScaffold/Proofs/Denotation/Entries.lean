import ModuleScaffold.Proofs.Denotation.Written
import ModuleScaffold.Proofs.Merge.Read
import ModuleScaffold.Proofs.Modules.Accepted
import ModuleScaffold.Proofs.Reading.Route

/-!
# What written routes denote

The members of a route entry are gone through one after the other. The matcher and the method that
are kept are those that are set last, as in an object, and the further properties are all kept; but
the middlewares of several members are strung together. So an entry whose members are plain, with
one list of middlewares at most, is written again as an object that has the same properties, but for
the method, which is one of those that the entry names, and for middlewares that may have been left
out (`ModuleScaffold.Route.Restates`).

Main statements:

* `ModuleScaffold.Source.RouteDraft.Holds.addMember` – **what one more member makes of a draft**;
* `ModuleScaffold.Source.restates_of_routesOf` – **the routes of a plain entry have its
  properties**;
* `ModuleScaffold.Route.render_denotes` – a written route denotes its members.
-/

namespace ModuleScaffold

open Text

namespace Source

/-! ### Properties -/

/-- What a member with the given key and a value behind a colon sets. -/
def Property.named (key : String) : Property :=
  .ofName (units key.toList)

/-- What is set last under a property. -/
def lookup {α : Type} (p : Property) : List (Property × α) → Option α
  | [] => none
  | (q, a) :: ms => (lookup p ms).or (if q = p then some a else none)

theorem Property.named_eq {key : String} (h : key ≠ "__proto__") :
    Property.named key = .own (units key.toList) := by
  refine if_neg fun heq => h (String.toList_injective (units_injective heq))

theorem Property.named_injective : Function.Injective Property.named := by
  intro k key h
  by_cases hk : k = "__proto__"
  · by_contra hne
    have hkey : key ≠ "__proto__" := fun hkey => hne (hk.trans hkey.symm)
    rw [named_eq hkey, hk] at h
    cases h
  · by_cases hkey : key = "__proto__"
    · rw [named_eq hk, hkey] at h
      cases h
    · rw [named_eq hk, named_eq hkey] at h
      exact String.toList_injective (units_injective (Property.own.inj h))

theorem property_eq_named_iff {k key : String} {v : Value} (hkey : key ≠ "__proto__") :
    v.property k = .named key ↔ k = key := by
  rw [Value.property]
  split
  · rw [Property.named_eq hkey]
    refine ⟨fun h => String.toList_injective (units_injective (Property.own.inj h)), ?_⟩
    rintro rfl
    rfl
  · exact Property.named_injective.eq_iff

theorem lookup_eq_none {α : Type} {p : Property} {ms : List (Property × α)}
    (h : ∀ m ∈ ms, m.1 ≠ p) : lookup p ms = none := by
  induction ms with
  | nil => rfl
  | cons m ms ih =>
    rw [lookup, ih fun m' hm' => h m' (List.mem_cons_of_mem _ hm'), if_neg (h m (by simp))]
    rfl

/-! ### Keys and values -/

/-- The values of the members with the given key. -/
def valuesOf (key : String) (entries : List (String × Value)) : List Value :=
  (entries.filter (·.1 == key)).map (·.2)

theorem valuesOf_cons (key k : String) (v : Value) (entries : List (String × Value)) :
    valuesOf key ((k, v) :: entries) =
      if k = key then v :: valuesOf key entries else valuesOf key entries := by
  rw [valuesOf, List.filter_cons]
  by_cases hk : k = key
  · rw [if_pos (by simpa using hk), if_pos hk]
    rfl
  · rw [if_neg (by simpa using hk), if_neg hk]
    rfl

theorem valuesOf_concat (key : String) (entries : List (String × Value)) (k : String) (v : Value) :
    valuesOf key (entries ++ [(k, v)]) =
      valuesOf key entries ++ if k = key then [v] else [] := by
  have hsingle : valuesOf key [(k, v)] = if k = key then [v] else [] := valuesOf_cons key k v []
  rw [← hsingle, valuesOf, List.filter_append, List.map_append]
  rfl

/-- What an object has under a name is the last value with the key. -/
theorem lookup_dataMembers {key : String} (hkey : key ≠ "__proto__")
    (entries : List (String × Value)) : lookup (.named key) (Value.dataMembers entries) =
      (valuesOf key entries).getLast?.map Value.datum := by
  induction entries with
  | nil => rfl
  | cons m entries ih =>
    obtain ⟨k, v⟩ := m
    rw [Value.dataMembers, lookup, ih, valuesOf_cons]
    by_cases hk : k = key
    · rw [if_pos ((property_eq_named_iff hkey).2 hk), if_pos hk, List.getLast?_cons]
      cases (valuesOf key entries).getLast? <;> rfl
    · rw [if_neg fun h => hk ((property_eq_named_iff hkey).1 h), if_neg hk, Option.or_none]

/-- Members that set other properties may be left out. -/
theorem lookup_filter {p : Property} {keep : String × Value → Bool}
    {entries : List (String × Value)}
    (h : ∀ m ∈ entries, keep m = false → m.2.property m.1 ≠ p) :
    lookup p (Value.dataMembers (entries.filter keep)) = lookup p (Value.dataMembers entries) := by
  induction entries with
  | nil => rfl
  | cons m entries ih =>
    obtain ⟨k, v⟩ := m
    have hrest := ih fun m' hm' => h m' (List.mem_cons_of_mem _ hm')
    rw [List.filter_cons]
    split
    · rw [Value.dataMembers, Value.dataMembers, lookup, lookup, hrest]
    · next hkeep =>
      rw [Value.dataMembers, lookup, hrest, if_neg (h (k, v) (by simp) (by simpa using hkeep)),
        Option.or_none]

/-- Whether a member is one of the further properties of a route. -/
def isExtra (m : String × Value) : Bool :=
  ! Route.ownKeys.contains m.1

theorem isExtra_iff {k : String} {v : Value} :
    isExtra (k, v) = true ↔ k ≠ "matcher" ∧ k ≠ "method" ∧ k ≠ "middlewares" := by
  simp [isExtra, Route.ownKeys]

theorem filter_isExtra_concat (entries : List (String × Value)) (k : String) (v : Value) :
    (entries ++ [(k, v)]).filter isExtra =
      entries.filter isExtra ++ if isExtra (k, v) then [(k, v)] else [] := by
  rw [List.filter_append, List.filter_cons, List.filter_nil]

/-! ### Drafts -/

/-- A draft holds what the members say that have been read. -/
structure RouteDraft.Holds (draft : RouteDraft) (entries : List (String × Value)) : Prop where
  /-- The matcher is the last one. -/
  matcher : (valuesOf "matcher" entries).getLast? = draft.matcher.map .string
  /-- The methods are the last ones. -/
  methods : ∀ v, (valuesOf "method" entries).getLast? = some v → methodsOf v = .ok draft.methods
  /-- There are no methods without a member. -/
  noMethods : valuesOf "method" entries = [] → draft.methods = []
  /-- The middlewares of all members are strung together. -/
  middlewares : ∃ lists : List (List Call),
    valuesOf "middlewares" entries = lists.map (fun calls => .array (calls.map Call.toValue)) ∧
      draft.middlewares = lists.flatten
  /-- All further properties are kept. -/
  extra : draft.extra = entries.filter isExtra

/-- Nothing has been read at the start. -/
theorem RouteDraft.holds_nil : RouteDraft.Holds {} [] where
  matcher := rfl
  methods _ h := by cases h
  noMethods _ := rfl
  middlewares := ⟨[], rfl, rfl⟩
  extra := rfl

/-- Expressions that are taken as calls stand for them. -/
theorem values_of_callsFrom : ∀ {es : List Expr} {calls : List Call} {place : ℕ},
    callsFrom place es = .ok calls → Expr.values es = .ok (calls.map Call.toValue)
  | [], calls, place => fun h => by
    obtain rfl : [] = calls := Except.ok.inj h
    rw [Expr.values]
    rfl
  | e :: es, calls, place => fun h => by
    rw [callsFrom] at h
    obtain ⟨v, hv, h⟩ := bind_eq_ok_iff.1 h
    cases v
    case call callee args =>
      obtain ⟨more, hmore, h⟩ := bind_eq_ok_iff.1 h
      obtain rfl : ⟨callee, args⟩ :: more = calls := Except.ok.inj h
      rw [Expr.values, hv, values_of_callsFrom hmore]
      rfl
    all_goals cases h

/-- The method with a name. -/
theorem ofName?_of_methodNamed {name : String} {method : Method}
    (h : methodNamed name = .ok method) : Method.ofName? name = some method := by
  rw [methodNamed] at h
  split at h
  · next hname => rw [hname, Except.ok.inj h]
  · cases h

/-- A key that is read as what it names is not computed. -/
theorem kind_ne_of_isPlain {key : Key} {v : Value} (h : key.isPlain v = true) :
    key.kind ≠ .computedKey := by
  intro hkind
  have hproperty : key.property = some (.computed key.fragment.chars) := by
    rw [Key.property, hkind]
  rw [Key.isPlain, hproperty, beq_iff_eq] at h
  have hcomputed := Option.some.inj h
  rw [Value.property] at hcomputed
  split at hcomputed
  · cases hcomputed
  · rw [Property.ofName] at hcomputed
    split at hcomputed <;> cases hcomputed

namespace RouteDraft.Holds

variable {draft draft' : RouteDraft} {entries : List (String × Value)}

/-- A matcher takes the place of the one before. -/
theorem setMatcher (h : draft.Holds entries) (text : String) :
    RouteDraft.Holds { draft with matcher := some text }
      (entries ++ [("matcher", .string text)]) where
  matcher := by
    rw [valuesOf_concat, if_pos rfl, List.getLast?_concat]
    rfl
  methods := by
    rw [valuesOf_concat, if_neg (by decide), List.append_nil]
    exact h.methods
  noMethods := by
    rw [valuesOf_concat, if_neg (by decide), List.append_nil]
    exact h.noMethods
  middlewares := by
    rw [valuesOf_concat, if_neg (by decide), List.append_nil]
    exact h.middlewares
  extra := by
    rw [filter_isExtra_concat, if_neg fun hk => (isExtra_iff.1 hk).1 rfl, List.append_nil]
    exact h.extra

/-- Methods take the place of those before. -/
theorem setMethods (h : draft.Holds entries) {v : Value} {methods : List Method}
    (hmethods : methodsOf v = .ok methods) :
    RouteDraft.Holds { draft with methods } (entries ++ [("method", v)]) where
  matcher := by
    rw [valuesOf_concat, if_neg (by decide), List.append_nil]
    exact h.matcher
  methods := by
    rw [valuesOf_concat, if_pos rfl, List.getLast?_concat]
    intro w hw
    rw [← Option.some.inj hw]
    exact hmethods
  noMethods := by
    rw [valuesOf_concat, if_pos rfl]
    exact fun hnil => absurd hnil (by simp)
  middlewares := by
    rw [valuesOf_concat, if_neg (by decide), List.append_nil]
    exact h.middlewares
  extra := by
    rw [filter_isExtra_concat, if_neg fun hk => (isExtra_iff.1 hk).2.1 rfl, List.append_nil]
    exact h.extra

/-- Middlewares are put behind those before. -/
theorem addMiddlewares (h : draft.Holds entries) (calls : List Call) :
    RouteDraft.Holds { draft with middlewares := draft.middlewares ++ calls }
      (entries ++ [("middlewares", .array (calls.map Call.toValue))]) where
  matcher := by
    rw [valuesOf_concat, if_neg (by decide), List.append_nil]
    exact h.matcher
  methods := by
    rw [valuesOf_concat, if_neg (by decide), List.append_nil]
    exact h.methods
  noMethods := by
    rw [valuesOf_concat, if_neg (by decide), List.append_nil]
    exact h.noMethods
  middlewares := by
    obtain ⟨lists, hlists, hstrung⟩ := h.middlewares
    refine ⟨lists ++ [calls], ?_, ?_⟩
    · rw [valuesOf_concat, if_pos rfl, hlists, List.map_append]
      rfl
    · rw [hstrung, List.flatten_append, List.flatten_singleton]
  extra := by
    rw [filter_isExtra_concat, if_neg fun hk => (isExtra_iff.1 hk).2.2 rfl, List.append_nil]
    exact h.extra

/-- A further property is put behind those before. -/
theorem addExtra (h : draft.Holds entries) {k : String} (v : Value)
    (hk : k ≠ "matcher" ∧ k ≠ "method" ∧ k ≠ "middlewares") :
    RouteDraft.Holds { draft with extra := draft.extra ++ [(k, v)] } (entries ++ [(k, v)]) where
  matcher := by
    rw [valuesOf_concat, if_neg hk.1, List.append_nil]
    exact h.matcher
  methods := by
    rw [valuesOf_concat, if_neg hk.2.1, List.append_nil]
    exact h.methods
  noMethods := by
    rw [valuesOf_concat, if_neg hk.2.1, List.append_nil]
    exact h.noMethods
  middlewares := by
    rw [valuesOf_concat, if_neg hk.2.2, List.append_nil]
    exact h.middlewares
  extra := by
    rw [filter_isExtra_concat, if_pos (isExtra_iff.2 hk), h.extra]

/-- One more pair. -/
theorem add (h : draft.Holds entries) {key : String} {e : Expr}
    (hadd : draft.add key e = .ok draft') :
    ∃ v, e.value = .ok v ∧ draft'.Holds (entries ++ [(key, v)]) := by
  unfold RouteDraft.add at hadd
  split at hadd
  · obtain ⟨v, hv, hadd⟩ := bind_eq_ok_iff.1 hadd
    cases v
    case string text =>
      obtain rfl := Except.ok.inj hadd
      exact ⟨_, hv, h.setMatcher text⟩
    all_goals cases hadd
  · obtain ⟨v, hv, hadd⟩ := bind_eq_ok_iff.1 hadd
    obtain ⟨methods, hmethods, hadd⟩ := bind_eq_ok_iff.1 hadd
    obtain rfl := Except.ok.inj hadd
    exact ⟨_, hv, h.setMethods hmethods⟩
  · split at hadd
    · next items f =>
      obtain ⟨calls, hcalls, hadd⟩ := bind_eq_ok_iff.1 hadd
      obtain rfl := Except.ok.inj hadd
      refine ⟨_, ?_, h.addMiddlewares calls⟩
      rw [Expr.value, values_of_callsFrom hcalls]
    · cases hadd
  · next hmatcher hmethod hmiddlewares =>
    obtain ⟨v, hv, hadd⟩ := bind_eq_ok_iff.1 hadd
    obtain rfl := Except.ok.inj hadd
    exact ⟨_, hv, h.addExtra v ⟨hmatcher, hmethod, hmiddlewares⟩⟩

/-- **What one more member makes of a draft.** -/
theorem addMember (h : draft.Holds entries) {m : Member} (hplain : m.isPlain = true)
    (hadd : draft.addMember m = .ok draft') :
    ∃ entry, m.entry = .ok entry ∧ draft'.Holds (entries ++ [entry]) := by
  cases m with
  | pair key e f =>
    obtain ⟨v, hv, hholds⟩ := h.add hadd
    refine ⟨(key.text, v), ?_, hholds⟩
    rw [Member.entry, if_neg, hv]
    rw [Member.isPlain, hv, Bool.and_eq_true] at hplain
    exact kind_ne_of_isPlain hplain.1
  | shorthand f => cases hadd
  | other kind f => cases hadd
  | damaged key f => cases hadd

/-- What several members make of a draft. -/
theorem addMembers : ∀ {ms : List Member} {draft : RouteDraft} {entries : List (String × Value)},
    draft.Holds entries → Member.arePlain ms = true →
      ms.foldlM RouteDraft.addMember draft = .ok draft' →
        ∃ more, Member.values ms = .ok more ∧ draft'.Holds (entries ++ more)
  | [], draft, entries => fun h _ hfold => by
    obtain rfl : draft = draft' := Except.ok.inj hfold
    refine ⟨[], ?_, by rwa [List.append_nil]⟩
    rw [Member.values]
  | m :: ms, draft, entries => fun h hplain hfold => by
    rw [Member.arePlain, Bool.and_eq_true] at hplain
    rw [List.foldlM_cons] at hfold
    obtain ⟨next, hadd, hfold⟩ := bind_eq_ok_iff.1 hfold
    obtain ⟨entry, hentry, hnext⟩ := h.addMember hplain.1 hadd
    obtain ⟨more, hmore, hholds⟩ := hnext.addMembers hplain.2 hfold
    refine ⟨entry :: more, ?_, by rwa [List.append_assoc] at hholds⟩
    rw [Member.values, hentry, hmore]

end RouteDraft.Holds

/-! ### Methods -/

/-- Whether the datum names the methods: one by a text, or several by a list of texts. -/
def Datum.Names (d : Datum) (methods : List Method) : Prop :=
  ∃ names : List String,
    List.Forall₂ (fun name method => Method.ofName? name = some method) names methods ∧
      (d = .array (names.map fun name => .text (units name.toList)) ∨
        ∃ name, names = [name] ∧ d = .text (units name.toList))

theorem names_of_mapM : ∀ {items : List Value} {methods : List Method},
    items.mapM methodItem = .ok methods → ∃ names : List String,
      List.Forall₂ (fun name method => Method.ofName? name = some method) names methods ∧
        Value.dataAll items = names.map fun name => .text (units name.toList)
  | [], methods => fun h => by
    obtain rfl : [] = methods := Except.ok.inj h
    exact ⟨[], .nil, rfl⟩
  | v :: items, methods => fun h => by
    rw [List.mapM_cons] at h
    obtain ⟨method, hmethod, h⟩ := bind_eq_ok_iff.1 h
    obtain ⟨more, hmore, h⟩ := bind_eq_ok_iff.1 h
    obtain rfl : method :: more = methods := Except.ok.inj h
    obtain ⟨names, hnames, hdata⟩ := names_of_mapM hmore
    cases v
    case string name =>
      refine ⟨name :: names, .cons (ofName?_of_methodNamed hmethod) hnames, ?_⟩
      rw [Value.dataAll, hdata, List.map_cons, Value.datum]
    all_goals cases hmethod

/-- The value of a method names it. -/
theorem names_of_methodsOf {v : Value} {methods : List Method} (h : methodsOf v = .ok methods) :
    v.datum.Names methods := by
  cases v
  case string name =>
    rw [methodsOf] at h
    cases hname : methodNamed name with
    | error u =>
      rw [hname] at h
      cases h
    | ok method =>
      rw [hname] at h
      obtain rfl : [method] = methods := Except.ok.inj h
      exact ⟨[name], .cons (ofName?_of_methodNamed hname) .nil, .inr ⟨name, rfl, rfl⟩⟩
  case array items =>
    obtain ⟨names, hnames, hdata⟩ := names_of_mapM h
    refine ⟨names, hnames, .inl ?_⟩
    rw [Value.datum, hdata]
  all_goals cases h

end Source

open Source

/-! ### Routes -/

/-- What a route that is written says of the entry that it was read from. -/
structure Route.Restates (route : Route) (entry written : List (Property × Datum)) : Prop where
  /-- The method is written by its name. -/
  method : lookup (.named "method") written = some (.text (units route.method.name.toList))
  /-- The middlewares are the same; if there were none, the list is empty. -/
  middlewares : lookup (.named "middlewares") written =
    some ((lookup (.named "middlewares") entry).getD (.array []))
  /-- All other properties are the same. -/
  others : ∀ p, p ≠ .named "method" → p ≠ .named "middlewares" → lookup p written = lookup p entry

theorem Route.filter_members {route : Route} (h : ∀ m ∈ route.extra, isExtra m = true) :
    route.members.filter isExtra = route.extra := by
  have hown : ∀ {k v}, k ∈ ownKeys → isExtra (k, v) = false := fun {k v} hk => by
    rw [isExtra, Bool.not_eq_false', List.contains_iff_mem]
    exact hk
  rw [members, List.filter_cons_of_neg (by rw [hown (by decide)]; decide),
    List.filter_cons_of_neg (by rw [hown (by decide)]; decide),
    List.filter_cons_of_neg (by rw [hown (by decide)]; decide), List.filter_eq_self.2 h]

/-- An own property of a route is not among the further ones. -/
theorem Route.valuesOf_extra {route : Route} (h : ∀ m ∈ route.extra, isExtra m = true)
    {key : String} (hkey : key ∈ ownKeys) : valuesOf key route.extra = [] := by
  rw [valuesOf, List.map_eq_nil_iff, List.filter_eq_nil_iff]
  intro m hm heq
  have hextra := h m hm
  rw [isExtra, beq_iff_eq.1 heq, List.contains_iff_mem.2 hkey] at hextra
  cases hextra

namespace Source

/-- What is left out sets none of the further properties. -/
theorem property_ne_of_not_isExtra {m : String × Value} {p : Property}
    (hmatcher : p ≠ .named "matcher") (hmethod : p ≠ .named "method")
    (hmiddlewares : p ≠ .named "middlewares") (h : isExtra m = false) :
    m.2.property m.1 ≠ p := by
  obtain ⟨k, v⟩ := m
  rw [Bool.eq_false_iff, Ne, isExtra_iff] at h
  rintro rfl
  refine h ⟨fun hk => hmatcher ?_, fun hk => hmethod ?_, fun hk => hmiddlewares ?_⟩
  · exact (property_eq_named_iff (by decide)).2 hk
  · exact (property_eq_named_iff (by decide)).2 hk
  · exact (property_eq_named_iff (by decide)).2 hk

theorem RouteDraft.Holds.restates {draft : RouteDraft} {entries : List (String × Value)}
    (h : draft.Holds entries) (honce : (valuesOf "middlewares" entries).length ≤ 1)
    {matcher : String} (hmatcher : draft.matcher = some matcher) (method : Method) :
    Route.Restates ⟨method, matcher, draft.middlewares, draft.extra⟩ (Value.dataMembers entries)
      (Value.dataMembers
        (Route.members ⟨method, matcher, draft.middlewares, draft.extra⟩)) := by
  obtain ⟨route, hroute⟩ : ∃ route : Route,
    route = ⟨method, matcher, draft.middlewares, draft.extra⟩ := ⟨_, rfl⟩
  have hextra : ∀ m ∈ route.extra, isExtra m = true := by
    rw [hroute]
    simp only
    rw [h.extra]
    exact fun m hm => (List.mem_filter.1 hm).2
  have hmembers : route.members = ("matcher", .string matcher) :: ("method", .string method.name) ::
      ("middlewares", .array (draft.middlewares.map Call.toValue)) :: route.extra := by
    rw [hroute]
    rfl
  rw [← hroute]
  refine ⟨?_, ?_, fun p hmethod hmiddlewares => ?_⟩
  · rw [lookup_dataMembers (by decide), hmembers, valuesOf_cons, if_neg (by decide), valuesOf_cons,
      if_pos rfl, valuesOf_cons, if_neg (by decide), Route.valuesOf_extra hextra (by decide), hroute]
    rfl
  · rw [lookup_dataMembers (by decide), hmembers, valuesOf_cons, if_neg (by decide), valuesOf_cons,
      if_neg (by decide), valuesOf_cons, if_pos rfl, Route.valuesOf_extra hextra (by decide),
      lookup_dataMembers (by decide)]
    obtain ⟨lists, hlists, hstrung⟩ := h.middlewares
    rw [hlists, List.length_map] at honce
    rw [hlists, hstrung]
    cases lists with
    | nil => rfl
    | cons calls lists =>
      obtain rfl : lists = [] := List.length_eq_zero_iff.1 (by
        rw [List.length_cons] at honce
        omega)
      rw [List.flatten_singleton]
      rfl
  · by_cases hp : p = .named "matcher"
    · rw [hp, lookup_dataMembers (by decide), lookup_dataMembers (by decide), h.matcher, hmatcher,
        hmembers, valuesOf_cons, if_pos rfl, valuesOf_cons, if_neg (by decide), valuesOf_cons,
        if_neg (by decide), Route.valuesOf_extra hextra (by decide)]
      rfl
    · have hkeep : ∀ entries : List (String × Value), ∀ m ∈ entries, isExtra m = false →
          m.2.property m.1 ≠ p :=
        fun _ _ _ => property_ne_of_not_isExtra hp hmethod hmiddlewares
      rw [← lookup_filter (hkeep route.members), ← lookup_filter (hkeep entries),
        Route.filter_members hextra, ← h.extra, hroute]

/-! ### Entries -/

/-- Whether the member has the given key. -/
def Member.hasKey (text : String) : Member → Bool
  | .pair key _ _ => key.text == text
  | .shorthand f => f.text == text
  | .other .. | .damaged .. => false

theorem hasKey_of_entry {m : Member} {k text : String} {v : Value} (h : m.entry = .ok (k, v)) :
    m.hasKey text = (k == text) := by
  cases m with
  | pair key e f =>
    rw [Member.entry] at h
    split at h
    · cases h
    split at h
    · obtain ⟨rfl, -⟩ := Prod.mk.inj (Except.ok.inj h)
      rfl
    · cases h
  | shorthand f =>
    rw [Member.entry] at h
    obtain ⟨rfl, -⟩ := Prod.mk.inj (Except.ok.inj h)
    rfl
  | other kind f =>
    rw [Member.entry] at h
    cases h
  | damaged key f =>
    rw [Member.entry] at h
    cases h

/-- The members with a key have its values. -/
theorem length_valuesOf (text : String) : ∀ {ms : List Member} {entries : List (String × Value)},
    Member.values ms = .ok entries →
      (valuesOf text entries).length = (ms.filter (·.hasKey text)).length
  | [], entries => fun h => by
    rw [Member.values] at h
    rw [← Except.ok.inj h]
    rfl
  | m :: ms, entries => fun h => by
    obtain ⟨⟨k, v⟩, more, rfl, hentry, hmore⟩ := ok_of_members_cons h
    have hrest := length_valuesOf text hmore
    rw [valuesOf_cons, List.filter_cons, hasKey_of_entry hentry]
    by_cases hk : k = text
    · rw [if_pos hk, if_pos (beq_iff_eq.2 hk), List.length_cons, List.length_cons, hrest]
    · rw [if_neg hk, if_neg fun heq => hk (beq_iff_eq.1 heq), hrest]

/-- **The routes of a plain entry have its properties**, if there is one list of middlewares at
most. -/
theorem restates_of_routesOf {ms : List Member} {routes : List Route}
    (h : routesOf ms = .ok routes) (hplain : Member.arePlain ms = true)
    (honce : (ms.filter (·.hasKey "middlewares")).length ≤ 1) :
    ∃ entry, Member.data ms = some entry ∧
      (∃ d, lookup (.named "method") entry = some d ∧ d.Names (routes.map Route.method)) ∧
        ∀ route ∈ routes, route.Restates entry (Value.dataMembers route.members) := by
  rw [routesOf] at h
  obtain ⟨draft, hfold, hroutes⟩ := bind_eq_ok_iff.1 h
  obtain ⟨entries, hvalues, hholds⟩ := RouteDraft.holds_nil.addMembers hplain hfold
  rw [List.nil_append] at hholds
  rw [← length_valuesOf "middlewares" hvalues] at honce
  rw [RouteDraft.routes] at hroutes
  split at hroutes
  · cases hroutes
  · next matcher hmatcher =>
    split at hroutes
    · cases hroutes
    · next hne =>
      obtain rfl := Except.ok.inj hroutes
      refine ⟨_, (Member.data_eq_iff ms hvalues).2 hplain, ?_, fun route hroute => ?_⟩
      · rw [lookup_dataMembers (by decide)]
        cases hlast : (valuesOf "method" entries).getLast? with
        | none =>
          rw [List.getLast?_eq_none_iff] at hlast
          rw [hholds.noMethods hlast] at hne
          exact absurd rfl hne
        | some v =>
          refine ⟨_, rfl, ?_⟩
          have hmethods : (draft.methods.map fun method => (⟨method, matcher, draft.middlewares,
              draft.extra⟩ : Route)).map Route.method = draft.methods := by
            rw [List.map_map]
            exact List.map_id _
          rw [hmethods]
          exact names_of_methodsOf (hholds.methods v hlast)
      · obtain ⟨method, -, rfl⟩ := List.mem_map.1 hroute
        exact hholds.restates honce hmatcher method

end Source

/-! ### Written routes -/

/-- A written route denotes its members. -/
theorem Route.render_denotes {route : Route} (h : route.problem? = none)
    (hreadable : (Value.object route.members).isReadable = true) :
    Denotes route.render (.object (Value.dataMembers route.members)) := by
  have hregular := Value.isRegular_of_isReadable (problem?_members h) hreadable
  have hdenotes := (render_readsAs hregular).denotes
  rwa [Value.datum] at hdenotes

end ModuleScaffold
