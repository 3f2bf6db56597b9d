import ModuleScaffold.Proofs.Denotation.Entries

/-!
# What is kept of the meaning of what is accepted

Expressions are accepted in three places: as arguments, as entries of the list of routes, and as
further settings of the registration. Of an argument and of an entry the value is written again, of
a setting the key and the text. In each place something is accepted that is not written again with
its meaning: holes of arrays and some numbers everywhere, and in entries and settings also keys that
are computed, which become texts.

Main statements:

* `ModuleScaffold.Source.isReadable_of_isLiteral` – the value of a literal has references of no
  kind, so that nothing hinders its reading;
* `ModuleScaffold.Source.Reading.exists_routes_of_accepted` – an entry that is accepted is an
  object, and its routes are in the store;
* `ModuleScaffold.Source.accepted_keeps_meaning` – **what is plain keeps its meaning**: exactly
  then for arguments, and exactly then for the keys of settings.
-/

namespace ModuleScaffold

open Text

namespace Source

/-! ### Literals -/

/-- Whether an expression that is given by its kind is a literal. -/
def Kind.isLiteral : Kind → Bool
  | .string | .number | .trueLiteral | .falseLiteral | .null => true
  | _ => false

mutual

/-- Whether an expression is made of literals, signs, arrays and objects. -/
def Expr.isLiteral : Expr → Bool
  | .leaf kind _ => kind.isLiteral
  | .template .. | .regex .. => true
  | .array items _ => Expr.areLiteral items
  | .object members _ => Member.areLiteral members
  | .unary _ operand _ => Expr.isLiteral operand
  | .parenthesized inner _ => Expr.isLiteral inner
  | .call .. | .tagged .. | .damaged .. => false

/-- Whether each expression is made of literals. -/
def Expr.areLiteral : List Expr → Bool
  | [] => true
  | e :: es => Expr.isLiteral e && Expr.areLiteral es

/-- Whether the values of members are made of literals. -/
def Member.areLiteral : List Member → Bool
  | [] => true
  | m :: ms => Member.isLiteral m && Member.areLiteral ms

/-- Whether the value of a member is made of literals. -/
def Member.isLiteral : Member → Bool
  | .pair _ value _ => Expr.isLiteral value
  | .shorthand _ | .other .. | .damaged .. => false

end

theorem isReadable_of_leafValue {kind : Kind} {f : Fragment} {v : Value}
    (hkind : kind.isLiteral = true) (h : leafValue kind f = .ok v) : v.isReadable = true := by
  cases kind
  case number =>
    rw [leafValue] at h
    split at h
    · obtain rfl := Except.ok.inj h
      rfl
    · cases h
  case string | trueLiteral | falseLiteral | null =>
    obtain rfl := Except.ok.inj h
    rfl
  all_goals cases hkind

/-- A sign gives a number. -/
theorem isReadable_of_signed {mark : Chars} {v w : Value} (h : signed mark v = .ok w) :
    w.isReadable = true := by
  rw [signed.eq_def] at h
  split at h
  · obtain rfl := Except.ok.inj h
    rfl
  · obtain rfl := Except.ok.inj h
    rfl
  · cases h

mutual

/-- **There are no references in the value of a literal.** -/
theorem isReadable_of_isLiteral : ∀ (e : Expr) {v : Value}, e.isLiteral = true → e.value = .ok v →
    v.isReadable = true
  | .leaf kind f => fun hliteral h => by
    rw [Expr.isLiteral] at hliteral
    rw [Expr.value] at h
    exact isReadable_of_leafValue hliteral h
  | .template filled f => fun _ h => by
    rw [Expr.value] at h
    split at h
    · cases h
    · obtain rfl := Except.ok.inj h
      rfl
  | .regex pattern flags f => fun _ h => by
    rw [Expr.value] at h
    obtain rfl := Except.ok.inj h
    rfl
  | .array items f => fun hliteral h => by
    rw [Expr.isLiteral] at hliteral
    rw [Expr.value] at h
    split at h
    · next vs hvs =>
      rw [← Except.ok.inj h, Value.isReadable]
      exact areReadable_of_areLiteral items hliteral hvs
    · cases h
  | .object members f => fun hliteral h => by
    rw [Expr.isLiteral] at hliteral
    rw [Expr.value] at h
    split at h
    · next ms hms =>
      rw [← Except.ok.inj h, Value.isReadable]
      exact areReadableMembers_of_areLiteral members hliteral hms
    · cases h
  | .unary mark operand f => fun _ h => by
    rw [Expr.value] at h
    split at h
    · exact isReadable_of_signed h
    · cases h
  | .parenthesized inner f => fun hliteral h => by
    rw [Expr.isLiteral] at hliteral
    rw [Expr.value] at h
    exact isReadable_of_isLiteral inner hliteral h
  | .call .. | .tagged .. | .damaged .. => fun hliteral _ => by
    rw [Expr.isLiteral] at hliteral
    cases hliteral

theorem areReadable_of_areLiteral : ∀ (es : List Expr) {vs : List Value},
    Expr.areLiteral es = true → Expr.values es = .ok vs → Value.areReadable vs = true
  | [] => fun _ h => by
    rw [Expr.values] at h
    rw [← Except.ok.inj h, Value.areReadable]
  | e :: es => fun hliteral h => by
    rw [Expr.areLiteral, Bool.and_eq_true] at hliteral
    obtain ⟨v, ws, rfl, hv, hws⟩ := ok_of_values_cons h
    rw [Value.areReadable, isReadable_of_isLiteral e hliteral.1 hv,
      areReadable_of_areLiteral es hliteral.2 hws]
    rfl

theorem areReadableMembers_of_areLiteral : ∀ (ms : List Member) {entries : List (String × Value)},
    Member.areLiteral ms = true → Member.values ms = .ok entries →
      Value.areReadableMembers entries = true
  | [] => fun _ h => by
    rw [Member.values] at h
    rw [← Except.ok.inj h, Value.areReadableMembers]
  | m :: ms => fun hliteral h => by
    rw [Member.areLiteral, Bool.and_eq_true] at hliteral
    obtain ⟨⟨k, v⟩, more, rfl, hm, hms⟩ := ok_of_members_cons h
    rw [Value.areReadableMembers, isReadable_of_entry m hliteral.1 hm,
      areReadableMembers_of_areLiteral ms hliteral.2 hms, Bool.or_true]
    rfl

theorem isReadable_of_entry : ∀ (m : Member) {k : String} {v : Value}, m.isLiteral = true →
    m.entry = .ok (k, v) → v.isReadable = true
  | .pair key value f => fun hliteral h => by
    rw [Member.isLiteral] at hliteral
    rw [Member.entry] at h
    split at h
    · cases h
    split at h
    · next w hw =>
      obtain ⟨-, rfl⟩ := Prod.mk.inj (Except.ok.inj h)
      exact isReadable_of_isLiteral value hliteral hw
    · cases h
  | .shorthand _ | .other .. | .damaged .. => fun hliteral _ => by
    rw [Member.isLiteral] at hliteral
    cases hliteral

end

/-! ### Entries -/

namespace Reading

/-- The complaints about several routes are about those that cannot be written. -/
theorem complaints_addRoutes (f : Fragment) (routes : List Route) (reading : Reading) :
    (reading.addRoutes f routes).complaints = reading.complaints ++
      (routes.filterMap Route.problem?).map fun p => (.unwritableRoute p, f) := by
  unfold addRoutes
  induction routes generalizing reading with
  | nil => exact (List.append_nil _).symm
  | cons route routes ih =>
    rw [List.foldl_cons, ih, Store.addRoute]
    cases hproblem : route.problem? with
    | none => rw [List.filterMap_cons_none hproblem]
    | some p =>
      rw [List.filterMap_cons_some hproblem, List.map_cons]
      exact List.append_assoc _ _ _

/-- Routes that can be written are inserted. -/
theorem store_addRoutes (f : Fragment) {routes : List Route}
    (h : ∀ route ∈ routes, route.problem? = none) (reading : Reading) :
    (reading.addRoutes f routes).store = { reading.store with
      routes := routes.foldl (fun routes route => Store.insertRoute route routes)
        reading.store.routes } := by
  unfold addRoutes
  induction routes generalizing reading with
  | nil => rfl
  | cons route routes ih =>
    rw [List.foldl_cons, ih fun route hroute => h route (List.mem_cons_of_mem _ hroute),
      Store.addRoute, h route (List.mem_cons_self ..)]
    rfl

/-- **The routes of an entry that is accepted are in the store.** -/
theorem exists_routes_of_accepted {reading : Reading} {ms : List Member} {f : Fragment}
    (h : (reading.addEntry (.object ms f)).complaints = reading.complaints) :
    ∃ routes, routesOf ms = .ok routes ∧ (∀ route ∈ routes, route.problem? = none) ∧
      (reading.addEntry (.object ms f)).store = { reading.store with
        routes := routes.foldl (fun routes route => Store.insertRoute route routes)
          reading.store.routes } := by
  have hcomplain : ∀ c f, (reading.complain c f).complaints ≠ reading.complaints := fun c f =>
    fun heq =>
    List.cons_ne_nil _ _ (List.append_right_eq_self.1 heq)
  have hkind : ¬ (Expr.object ms f).kind ≠ .object := fun h => h rfl
  rw [addEntry, if_neg hkind] at h ⊢
  split at h
  · exact absurd h (hcomplain _ _)
  next hsound =>
  rw [if_neg hsound]
  simp only at h ⊢
  cases hroutes : routesOf ms with
  | error u =>
    rw [hroutes] at h
    exact absurd h (hcomplain _ _)
  | ok routes =>
    rw [hroutes] at h
    simp only at h ⊢
    rw [complaints_addRoutes, List.append_right_eq_self, List.map_eq_nil_iff,
      List.filterMap_eq_nil_iff] at h
    exact ⟨routes, rfl, h, store_addRoutes f h reading⟩

end Reading

/-- What the routes keep of the entry that they were read from: each of them denotes an object that
restates it, and their methods are those that it names. -/
structure EntryKept (ms : List Member) (routes : List Route) : Prop where
  /-- The members denote properties, with the methods among them. -/
  methods : ∃ entry d, Member.data ms = some entry ∧ lookup (.named "method") entry = some d ∧
    d.Names (routes.map Route.method)
  /-- Each route restates them. -/
  restates : ∀ route ∈ routes, ∀ entry, Member.data ms = some entry →
    ∃ written, Denotes route.render (.object written) ∧ route.Restates entry written

theorem entryKept_of_arePlain {ms : List Member} {routes : List Route}
    (h : routesOf ms = .ok routes) (hproblem : ∀ route ∈ routes, route.problem? = none)
    (hreadable : ∀ route ∈ routes, (Value.object route.members).isReadable = true)
    (hplain : Member.arePlain ms = true)
    (honce : (ms.filter (·.hasKey "middlewares")).length ≤ 1) : EntryKept ms routes := by
  obtain ⟨entry, hentry, ⟨d, hd, hnames⟩, hrestates⟩ := restates_of_routesOf h hplain honce
  refine ⟨⟨entry, d, hentry, hd, hnames⟩, fun route hroute entry' hentry' => ?_⟩
  obtain rfl := Option.some.inj (hentry.symm.trans hentry')
  exact ⟨_, Route.render_denotes (hproblem route hroute) (hreadable route hroute),
    hrestates route hroute⟩

/-- The routes of an entry are at least one. -/
theorem ne_nil_of_routesOf {ms : List Member} {routes : List Route}
    (h : routesOf ms = .ok routes) : routes ≠ [] := by
  rw [routesOf] at h
  obtain ⟨draft, -, h⟩ := bind_eq_ok_iff.1 h
  rw [RouteDraft.routes] at h
  split at h
  · cases h
  split at h
  · cases h
  · next hne =>
    rintro rfl
    rw [List.isEmpty_iff] at hne
    exact hne (List.map_eq_nil_iff.1 (Except.ok.inj h))

/-- What a member with a computed key sets is found under what its key computes. -/
theorem lookup_ne_none {key : Key} {value : Expr} {f : Fragment} {p : Property}
    (hp : key.property = some p) : ∀ {ms : List Member} {entry : List (Property × Datum)},
    Member.data ms = some entry → Member.pair key value f ∈ ms → lookup p entry ≠ none
  | [], _ => fun _ hmem => by cases hmem
  | m :: ms, entry => fun h hmem => by
    rw [Member.data] at h
    obtain ⟨d, hd, h⟩ := Option.bind_eq_some_iff.1 h
    obtain ⟨more, hmore, rfl⟩ := Option.map_eq_some_iff.1 h
    obtain ⟨q, x⟩ := d
    rw [lookup, Ne, Option.or_eq_none_iff, not_and_or]
    rcases List.mem_cons.1 hmem with rfl | hmem
    · rw [Member.datum, hp, Option.bind_some] at hd
      obtain ⟨y, -, heq⟩ := Option.map_eq_some_iff.1 hd
      obtain ⟨rfl, rfl⟩ := Prod.mk.inj heq
      rw [if_pos rfl]
      exact .inr (Option.some_ne_none _)
    · exact .inl (lookup_ne_none hp hmore hmem)

theorem computed_ne_ofName (expression : Chars) (name : List ℕ) :
    Property.computed expression ≠ .ofName name := by
  rw [Property.ofName]
  split <;> exact Property.noConfusion

/-- No value is set under a computed name. -/
theorem lookup_computed (expression : Chars) (entries : List (String × Value)) :
    lookup (.computed expression) (Value.dataMembers entries) = none := by
  induction entries with
  | nil => rfl
  | cons m entries ih =>
    obtain ⟨k, v⟩ := m
    rw [Value.dataMembers, lookup, ih, if_neg, Option.or_none]
    rw [Value.property]
    split
    · exact Property.noConfusion
    · exact (computed_ne_ofName expression _).symm

/-- **An entry that is kept has no computed keys.** -/
theorem kind_ne_of_entryKept {ms : List Member} {routes : List Route}
    (h : routesOf ms = .ok routes) (hproblem : ∀ route ∈ routes, route.problem? = none)
    (hreadable : ∀ route ∈ routes, (Value.object route.members).isReadable = true)
    (hkept : EntryKept ms routes) {key : Key} {value : Expr} {f : Fragment}
    (hmem : .pair key value f ∈ ms) : key.kind ≠ .computedKey := by
  intro hkind
  have hproperty : key.property = some (.computed key.fragment.chars) := by
    rw [Key.property, hkind]
  obtain ⟨route, hroute⟩ := List.exists_mem_of_ne_nil _ (ne_nil_of_routesOf h)
  obtain ⟨entry, -, hentry, -, -⟩ := hkept.methods
  obtain ⟨written, hdenotes, hrestates⟩ := hkept.restates route hroute entry hentry
  have hwritten := Route.render_denotes (hproblem route hroute) (hreadable route hroute)
  obtain rfl := Datum.object.inj (hdenotes.unique hwritten)
  refine lookup_ne_none hproperty hentry hmem ?_
  rw [← hrestates.others _ (computed_ne_ofName _ _) (computed_ne_ofName _ _), lookup_computed]

/-! ### Settings -/

/-- A written key in front of a text. -/
def Key.written (k : String) (tail : Chars) : Key :=
  ⟨keyKind (Value.renderKey k ++ tail), ⟨Value.renderKey k ++ tail, tail⟩⟩

/-- Whether the text that is kept of a key is the name of what it names. -/
def Key.isKept (key : Key) : Bool :=
  key.property == some (.named key.text)

namespace Reading

/-- **A setting that is accepted is in the store**, with the text of its value as it is written. -/
theorem store_of_accepted {reading : Reading} {key : Key} {value : Expr} {f : Fragment}
    (hkey : key.text ≠ "routes")
    (h : (reading.addProperty (.pair key value f)).complaints = reading.complaints) :
    (reading.addProperty (.pair key value f)).store =
      reading.store.addSetting key.text value.fragment.text := by
  unfold addProperty at h ⊢
  simp only [if_neg hkey] at h ⊢
  split at h
  · exact absurd (List.append_right_eq_self.1 h) (List.cons_ne_nil _ _)
  · next hsound => rw [if_neg hsound]

end Reading

/-- **A written key is read as a name**, which is what the key names exactly if it is kept. -/
theorem property_written_iff (r : Reader) (key : Key) (tail : Chars) :
    propertyNameEnd r (Value.renderKey key.text ++ ':' :: tail) = some (':' :: tail) ∧
      ((Key.written key.text (':' :: tail)).property = key.property ↔ key.isKept = true) := by
  have hstops : StopsWord (':' :: tail) := stopsWord_cons (by decide) (by decide)
  have hreads := keyReads r key.text hstops
  have hwritten : (Key.written key.text (':' :: tail)).property = some (.named key.text) :=
    hreads.property
  refine ⟨hreads.nameEnd, ?_⟩
  rw [hwritten, Key.isKept, beq_iff_eq, eq_comm]

/-! ### What is accepted -/

/-- An argument is kept: its value is written with the meaning of the expression, however the lines
are broken. -/
def ArgumentKept (e : Expr) (v : Value) : Prop :=
  ∃ d, e.datum = some d ∧ ∀ indent used, Denotes (v.layout indent used) d

/-- **What is plain keeps its meaning.** A literal that is accepted as an argument is written with
its meaning exactly if it is plain. An entry that is accepted without a complaint is written with
its properties if its members are plain and it has one list of middlewares at most, and never if a
key of it is computed. A setting that is accepted is written with the text of its value, under the
name that its key stands for exactly if the text of the key is that name. -/
theorem accepted_keeps_meaning (reading : Reading) :
    (∀ {text : String} {e : Expr} {v : Value}, readValue text = .ok v →
      firstExpression (items ('(' :: (text.toList ++ [')', ';']))) = some e →
      e.isLiteral = true → (ArgumentKept e v ↔ e.isPlain = true)) ∧
    (∀ {ms : List Member} {f : Fragment},
      (reading.addEntry (.object ms f)).complaints = reading.complaints →
      ∃ routes, routesOf ms = .ok routes ∧
        (reading.addEntry (.object ms f)).store = { reading.store with
          routes := routes.foldl (fun routes route => Store.insertRoute route routes)
            reading.store.routes } ∧
        ((∀ route ∈ routes, (Value.object route.members).isReadable = true) →
          (Member.arePlain ms = true → (ms.filter (·.hasKey "middlewares")).length ≤ 1 →
            EntryKept ms routes) ∧
          (EntryKept ms routes →
            ∀ key value g, .pair key value g ∈ ms → key.kind ≠ .computedKey))) ∧
    ∀ {key : Key} {value : Expr} {f : Fragment}, key.text ≠ "routes" →
      (reading.addProperty (.pair key value f)).complaints = reading.complaints →
      (reading.addProperty (.pair key value f)).store =
          reading.store.addSetting key.text value.fragment.text ∧
        ∀ (r : Reader) (tail : Chars),
          propertyNameEnd r (Value.renderKey key.text ++ ':' :: tail) = some (':' :: tail) ∧
            ((Key.written key.text (':' :: tail)).property = key.property ↔
              key.isKept = true) := by
  refine ⟨fun {text e v} h he hliteral => ?_, fun {ms f} h => ?_,
    fun {key value f} hkey h => ?_⟩
  · obtain ⟨e', he', hv, -⟩ := exists_expression_of_readValue h
    obtain rfl := Option.some.inj (he.symm.trans he')
    exact denotes_layout_iff h he (isReadable_of_isLiteral e hliteral hv)
  · obtain ⟨routes, hroutes, hproblem, hstore⟩ := Reading.exists_routes_of_accepted h
    refine ⟨routes, hroutes, hstore, fun hreadable => ⟨fun hplain honce => ?_, ?_⟩⟩
    · exact entryKept_of_arePlain hroutes hproblem hreadable hplain honce
    · exact fun hkept _ _ _ hmem => kind_ne_of_entryKept hroutes hproblem hreadable hkept hmem
  · exact ⟨Reading.store_of_accepted hkey h, fun r tail => property_written_iff r key tail⟩

/-- A literal that is plain. -/
def plainLiteral : String :=
  "[1, -2.5, \x7b a: null, \"b-c\": [true] \x7d]"

/-- A route entry that is plain. -/
def plainEntry : List Member :=
  [.pair ⟨.identifier, ⟨"matcher".toList, []⟩⟩ (.leaf .string ⟨"\"/a\"".toList, []⟩) ⟨[], []⟩,
    .pair ⟨.identifier, ⟨"method".toList, []⟩⟩ (.leaf .string ⟨"'GET'".toList, []⟩) ⟨[], []⟩,
    .pair ⟨.string, ⟨"'limit'".toList, []⟩⟩ (.leaf .number ⟨"20".toList, []⟩) ⟨[], []⟩]

/-- The literal, the entry and the setting `"a-b": 1` keep their meaning. -/
theorem accepted_keeps_meaning_plain :
    (∃ e v, readValue plainLiteral = .ok v ∧ e.isLiteral = true ∧ ArgumentKept e v) ∧
    (({} : Reading).addEntry (.object plainEntry ⟨[], []⟩)).complaints = [] ∧
    (∃ routes, routesOf plainEntry = .ok routes ∧ EntryKept plainEntry routes) ∧
    ∀ (reading : Reading) (tail : Chars),
      ((reading.addProperty (.pair ⟨.string, ⟨"\"a-b\"".toList, []⟩⟩
        (.leaf .number ⟨"1".toList, []⟩) ⟨[], []⟩)).store = reading.store.addSetting "a-b" "1") ∧
      (Key.written "a-b" (':' :: tail)).property = some (.own (units "a-b".toList)) := by
  obtain ⟨harguments, hentries, -⟩ := accepted_keeps_meaning {}
  have hentry : (({} : Reading).addEntry (.object plainEntry ⟨[], []⟩)).complaints = [] := by
    decide +kernel
  refine ⟨?_, hentry, ?_, fun reading tail => ?_⟩
  · have hfound : (firstExpression (items ('(' :: (plainLiteral.toList ++ [')', ';'])))).any
        (fun e => e.isLiteral && e.isPlain) = true := by decide +kernel
    obtain ⟨e, he, hplain⟩ := (Option.any_eq_true _ _).1 hfound
    have hread : (readValue plainLiteral).isOk = true := by decide +kernel
    rw [Bool.and_eq_true] at hplain
    cases hvalue : readValue plainLiteral with
    | error r =>
      rw [hvalue] at hread
      cases hread
    | ok v => exact ⟨e, v, rfl, hplain.1, (harguments hvalue he hplain.1).2 hplain.2⟩
  · obtain ⟨routes, hroutes, -, hkept⟩ := hentries hentry
    refine ⟨routes, hroutes, (hkept ?_).1 (by decide +kernel) (by decide +kernel)⟩
    have hread : (routesOf plainEntry).toOption.all (fun routes =>
        routes.all fun route => (Value.object route.members).isReadable) = true := by
      decide +kernel
    rw [hroutes] at hread
    exact List.all_eq_true.1 hread
  · obtain ⟨-, -, hsettings⟩ := accepted_keeps_meaning reading
    obtain ⟨hstore, hkey⟩ := @hsettings ⟨.string, ⟨"\"a-b\"".toList, []⟩⟩
      (.leaf .number ⟨"1".toList, []⟩) ⟨[], []⟩ (by decide +kernel) rfl
    exact ⟨hstore, ((hkey .none tail).2.2 (by decide +kernel)).trans (by decide +kernel)⟩

/-- The members of the object that a file registers. -/
def registered (source : String) : List Member :=
  (items source.toList).flatMap fun
    | .exported value _ =>
      match Reading.firstArgument value with
      | some (.object ms _) => ms
      | _ => []
    | _ => []

/-- The members of the entries among the members of a registration. -/
def entryMembers (ms : List Member) : List Member :=
  ms.flatMap fun
    | .pair _ (.array es _) _ => es.flatMap fun
      | .object ms _ => ms
      | _ => []
    | _ => []

/-- Whether one of the members computes its key from the given text. -/
def computes (text : String) (ms : List Member) : Bool :=
  ms.any fun
    | .pair key _ _ => key.property == some (.computed text.toList)
    | _ => false

/-- A registration with a computed key, and with a computed key in an entry. -/
def computing : String :=
  "export default defineMiddlewares(\x7b [limit]: 1, " ++
    "routes: [\x7b matcher: \"/a\", method: \"GET\", [limit]: 1 \x7d] \x7d);"

/-- **What is accepted may lose its meaning.** Arrays with holes, octal numbers, big integers and
keys that are numbers of another radix are accepted as arguments, and they are not kept; and the
names of computed keys in a registration become texts, without a warning. -/
theorem accepted_loses_meaning :
    (∀ text ∈ ["[1,,2]", "[,]", "010", "1n", "\x7b 0x10: 1 \x7d"], ∃ e v,
      readValue text = .ok v ∧ firstExpression (items ('(' :: (text.toList ++ [')', ';']))) = some e ∧
        e.isLiteral = true ∧ ¬ ArgumentKept e v) ∧
    (readMiddlewares computing).2 = [] ∧
    computes "[limit]" (registered computing) = true ∧
    computes "[limit]" (entryMembers (registered computing)) = true ∧
    (readMiddlewares computing).1.settings = [⟨"[limit]", "1"⟩] ∧
    ((readMiddlewares computing).1.routes.map fun route => route.extra.map (·.1)) = [["[limit]"]] ∧
    ∀ tail, (Key.written "[limit]" (':' :: tail)).property = some (.own (units "[limit]".toList)) := by
  refine ⟨fun text htext => ?_, by decide +kernel, by decide +kernel, by decide +kernel,
    by decide +kernel, by decide +kernel, fun tail => ?_⟩
  · have hfound : ∀ text ∈ ["[1,,2]", "[,]", "010", "1n", "\x7b 0x10: 1 \x7d"],
        (readValue text).isOk = true ∧
          (firstExpression (items ('(' :: (text.toList ++ [')', ';'])))).any
            (fun e => e.isLiteral && ! e.isPlain) = true := by decide +kernel
    obtain ⟨hread, hexpression⟩ := hfound text htext
    obtain ⟨e, he, hlost⟩ := (Option.any_eq_true _ _).1 hexpression
    rw [Bool.and_eq_true, Bool.not_eq_true'] at hlost
    cases hvalue : readValue text with
    | error r =>
      rw [hvalue] at hread
      cases hread
    | ok v =>
      obtain ⟨e', he', hv, -⟩ := exists_expression_of_readValue hvalue
      obtain rfl := Option.some.inj (he.symm.trans he')
      refine ⟨e, v, rfl, he, hlost.1, fun hkept => ?_⟩
      have hreadable := isReadable_of_isLiteral e hlost.1 hv
      rw [(denotes_layout_iff hvalue he hreadable).1 hkept] at hlost
      cases hlost.2
  · exact (keyReads .none "[limit]" (stopsWord_cons (by decide) (by decide))).property.trans
      (by decide +kernel)

end Source

end ModuleScaffold
