import ModuleScaffold.Proofs.Merge.Entries
import ModuleScaffold.Proofs.Order.Routes
import ModuleScaffold.Proofs.Reading.Passage
import ModuleScaffold.Proofs.Reading.Route
import ModuleScaffold.Proofs.Scan.Ways

/-!
# The registration that is written

The last statement of a written file registers the routes: it exports a call whose argument is an
object with the list of routes, under the banners of their groups, and with the further settings. A
banner is a comment, so it is skipped in front of a route. The list adds the routes one after the
other, and each setting adds itself.

Main statements:

* `ModuleScaffold.Source.listed_renderRoutes` – **routes under banners are the items of a list**;
* `ModuleScaffold.Source.statement_registration` – **a registration declares its routes and
  settings**.
-/

namespace ModuleScaffold

open Source

/-! ### What is asked of routes and settings -/

/-- A route comes back from its text. -/
structure Route.IsRegular (route : Route) : Prop where
  /-- It can be written. -/
  problem : route.problem? = none
  /-- The references in it can be read. -/
  readable : (Value.object route.members).isReadable = true
  /-- No further property has the key of a property that every route has. -/
  keys : ∀ m ∈ route.extra, m.1 ∉ Route.ownKeys
  /-- No further property is written by its name alone. -/
  pairs : ∀ m ∈ route.extra, Value.isShorthand m.1 m.2 = false

/-- A setting comes back from its line. -/
structure Setting.IsRegular (setting : Setting) : Prop where
  /-- It is not taken for the list of routes. -/
  key : setting.key ≠ "routes"
  /-- The value is an expression in front of the end of a member. -/
  value : ∀ {depth : ℕ} {rest : Chars}, setting.value.toList.length ≤ depth → Ends rest →
    ∃ value, (reader depth).expression false (' ' :: (setting.value.toList ++ rest)) =
        some (value, rest) ∧ Intact value ∧ value.fragment.text = setting.value

namespace Source

/-! ### The list of routes -/

/-- The text of a regular route is an item that yields the route. -/
theorem item_route {route : Route} (h : route.IsRegular) {depth : ℕ}
    (hdepth : route.render.length ≤ depth) :
    ItemReads (item (reader depth)) ']' (fun route e => Yields e [route]) route.render route := by
  have hregular := Value.isRegular_of_isReadable (Route.problem?_members h.problem) h.readable
  refine ⟨(Route.render_readsAs hregular).begins, fun {cs rest} hrest hskip => ?_⟩
  obtain ⟨ms, f, hitem, hsound, hstands⟩ :=
    Route.exists_members_of_isRegular hregular hdepth (hrest.ends (by decide)) hskip
  have hany : ¬ (route.extra.any fun m => Value.isShorthand m.1 m.2) = true := by
    rw [List.any_eq_true]
    rintro ⟨m, hm, hk⟩
    rw [h.pairs m hm] at hk
    cases hk
  refine ⟨_, hitem, ms, f, rfl, hsound, ?_, List.forall_mem_singleton.2 h.problem⟩
  rw [Route.routesOf_members hstands h.keys, if_neg hany]

theorem isLineComment_banner (group : Route.Group) : isLineComment group.banner.toList = true := by
  cases group <;> decide +kernel

/-- What stands above a route of a group that comes behind one of the group `before`, if there is
one. -/
def bannerAbove (before : Option Route.Group) (group : Route.Group) : Chars :=
  if before = some group then []
  else (if before.isSome then ['\n'] else []) ++ Text.spaces 4 ++ group.banner.toList ++ ['\n']

theorem renderRoutes_cons (before : Option Route.Group) (route : Route) (routes : List Route) :
    Store.renderRoutes before (route :: routes) = bannerAbove before route.group ++ Text.spaces 4 ++
      route.render ++ [',', '\n'] ++ Store.renderRoutes (some route.group) routes :=
  rfl

/-- Blanks and a banner are skipped in front of a route. -/
theorem skip_bannerAbove (before : Option Route.Group) (group : Route.Group) (tail : Chars) :
    skip ('\n' :: (bannerAbove before group ++ (Text.spaces 4 ++ tail))) = skip tail := by
  have hline : skip (Text.spaces 4 ++ tail) = skip tail :=
    skip_append_of_isSpace isSpace_of_mem_spaces
  have hblank : ∀ c ∈ (if before.isSome then ['\n'] else []) ++ Text.spaces 4, isSpace c = true := by
    rw [List.forall_mem_append]
    refine ⟨?_, isSpace_of_mem_spaces⟩
    split
    · exact List.forall_mem_singleton.2 rfl
    · exact fun _ h => absurd h List.not_mem_nil
  rw [skip_cons_of_isSpace (by decide), bannerAbove]
  split
  · exact hline
  · rw [List.append_assoc, List.append_assoc, skip_append_of_isSpace hblank, List.singleton_append,
      skip_of_comment (comment?_of_isLineComment (isLineComment_banner group) _),
      skip_cons_of_isSpace (by decide), hline]

/-- **Routes under banners are the items of a list.** -/
theorem listed_renderRoutes {routes : List Route} (h : ∀ route ∈ routes, Begins route.render)
    (before : Option Route.Group) (rest : Chars) :
    Listed ']' (routes.map Route.render)
      ('\n' :: (Store.renderRoutes before routes ++ (Text.spaces 2 ++ ']' :: rest))) rest := by
  induction routes generalizing before with
  | nil =>
    refine .done ?_
    rw [skip_cons_of_isSpace (by decide)]
    exact (skip_append_of_isSpace isSpace_of_mem_spaces).trans (skip_mark (by decide))
  | cons route routes ih =>
    obtain ⟨hroute, hroutes⟩ := List.forall_mem_cons.1 h
    refine .more ?_ (skip_mark (by decide)) (ih hroutes (some route.group))
    rw [renderRoutes_cons]
    simp only [List.append_assoc, List.cons_append, List.nil_append]
    rw [skip_bannerAbove, hroute.kept]

/-- The list of routes, as it is written. -/
def routesText (routes : List Route) : Chars :=
  if routes.isEmpty then "[]".toList
  else "[\n".toList ++ Store.renderRoutes none routes ++ "  ]".toList

/-- The text of a list of routes is an expression with an item for each route, which yields it. -/
theorem expression_routesText {routes : List Route} (h : ∀ route ∈ routes, route.IsRegular)
    {depth : ℕ} {rest : Chars} (hdepth : (routesText routes).length ≤ depth) (hrest : Ends rest) :
    ∃ items f, (reader depth).expression false (' ' :: (routesText routes ++ rest)) =
        some (.array items f, rest) ∧
      List.Forall₂ (fun route e => Yields e [route]) routes items := by
  obtain ⟨body, htext, hlisted⟩ : ∃ body, routesText routes = '[' :: body ∧
      Listed ']' (routes.map Route.render) (body ++ rest) rest := by
    rw [routesText]
    cases routes with
    | nil => exact ⟨[']'], rfl, .done (skip_mark (by decide))⟩
    | cons route routes =>
      refine ⟨'\n' :: (Store.renderRoutes none (route :: routes) ++ (Text.spaces 2 ++ [']'])), ?_, ?_⟩
      · rw [List.isEmpty_cons, if_neg Bool.false_ne_true, List.append_assoc]
        rfl
      · have hlisted := listed_renderRoutes
          (fun route hroute => (item_route (h route hroute) le_rfl).begins) none rest
        simpa only [List.cons_append, List.append_assoc, List.nil_append] using hlisted
  rw [htext] at hdepth ⊢
  have hskip : skip (' ' :: ('[' :: body ++ rest)) = '[' :: body ++ rest := by
    rw [skip_cons_of_isSpace (by decide), List.cons_append, isMark_bracket.kept]
  obtain ⟨depth, rfl⟩ := Nat.exists_eq_add_one.2 (Nat.lt_of_lt_of_le (Nat.succ_pos _) hdepth)
  have hitems : List.Forall₂ (ItemReads (item (reader depth)) ']' fun route e => Yields e [route])
      (routes.map Route.render) routes := by
    rw [List.forall₂_map_left_iff, List.forall₂_same]
    intro route hroute
    have hlength := hlisted.length_lt.2 _ (List.mem_map_of_mem hroute)
    rw [List.length_append] at hlength
    rw [List.length_cons] at hdepth
    exact item_route (h route hroute) (by omega)
  obtain ⟨items, hyields, hprimary⟩ := primaryRule_array hitems hlisted
  exact ⟨items, _, expression_of_mark isMark_bracket hprimary hrest hskip, hyields⟩

/-! ### The members of the registration -/

/-- A member of the registration changes the store in a given way, and nothing else. -/
def Adds (change : Store → Store) (m : Member) : Prop :=
  ∀ reading : Reading, reading.addProperty m = { reading with store := change reading.store }

theorem foldl_addProperty {changes : List (Store → Store)} {ms : List Member}
    (h : List.Forall₂ Adds changes ms) (reading : Reading) :
    ms.foldl Reading.addProperty reading =
      { reading with store := changes.foldl (fun store change => change store) reading.store } := by
  induction h generalizing reading with
  | nil => rfl
  | cons hm _ ih => rw [List.foldl_cons, hm, ih, List.foldl_cons]

theorem foldl_addEntry_of_yields {routes : List Route} {items : List Expr}
    (h : List.Forall₂ (fun route e => Yields e [route]) routes items) (reading : Reading) :
    items.foldl Reading.addEntry reading = { reading with
      store := { reading.store with
        routes := routes.foldl (fun routes route => Store.insertRoute route routes)
          reading.store.routes } } := by
  induction h generalizing reading with
  | nil => rfl
  | cons he _ ih =>
    rw [List.foldl_cons, ih, Reading.addEntry_of_yields he]
    rfl

/-- A key and a value, as they are written. -/
def propertyText (key : String) (value : Chars) : Chars :=
  Value.renderKey key ++ ':' :: ' ' :: value

/-- A key and a value are a member that changes the store as the value behind the key does. -/
theorem item_property {key : String} {value : Chars} {change : Store → Store} {depth : ℕ}
    (h : ∀ {rest : Chars}, Ends rest → ∃ e,
      (reader depth).expression false (' ' :: (value ++ rest)) = some (e, rest) ∧
        ∀ (k : Key) (f : Fragment), k.text = key → Adds change (.pair k e f)) :
    ItemReads (objectMember (reader depth)) '\x7d' Adds (propertyText key value) change := by
  refine ⟨begins_renderKey key _, fun {cs rest} hrest hskip => ?_⟩
  rw [propertyText, List.append_assoc, List.cons_append, List.cons_append] at hskip
  obtain ⟨e, hvalue, hadds⟩ := h (hrest.ends (by decide))
  obtain ⟨k, f, hmember, -, hkey, -⟩ := objectMember_pair hvalue hskip
  exact ⟨_, hmember, hadds k f hkey⟩

/-- The list of routes adds the routes. -/
theorem item_routes {routes : List Route} (h : ∀ route ∈ routes, route.IsRegular) {depth : ℕ}
    (hdepth : (routesText routes).length ≤ depth) :
    ItemReads (objectMember (reader depth)) '\x7d' Adds (propertyText "routes" (routesText routes))
      fun store => { store with
        routes := routes.foldl (fun routes route => Store.insertRoute route routes)
          store.routes } := by
  refine item_property fun {rest} hrest => ?_
  obtain ⟨items, f, hvalue, hyields⟩ := expression_routesText h hdepth hrest
  refine ⟨_, hvalue, fun k g hkey reading => ?_⟩
  rw [Reading.addProperty, if_pos hkey]
  exact foldl_addEntry_of_yields hyields reading

/-- A setting adds itself. -/
theorem item_setting {setting : Setting} (h : setting.IsRegular) {depth : ℕ}
    (hdepth : setting.value.toList.length ≤ depth) :
    ItemReads (objectMember (reader depth)) '\x7d' Adds
      (propertyText setting.key setting.value.toList)
      fun store => store.addSetting setting.key setting.value := by
  refine item_property fun {rest} hrest => ?_
  obtain ⟨value, hvalue, hintact, htext⟩ := h.value hdepth hrest
  refine ⟨value, hvalue, fun k g hkey reading => ?_⟩
  unfold Reading.addProperty
  dsimp only
  rw [hkey, if_neg h.key, hintact, if_neg Bool.false_ne_true, htext]

/-! ### The registration -/

/-- The members of the registration, as they are written. -/
def propertyTexts (store : Store) : List Chars :=
  propertyText "routes" (routesText (Route.sort store.routes)) ::
    store.settings.map fun setting => propertyText setting.key setting.value.toList

/-- What the members of the registration change. -/
def propertyChanges (store : Store) : List (Store → Store) :=
  (fun held => { held with
    routes := (Route.sort store.routes).foldl (fun routes route => Store.insertRoute route routes)
      held.routes }) ::
    store.settings.map fun setting held => held.addSetting setting.key setting.value

/-- The members of the registration between the braces, and the closing brace. -/
def configurationBody (store : Store) : Chars :=
  '\n' :: ((propertyTexts store).flatMap fun line => Text.spaces (0 + 2) ++ line ++ [',', '\n']) ++
    Text.spaces 0 ++ ['\x7d']

theorem renderSetting_eq (setting : Setting) : Store.renderSetting setting =
    Text.spaces 2 ++ propertyText setting.key setting.value.toList ++ [',', '\n'] := by
  rw [Store.renderSetting, propertyText]
  simp only [List.append_assoc, List.cons_append]

theorem line_routesText (routes : List Route) :
    (if routes.isEmpty then "  routes: [],\n".toList
      else "  routes: [\n".toList ++ Store.renderRoutes none routes ++ "  ],\n".toList) =
      Text.spaces 2 ++ propertyText "routes" (routesText routes) ++ [',', '\n'] := by
  have hkey : Value.renderKey "routes" = "routes".toList := by decide +kernel
  rw [propertyText, routesText, hkey]
  split
  · rfl
  · simp only [List.append_assoc, List.cons_append]
    rfl

/-- A registration is the export of a call. -/
theorem renderRegistration_eq (store : Store) : store.renderRegistration =
    "export".toList ++ ' ' :: ("default".toList ++ ' ' :: (Store.registrationName.toList ++
      '(' :: ('\x7b' :: configurationBody store ++ [')', ';']))) := by
  have hsettings : store.settings.flatMap Store.renderSetting =
      (store.settings.map fun setting => propertyText setting.key setting.value.toList).flatMap
        fun line => Text.spaces (0 + 2) ++ line ++ [',', '\n'] := by
    rw [List.flatMap_map]
    exact List.flatMap_congr fun setting _ => renderSetting_eq setting
  unfold Store.renderRegistration
  rw [configurationBody, propertyTexts, List.flatMap_cons, ← hsettings]
  refine (congrArg (fun cs => "export default ".toList ++ Store.registrationName.toList ++
    "(\x7b\n".toList ++ cs ++ store.settings.flatMap Store.renderSetting ++ "\x7d);".toList)
    (line_routesText (Route.sort store.routes))).trans ?_
  generalize store.settings.flatMap Store.renderSetting = settings
  generalize propertyText "routes" (routesText (Route.sort store.routes)) = routes
  generalize Store.registrationName.toList = name
  simp only [List.append_assoc, List.cons_append]
  rfl

/-- Nothing that continues an expression stands at a semicolon. -/
theorem halts_semicolon (r : Reader) (lineEnds : Bool) (rest : Chars) :
    Halts r lineEnds (';' :: rest) where
  operator_eq_none := operator_semicolon rest
  word_eq_none := word_semicolon rest
  suffixStep_eq_none e := by
    rw [suffixStep, skip_semicolon]
    rfl

section Registration

variable {store : Store} {depth : ℕ}

theorem isBody_configuration (store : Store) :
    IsBody '\x7d' (propertyTexts store) (configurationBody store) := by
  refine Value.isBody_lines (by decide) 0 fun text htext => ?_
  rcases List.mem_cons.1 htext with rfl | htext
  · exact begins_renderKey _ _
  · obtain ⟨setting, -, rfl⟩ := List.mem_map.1 htext
    exact begins_renderKey _ _

theorem length_lt_propertyText (key : String) (value : Chars) :
    value.length < (propertyText key value).length := by
  rw [propertyText, List.length_append, List.length_cons, List.length_cons]
  omega

/-- The members of the registration add the routes and the settings. -/
theorem items_configuration (hroutes : ∀ route ∈ store.routes, route.IsRegular)
    (hsettings : ∀ setting ∈ store.settings, setting.IsRegular)
    (hdepth : (configurationBody store).length ≤ depth) :
    List.Forall₂ (ItemReads (objectMember (reader depth)) '\x7d' Adds) (propertyTexts store)
      (propertyChanges store) := by
  have hlength {key : String} {value : Chars} (h : propertyText key value ∈ propertyTexts store) :
      value.length ≤ depth := by
    have hbody := (isBody_configuration store).length_lt _ h
    have hvalue := length_lt_propertyText key value
    omega
  refine .cons (item_routes (fun route hroute => hroutes route ?_) (hlength List.mem_cons_self)) ?_
  · exact (Route.sort_perm store.routes).mem_iff.1 hroute
  · rw [List.forall₂_map_left_iff, List.forall₂_map_right_iff, List.forall₂_same]
    exact fun setting hsetting => item_setting (hsettings setting hsetting)
      (hlength (List.mem_cons_of_mem _ (List.mem_map_of_mem hsetting)))

/-- The argument of the registration is an object whose members add the routes and the settings. -/
theorem arguments_configuration (hroutes : ∀ route ∈ store.routes, route.IsRegular)
    (hsettings : ∀ setting ∈ store.settings, setting.IsRegular)
    (hdepth : (configurationBody store).length ≤ depth) (rest : Chars) :
    ∃ ms f, arguments (reader (depth + 1)) ('\x7b' :: configurationBody store ++ ')' :: rest) =
        some ([.object ms f], rest) ∧ List.Forall₂ Adds (propertyChanges store) ms := by
  have hitem : ItemReads (item (reader (depth + 1))) ')'
      (fun changes e => ∃ ms f, e = .object ms f ∧ List.Forall₂ Adds changes ms)
      ('\x7b' :: configurationBody store) (propertyChanges store) := by
    refine ⟨⟨fun _ => skip_cons (by decide) (by decide), '\x7b', _, rfl, by decide⟩,
      fun {cs rest} hrest hskip => ?_⟩
    obtain ⟨ms, f, hitem, hadds⟩ := item_object (items_configuration hroutes hsettings hdepth)
      (isBody_configuration store rest) (hrest.ends (by decide)) hskip
    exact ⟨_, hitem, ms, f, rfl, hadds⟩
  have hlisted : Listed ')' ['\x7b' :: configurationBody store]
      ('\x7b' :: configurationBody store ++ ')' :: rest) rest :=
    .last (hitem.begins.kept _) (skip_mark (by decide))
  have hcloser : ")".toList = [')'] := rfl
  obtain ⟨es, hlist, hes⟩ :=
    list_of_listed hcloser (by decide) (by decide) hlisted (.cons hitem .nil)
  obtain ⟨e, rfl, ms, f, rfl, hadds⟩ : ∃ e, es = [e] ∧ ∃ ms f, e = .object ms f ∧
      List.Forall₂ Adds (propertyChanges store) ms := by
    cases hes with
    | cons he hnil =>
      cases hnil
      exact ⟨_, rfl, he⟩
  exact ⟨ms, f, hlist, hadds⟩

/-- What is exported as the default is a value, unless it begins with a word for declarations. -/
theorem exportStatement_default {r : Reader} {w tail : Chars} (h : IsToken w)
    (htail : StopsWord tail)
    (hw : String.ofList w ∉ ["function", "async", "class", "abstract", "interface", "enum"])
    (start : Chars) : exportStatement r start (' ' :: ("default".toList ++ ' ' :: (w ++ tail))) =
      exportedValue r start (' ' :: (w ++ tail)) := by
  have hdefault : IsToken "default".toList := isToken_of_identifier (by decide)
  have hnone : ¬ (["function", "async", "class", "abstract", "interface", "enum"].contains
      (String.ofList w)) = true := fun h => hw (List.contains_iff_mem.1 h)
  rw [exportStatement_token hdefault (stopsWord_space _) (by decide), if_pos (by decide),
    exportDefault, word_many_decoratorEnd h htail (h.skip_space tail)]
  dsimp only
  rw [if_neg hnone]
  rfl

/-- A call of the function that registers the routes, with one object, changes the store as the
members of the object do. -/
theorem add_registration {changes : List (Store → Store)} {ms : List Member}
    (h : List.Forall₂ Adds changes ms) {kind : Kind} {callee f g start : Fragment}
    (hcallee : callee.chars = Store.registrationName.toList) {reading : Reading}
    (hregistered : reading.registered = false) :
    reading.add (.exported (.call kind callee false [.object ms g] f) start) = { reading with
      store := changes.foldl (fun held change => change held) reading.store
      registered := true
      comments := [] } := by
  have hcall : Reading.isRegistration (.call kind callee false [.object ms g] f) = true := by
    rw [Reading.isRegistration, hcallee, beq_self_eq_true]
  show { reading.addStatement _ with comments := [] } = _
  rw [Reading.addStatement, if_pos hcall, Reading.addRegistration, hregistered,
    if_neg Bool.false_ne_true]
  dsimp only [Reading.firstArgument, List.head?_cons]
  rw [foldl_addProperty h]

/-- **A registration declares its routes and settings**: it changes a store that is read as its
members do. -/
theorem statement_registration (hroutes : ∀ route ∈ store.routes, route.IsRegular)
    (hsettings : ∀ setting ∈ store.settings, setting.IsRegular)
    (hdepth : store.renderRegistration.length < depth) (rest : Chars) :
    ∃ item, statement (reader depth) (store.renderRegistration ++ rest) = some (item, rest) ∧
      ∀ reading : Reading, reading.registered = false → reading.add item = { reading with
        store := (propertyChanges store).foldl (fun held change => change held) reading.store
        registered := true
        comments := [] } := by
  have hexport : IsToken "export".toList := isToken_of_identifier (by decide)
  have hname : IsToken Store.registrationName.toList := isToken_of_identifier (by decide)
  have hopening (tail : Chars) : StopsWord ('(' :: tail) := stopsWord_cons (by decide) (by decide)
  rw [renderRegistration_eq] at hdepth ⊢
  simp only [List.length_append, List.length_cons] at hdepth
  obtain ⟨depth, rfl⟩ := Nat.exists_eq_add_of_le' (show 2 ≤ depth by omega)
  obtain ⟨ms, f, hargs, hadds⟩ :=
    arguments_configuration hroutes hsettings
      (show (configurationBody store).length ≤ depth by omega) (';' :: rest)
  obtain ⟨kind, hcall⟩ := expression_call (by decide +kernel) (by decide +kernel) hargs
    (halts_semicolon _ true rest) (hname.skip_space _)
  simp only [List.append_assoc, List.cons_append, List.nil_append] at hcall ⊢
  rw [statement_token hexport (stopsWord_space _), String.ofList_toList, wordStatement,
    if_neg (by decide), if_pos rfl, exportStatement_default hname (hopening _) (by decide),
    exportedValue, hcall]
  simp only [Option.bind_eq_bind, Option.bind_some, endStatement_semicolon]
  refine ⟨_, rfl, fun reading hregistered => add_registration hadds ?_ hregistered⟩
  exact upTo_append _ _

end Registration

end Source

end ModuleScaffold
