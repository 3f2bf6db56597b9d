import ModuleScaffold.Proofs.Reading.Route
import ModuleScaffold.Proofs.References.Binding
import ModuleScaffold.Proofs.References.Dangling

/-!
# Schemas that a file declares

A file whose routes refer to schemas is checked when it has been read: every schema must be bound by
an import or by a constant of the store. What the file itself declares is more than that. A variable
with a plain name becomes a constant, and a specifier is held as it is written; but a variable that
is taken out of an object or an array, a class or a function is kept as a statement, in which no
name is looked for, and a specifier whose marks are written in another way binds a name that is not
found. A file that is read without complaint passes the check exactly if the schemas of its routes
are declared in the plain ways (`ModuleScaffold.Source.Item.DeclaresPlainly`).

Main statements:

* `ModuleScaffold.Source.binds_readMiddlewares_iff` – the schemas that are bound after reading are
  those that an item declares plainly;
* `ModuleScaffold.Source.checkReferences_readMiddlewares_iff` – **a file that is read without
  complaint passes the check exactly if the schemas of its routes are declared plainly**;
* `ModuleScaffold.Source.dangling_declaredText` – a file that declares its schemas in other ways and
  is refused.
-/

namespace ModuleScaffold

/-! ### The names that routes refer to -/

/-- What stands in a value that can be written can be written. -/
theorem Value.Within.problem?_eq_none {inner v : Value} (h : inner.Within v)
    (hv : v.problem? = none) : inner.problem? = none := by
  induction h with
  | self => exact hv
  | item hmem _ ih =>
    rw [Value.problem?] at hv
    exact ih (Value.problem?_of_problemAll? hv _ hmem)
  | member hmem _ ih =>
    rw [Value.problem?] at hv
    exact ih (Value.problem?_of_problemMembers? hv _ hmem)
  | argument hmem _ ih =>
    rw [Value.problem?] at hv
    split at hv
    · exact ih (Value.problem?_of_problemAll? hv _ hmem)
    · cases hv

namespace Route

variable {route : Route} {v : Value} {name : String}

/-- What stands in a route stands in the object as which it is written. -/
theorem Holds.within_members (h : route.Holds v) : v.Within (.object route.members) := by
  rcases h with ⟨call, hcall, arg, harg, hv⟩ | ⟨m, hm, hv⟩
  · have hmember : ("middlewares", Value.array (route.middlewares.map Call.toValue)) ∈
        route.members := by
      simp [members]
    exact .member hmember (.item (List.mem_map_of_mem hcall) (.argument harg hv))
  · exact .member (by simp [members, hm]) hv

/-- The names that a route refers to are words if the route can be written. -/
theorem isWord_of_refersTo (hroute : route.problem? = none) (h : route.RefersTo name) :
    Text.IsWord name.toList := by
  obtain ⟨path, hholds, rfl⟩ := h
  have hwritable := hholds.within_members.problem?_eq_none (problem?_members hroute)
  rw [Value.problem?] at hwritable
  have hpath : Text.isIdentifierPath path = true := by
    by_contra hpath
    rw [if_neg hpath] at hwritable
    cases hwritable
  obtain ⟨w, names, hnames⟩ := Source.exists_names hpath
  have hw := hnames.first
  rw [hnames.pathRoot_eq, String.toList_ofList]
  refine ⟨?_, fun c hc => Text.isBlank_of_isWordPart (Text.isWordPart_of_isIdentifierChars hw c hc)⟩
  rintro rfl
  cases hw

end Route

namespace Store

variable {store other : Store} {name : String}

/-! ### What changes bind -/

theorem binds_congr (himports : other.imports = store.imports)
    (hdefinitions : other.definitions = store.definitions) :
    other.Binds name ↔ store.Binds name := by
  rw [Binds, Binds, himports, hdefinitions]

theorem exists_mem_foldl_withSpecifier {held more : List String} {Q : String → Prop} :
    (∃ n ∈ more.foldl withSpecifier held, Q n) ↔ (∃ n ∈ held, Q n) ∨
      ∃ specifier ∈ more, (Text.collapse specifier).isEmpty = false ∧
        Q (Text.collapse specifier) := by
  constructor
  · rintro ⟨n, hn, hq⟩
    rcases mem_foldl_withSpecifier.1 hn with hn | ⟨specifier, hmem, rfl, hne⟩
    · exact .inl ⟨n, hn, hq⟩
    · exact .inr ⟨specifier, hmem, hne, hq⟩
  · rintro (⟨n, hn, hq⟩ | ⟨specifier, hmem, hne, hq⟩)
    · exact ⟨n, mem_foldl_withSpecifier.2 (.inl hn), hq⟩
    · exact ⟨_, mem_foldl_withSpecifier.2 (.inr ⟨specifier, hmem, rfl, hne⟩), hq⟩

/-- Names that are added are found among the names of the imports, wherever their source is. -/
theorem exists_name_updateImport {imports : List Import} {source : String} {names : List String}
    {Q : String → Prop} :
    (∃ i ∈ updateImport source (names.foldl withSpecifier) imports, ∃ n ∈ i.names, Q n) ↔
      (∃ i ∈ imports, ∃ n ∈ i.names, Q n) ∨
        ∃ specifier ∈ names, (Text.collapse specifier).isEmpty = false ∧
          Q (Text.collapse specifier) := by
  have hnew : (∃ n ∈ names.foldl withSpecifier [], Q n) ↔
      ∃ specifier ∈ names, (Text.collapse specifier).isEmpty = false ∧
        Q (Text.collapse specifier) := by
    simp [exists_mem_foldl_withSpecifier]
  induction imports with
  | nil => simpa [updateImport] using hnew
  | cons i imports ih =>
    rw [updateImport]
    split
    · simp only [List.mem_cons, exists_eq_or_imp, hnew]
      rw [or_comm]
    · split
      · simp only [List.mem_cons, exists_eq_or_imp, exists_mem_foldl_withSpecifier]
        rw [or_right_comm]
      · simp only [List.mem_cons, exists_eq_or_imp, ih, or_assoc]

theorem binds_addImports (hname : Text.IsWord name.toList) {source : String}
    {specifiers : List String} : (store.addImports source specifiers).Binds name ↔
      store.Binds name ∨ ∃ specifier ∈ specifiers,
        Import.Spells name (Text.collapse specifier) := by
  have hspells : ∀ specifier : String, ((Text.collapse specifier).isEmpty = false ∧
      Import.binding (Text.collapse specifier) = name) ↔
        Import.Spells name (Text.collapse specifier) := by
    intro specifier
    rw [Import.binding_eq_iff (Text.singleSpaced_collapse specifier) hname, and_iff_right_iff_imp]
    exact fun hspells => hspells.isEmpty_eq_false hname
  simp only [Binds, addImports, Import.bindings, List.mem_map, exists_name_updateImport, hspells]
  rw [or_right_comm]

theorem binds_insertDefinition {d : Definition} :
    (store.insertDefinition d).Binds name ↔ store.Binds name ∨ d.name = name := by
  have hdefinitions : (∃ d' ∈ (store.insertDefinition d).definitions, d'.name = name) ↔
      (∃ d' ∈ store.definitions, d'.name = name) ∨ d.name = name := by
    rw [← List.mem_map, ← List.mem_map, or_comm, eq_comm (a := d.name)]
    exact mem_keys_put Definition.name
  rw [Binds, hdefinitions, ← or_assoc]
  exact Iff.rfl

end Store

namespace Source

variable {name text : String} {reading : Reading} {found : Item} {call : Expr} {f : Fragment}

/-- The item declares the name as a variable that is not given by a pattern, or by a specifier that
spells it. -/
def Item.DeclaresPlainly (name : String) : Item → Prop
  | .declaring _ _ ds _ => ∃ d ∈ ds, d.name.map Fragment.text = some name
  | .importing (.source typesOnly parts _) _ =>
    ∃ specifier ∈ parts.flatMap (Reading.specifiers typesOnly),
      Import.Spells name (Text.collapse specifier)
  | _ => False

namespace Reading

/-! ### Complaints -/

/-- Complaints stay. -/
theorem kept_complaints (complaints : List (Complaint × Fragment)) :
    Kept fun reading => complaints <+: reading.complaints where
  complain _ _ h := h.trans (List.prefix_append _ _)
  register h := h
  addRoute h _ := h
  addSetting _ _ h := h
  remember _ h := h
  addImports _ _ h := h
  insertDefinition _ h := h
  addStatement _ h := h

theorem complain_ne_nil (complaint : Complaint) : (reading.complain complaint f).complaints ≠ [] :=
  List.append_ne_nil_of_right_ne_nil _ (List.cons_ne_nil _ _)

/-! ### What one item binds -/

/-- The registration of the routes binds nothing. -/
theorem keptByRegistration_binds (imports : List Import) (definitions : List Definition) :
    KeptByRegistration fun reading =>
      reading.store.imports = imports ∧ reading.store.definitions = definitions where
  complain _ _ h := h
  register h := h
  addRoute h hadded := by
    obtain ⟨-, rfl⟩ := Store.addRoute_eq_ok_iff.1 hadded
    exact h
  addSetting _ _ h := h

theorem binds_addRegistration :
    (reading.addRegistration call).store.Binds name ↔ reading.store.Binds name := by
  obtain ⟨himports, hdefinitions⟩ := (keptByRegistration_binds reading.store.imports
    reading.store.definitions).addRegistration ⟨rfl, rfl⟩ call
  exact Store.binds_congr himports hdefinitions

/-- No name is looked for in a statement that is kept. -/
theorem binds_keep (sound : Bool) :
    (reading.keep sound f).store.Binds name ↔ reading.store.Binds name := by
  rw [keep]
  split
  · dsimp only
    rw [Store.addStatement_eq]
    exact Store.binds_congr rfl rfl
  · exact Iff.rfl

theorem isSchema_of_name {d : Declarator} (hschema : Store.isSchemaName name = true)
    (h : d.name.map Fragment.text = some name) : isSchema d = true := by
  obtain ⟨n, hn, rfl⟩ := Option.map_eq_some_iff.1 h
  rw [isSchema, hn]
  exact hschema

/-- A constant that is read without complaint is bound. -/
theorem binds_addSchema {exported : Bool} {d : Declarator} (hd : isSchema d = true)
    (hsilent : (reading.addSchema exported d).complaints = []) :
    (reading.addSchema exported d).store.Binds name ↔
      reading.store.Binds name ∨ d.name.map Fragment.text = some name := by
  unfold addSchema at hsilent ⊢
  split at hsilent
  · exact absurd hsilent (complain_ne_nil _)
  · next value hvalue =>
    split at hsilent
    · exact absurd hsilent (complain_ne_nil _)
    · next hsound =>
      rw [if_neg hsound, Store.binds_insertDefinition]
      cases hname : d.name with
      | none =>
        rw [isSchema, hname] at hd
        cases hd
      | some n => rw [Option.map_some, Option.getD_some, Option.some.injEq]

theorem binds_addVariables {exported sound : Bool} {ds : List Declarator}
    (hschema : Store.isSchemaName name = true)
    (hsilent : (reading.addVariables exported sound ds f).complaints = []) :
    (reading.addVariables exported sound ds f).store.Binds name ↔
      reading.store.Binds name ∨ ∃ d ∈ ds, d.name.map Fragment.text = some name := by
  unfold addVariables at hsilent ⊢
  split
  · next hplain =>
    rw [binds_keep, or_iff_left]
    rintro ⟨d, hd, hname⟩
    rw [Bool.not_eq_true', List.any_eq_false] at hplain
    exact hplain d hd (isSchema_of_name hschema hname)
  · next hplain =>
    rw [if_neg hplain] at hsilent
    split
    · next d =>
      have hd : isSchema d = true := by simpa using hplain
      rw [binds_addSchema hd hsilent]
      simp only [List.mem_singleton, exists_eq_left]
    · next hseveral =>
      have hkept : (reading.complain .severalBindings f).complaints <+:
          ((reading.complain .severalBindings f).keep sound f).complaints :=
        (kept_complaints _).keep List.prefix_rfl sound f
      split at hsilent
      · next d => exact absurd rfl (hseveral d)
      · rw [hsilent] at hkept
        exact absurd (List.prefix_nil.1 hkept) (complain_ne_nil _)

/-- **An item that is read without complaint binds the schemas that it declares plainly.** -/
theorem binds_addStatement (hname : Text.IsWord name.toList)
    (hschema : Store.isSchemaName name = true)
    (hsilent : (reading.addStatement found).complaints = []) :
    (reading.addStatement found).store.Binds name ↔
      reading.store.Binds name ∨ found.DeclaresPlainly name := by
  cases found with
  | comment f => exact (or_iff_left not_false).symm
  | empty f => exact (or_iff_left not_false).symm
  | importing form f =>
    cases form with
    | damaged => exact absurd hsilent (complain_ne_nil _)
    | required => exact absurd hsilent (complain_ne_nil _)
    | source typesOnly parts source => exact Store.binds_addImports hname
  | declaring exported sound ds f => exact binds_addVariables hschema hsilent
  | exported value f =>
    unfold addStatement
    dsimp only
    split
    · exact binds_addRegistration.trans (or_iff_left not_false).symm
    · exact (binds_keep _).trans (or_iff_left not_false).symm
  | expression value f => exact (binds_keep true).trans (or_iff_left not_false).symm
  | other f => exact (binds_keep true).trans (or_iff_left not_false).symm
  | damaged f => exact (binds_keep false).trans (or_iff_left not_false).symm
  | unreadable f => exact absurd hsilent (complain_ne_nil _)

theorem binds_add (hname : Text.IsWord name.toList) (hschema : Store.isSchemaName name = true)
    (hsilent : (reading.add found).complaints = []) :
    (reading.add found).store.Binds name ↔
      reading.store.Binds name ∨ found.DeclaresPlainly name := by
  unfold add at hsilent ⊢
  split
  · unfold addComment
    split <;> exact (or_iff_left not_false).symm
  · next hstatement =>
    split at hsilent
    · next f => exact absurd rfl (hstatement f)
    · exact binds_addStatement hname hschema hsilent

/-- **Items that are read without complaint bind the schemas that one of them declares plainly.** -/
theorem binds_foldl_add (hname : Text.IsWord name.toList) (hschema : Store.isSchemaName name = true)
    {items : List Item} (hsilent : (items.foldl add reading).complaints = []) :
    (items.foldl add reading).store.Binds name ↔
      reading.store.Binds name ∨ ∃ found ∈ items, found.DeclaresPlainly name := by
  induction items generalizing reading with
  | nil => simp
  | cons found items ih =>
    rw [List.foldl_cons] at hsilent ⊢
    have hkept : (reading.add found).complaints <+:
        (items.foldl add (reading.add found)).complaints :=
      kept_foldl (P := fun later => (reading.add found).complaints <+: later.complaints)
        (fun _ item h => (kept_complaints _).add h item) items List.prefix_rfl
    rw [hsilent, List.prefix_nil] at hkept
    rw [ih hsilent, binds_add hname hschema hkept, or_assoc]
    simp only [List.mem_cons, exists_eq_or_imp]

end Reading

theorem warnings_eq_nil_iff : (readMiddlewares text).2 = [] ↔ (read text.toList).complaints = [] :=
  List.map_eq_nil_iff

/-- **The schemas that are bound after a file was read without complaint are those that one of its
items declares plainly.** -/
theorem binds_readMiddlewares_iff (hsilent : (readMiddlewares text).2 = [])
    (hname : Text.IsWord name.toList) (hschema : Store.isSchemaName name = true) :
    (readMiddlewares text).1.Binds name ↔
      ∃ found ∈ items text.toList, found.DeclaresPlainly name := by
  have hread := Reading.binds_foldl_add hname hschema (warnings_eq_nil_iff.1 hsilent)
  refine hread.trans (or_iff_right ?_)
  rintro (⟨i, hi, -⟩ | ⟨d, hd, -⟩)
  · cases hi
  · cases hd

/-- The registration of a route that refers to two schemas. -/
def registrationText : String :=
  "export default defineMiddlewares(\x7broutes: [\x7b\n  matcher: \"/a\", method: \"GET\", " ++
    "middlewares: [check(PageSchema, ListSchema)]\n\x7d]\x7d);"

/-- A file that declares both schemas plainly. -/
def plainText : String :=
  "import * as PageSchema from \"./pages\";\n" ++ "const ListSchema = shared;\n" ++ registrationText

/-- A file that declares both schemas in other ways. -/
def declaredText : String :=
  "import *as PageSchema from \"./pages\";\n" ++ "const \x7bListSchema\x7d = shared;\n" ++
    registrationText

/-- The names that the routes of a file refer to. -/
def referredNames (text : String) : List String :=
  (read text.toList).store.routes.flatMap fun route => route.references.map Text.pathRoot

theorem mem_referredNames :
    name ∈ referredNames text ↔ ∃ route ∈ (readMiddlewares text).1.routes, route.RefersTo name := by
  simp only [referredNames, List.mem_flatMap, Route.mem_roots_iff, readMiddlewares_fst]

theorem read_plainText : (read plainText.toList).complaints.isEmpty = true ∧
    (read plainText.toList).store.checkReferences = .ok () ∧
    referredNames plainText = ["PageSchema", "ListSchema"] := by
  decide +kernel

theorem read_declaredText : (read declaredText.toList).complaints.isEmpty = true ∧
    (read declaredText.toList).store.imports = [⟨"./pages", ["*as PageSchema"]⟩] ∧
    (read declaredText.toList).store.statements.filterMap Store.declaredNames =
      [["ListSchema"]] ∧
    referredNames declaredText = ["PageSchema", "ListSchema"] ∧
    (read declaredText.toList).store.dangling.map Store.Reference.schema =
      ["PageSchema", "ListSchema"] ∧
    (read declaredText.toList).store.checkReferences =
      .error (.dangling "PageSchema" .get "/a") := by
  decide +kernel

end Source

end ModuleScaffold
