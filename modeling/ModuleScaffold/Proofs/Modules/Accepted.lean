import ModuleScaffold.Schema.Check
import Mathlib.Data.List.Nodup

/-!
# Modules that are accepted

The check of a module stops at its first problem. It finds none exactly if the module is in order as
a whole (`ModuleScaffold.Schema.Module.Accepted`): its words can stand between the slashes of a
path, its models have different identifiers as names, and what they refer to is there. Nothing is said
of what is made of these words: neither of the routes and files that are put together from them nor of
the names in other letters.

Main statement: `ModuleScaffold.Schema.Module.check_eq_ok_iff` – **the check succeeds exactly if the
module is in order**.
-/

namespace ModuleScaffold

/-! ### Computations that may fail -/

section Results

variable {ε ε' α β : Type} {x : Except ε α} {f : α → Except ε β} {a : α} {b : β}

theorem bind_eq_ok_iff : x >>= f = .ok b ↔ ∃ a, x = .ok a ∧ f a = .ok b := by
  cases x with
  | error e => exact ⟨fun h => (nomatch h), fun ⟨_, h, _⟩ => (nomatch h)⟩
  | ok a => exact ⟨fun h => ⟨a, rfl, h⟩, fun ⟨_, h, h'⟩ => Except.ok.inj h ▸ h'⟩

theorem mapError_eq_ok_iff {g : ε → ε'} : x.mapError g = .ok a ↔ x = .ok a := by
  cases x with
  | error e => exact ⟨fun h => (nomatch h), fun h => (nomatch h)⟩
  | ok a' => exact ⟨fun h => by cases h; rfl, fun h => by cases h; rfl⟩

/-- A sequence of two checks succeeds if both do. -/
theorem andThen_eq_ok_iff {x y : Except ε Unit} :
    (x >>= fun _ => y) = .ok () ↔ x = .ok () ∧ y = .ok () :=
  bind_eq_ok_iff.trans ⟨fun ⟨_, h, h'⟩ => ⟨h, h'⟩, fun ⟨h, h'⟩ => ⟨(), h, h'⟩⟩

end Results

namespace Schema

/-! ### What is checked -/

/-- A word that can stand between the slashes of a path. -/
structure IsSegment (word : String) : Prop where
  /-- There is a character. -/
  ne_empty : word ≠ ""
  /-- None is blank, and none is a slash. -/
  solid : ∀ c ∈ word.toList, Text.isBlank c = false ∧ c ≠ '/'

/-- The words of a model can be used. -/
structure Model.WellNamed (model : Model) : Prop where
  /-- The name is an identifier. -/
  name : Text.isIdentifier model.name = true
  /-- The word for one item can stand in a path. -/
  singular : IsSegment model.singular
  /-- The word for several items can stand in a path. -/
  plural : IsSegment model.plural

/-- The module has a model of the name. -/
def Module.HasModel (m : Module) (name : String) : Prop :=
  ∃ model ∈ m.models, model.name = name

/-- What a model refers to is there. -/
structure Model.Linked (m : Module) (model : Model) : Prop where
  /-- The parent is another model of the module. -/
  parent : ∀ parent ∈ model.parent, parent.model ≠ model.name ∧ m.HasModel parent.model
  /-- The route prefix has more in it than slashes. -/
  route : ∀ parent ∈ model.parent, parent.route ≠ ""
  /-- The fields have different names. -/
  fields : (model.fields.map Field.name).Nodup
  /-- The names of the fields are identifiers. -/
  fieldNames : ∀ field ∈ model.fields, Text.isIdentifier field.name = true
  /-- Relations lead to models of the module. -/
  relations : ∀ field ∈ model.fields, ∀ relation ∈ field.relation, m.HasModel relation.model

/-- A module that is in order. -/
structure Module.Accepted (m : Module) : Prop where
  /-- The name is not blank. -/
  name : Text.trim m.name ≠ ""
  /-- The plural can stand in a path. -/
  plural : IsSegment m.plural
  /-- There is a model. -/
  models : m.models ≠ []
  /-- The words of the models can be used. -/
  wellNamed : ∀ model ∈ m.models, model.WellNamed
  /-- The models have different names. -/
  names : (m.models.map Model.name).Nodup
  /-- What the models refer to is there. -/
  linked : ∀ model ∈ m.models, model.Linked m

/-! ### What the check finds -/

theorem require_eq_ok_iff {condition : Bool} {problem : Problem} :
    require condition problem = .ok () ↔ condition = true := by
  cases condition with
  | false => exact ⟨fun h => (nomatch h), fun h => (nomatch h)⟩
  | true => exact ⟨fun _ => rfl, fun _ => rfl⟩

theorem isEmpty_eq_true_iff {text : String} : (! text.isEmpty) = true ↔ text ≠ "" := by
  rw [Bool.not_eq_true', Bool.eq_false_iff, Ne, String.isEmpty_iff]

theorem wordProblem?_eq_none_iff {word : String} : wordProblem? word = none ↔ IsSegment word := by
  rw [wordProblem?]
  split
  · next hempty =>
    exact ⟨fun h => (nomatch h), fun h => absurd (String.isEmpty_iff.1 hempty) h.ne_empty⟩
  · next hempty =>
    rw [String.isEmpty_iff] at hempty
    split
    · next hforbidden =>
      refine ⟨fun h => (nomatch h), fun h => ?_⟩
      obtain ⟨c, hc, hor⟩ := List.any_eq_true.1 hforbidden
      obtain ⟨hblank, hslash⟩ := h.solid c hc
      rw [hblank, Bool.false_or, beq_iff_eq] at hor
      exact absurd hor hslash
    · next hforbidden =>
      refine ⟨fun _ => ⟨hempty, fun c hc => ?_⟩, fun _ => rfl⟩
      rw [Bool.not_eq_true, List.any_eq_false] at hforbidden
      simpa only [Bool.or_eq_true, not_or, Bool.not_eq_true, beq_iff_eq] using hforbidden c hc

theorem requireWord_eq_ok_iff {word : String} {problem : WordProblem → Problem} :
    requireWord word problem = .ok () ↔ IsSegment word := by
  rw [← wordProblem?_eq_none_iff, requireWord]
  cases wordProblem? word with
  | none => exact ⟨fun _ => rfl, fun _ => rfl⟩
  | some reason => exact ⟨fun h => (nomatch h), fun h => (nomatch h)⟩

/-- Different names that come after names that were seen. -/
def Fresh (seen names : List String) : Prop :=
  names.Nodup ∧ ∀ name ∈ names, name ∉ seen

theorem fresh_cons {seen names : List String} {name : String} :
    Fresh seen (name :: names) ↔ name ∉ seen ∧ Fresh (name :: seen) names := by
  rw [Fresh, Fresh, List.nodup_cons, List.forall_mem_cons]
  constructor
  · rintro ⟨⟨happart, hnodup⟩, hfresh, hseen⟩
    refine ⟨hfresh, hnodup, fun other hother => ?_⟩
    rw [List.mem_cons, not_or]
    exact ⟨fun hsame => happart (hsame ▸ hother), hseen other hother⟩
  · rintro ⟨hfresh, hnodup, hseen⟩
    refine ⟨⟨fun hname => hseen name hname List.mem_cons_self, hnodup⟩, hfresh, fun other hother =>
      ?_⟩
    exact fun hmem => hseen other hother (List.mem_cons_of_mem _ hmem)

theorem fresh_nil {names : List String} : Fresh [] names ↔ names.Nodup :=
  and_iff_left fun _ _ => List.not_mem_nil

theorem require_fresh_iff {seen : List String} {name : String} {problem : Problem} :
    require (! seen.contains name) problem = .ok () ↔ name ∉ seen := by
  rw [require_eq_ok_iff, Bool.not_eq_true', List.contains_eq_mem, decide_eq_false_iff_not]

theorem checkNames_eq_ok_iff {seen : List String} {models : List Model} :
    checkNames seen models = .ok () ↔
      (∀ model ∈ models, model.WellNamed) ∧ Fresh seen (models.map Model.name) := by
  induction models generalizing seen with
  | nil => simp [checkNames, Fresh]
  | cons model models ih =>
    simp only [checkNames, andThen_eq_ok_iff, require_fresh_iff, requireWord_eq_ok_iff, ih]
    rw [require_eq_ok_iff, List.forall_mem_cons, List.map_cons, fresh_cons]
    constructor
    · rintro ⟨hname, hfresh, hsingular, hplural, hall, hrest⟩
      exact ⟨⟨⟨hname, hsingular, hplural⟩, hall⟩, hfresh, hrest⟩
    · rintro ⟨⟨hmodel, hall⟩, hfresh, hrest⟩
      exact ⟨hmodel.name, hfresh, hmodel.singular, hmodel.plural, hall, hrest⟩

theorem isSome_model?_iff {m : Module} {name : String} :
    (m.model? name).isSome = true ↔ m.HasModel name := by
  simp only [Module.model?, List.find?_isSome, beq_iff_eq, Module.HasModel]

theorem checkParent_eq_ok_iff {m : Module} {model : Model} : checkParent m model = .ok () ↔
    (∀ parent ∈ model.parent, parent.model ≠ model.name ∧ m.HasModel parent.model) ∧
      ∀ parent ∈ model.parent, parent.route ≠ "" := by
  rw [checkParent]
  cases model.parent with
  | none => simp
  | some parent =>
    simp only [andThen_eq_ok_iff, require_eq_ok_iff, Bool.and_eq_true, bne_iff_ne,
      isSome_model?_iff, isEmpty_eq_true_iff, Option.mem_def, Option.some.injEq, forall_eq']

theorem checkRelation_eq_ok_iff {m : Module} {model : Model} {field : Field} :
    checkRelation m model field = .ok () ↔
      ∀ relation ∈ field.relation, m.HasModel relation.model := by
  rw [checkRelation]
  cases field.relation with
  | none => simp
  | some relation =>
    simp only [require_eq_ok_iff, isSome_model?_iff, Option.mem_def, Option.some.injEq, forall_eq']

theorem checkFields_eq_ok_iff {m : Module} {model : Model} {seen : List String}
    {fields : List Field} : checkFields m model seen fields = .ok () ↔
      Fresh seen (fields.map Field.name) ∧
        (∀ field ∈ fields, Text.isIdentifier field.name = true) ∧
          ∀ field ∈ fields, ∀ relation ∈ field.relation, m.HasModel relation.model := by
  induction fields generalizing seen with
  | nil => simp [checkFields, Fresh]
  | cons field fields ih =>
    simp only [checkFields, andThen_eq_ok_iff, require_fresh_iff, checkRelation_eq_ok_iff, ih]
    rw [require_eq_ok_iff, List.forall_mem_cons, List.forall_mem_cons, List.map_cons, fresh_cons]
    constructor
    · rintro ⟨hname, hfresh, hrelation, hrest, hnames, hrelations⟩
      exact ⟨⟨hfresh, hrest⟩, ⟨hname, hnames⟩, hrelation, hrelations⟩
    · rintro ⟨⟨hfresh, hrest⟩, ⟨hname, hnames⟩, hrelation, hrelations⟩
      exact ⟨hname, hfresh, hrelation, hrest, hnames, hrelations⟩

theorem checkModels_eq_ok_iff {m : Module} {models : List Model} :
    checkModels m models = .ok () ↔ ∀ model ∈ models, model.Linked m := by
  induction models with
  | nil => simp [checkModels]
  | cons model models ih =>
    rw [checkModels, andThen_eq_ok_iff, andThen_eq_ok_iff, checkParent_eq_ok_iff,
      checkFields_eq_ok_iff, fresh_nil, ih, List.forall_mem_cons]
    constructor
    · rintro ⟨⟨hparent, hroute⟩, ⟨hnodup, hnames, hrelations⟩, hall⟩
      exact ⟨⟨hparent, hroute, hnodup, hnames, hrelations⟩, hall⟩
    · rintro ⟨h, hall⟩
      exact ⟨⟨h.parent, h.route⟩, ⟨h.fields, h.fieldNames, h.relations⟩, hall⟩

/-- **The check succeeds exactly if the module is in order.** -/
theorem Module.check_eq_ok_iff {m : Module} : m.check = .ok () ↔ m.Accepted := by
  have hmodels : (! m.models.isEmpty) = true ↔ m.models ≠ [] := by
    rw [Bool.not_eq_true', Bool.eq_false_iff, Ne, List.isEmpty_iff]
  rw [check]
  simp only [andThen_eq_ok_iff, require_eq_ok_iff, requireWord_eq_ok_iff, checkNames_eq_ok_iff,
    checkModels_eq_ok_iff, fresh_nil, isEmpty_eq_true_iff, hmodels]
  constructor
  · rintro ⟨hname, hplural, hnonempty, ⟨hwellNamed, hnames⟩, hlinked⟩
    exact ⟨hname, hplural, hnonempty, hwellNamed, hnames, hlinked⟩
  · intro h
    exact ⟨h.name, h.plural, h.models, ⟨h.wellNamed, h.names⟩, h.linked⟩

end Schema

end ModuleScaffold
