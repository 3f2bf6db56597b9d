import ModuleScaffold.Proofs.Reading.Lexeme
import ModuleScaffold.Proofs.Text.Spacing
import ModuleScaffold.Schema.Naming

/-!
# Names that a model gives

Schemas and checks have names that are put together from words and the name of the model. The name
of a model is an identifier, and so are the names of its checks. The name of its schema has the
plural in it: where the name of the model ends in the word for one item, the word for several takes
its place, and that one can have characters that no identifier has.

Main statements:

* `ModuleScaffold.Schema.Model.isIdentifier_listSchema_iff` – **the name of the schema is an
  identifier exactly if the word for several items fits**;
* `ModuleScaffold.Schema.Model.createValidator_inj`,
  `ModuleScaffold.Schema.Model.updateValidator_inj`,
  `ModuleScaffold.Schema.Model.createValidator_ne_updateValidator` – **the names of checks tell the
  models apart**.
-/

namespace ModuleScaffold

namespace Text

/-! ### Identifiers that are put together -/

section Identifiers

variable {cs ds : List Char} {text : String}

/-- A text behind an identifier makes a longer one if it has nothing but letters and digits. -/
theorem isIdentifierChars_append (h : isIdentifierChars cs = true) :
    isIdentifierChars (cs ++ ds) = true ↔ ∀ c ∈ ds, isWordPart c = true := by
  cases cs with
  | nil => cases h
  | cons c cs =>
    obtain ⟨hstart, hrest⟩ := Bool.and_eq_true_iff.1 h
    rw [List.cons_append, isIdentifierChars, hstart, Bool.true_and, List.all_append, hrest,
      Bool.true_and, List.all_eq_true]

theorem ne_point_of_isIdentifierChars (h : isIdentifierChars cs = true) :
    ∀ c ∈ cs, (c == '.') = false := by
  intro c hc
  rw [beq_eq_false_iff_ne]
  rintro rfl
  exact absurd (isWordPart_of_isIdentifierChars h _ hc) (by decide)

/-- An identifier is a path by itself. -/
theorem isIdentifierPath_of_isIdentifier (h : isIdentifier text = true) :
    isIdentifierPath text = true := by
  rw [isIdentifierPath, fields_of_forall (ne_point_of_isIdentifierChars h), List.all_cons,
    List.all_nil, Bool.and_true]
  exact h

theorem pathRoot_of_isIdentifier (h : isIdentifier text = true) : pathRoot text = text := by
  have hall : text.toList.takeWhile (· != '.') = text.toList :=
    List.takeWhile_eq_self_iff.2 fun c hc => by
      rw [bne, ne_point_of_isIdentifierChars h c hc]
      rfl
  rw [pathRoot, hall, String.ofList_toList]

theorem isWord_of_isIdentifier (h : isIdentifier text = true) : IsWord text.toList where
  ne_nil hnil := by
    rw [isIdentifier, hnil] at h
    cases h
  solid c hc := isBlank_of_isWordPart (isWordPart_of_isIdentifierChars h c hc)

end Identifiers

end Text

namespace Schema

namespace Model

variable {model other : Model}

/-! ### The plural of the name -/

/-- The word for several items can stand in the plural of the name, if it does: it takes the place
of the word for one item where the name ends in that one. -/
def PluralFits (model : Model) : Prop :=
  Text.Style.pascal.apply model.singular ≠ "" →
    (Text.Style.pascal.apply model.singular).toList <:+ model.name.toList →
      ∀ c ∈ (Text.Style.pascal.apply model.plural).toList, Text.isWordPart c = true

instance (model : Model) : Decidable model.PluralFits :=
  decidable_of_iff (Text.Style.pascal.apply model.singular ≠ "" →
      (Text.Style.pascal.apply model.singular).toList <:+ model.name.toList →
        (Text.Style.pascal.apply model.plural).toList.all Text.isWordPart = true) <| by
    rw [PluralFits, List.all_eq_true]

theorem isWordPart_pluralName_iff (hname : Text.isIdentifier model.name = true) :
    (∀ c ∈ model.pluralName.toList, Text.isWordPart c = true) ↔ model.PluralFits := by
  have hpart := Text.isWordPart_of_isIdentifierChars hname
  -- the common ending is always fine
  have hcommon : ∀ c ∈ (model.name ++ "s").toList, Text.isWordPart c = true := by
    intro c hc
    rw [String.toList_append, List.mem_append] at hc
    rcases hc with hc | hc
    · exact hpart c hc
    · obtain rfl := List.mem_singleton.1 hc
      decide
  rw [pluralName, withoutEnding, PluralFits]
  by_cases hending : (Text.Style.pascal.apply model.singular).toList.isSuffixOf model.name.toList
  · rw [if_pos hending]
    have hsuffix := List.isSuffixOf_iff_suffix.1 hending
    by_cases hempty : (Text.Style.pascal.apply model.singular).isEmpty = true
    · simp only [hempty, if_true]
      exact iff_of_true hcommon fun hne => absurd (String.isEmpty_iff.1 hempty) hne
    · simp only [hempty, if_false, Bool.false_eq_true]
      rw [String.isEmpty_iff] at hempty
      rw [String.toList_append, String.toList_ofList, List.forall_mem_append]
      refine ⟨fun h _ _ => h.2, fun h => ⟨fun c hc => ?_, h hempty hsuffix⟩⟩
      exact hpart c (List.mem_of_mem_take hc)
  · rw [if_neg hending]
    exact iff_of_true hcommon fun _ hsuffix =>
      absurd (List.isSuffixOf_iff_suffix.2 hsuffix) hending

/-- **The name of the schema is an identifier exactly if the word for several items fits.** -/
theorem isIdentifier_listSchema_iff (hname : Text.isIdentifier model.name = true) :
    Text.isIdentifier model.listSchema = true ↔ model.PluralFits := by
  have hfront : Text.isIdentifierChars "Get".toList = true := by decide
  have hend : ∀ c ∈ "Schema".toList, Text.isWordPart c = true :=
    List.all_eq_true.1 (by decide)
  rw [Text.isIdentifier, listSchema, String.toList_append, String.toList_append,
    List.append_assoc, Text.isIdentifierChars_append hfront, List.forall_mem_append,
    and_iff_left hend, isWordPart_pluralName_iff hname]

/-! ### The names of the checks -/

theorem toList_createValidator (model : Model) :
    model.createValidator.toList = "PostAdminCreate".toList ++ model.name.toList :=
  String.toList_append

theorem toList_updateValidator (model : Model) :
    model.updateValidator.toList = "PostAdminUpdate".toList ++ model.name.toList :=
  String.toList_append

theorem isIdentifier_createValidator (hname : Text.isIdentifier model.name = true) :
    Text.isIdentifier model.createValidator = true := by
  have hfront : Text.isIdentifierChars "PostAdminCreate".toList = true := by decide
  rw [Text.isIdentifier, toList_createValidator, Text.isIdentifierChars_append hfront]
  exact Text.isWordPart_of_isIdentifierChars hname

theorem isIdentifier_updateValidator (hname : Text.isIdentifier model.name = true) :
    Text.isIdentifier model.updateValidator = true := by
  have hfront : Text.isIdentifierChars "PostAdminUpdate".toList = true := by decide
  rw [Text.isIdentifier, toList_updateValidator, Text.isIdentifierChars_append hfront]
  exact Text.isWordPart_of_isIdentifierChars hname

theorem createValidator_inj :
    model.createValidator = other.createValidator ↔ model.name = other.name := by
  rw [← String.toList_inj, toList_createValidator, toList_createValidator,
    List.append_cancel_left_eq, String.toList_inj]

theorem updateValidator_inj :
    model.updateValidator = other.updateValidator ↔ model.name = other.name := by
  rw [← String.toList_inj, toList_updateValidator, toList_updateValidator,
    List.append_cancel_left_eq, String.toList_inj]

/-- Texts that begin differently are different. -/
theorem append_ne_append {a b : String} (hlength : a.length = b.length) (hne : a ≠ b)
    (s t : String) : a ++ s ≠ b ++ t := by
  intro h
  rw [← String.toList_inj, String.toList_append, String.toList_append] at h
  exact hne (String.toList_inj.1 (List.append_inj_left h hlength))

theorem createValidator_ne_updateValidator (model other : Model) :
    model.createValidator ≠ other.updateValidator :=
  append_ne_append (by decide) (by decide) model.name other.name

end Model

end Schema

end ModuleScaffold
