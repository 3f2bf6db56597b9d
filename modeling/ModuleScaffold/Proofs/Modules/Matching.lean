import ModuleScaffold.Proofs.Denotation.Patterns
import ModuleScaffold.Proofs.Modules.Written

/-!
# What the patterns of nested collections match

The pattern of the collections below another one is read back here as the language reads it
(`ModuleScaffold.Regex.Pattern.read`). Whatever characters stand in the routes, a backslash in front
of every mark makes it a literal one, so that the pattern is the start of a text, the route of the
collection, a slash, and a choice between what lies behind it in the routes below.

Main statements:

* `ModuleScaffold.Declarations.Leads.literalPattern` – an escaped text is read as its code units;
* `ModuleScaffold.Declarations.nestedPattern_matches` – **the pattern matches exactly the paths that
  begin with the route of a collection below**, and it is kept and accepted as it is.
-/

namespace ModuleScaffold

namespace Declarations

open Regex Regex.Pattern Schema

variable {m : Module} {model other : Model} {outer : List Group} {g : Group} {t : List Char}
  {texts : List (List Char)}

/-! ### Other models -/

/-- Where names tell models apart, the other models are those that are not the model itself. -/
theorem nested_iff_of_nodup (hnames : (m.models.map Model.name).Nodup) (hmodel : model ∈ m.models)
    (hother : other ∈ m.models) : Nested m model other ↔
      other ≠ model ∧ (m.basePath model).toList ++ ['/'] <+: (m.basePath other).toList := by
  constructor
  · rintro ⟨hapart, hbelow⟩
    exact ⟨fun heq => hapart (congrArg Model.name heq), hbelow⟩
  · rintro ⟨hapart, hbelow⟩
    exact ⟨fun heq => hapart (List.inj_on_of_nodup_map hnames hother hmodel heq), hbelow⟩

/-! ### Reading the pattern -/

namespace Leads

open Reading (Leads)

theorem literalPattern : Leads ⟨outer, g, false⟩ (Text.units (literalPattern t))
    ⟨outer, g.addAll (Text.units t), false⟩ := by
  have hsub : ∀ c ∈ specialMarks, c ∈ marks := Text.forall_mem_of_all (by decide)
  have hsup : ∀ c ∈ marks, c ∈ specialMarks := Text.forall_mem_of_all (by decide)
  have hsmall : ∀ c ∈ specialMarks, Text.unitsOf c.toNat = [c.toNat] :=
    Text.forall_mem_of_all (by decide)
  have hback : Text.unitsOf '\\'.toNat = ['\\'.toNat] := by decide
  induction t generalizing g with
  | nil => exact .nil
  | cons c t ih =>
    rw [Declarations.literalPattern, List.flatMap_cons, ← Declarations.literalPattern,
      Text.units_append, Text.units_cons, Group.addAll_append]
    refine Leads.append ?_ ih
    split
    · next hc =>
      have hmark := List.contains_iff_mem.1 hc
      rw [Text.units_cons, hback, Text.units_cons, hsmall c hmark]
      exact .escaped (isMark_toNat (hsub c hmark))
    · next hc =>
      rw [Text.units_cons, Text.units_nil, List.append_nil]
      refine .plains fun u hu => isMark_of_mem_unitsOf (fun hmark => hc ?_) hu
      exact List.contains_iff_mem.2 (hsup c hmark)

/-- Escaped texts with bars between them are read as the choice between them. -/
theorem joined : Leads ⟨outer, g, false⟩
    (Text.units (Text.joinWith ['|'] (texts.map Declarations.literalPattern)))
    ⟨outer, g.addTexts texts, false⟩ := by
  have hbar : Text.units ['|'] = ['|'.toNat] := by decide
  induction texts generalizing g with
  | nil => exact .nil
  | cons t texts ih =>
    rcases texts with _ | ⟨t', texts⟩
    · exact literalPattern
    · rw [List.map_cons, List.map_cons, Text.joinWith, Text.units_append, Text.units_append, hbar]
      exact (literalPattern.append .bar).append ih

/-- One of several escaped texts, in a group if there are more than one, is read as the choice
between them behind what has been read. -/
theorem alternatives (outer : List Group) (g : Group) (h : texts ≠ []) : ∃ g' : Group,
    Leads ⟨outer, g, false⟩
      (Text.units (alternatives (texts.map Declarations.literalPattern))) ⟨outer, g', false⟩ ∧
    g'.ended = g.ended ∧ ∀ text us rest, rest ∈ g'.latest.rests text us ↔
      ∃ t ∈ texts, Text.units t ++ rest ∈ g.latest.rests text us := by
  have hopen : Text.units ['('] = ['('.toNat] := by decide
  have hclose : Text.units [')'] = [')'.toNat] := by decide
  -- one text is written without a group, more than one with a group around them
  rcases texts with _ | ⟨t, _ | ⟨t', texts⟩⟩
  · exact absurd rfl h
  · refine ⟨g.addAll (Text.units t), literalPattern, Group.ended_addAll, fun text us rest => ?_⟩
    rw [Group.mem_rests_addAll]
    simp
  · refine ⟨g.add (Group.opened.addTexts (t :: t' :: texts)).pattern, ?_, rfl,
      fun text us rest => ?_⟩
    · have hparts : Declarations.alternatives ((t :: t' :: texts).map Declarations.literalPattern) =
          ['('] ++ (Text.joinWith ['|'] ((t :: t' :: texts).map Declarations.literalPattern)
            ++ [')']) := rfl
      rw [hparts, Text.units_append, Text.units_append, hopen, hclose]
      exact .group joined
    · rw [Group.add, mem_rests_sequence]
      simp only [Group.opened, Group.mem_rests_addTexts (List.cons_ne_nil t _), Option.not_mem_none,
        false_and, exists_false, false_or]
      constructor
      · rintro ⟨_, hmem, t, ht, rfl⟩
        exact ⟨t, ht, hmem⟩
      · rintro ⟨t, ht, hmem⟩
        exact ⟨_, hmem, t, ht, rfl⟩

end Leads

/-- The pattern of nested collections is read as one that leaves, of a whole path only, what stands
behind one of their routes. -/
theorem read_nestedPattern {pattern : String} (h : nestedPattern m model = some pattern) :
    ∃ p, Pattern.read (Text.units pattern.toList) = some p ∧ ∀ path us rest,
      rest ∈ p.rests path us ↔ us = path ∧ ∃ other ∈ m.models, Nested m model other ∧
        path = Text.units (m.basePath other).toList ++ rest := by
  have hstart : Text.units ['^'] = ['^'.toNat] := by decide
  have hslash : literalPattern ['/'] = ['\\', '/'] := by decide
  rw [nestedPattern] at h
  split at h
  · cases h
  · next hsome =>
    have hpattern : pattern.toList = ['^'] ++ (literalPattern (m.basePath model).toList ++
        (literalPattern ['/'] ++ alternatives ((nestedRoutes m model).map literalPattern))) := by
      rw [← Option.some.inj h, String.toList_ofList, hslash, List.append_assoc]
      rfl
    have hne : nestedRoutes m model ≠ [] := fun hnil => hsome (List.isEmpty_iff.2 hnil)
    obtain ⟨g, hleads, hended, hlatest⟩ := Leads.alternatives []
      (((Group.opened.add .start).addAll (Text.units (m.basePath model).toList)).addAll
        (Text.units ['/'])) hne
    refine ⟨g.pattern, Reading.Leads.read (g := g) ?_, fun path us rest => ?_⟩
    · rw [hpattern, Text.units_append, Text.units_append, Text.units_append, hstart]
      exact Reading.Leads.start.append
        (Leads.literalPattern.append (Leads.literalPattern.append hleads))
    · have hbase : ∀ t, Text.units (m.basePath model).toList ++
          (Text.units ['/'] ++ (Text.units t ++ rest)) =
            Text.units ((m.basePath model).toList ++ '/' :: t) ++ rest := by
        intro t
        simp only [Text.units_append, Text.units_cons, Text.units_nil, List.append_nil,
          List.append_assoc]
      -- nothing stands in front of the start, so a rest belongs to the whole path
      rw [Group.ended_addAll, Group.ended_addAll] at hended
      rw [Group.mem_rests_pattern, hended, hlatest]
      simp only [Group.mem_rests_addAll, Group.add, Group.opened, mem_rests_sequence, hbase,
        mem_rests_start, Option.not_mem_none, false_and, exists_false, false_or,
        mem_rests_empty, exists_eq_left]
      constructor
      · rintro ⟨t, ht, rfl, hrest⟩
        obtain ⟨other, hother, hnested, hpath⟩ := mem_nestedRoutes.1 ht
        rw [← hpath] at hrest
        exact ⟨rfl, other, hother, hnested, hrest.symm⟩
      · rintro ⟨rfl, other, hother, hnested, hrest⟩
        obtain ⟨t, ht⟩ := hnested.below
        have hpath : (m.basePath other).toList = (m.basePath model).toList ++ '/' :: t := by
          rw [← ht, List.append_assoc, List.singleton_append]
        refine ⟨t, mem_nestedRoutes.2 ⟨other, hother, hnested, hpath⟩, rfl, ?_⟩
        rw [← hpath, ← hrest]

/-- **There is a pattern of nested collections exactly if there are any. Read as the language reads
it, it matches the paths that begin with the route of one of them, and no other ones; it is kept as
it is, and accepted if none of the routes spans lines.** -/
theorem nestedPattern_matches (m : Module) (model : Model) :
    (nestedPattern m model = none ↔ ∀ other ∈ m.models, ¬Nested m model other) ∧
      ∀ pattern, nestedPattern m model = some pattern →
        (∃ p, Pattern.read (Text.units pattern.toList) = some p ∧
          ∀ path, p.tests path = true ↔ ∃ other ∈ m.models, Nested m model other ∧
            Text.units (m.basePath other).toList <+: path) ∧
        (∀ flags, Value.ofPattern pattern flags = .regex pattern flags) ∧
        ((∀ other ∈ m.models, Nested m model other → OnOneLine (m.basePath other).toList) →
          (Value.ofPattern pattern "").problem? = none) := by
  refine ⟨nestedPattern_eq_none_iff, fun pattern hpattern => ?_⟩
  obtain ⟨p, hread, hrests⟩ := read_nestedPattern hpattern
  obtain ⟨hescaped, hproblem⟩ := nestedPattern_problem?_iff hpattern
  have hkept : ∀ flags, Value.ofPattern pattern flags = .regex pattern flags := fun flags => by
    rw [Value.ofPattern, hescaped]
  refine ⟨⟨p, hread, fun path => ?_⟩, hkept, fun hlines => ?_⟩
  · simp only [tests_iff, hrests]
    constructor
    · rintro ⟨us, -, rest, -, other, hother, hnested, hpath⟩
      exact ⟨other, hother, hnested, rest, hpath.symm⟩
    · rintro ⟨other, hother, hnested, rest, hpath⟩
      exact ⟨path, List.suffix_rfl, rest, rfl, other, hother, hnested, hpath.symm⟩
  · rw [hkept, Value.problem?, hproblem.2 hlines]
    rfl

/-- A plural with marks in it: a path below that collection is matched, and one with another
character in place of a mark is not. -/
theorem nestedPattern_matches_marks : ∃ pattern p,
    nestedPattern (partsModule "kits.v2+" "parts") ⟨"Part", "part", "parts", true, none, []⟩ =
        some pattern ∧
      Pattern.read (Text.units pattern.toList) = some p ∧
      p.tests (Text.units "/admin/parts/kits.v2+/7".toList) = true ∧
      p.tests (Text.units "/admin/parts/kitsxv2+/7".toList) = false ∧
      (Value.ofPattern pattern "").problem? = none := by
  obtain ⟨hnone, hsome⟩ := nestedPattern_matches (partsModule "kits.v2+" "parts")
    ⟨"Part", "part", "parts", true, none, []⟩
  obtain ⟨pattern, hpattern⟩ := Option.ne_none_iff_exists'.1 fun heq =>
    absurd (hnone.1 heq) (by decide +kernel)
  obtain ⟨⟨p, hread, htests⟩, -, haccepted⟩ := hsome pattern hpattern
  refine ⟨pattern, p, hpattern, hread, (htests _).2 (by decide +kernel), ?_,
    haccepted (by decide +kernel)⟩
  exact Bool.eq_false_iff.2 fun hmatch => absurd ((htests _).1 hmatch) (by decide +kernel)

end Declarations

end ModuleScaffold
