import ModuleScaffold.Declarations
import Mathlib.Data.List.Infix

/-!
# Patterns of nested collections

The pattern of the collections that lie below another one is put together from routes, every
character with a meaning of its own escaped, and from marks that stand for themselves. Such a text
is *balanced*: behind it, the scan of the body of a regular expression is where it was in front of
it. Nothing in a balanced text needs a further backslash, and nothing but the end of a line keeps
it from standing between slashes.

Main statements:

* `ModuleScaffold.Regex.Balanced.escapeSlashes`,
  `ModuleScaffold.Regex.Balanced.problem?_eq_none_iff`
  – **what becomes of a balanced pattern**;
* `ModuleScaffold.Declarations.nestedPattern_problem?_iff` – **the pattern of nested collections can
  be written exactly if no route in it spans lines**.
-/

namespace ModuleScaffold

namespace Regex

variable {place : Place} {c : Char} {cs rest : List Char} {offset : Nat}

/-- How many bytes stand in front of a body only matters for what is reported. -/
theorem bodyProblemFrom_eq_none_congr (other : Nat) :
    bodyProblemFrom place offset cs = none ↔ bodyProblemFrom place other cs = none := by
  induction cs generalizing place offset other with
  | nil => exact Iff.rfl
  | cons c cs ih =>
    rw [bodyProblemFrom, bodyProblemFrom]
    split
    · exact iff_of_false (Option.some_ne_none _) (Option.some_ne_none _)
    · split
      · exact iff_of_false (Option.some_ne_none _) (Option.some_ne_none _)
      · exact ih _

/-- A text with no character that ends a line. -/
def OnOneLine (cs : List Char) : Prop :=
  ∀ c ∈ cs, isLineEnd c = false

instance : DecidablePred OnOneLine := fun cs =>
  decidable_of_iff ((cs.all fun c => ! isLineEnd c) = true) <| by
    simp only [List.all_eq_true, Bool.not_eq_true', OnOneLine]

theorem onOneLine_cons : OnOneLine (c :: cs) ↔ isLineEnd c = false ∧ OnOneLine cs :=
  List.forall_mem_cons

theorem onOneLine_append : OnOneLine (cs ++ rest) ↔ OnOneLine cs ∧ OnOneLine rest :=
  List.forall_mem_append

/-! ### Balanced texts -/

/-- A text behind which the scan of a body is where it was. -/
structure Balanced (cs : List Char) : Prop where
  /-- Nothing in the text needs a backslash. -/
  escapeFrom : ∀ rest, escapeFrom .start (cs ++ rest) = cs ++ Regex.escapeFrom .start rest
  /-- Only the ends of lines in the text are a problem. -/
  bodyProblemFrom : ∀ rest offset, bodyProblemFrom .start offset (cs ++ rest) = none ↔
    OnOneLine cs ∧ ∀ offset, Regex.bodyProblemFrom .start offset rest = none

namespace Balanced

theorem nil : Balanced [] where
  escapeFrom _ := rfl
  bodyProblemFrom _ offset :=
    ⟨fun h => ⟨fun _ hc => absurd hc List.not_mem_nil,
      fun _ => (bodyProblemFrom_eq_none_congr offset).2 h⟩, fun h => h.2 offset⟩

theorem append (h : Balanced cs) (hrest : Balanced rest) : Balanced (cs ++ rest) where
  escapeFrom more := by
    rw [List.append_assoc, h.escapeFrom, hrest.escapeFrom, List.append_assoc]
  bodyProblemFrom more offset := by
    rw [List.append_assoc, h.bodyProblemFrom, onOneLine_append, and_assoc]
    simp only [hrest.bodyProblemFrom, forall_const]

/-- The characters that a scan does not pass unchanged. -/
def marks : List Char := ['\\', '[', ']', '/']

/-- A character that is no mark stands for itself. -/
theorem singleton (hc : c ∉ marks) : Balanced [c] := by
  simp only [marks, List.mem_cons, List.not_mem_nil, or_false, not_or] at hc
  obtain ⟨hback, hopen, hclose, hslash⟩ := hc
  have hnext : Place.start.next c = .start := by
    rw [Place.next, if_neg (by decide), if_neg hback, if_neg hopen, if_neg hclose]
  have hbare : ¬(decide (c = '/') && Place.start.isOpen) = true := by simp [hslash]
  constructor
  · intro rest
    rw [List.singleton_append, Regex.escapeFrom, if_neg hbare, hnext]
    rfl
  · intro rest offset
    rw [List.singleton_append, Regex.bodyProblemFrom, if_neg hbare, hnext, onOneLine_cons]
    cases hline : isLineEnd c with
    | false =>
      simp only [Bool.false_eq_true, if_false, true_and]
      exact ⟨fun h => ⟨fun _ hc => absurd hc List.not_mem_nil,
        fun _ => (bodyProblemFrom_eq_none_congr _).2 h⟩, fun h => h.2 _⟩
    | true => simp

/-- A character behind a backslash stands for itself. -/
theorem escaped (c : Char) : Balanced ['\\', c] := by
  have hback : ¬(decide ('\\' = '/') && Place.start.isOpen) = true := by decide
  have hnext : Place.start.next '\\' = ⟨true, false⟩ := by decide
  have hbare : ¬(decide (c = '/') && (⟨true, false⟩ : Place).isOpen) = true := by
    simp [Place.isOpen]
  have hafter : (⟨true, false⟩ : Place).next c = .start := by
    rw [Place.next, if_pos rfl]
    rfl
  constructor
  · intro rest
    rw [List.cons_append, List.singleton_append, Regex.escapeFrom, if_neg hback, hnext,
      Regex.escapeFrom, if_neg hbare, hafter]
    rfl
  · intro rest offset
    rw [List.cons_append, List.singleton_append, Regex.bodyProblemFrom, if_neg (by decide),
      if_neg hback, hnext, Regex.bodyProblemFrom, if_neg hbare, hafter, onOneLine_cons,
      onOneLine_cons]
    cases hline : isLineEnd c with
    | false =>
      simp only [Bool.false_eq_true, if_false, true_and]
      exact ⟨fun h => ⟨⟨by decide, fun _ hc => absurd hc List.not_mem_nil⟩,
        fun _ => (bodyProblemFrom_eq_none_congr _).2 h⟩, fun h => h.2 _⟩
    | true => simp

theorem flatMap {α : Type} {f : α → List Char} {as : List α} (h : ∀ a ∈ as, Balanced (f a)) :
    Balanced (as.flatMap f) := by
  induction as with
  | nil => exact nil
  | cons a as ih =>
    obtain ⟨ha, has⟩ := List.forall_mem_cons.1 h
    exact ha.append (ih has)

theorem joinWith {separator : List Char} {texts : List (List Char)} (hs : Balanced separator)
    (h : ∀ text ∈ texts, Balanced text) : Balanced (Text.joinWith separator texts) := by
  induction texts with
  | nil => exact nil
  | cons text texts ih =>
    obtain ⟨htext, htexts⟩ := List.forall_mem_cons.1 h
    cases texts with
    | nil => exact htext
    | cons other texts => exact (htext.append hs).append (ih htexts)

/-- A balanced pattern is written as it is. -/
theorem escapeSlashes {pattern : String} (h : Balanced pattern.toList) :
    escapeSlashes pattern = pattern := by
  have hall := h.escapeFrom []
  rw [List.append_nil, Regex.escapeFrom, List.append_nil] at hall
  rw [Regex.escapeSlashes, hall, String.ofList_toList]

/-- A balanced pattern without flags can be written if it does not span lines. -/
theorem problem?_eq_none_iff {pattern : String} (h : Balanced pattern.toList)
    (hhead : pattern.toList.head? = some c) (hstar : c ≠ '*') :
    problem? pattern "" = none ↔ OnOneLine pattern.toList := by
  have hne : pattern.isEmpty = false := by
    rw [Bool.eq_false_iff, ne_eq, String.isEmpty_iff]
    rintro rfl
    cases hhead
  have hfirst : ¬pattern.toList.head? = some '*' := by
    rw [hhead, Option.some.injEq]
    exact hstar
  have hend : ∀ offset, Regex.bodyProblemFrom .start offset [] = none := fun _ => rfl
  have hbody := h.bodyProblemFrom [] 0
  rw [List.append_nil, and_iff_left hend] at hbody
  rw [← hbody, problem?, hne, bodyProblem?, if_neg hfirst]
  cases Regex.bodyProblemFrom .start 0 pattern.toList <;> simp [validFlags]

end Balanced

end Regex

namespace Declarations

open Regex Schema

variable {m : Module} {model other : Model} {text : List Char} {patterns : List (List Char)}

/-! ### The parts of a pattern -/

theorem balanced_literalPattern (text : List Char) : Balanced (literalPattern text) := by
  refine Balanced.flatMap fun c _ => ?_
  split
  · exact Balanced.escaped c
  · next hplain =>
    refine Balanced.singleton fun hmark => hplain (List.contains_iff_mem.2 ?_)
    have hsub : Balanced.marks ⊆ specialMarks := by simp [Balanced.marks, specialMarks]
    exact hsub hmark

theorem balanced_alternatives (h : ∀ pattern ∈ patterns, Balanced pattern) :
    Balanced (alternatives patterns) := by
  have hbar : Balanced ['|'] := Balanced.singleton (by decide)
  rw [alternatives.eq_def]
  split
  · exact h _ List.mem_cons_self
  · exact (Balanced.singleton (by decide)).append
      ((Balanced.joinWith hbar h).append (Balanced.singleton (by decide)))

theorem onOneLine_literalPattern : OnOneLine (literalPattern text) ↔ OnOneLine text := by
  have hback : isLineEnd '\\' = false := by decide
  induction text with
  | nil => exact Iff.rfl
  | cons c text ih =>
    rw [literalPattern, List.flatMap_cons, onOneLine_append, onOneLine_cons]
    refine and_congr ?_ ih
    split <;> simp [OnOneLine, hback]

theorem onOneLine_joinWith :
    OnOneLine (Text.joinWith ['|'] patterns) ↔ ∀ pattern ∈ patterns, OnOneLine pattern := by
  have hbar : OnOneLine ['|'] := by decide
  induction patterns with
  | nil => exact iff_of_true (fun _ h => absurd h List.not_mem_nil) fun _ h =>
      absurd h List.not_mem_nil
  | cons pattern patterns ih =>
    rw [List.forall_mem_cons]
    cases patterns with
    | nil => exact (and_iff_left fun _ h => absurd h List.not_mem_nil).symm
    | cons other patterns =>
      rw [Text.joinWith, onOneLine_append, onOneLine_append, and_iff_left hbar]
      exact and_congr_right fun _ => ih

theorem onOneLine_alternatives :
    OnOneLine (alternatives patterns) ↔ ∀ pattern ∈ patterns, OnOneLine pattern := by
  rw [alternatives.eq_def]
  split
  · simp
  · have hopen : isLineEnd '(' = false := by decide
    have hclose : OnOneLine [')'] := by decide
    rw [onOneLine_cons, onOneLine_append, onOneLine_joinWith, and_iff_left hclose,
      and_iff_right hopen]

/-! ### The pattern of a collection -/

/-- The collection of the other model lies below that of the model. -/
structure Nested (m : Module) (model other : Model) : Prop where
  /-- The models are different. -/
  apart : other.name ≠ model.name
  /-- The route of the one begins with that of the other and a slash. -/
  below : (m.basePath model).toList ++ ['/'] <+: (m.basePath other).toList

instance (m : Module) (model other : Model) : Decidable (Nested m model other) :=
  decidable_of_iff (other.name ≠ model.name ∧
      (m.basePath model).toList ++ ['/'] <+: (m.basePath other).toList)
    ⟨fun h => ⟨h.1, h.2⟩, fun h => ⟨h.apart, h.below⟩⟩

theorem mem_nestedRoutes : text ∈ nestedRoutes m model ↔
    ∃ other ∈ m.models, Nested m model other ∧
      (m.basePath other).toList = (m.basePath model).toList ++ '/' :: text := by
  simp only [nestedRoutes, List.mem_filterMap, List.mem_map, List.mem_filter, bne_iff_ne]
  constructor
  · rintro ⟨_, ⟨other, ⟨hother, hapart⟩, rfl⟩, hpath⟩
    split at hpath
    · next hbelow =>
      obtain ⟨rest, hrest⟩ := List.isPrefixOf_iff_prefix.1 hbelow
      rw [← hrest, List.drop_left, Option.some.injEq] at hpath
      refine ⟨other, hother, ⟨hapart, ⟨rest, hrest⟩⟩, ?_⟩
      rw [← hrest, hpath, List.append_assoc, List.singleton_append]
    · cases hpath
  · rintro ⟨other, hother, hnested, hpath⟩
    have hrest : (m.basePath other).toList = (m.basePath model).toList ++ ['/'] ++ text := by
      rw [hpath, List.append_assoc, List.singleton_append]
    refine ⟨_, ⟨other, ⟨hother, hnested.apart⟩, rfl⟩, ?_⟩
    rw [if_pos (List.isPrefixOf_iff_prefix.2 hnested.below), hrest, List.drop_left]

theorem nestedPattern_eq_none_iff :
    nestedPattern m model = none ↔ ∀ other ∈ m.models, ¬Nested m model other := by
  have hempty : nestedPattern m model = none ↔ ∀ text, text ∉ nestedRoutes m model := by
    rw [nestedPattern, ← List.eq_nil_iff_forall_not_mem]
    cases nestedRoutes m model <;> simp
  rw [hempty]
  constructor
  · intro h other hother hnested
    obtain ⟨rest, hrest⟩ := hnested.below
    refine h rest (mem_nestedRoutes.2 ⟨other, hother, hnested, ?_⟩)
    rw [← hrest, List.append_assoc, List.singleton_append]
  · intro h text htext
    obtain ⟨other, hother, hnested, -⟩ := mem_nestedRoutes.1 htext
    exact h other hother hnested

/-- The route of a collection and what lies behind it in the routes below it are on one line
exactly if these routes are. -/
theorem onOneLine_nested_iff (h : nestedRoutes m model ≠ []) :
    (OnOneLine (m.basePath model).toList ∧ ∀ text ∈ nestedRoutes m model, OnOneLine text) ↔
      ∀ other ∈ m.models, Nested m model other → OnOneLine (m.basePath other).toList := by
  have hslash : isLineEnd '/' = false := by decide
  constructor
  · rintro ⟨hbase, hbelow⟩ other hother hnested
    obtain ⟨rest, hrest⟩ := hnested.below
    have hpath : (m.basePath other).toList = (m.basePath model).toList ++ '/' :: rest := by
      rw [← hrest, List.append_assoc, List.singleton_append]
    rw [hpath, onOneLine_append, onOneLine_cons]
    exact ⟨hbase, hslash, hbelow rest (mem_nestedRoutes.2 ⟨other, hother, hnested, hpath⟩)⟩
  · intro hall
    have hparts : ∀ text ∈ nestedRoutes m model,
        OnOneLine (m.basePath model).toList ∧ OnOneLine text := by
      intro text htext
      obtain ⟨other, hother, hnested, hpath⟩ := mem_nestedRoutes.1 htext
      have hline := hall other hother hnested
      rw [hpath, onOneLine_append, onOneLine_cons] at hline
      exact ⟨hline.1, hline.2.2⟩
    obtain ⟨text, htext⟩ := List.exists_mem_of_ne_nil _ h
    exact ⟨(hparts text htext).1, fun text htext => (hparts text htext).2⟩

/-- **The pattern of nested collections is written as it is, and it can be written exactly if none
of their routes spans lines.** -/
theorem nestedPattern_problem?_iff {pattern : String} (h : nestedPattern m model = some pattern) :
    escapeSlashes pattern = pattern ∧ (problem? pattern "" = none ↔
      ∀ other ∈ m.models, Nested m model other → OnOneLine (m.basePath other).toList) := by
  rw [nestedPattern] at h
  split at h
  · cases h
  · next hsome =>
    obtain ⟨body, hbody⟩ : ∃ body, body = literalPattern (m.basePath model).toList ++ ['\\', '/']
      ++ alternatives ((nestedRoutes m model).map literalPattern) := ⟨_, rfl⟩
    have hpattern : pattern.toList = '^' :: body := by
      rw [← Option.some.inj h, String.toList_ofList, hbody]
    have hbalanced : Balanced pattern.toList := by
      rw [hpattern, hbody]
      refine (Balanced.singleton (by decide)).append (((balanced_literalPattern _).append
        (Balanced.escaped '/')).append (balanced_alternatives ?_))
      intro _ hpart
      obtain ⟨text, -, rfl⟩ := List.mem_map.1 hpart
      exact balanced_literalPattern text
    have hline : OnOneLine pattern.toList ↔ OnOneLine (m.basePath model).toList ∧
        ∀ text ∈ nestedRoutes m model, OnOneLine text := by
      have hfront : isLineEnd '^' = false := by decide
      have hslash : OnOneLine ['\\', '/'] := by decide
      rw [hpattern, hbody, onOneLine_cons, and_iff_right hfront, onOneLine_append,
        onOneLine_append, and_iff_left hslash, onOneLine_literalPattern, onOneLine_alternatives,
        List.forall_mem_map]
      simp only [onOneLine_literalPattern]
    refine ⟨hbalanced.escapeSlashes, ?_⟩
    rw [hbalanced.problem?_eq_none_iff (c := '^') (by rw [hpattern]; rfl) (by decide), hline]
    exact onOneLine_nested_iff fun hnil => hsome (List.isEmpty_iff.2 hnil)

end Declarations

end ModuleScaffold
