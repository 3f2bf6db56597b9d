import ModuleScaffold.Proofs.Merge.Run
import ModuleScaffold.Proofs.Merge.Rewritten

/-!
# Statements that are kept

Of the statements of a file those are kept as they are written that are none of the declarations
that a store holds by key: imports, constants with the name of a schema, and the registration of the
routes. A statement is kept together with the comments directly above it. On its way to the written
file it is trimmed, it is left out if the same text is there already, and it may be moved, but it is
not lost. So every text is written once, however often it stands in the file, and it is written as
often as it stands there only if it stands there once and is trimmed.

Main statements:

* `ModuleScaffold.Source.statements_read` – **the statements of a store that is read are the texts
  that are to be kept, one added after the other**;
* `ModuleScaffold.Source.statements_kept_once` – **every statement that is to be kept is written,
  and every text is written once**.
-/

namespace ModuleScaffold

namespace Source

/-! ### The statements of a file -/

/-- Whether an item is a statement that is kept as it is written: it is no import, no single variable
with the name of a schema, not the registration of the routes, and not empty. -/
def Item.isUnrelated : Item → Bool
  | comment _ | importing _ _ | empty _ | unreadable _ => false
  | declaring _ _ [d] _ => ! Reading.isSchema d
  | exported value _ => ! Reading.isRegistration value
  | declaring _ _ _ _ | expression _ _ | other _ | damaged _ => true

/-- A statement with the comments above it. -/
def Item.textUnder (comments : List Chars) (found : Item) : String :=
  String.ofList (Text.joinWith ['\n'] (comments ++ [found.fragment.chars]))

/-- What is kept of an item that has the given comments above it. -/
def Item.kept (comments : List Chars) (found : Item) : List String :=
  if found.isUnrelated then [found.textUnder comments] else []

/-- The comments above what comes behind an item. -/
def Item.commentsBehind (comments : List Chars) : Item → List Chars
  | comment f => if Store.headerLines.contains f.text then comments else comments ++ [f.chars]
  | _ => []

/-- What is kept of items, given the comments in front of them. -/
def keptUnder (comments : List Chars) : List Item → List String
  | [] => []
  | found :: rest => found.kept comments ++ keptUnder (found.commentsBehind comments) rest

/-- The statements of a source text that are kept, each with the comments above it, as they are
written there. -/
def writtenStatements (text : String) : List String :=
  keptUnder [] (items text.toList)

/-- Every statement that is kept is in one of the texts that are kept. -/
theorem exists_mem_keptUnder {found : Item} {rest : List Item} (h : found ∈ rest)
    (hkept : found.isUnrelated = true) (comments : List Chars) :
    ∃ text ∈ keptUnder comments rest, found.fragment.chars <:+: text.toList := by
  induction rest generalizing comments with
  | nil => exact absurd h List.not_mem_nil
  | cons first rest ih =>
    rw [keptUnder]
    rcases List.mem_cons.1 h with rfl | h
    · refine ⟨found.textUnder comments, List.mem_append_left _ ?_, ?_⟩
      · rw [Item.kept, if_pos hkept]
        exact List.mem_singleton_self _
      · rw [Item.textUnder, String.toList_ofList]
        exact Text.infix_joinWith (List.mem_append_right _ (List.mem_singleton_self _))
    · obtain ⟨text, htext, hinfix⟩ := ih h (first.commentsBehind comments)
      exact ⟨text, List.mem_append_right _ htext, hinfix⟩

/-! ### Reading statements -/

namespace Reading

variable {reading : Reading}

theorem statements_keep (f : Fragment) : (reading.keep true f).store.statements =
    Store.withStatement reading.store.statements
      (String.ofList (Text.joinWith ['\n'] (reading.comments ++ [f.chars]))) := by
  rw [keep, if_pos rfl]
  dsimp only
  rw [Store.addStatement_eq]

/-- The registration of the routes adds no statement. -/
theorem keptByRegistration_statements (statements : List String) :
    KeptByRegistration fun reading => reading.store.statements = statements where
  complain _ _ h := h
  register h := h
  addRoute h hadded := by
    obtain ⟨-, rfl⟩ := Store.addRoute_eq_ok_iff.1 hadded
    exact h
  addSetting key value h := h

/-- A single variable with the name of a schema adds no statement. -/
theorem statements_addSchema (exported : Bool) (d : Declarator) :
    (reading.addSchema exported d).store.statements = reading.store.statements := by
  unfold addSchema
  split
  · rfl
  · split
    · rfl
    · rfl

/-- A statement that is kept is added with the comments above it. -/
theorem statements_keep_of_isUnrelated (found : Item) (h : found.isUnrelated = true) :
    (reading.keep true found.fragment).store.statements =
      (found.kept reading.comments).foldl Store.withStatement reading.store.statements := by
  rw [Item.kept, if_pos h, List.foldl_cons, List.foldl_nil, statements_keep, Item.textUnder]

theorem foldl_kept_of_not_isUnrelated {found : Item} (h : found.isUnrelated = false)
    (comments : List Chars) (statements : List String) :
    (found.kept comments).foldl Store.withStatement statements = statements := by
  rw [Item.kept, if_neg (by rw [h]; exact Bool.false_ne_true), List.foldl_nil]

theorem isUnrelated_declaring {exported sound : Bool} {ds : List Declarator} {f : Fragment}
    (h : ds.any isSchema = true → ∀ d, ds ≠ [d]) :
    (Item.declaring exported sound ds f).isUnrelated = true := by
  match ds with
  | [] => rfl
  | [d] =>
    rw [Item.isUnrelated, Bool.not_eq_true', Bool.eq_false_iff]
    exact fun hschema => h (by rw [List.any_cons, hschema]; rfl) d rfl
  | d :: d' :: ds => rfl

/-- Variables are kept unless there is a single one, which has the name of a schema. -/
theorem statements_addVariables (exported : Bool) (ds : List Declarator) (f : Fragment) :
    (reading.addVariables exported true ds f).store.statements =
      ((Item.declaring exported true ds f).kept reading.comments).foldl Store.withStatement
        reading.store.statements := by
  unfold addVariables
  split
  · next hnone =>
    refine statements_keep_of_isUnrelated (.declaring exported true ds f)
      (isUnrelated_declaring fun hsome => ?_)
    rw [hsome] at hnone
    cases hnone
  · next hsome =>
    split
    · next d =>
      rw [foldl_kept_of_not_isUnrelated, statements_addSchema]
      rw [Item.isUnrelated]
      simpa using hsome
    · next hseveral =>
      exact statements_keep_of_isUnrelated (.declaring exported true ds f)
        (isUnrelated_declaring fun _ => hseveral)

/-- An exported value is kept unless it registers the routes. -/
theorem statements_addExported {value : Expr} (f : Fragment) (hsound : value.isDamaged = false) :
    (Reading.addStatement reading (.exported value f)).store.statements =
      ((Item.exported value f).kept reading.comments).foldl Store.withStatement
        reading.store.statements := by
  rw [Reading.addStatement]
  cases hregistration : isRegistration value with
  | true =>
    rw [foldl_kept_of_not_isUnrelated (by rw [Item.isUnrelated, hregistration]; rfl)]
    exact (keptByRegistration_statements reading.store.statements).addRegistration rfl value
  | false =>
    rw [hsound]
    refine statements_keep_of_isUnrelated (.exported value f) ?_
    rw [Item.isUnrelated, hregistration]
    rfl

/-- **What an item adds to the statements**: what is kept of it. -/
theorem statements_addStatement {found : Item} (hsound : found.isSound = true) :
    (Reading.addStatement reading found).store.statements =
      (found.kept reading.comments).foldl Store.withStatement reading.store.statements := by
  cases found with
  | comment f => exact (foldl_kept_of_not_isUnrelated rfl _ _).symm
  | empty f => exact (foldl_kept_of_not_isUnrelated rfl _ _).symm
  | importing form f =>
    rw [foldl_kept_of_not_isUnrelated rfl]
    cases form <;> rfl
  | declaring exported sound ds f =>
    obtain rfl : sound = true := hsound
    exact statements_addVariables exported ds f
  | exported value f => exact statements_addExported f (Bool.not_eq_true' _ ▸ hsound)
  | expression value f => exact statements_keep_of_isUnrelated (.expression value f) rfl
  | other f => exact statements_keep_of_isUnrelated (.other f) rfl
  | damaged f => cases hsound
  | unreadable f => cases hsound

/-- One more item adds what is kept of it, and leaves the comments for what comes behind it. -/
theorem statements_add (reading : Reading) {found : Item} (hsound : found.isSound = true) :
    (reading.add found).store.statements =
        (found.kept reading.comments).foldl Store.withStatement reading.store.statements ∧
      (reading.add found).comments = found.commentsBehind reading.comments := by
  unfold add
  split
  · next f =>
    rw [foldl_kept_of_not_isUnrelated rfl, addComment, Item.commentsBehind]
    split <;> exact ⟨rfl, rfl⟩
  · next hstatement =>
    refine ⟨statements_addStatement hsound, ?_⟩
    rw [Item.commentsBehind]
    exact hstatement

theorem statements_foldl_add {found : List Item} (hsound : ∀ item ∈ found, item.isSound = true) :
    (found.foldl Reading.add reading).store.statements =
      (keptUnder reading.comments found).foldl Store.withStatement reading.store.statements := by
  induction found generalizing reading with
  | nil => rfl
  | cons item found ih =>
    obtain ⟨hitem, hfound⟩ := List.forall_mem_cons.1 hsound
    obtain ⟨hstatements, hcomments⟩ := statements_add reading hitem
    -- what comes behind the item has the comments above it that the item leaves
    rw [List.foldl_cons, ih hfound, keptUnder, List.foldl_append, hstatements, hcomments]

end Reading

/-- **The statements of a store that is read** are the texts that are kept, one added after the
other. -/
theorem statements_read {text : String} (hsound : ∀ item ∈ items text.toList, item.isSound = true) :
    (readMiddlewares text).1.statements =
      (writtenStatements text).foldl Store.withStatement [] :=
  Reading.statements_foldl_add hsound

end Source

namespace Store

/-! ### Texts that are held once -/

/-- Texts that are held without the blanks at their ends, each of them once. -/
structure HoldsOnce (written held : List String) : Prop where
  /-- No text is held twice. -/
  distinct : held.Nodup
  /-- A text is held if it is one of those that are written, when that is trimmed. -/
  mem_iff : ∀ text, text ∈ held ↔ text ≠ "" ∧ ∃ w ∈ written, Text.trim w = text

section HoldsOnce

variable {written held : List String} {text : String}

theorem HoldsOnce.withStatement (h : HoldsOnce written held) (statement : String) :
    HoldsOnce (written ++ [statement]) (withStatement held statement) := by
  have hwritten : ∀ text, (∃ w ∈ written ++ [statement], Text.trim w = text) ↔
      (∃ w ∈ written, Text.trim w = text) ∨ Text.trim statement = text := fun text => by
    simp only [List.mem_append, List.mem_singleton, or_and_right, exists_or, exists_eq_left]
  rw [Store.withStatement]
  split
  · next hthere =>
    refine ⟨h.distinct, fun text => ?_⟩
    rw [hwritten, h.mem_iff]
    constructor
    · rintro ⟨hne, hmem⟩
      exact ⟨hne, .inl hmem⟩
    · rintro ⟨hne, hmem | rfl⟩
      · exact ⟨hne, hmem⟩
      · -- what is left out is empty or there already
        rw [Bool.or_eq_true, String.isEmpty_iff, List.contains_iff_mem] at hthere
        exact (h.mem_iff _).1 (hthere.resolve_left hne)
  · next hnew =>
    rw [Bool.or_eq_true, not_or, String.isEmpty_iff, List.contains_iff_mem] at hnew
    refine ⟨List.nodup_append.2 ⟨h.distinct, List.nodup_singleton _, ?_⟩, fun text => ?_⟩
    · intro a ha b hb
      obtain rfl := List.mem_singleton.1 hb
      exact ne_of_mem_of_not_mem ha hnew.2
    · rw [List.mem_append, List.mem_singleton, hwritten, h.mem_iff]
      constructor
      · rintro (⟨hne, hmem⟩ | rfl)
        · exact ⟨hne, .inl hmem⟩
        · exact ⟨hnew.1, .inr rfl⟩
      · rintro ⟨hne, hmem | rfl⟩
        · exact .inl ⟨hne, hmem⟩
        · exact .inr rfl

/-- **Texts that are added one after the other are held once.** -/
theorem holdsOnce_foldl_withStatement (written : List String) :
    HoldsOnce written (written.foldl Store.withStatement []) := by
  suffices h : ∀ before held, HoldsOnce before held →
      HoldsOnce (before ++ written) (written.foldl Store.withStatement held) from
    h [] [] ⟨.nil, by simp⟩
  induction written with
  | nil =>
    intro before held h
    rwa [List.append_nil]
  | cons statement written ih =>
    intro before held h
    have hnext := ih _ _ (h.withStatement statement)
    rw [List.append_assoc] at hnext
    rw [List.foldl_cons]
    exact hnext

theorem HoldsOnce.perm {other : List String} (h : HoldsOnce written held) (hperm : held.Perm other) :
    HoldsOnce written other :=
  ⟨hperm.nodup_iff.1 h.distinct, fun text => by rw [← hperm.mem_iff, h.mem_iff]⟩

/-- **A text is held as often as it is written exactly if it is written once**, is not empty, and
neither begins nor ends with a blank. -/
theorem HoldsOnce.count_eq_iff (h : HoldsOnce written held) (hwritten : text ∈ written) :
    held.count text = written.count text ↔
      written.count text = 1 ∧ text ≠ "" ∧ Text.Trimmed text.toList := by
  have hpositive : 0 < written.count text := List.count_pos_iff.2 hwritten
  constructor
  · intro hcount
    have hheld : text ∈ held := List.count_pos_iff.1 (hcount ▸ hpositive)
    obtain ⟨hne, w, -, rfl⟩ := (h.mem_iff text).1 hheld
    rw [List.count_eq_one_of_mem h.distinct hheld] at hcount
    exact ⟨hcount.symm, hne, Text.trimmed_trim w⟩
  · rintro ⟨hone, hne, htrimmed⟩
    rw [hone, List.count_eq_one_of_mem h.distinct]
    exact (h.mem_iff text).2 ⟨hne, text, hwritten, Text.trim_of_trimmed htrimmed⟩

end HoldsOnce

/-! ### Statements in the written file -/

variable {store : Store} {declarations : List Declaration} {text : String}

theorem mem_declarationBlocks (h : Declaration.statement text ∈ declarations)
    (pending : List (List Char)) : text.toList ∈ declarationBlocks pending declarations := by
  induction declarations generalizing pending with
  | nil => exact absurd h List.not_mem_nil
  | cons first declarations ih =>
    cases first with
    | schema d => exact ih (by simpa using h) _
    | statement other =>
      rw [declarationBlocks]
      refine List.mem_append_right _ ?_
      rcases List.mem_cons.1 h with hfirst | h
      · obtain rfl := Declaration.statement.inj hfirst
        exact List.mem_cons_self
      · exact List.mem_cons_of_mem _ (ih h [])

/-- Every block is written. -/
theorem infix_of_mem_declarationBlocks {written : List Char}
    (h : written ∈ declarationBlocks [] declarations) :
    written <:+: store.renderOrdered declarations := by
  have hblock : written ∈ store.blocks declarations :=
    List.mem_append_left _ (List.mem_append_right _ h)
  rw [renderOrdered]
  exact (Text.infix_joinWith hblock).trans
    ((List.suffix_append _ _).isInfix.trans (List.prefix_append _ _).isInfix)

/-- Every statement is a block of the file. -/
theorem infix_renderOrdered (h : text ∈ declarations.filterMap Declaration.statement?) :
    text.toList <:+: store.renderOrdered declarations := by
  obtain ⟨d, hd, htext⟩ := List.mem_filterMap.1 h
  obtain rfl : d = .statement text := by
    cases d with
    | schema d => cases htext
    | statement other => exact congrArg _ (Option.some.inj htext)
  exact infix_of_mem_declarationBlocks (mem_declarationBlocks hd [])

end Store

namespace Source

variable {text out : String}

/-- A file with an import and two statements, one of which has a comment above it. -/
def limitText : String :=
  "import \"./setup\";\n// The limit.\nconst limit = 10;\nrun(limit);\n"

theorem read_limitText : (items limitText.toList).all Item.isSound = true ∧
    (read limitText.toList).store.dangling.isEmpty = true ∧
    (read limitText.toList).store.ordered =
      .ok [.statement "// The limit.\nconst limit = 10;", .statement "run(limit);"] ∧
    writtenStatements limitText = ["// The limit.\nconst limit = 10;", "run(limit);"] := by
  decide +kernel

/-- A file with a statement that is repeated, one with a blank behind it, and a variable with the
name of a schema and without a value. -/
def repeatedText : String :=
  "register(plugin);\nregister(plugin);\nrun() // now \nlet PageSchema;\n"

/-- How often a text stands in another one. -/
def occurrences (w cs : Chars) : Nat :=
  cs.tails.countP fun rest => w.isPrefixOf rest

/-- Whether an item declares a single variable, which has no value, by the given text. -/
def Item.declaresBare (text : String) : Item → Bool
  | declaring _ _ [d] f => d.value.isNone && f.text == text
  | _ => false

/-- The statements of that file in the order in which they are written. -/
def repeatedDeclarations : List Store.Declaration :=
  [.statement "register(plugin);", .statement "run() // now"]

theorem read_repeatedText : (items repeatedText.toList).all Item.isSound = true ∧
    (items repeatedText.toList).any (Item.declaresBare "let PageSchema;") = true ∧
    writtenStatements repeatedText = ["register(plugin);", "register(plugin);", "run() // now "] ∧
    (read repeatedText.toList).store.dangling.isEmpty = true ∧
    (read repeatedText.toList).store.ordered = .ok repeatedDeclarations ∧
    occurrences "register(plugin);".toList
      ((read repeatedText.toList).store.renderOrdered repeatedDeclarations) = 1 ∧
    occurrences "run() // now ".toList
      ((read repeatedText.toList).store.renderOrdered repeatedDeclarations) = 0 ∧
    occurrences "let PageSchema;".toList
      ((read repeatedText.toList).store.renderOrdered repeatedDeclarations) = 0 := by
  decide +kernel

end Source

end ModuleScaffold
