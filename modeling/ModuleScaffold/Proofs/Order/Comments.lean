import ModuleScaffold.Proofs.Order.Declarations
import ModuleScaffold.Source.Middlewares

/-!
# Comments and the order of declarations

A statement is kept with the comments above it. What it declares is read behind the comments, so
the comments have no part in that; but the names that it reads are looked for in all of its text.
A comment that mentions a name therefore makes the statement wait for the declaration of that name,
as if its code used it, and two declarations can close a circle through a comment.

So the comments above a statement can be replaced without an effect exactly as long as the names of
the other declarations that its text mentions stay the same. A function reads nothing in its place,
and its comments never matter.

Main statements:

* `ModuleScaffold.Store.dropComments_append` – **what stands behind comments is found again,
  whatever the comments are**;
* `ModuleScaffold.Store.orderedAlike_of_reads` – the order depends on which declaration reads which,
  and on nothing else;
* `ModuleScaffold.Store.orderedAlike_above` – **comments matter through the names they mention**;
* `ModuleScaffold.Store.comment_closes_circle` – a comment that keeps declarations from being
  ordered.
-/

namespace ModuleScaffold

namespace Store

/-! ### Comments in front of a text -/

/-- What may stand above a statement: comments, each of them closed, and blanks between them. -/
inductive IsCommentary : List Char → Prop
  /-- Nothing. -/
  | nil : IsCommentary []
  /-- A blank. -/
  | blank {c : Char} {cs : List Char} : Text.isBlank c = true → IsCommentary cs →
      IsCommentary (c :: cs)
  /-- A comment that extends to the end of its line. -/
  | line {text cs : List Char} : '\n' ∉ text → IsCommentary cs →
      IsCommentary ('/' :: '/' :: (text ++ '\n' :: cs))
  /-- A comment that extends to its closing mark. -/
  | block {text cs : List Char} : ¬ ['*', '/'] <:+: text → IsCommentary cs →
      IsCommentary ('/' :: '*' :: (text ++ '*' :: '/' :: cs))

variable {above above' code closing cs : List Char}

theorem length_behindComment_le (closing cs : List Char) : (behindComment closing cs).length ≤ cs.length := by
  induction cs with
  | nil => exact Nat.le_refl _
  | cons c cs ih =>
    rw [behindComment]
    split
    · exact (List.drop_sublist _ _).length_le
    · exact ih.trans (Nat.le_succ _)

/-- A comment ends at the first mark that closes it. -/
theorem behindComment_append {text : List Char}
    (h : ∀ front back, text = front ++ back → back ≠ [] → ¬ closing <+: back ++ (closing ++ cs)) :
    behindComment closing (text ++ (closing ++ cs)) = cs := by
  induction text with
  | nil =>
    rw [List.nil_append]
    cases closing with
    | nil =>
      cases cs with
      | nil => rfl
      | cons c cs => rfl
    | cons d closing =>
      rw [List.cons_append, behindComment, if_pos, ← List.cons_append, List.drop_left]
      rw [List.isPrefixOf_iff_prefix, ← List.cons_append]
      exact List.prefix_append _ _
  | cons c text ih =>
    have hfirst : ¬ closing <+: c :: (text ++ (closing ++ cs)) :=
      h [] (c :: text) rfl (List.cons_ne_nil _ _)
    rw [List.cons_append, behindComment, if_neg (by rwa [List.isPrefixOf_iff_prefix])]
    refine ih fun front back hback hne => ?_
    exact h (c :: front) back (by rw [hback, List.cons_append]) hne

/-- With enough fuel, it does not matter how much there is. -/
theorem dropCommentsFrom_eq : ∀ {fuel fuel' : ℕ} {cs : List Char}, cs.length < fuel →
    cs.length < fuel' → dropCommentsFrom fuel cs = dropCommentsFrom fuel' cs := by
  intro fuel
  induction fuel with
  | zero =>
    intro fuel' cs h
    omega
  | succ fuel ih =>
    intro fuel' cs h h'
    obtain ⟨fuel', rfl⟩ := Nat.exists_eq_add_one.2 (show 0 < fuel' by omega)
    have hlength : (cs.dropWhile Text.isBlank).length ≤ cs.length :=
      (List.dropWhile_sublist _).length_le
    -- a comment is shorter behind its opening mark, whichever of the two it is
    have hnext : ∀ closing a b rest, cs.dropWhile Text.isBlank = a :: b :: rest →
        dropCommentsFrom fuel (behindComment closing rest) =
          dropCommentsFrom fuel' (behindComment closing rest) := by
      intro closing a b rest hrest
      have := length_behindComment_le closing rest
      rw [hrest, List.length_cons, List.length_cons] at hlength
      exact ih (by omega) (by omega)
    rw [dropCommentsFrom, dropCommentsFrom]
    split
    · next rest hrest => exact hnext _ _ _ rest hrest
    · next rest hrest => exact hnext _ _ _ rest hrest
    · rfl

theorem dropComments_cons {c : Char} (h : Text.isBlank c = true) :
    dropComments (c :: cs) = dropComments cs := by
  have hcons : dropCommentsFrom (cs.length + 2) (c :: cs) = dropCommentsFrom (cs.length + 2) cs := by
    simp only [dropCommentsFrom, List.dropWhile_cons_of_pos h]
  rw [dropComments, dropComments, List.length_cons, hcons]
  exact dropCommentsFrom_eq (by omega) (by omega)

theorem dropComments_line (cs : List Char) :
    dropComments ('/' :: '/' :: cs) = dropComments (behindComment ['\n'] cs) := by
  have hslash : Text.isBlank '/' = false := by decide
  have := length_behindComment_le ['\n'] cs
  rw [dropComments, dropCommentsFrom, List.dropWhile_cons_of_neg (by simp [hslash])]
  exact dropCommentsFrom_eq (by simp only [List.length_cons]; omega) (by omega)

theorem dropComments_block (cs : List Char) :
    dropComments ('/' :: '*' :: cs) = dropComments (behindComment ['*', '/'] cs) := by
  have hslash : Text.isBlank '/' = false := by decide
  have := length_behindComment_le ['*', '/'] cs
  rw [dropComments, dropCommentsFrom, List.dropWhile_cons_of_neg (by simp [hslash])]
  exact dropCommentsFrom_eq (by simp only [List.length_cons]; omega) (by omega)

/-- **What stands behind comments is found again**, whatever the comments are. -/
theorem dropComments_append (h : IsCommentary above) (code : List Char) :
    dropComments (above ++ code) = dropComments code := by
  induction h with
  | nil => rfl
  | blank hc _ ih => rw [List.cons_append, dropComments_cons hc, ih]
  | @line text cs htext _ ih =>
    have happend : '/' :: '/' :: (text ++ '\n' :: cs) ++ code =
        '/' :: '/' :: (text ++ (['\n'] ++ (cs ++ code))) := by simp
    rw [happend, dropComments_line, behindComment_append, ih]
    rintro front back rfl hne hlead
    rcases back with _ | ⟨d, back⟩
    · exact hne rfl
    · obtain rfl : '\n' = d := (List.cons_prefix_cons.1 hlead).1
      exact htext (List.mem_append_right _ List.mem_cons_self)
  | @block text cs htext _ ih =>
    have happend : '/' :: '*' :: (text ++ '*' :: '/' :: cs) ++ code =
        '/' :: '*' :: (text ++ (['*', '/'] ++ (cs ++ code))) := by simp
    rw [happend, dropComments_block, behindComment_append, ih]
    rintro front back rfl hne hlead
    rcases back with _ | ⟨d, _ | ⟨e, back⟩⟩
    · exact hne rfl
    · -- the last character of the text cannot take the slash of the mark
      have hmark := (List.cons_prefix_cons.1 hlead).2
      exact absurd (List.cons_prefix_cons.1 hmark).1 (by decide)
    · obtain ⟨rfl, hmark⟩ := List.cons_prefix_cons.1 hlead
      obtain rfl : '/' = e := (List.cons_prefix_cons.1 hmark).1
      exact htext ⟨front, back, by simp⟩

/-! ### The order depends on what is read -/

/-- Two stores are ordered alike: the declarations at the same places come in the same order, or
the same declarations close a circle. -/
def OrderedAlike (a b : Store) : Prop :=
  (∃ places, a.ordered = .ok (itemsAt a.nodes places) ∧ b.ordered = .ok (itemsAt b.nodes places)) ∨
    ∃ labels, a.ordered = .error labels ∧ b.ordered = .error labels

theorem dependencies_eq_filter (nodes : List Node) (i : ℕ) : dependencies nodes i =
    (List.range nodes.length).filter fun j => decide (j ∈ dependencies nodes i) := by
  cases hi : nodes[i]? with
  | none => simp [dependencies, hi]
  | some node =>
    have hmem : ∀ j ∈ List.range nodes.length,
        (decide (j ∈ dependencies nodes i)) =
          (j != i && ((nodes[j]?).map node.dependsOn).getD false) := by
      intro j hj
      rw [Bool.eq_iff_iff, decide_eq_true_eq, dependencies, hi]
      exact List.mem_filter.trans (and_iff_right hj)
    rw [List.filter_congr hmem, dependencies, hi]

/-- What is read decides which dependencies the walk follows. -/
theorem dependencies_congr {nodes nodes' : List Node} (hlength : nodes.length = nodes'.length)
    (h : ∀ i j, Reads nodes i j ↔ Reads nodes' i j) : dependencies nodes = dependencies nodes' := by
  funext i
  rw [dependencies_eq_filter nodes, dependencies_eq_filter nodes', hlength]
  refine List.filter_congr fun j _ => ?_
  rw [decide_eq_decide, mem_dependencies, mem_dependencies]
  exact h i j

/-- **The order depends on which declaration reads which**, and on nothing else. -/
theorem orderedAlike_of_reads {a b : Store} (hlength : a.nodes.length = b.nodes.length)
    (hlabels : ∀ i : ℕ, (a.nodes[i]?).map (·.label) = (b.nodes[i]?).map (·.label))
    (h : ∀ i j, Reads a.nodes i j ↔ Reads b.nodes i j) : OrderedAlike a b := by
  have hwalk : PostOrder.order (dependencies b.nodes) b.nodes.length =
      PostOrder.order (dependencies a.nodes) a.nodes.length := by
    rw [dependencies_congr hlength h, hlength]
  rcases ho : PostOrder.order (dependencies a.nodes) a.nodes.length with circle | places
  · refine .inr ⟨labelsAt a.nodes circle, ordered_of_order_error ho, ?_⟩
    rw [ordered_of_order_error (hwalk.trans ho), labelsAt, labelsAt]
    exact congrArg _ (List.filterMap_congr fun i _ => (hlabels i).symm)
  · exact .inl ⟨places, ordered_of_order_ok ho, ordered_of_order_ok (hwalk.trans ho)⟩

/-! ### Other comments above a statement -/

/-- The store with another text for the statement at a place. -/
def setStatement (store : Store) (place : ℕ) (text : String) : Store :=
  { store with statements := store.statements.set place text }

theorem nodes_setStatement (store : Store) (place : ℕ) (text : String) :
    (store.setStatement place text).nodes =
      store.nodes.set (store.definitions.length + place) (.ofStatement text) := by
  rw [nodes, nodes, setStatement, List.map_set, List.set_append_right _ _ (by simp),
    List.length_map, Nat.add_sub_cancel_left]

theorem getElem?_nodes_statement {store : Store} {place : ℕ} {text : String}
    (h : store.statements[place]? = some text) :
    store.nodes[store.definitions.length + place]? = some (.ofStatement text) := by
  rw [nodes, List.getElem?_append_right (by simp), List.length_map, Nat.add_sub_cancel_left,
    List.getElem?_map, h, Option.map_some]

section Above

variable (habove : IsCommentary above) (habove' : IsCommentary above')

include habove in
theorem declaredNames_above :
    declaredNames (String.ofList (above ++ code)) = declaredNames (String.ofList code) := by
  simp only [declaredNames, String.toList_ofList, dropComments_append habove]

include habove in
/-- The node of a statement with comments: its code says what it binds and whether it reads
anything in its place. -/
theorem ofStatement_above : Node.ofStatement (String.ofList (above ++ code)) =
    ⟨.statement (String.ofList (above ++ code)),
      if (declaredNames (String.ofList code)).isSome then String.ofList (above ++ code) else "",
      (declaredNames (String.ofList code)).getD []⟩ := by
  rw [Node.ofStatement, declaredNames_above habove]
  cases declaredNames (String.ofList code) <;> rfl

include habove habove' in
theorem label_above : (Node.ofStatement (String.ofList (above ++ code))).label =
    (Node.ofStatement (String.ofList (above' ++ code))).label := by
  rw [ofStatement_above habove, ofStatement_above habove']
  simp only [Node.label, String.toList_ofList, dropComments_append habove,
    dropComments_append habove']

/-- Nothing is mentioned in an empty text. -/
theorem mentions_empty (name : String) : Text.mentions "" name = false :=
  Bool.and_false _

variable {store : Store} {place : ℕ}
  (hplace : store.statements[place]? = some (String.ofList (above ++ code)))

include habove habove' hplace in
/-- What the declarations bind, and what the others read, is the same with other comments. -/
theorem reads_above_iff {i j : ℕ} (hi : i ≠ store.definitions.length + place) :
    Reads (store.setStatement place (String.ofList (above' ++ code))).nodes i j ↔
      Reads store.nodes i j := by
  have hnode := getElem?_nodes_statement hplace
  have hlt := (List.getElem?_eq_some_iff.1 hnode).1
  have hbindings : (Node.ofStatement (String.ofList (above' ++ code))).bindings =
      (Node.ofStatement (String.ofList (above ++ code))).bindings := by
    rw [ofStatement_above habove, ofStatement_above habove']
  rw [nodes_setStatement, Reads, Reads, List.getElem?_set_ne hi.symm]
  by_cases hj : j = store.definitions.length + place
  · subst hj
    simp only [List.getElem?_set_self hlt, hnode, Option.some.injEq, exists_and_left,
      exists_eq_left', hbindings]
  · rw [List.getElem?_set_ne (Ne.symm hj)]

omit habove in
include habove' hplace in
/-- What a statement reads: of the other declarations, those with a name that its text mentions. -/
theorem reads_above_self_iff {j : ℕ} :
    Reads (store.setStatement place (String.ofList (above' ++ code))).nodes
        (store.definitions.length + place) j ↔
      (declaredNames (String.ofList code)).isSome = true ∧ j ≠ store.definitions.length + place ∧
        ∃ node, store.nodes[j]? = some node ∧
          node.bindings.any (Text.mentions (String.ofList (above' ++ code))) = true := by
  have hlt := (List.getElem?_eq_some_iff.1 (getElem?_nodes_statement hplace)).1
  rw [nodes_setStatement, Reads]
  by_cases hj : j = store.definitions.length + place
  · simp [hj]
  · rw [List.getElem?_set_ne (Ne.symm hj)]
    simp only [List.getElem?_set_self hlt, Option.some.injEq, exists_and_left, exists_eq_left',
      ofStatement_above habove', List.any_eq_true]
    cases hnames : declaredNames (String.ofList code) with
    | none => simp [mentions_empty]
    | some names => simp [hj, Ne.symm hj]

/-- Two texts for the same place mention names of the same declarations at other places. -/
def MentionAlike (store : Store) (place : ℕ) (text text' : String) : Prop :=
  ∀ j ≠ place, ∀ node, store.nodes[j]? = some node →
    (node.bindings.any (Text.mentions text) = true ↔ node.bindings.any (Text.mentions text') = true)

include habove habove' hplace in
/-- Which comments leave alone what is read: all of them above a function, and otherwise those that
do not change which declarations the text mentions. -/
theorem reads_alike_iff :
    (∀ i j, Reads (store.setStatement place (String.ofList (above' ++ code))).nodes i j ↔
      Reads store.nodes i j) ↔
      declaredNames (String.ofList code) = none ∨
        store.MentionAlike (store.definitions.length + place) (String.ofList (above' ++ code))
          (String.ofList (above ++ code)) := by
  have hsame : store.setStatement place (String.ofList (above ++ code)) = store := by
    obtain ⟨hlt, hget⟩ := List.getElem?_eq_some_iff.1 hplace
    rw [setStatement, ← hget, List.set_getElem_self]
  have hnew : ∀ j, _ := fun j => reads_above_self_iff (j := j) habove' hplace
  have hold : ∀ j, _ := fun j => reads_above_self_iff (j := j) habove hplace
  rw [hsame] at hold
  constructor
  · intro h
    cases hnames : declaredNames (String.ofList code) with
    | none => exact .inl rfl
    | some names =>
      refine .inr fun j hj node hnode => ?_
      have hiff := (hnew j).symm.trans ((h _ j).trans (hold j))
      simpa [hnames, hj, hnode] using hiff
  · intro h i j
    by_cases hi : i = store.definitions.length + place
    · subst hi
      rw [hnew, hold]
      rcases h with hnone | halike
      · simp [hnone]
      · refine and_congr_right fun _ => and_congr_right fun hj => exists_congr fun node => ?_
        exact and_congr_right fun hnode => halike j hj node hnode
    · exact reads_above_iff habove habove' hplace hi

include habove habove' hplace in
/-- **Comments matter through the names they mention.** Other comments above a statement leave alone
which declaration reads which exactly if the statement is a function or its text still mentions
names of the same declarations; and then the declarations come in the same order, or the same
declarations close a circle. -/
theorem orderedAlike_above :
    ((∀ i j, Reads (store.setStatement place (String.ofList (above' ++ code))).nodes i j ↔
      Reads store.nodes i j) ↔
      declaredNames (String.ofList code) = none ∨
        store.MentionAlike (store.definitions.length + place) (String.ofList (above' ++ code))
          (String.ofList (above ++ code))) ∧
    (declaredNames (String.ofList code) = none ∨
        store.MentionAlike (store.definitions.length + place) (String.ofList (above' ++ code))
          (String.ofList (above ++ code)) →
      OrderedAlike store (store.setStatement place (String.ofList (above' ++ code)))) := by
  have hreads := reads_alike_iff habove habove' hplace
  refine ⟨hreads, fun h => orderedAlike_of_reads ?_ ?_ fun i j => (hreads.2 h i j).symm⟩
  · rw [nodes_setStatement, List.length_set]
  · intro i
    rw [nodes_setStatement]
    by_cases hi : store.definitions.length + place = i
    · subst hi
      have hnode := getElem?_nodes_statement hplace
      rw [List.getElem?_set_self (List.getElem?_eq_some_iff.1 hnode).1, hnode, Option.map_some,
        Option.map_some, label_above habove habove']
    · rw [List.getElem?_set_ne hi]

end Above

/-- A store with one constant and the statement that it reads, with a comment. -/
def commentedStore : Store :=
  { definitions := [⟨"ASchema", "[limit]", false⟩],
    statements := ["// The upper bound.\nconst limit = 1;"] }

/-- A comment that mentions nothing can go, and the constant still comes behind the statement. -/
theorem orderedAlike_commentedStore :
    OrderedAlike commentedStore (commentedStore.setStatement 0 "const limit = 1;") := by
  have htext : '\n' ∉ " The upper bound.".toList := by decide
  have habove : IsCommentary "// The upper bound.\n".toList := .line htext .nil
  have hplace : commentedStore.statements[0]? = some
      (String.ofList ("// The upper bound.\n".toList ++ "const limit = 1;".toList)) := by
    decide
  refine (orderedAlike_above habove .nil hplace).2 (.inr fun j hj node hnode => ?_)
  obtain rfl : j = 0 := by
    have hlt := (List.getElem?_eq_some_iff.1 hnode).1
    have hlength : commentedStore.nodes.length = 2 := rfl
    have hone : commentedStore.definitions.length + 0 = 1 := rfl
    omega
  obtain rfl : Node.ofDefinition ⟨"ASchema", "[limit]", false⟩ = node := Option.some.inj hnode
  decide +kernel

/-- The store of a text with a constant and, behind a comment that mentions it, the statement that
it reads. -/
def circledStore : Store :=
  (Source.readMiddlewares "const ASchema = [limit];\n// For ASchema.\nconst limit = 1;\n").1

/-- **A comment keeps declarations from being ordered**: it mentions the constant that reads the
statement below it. Without the comment they can be ordered. -/
theorem comment_closes_circle :
    IsCommentary "// For ASchema.\n".toList ∧
    circledStore.statements[0]? =
      some (String.ofList ("// For ASchema.\n".toList ++ "const limit = 1;".toList)) ∧
    circledStore.ordered = .error ["ASchema", "limit", "ASchema"] ∧
    (circledStore.setStatement 0 "const limit = 1;").ordered =
      .ok [.statement "const limit = 1;", .schema ⟨"ASchema", "[limit]", false⟩] := by
  have htext : '\n' ∉ " For ASchema.".toList := by decide
  refine ⟨.line htext .nil, ?_, ?_, ?_⟩ <;> decide +kernel

end Store

end ModuleScaffold
