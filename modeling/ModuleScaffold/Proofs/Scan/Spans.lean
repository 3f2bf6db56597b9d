import ModuleScaffold.Proofs.Order.Comments
import ModuleScaffold.Proofs.Reading.Statements
import ModuleScaffold.Proofs.Scan.Names

/-!
# Where statements stand

A statement stands where its first token is read, up to what remains behind its last one. So what is
kept of a statement is its text as it stands in the source, and every rule that reads a statement
says so (`ModuleScaffold.Source.Spans`).

The comments that are kept above a statement are comments: they are closed, or stand on lines of
their own.

Main statements:

* `ModuleScaffold.Source.spans_statement` – **a statement stands from its first token on**;
* `ModuleScaffold.Source.span_of_isDeclaration` – the same for the declarations of a source;
* `ModuleScaffold.Source.exists_commentary` – **what is kept above a statement is commentary**.
-/

namespace ModuleScaffold

namespace Source

open Store (IsCommentary)

variable {r : Reader} {start rest cs : Chars}

/-! ### Fragments of statements -/

/-- Whether an item is a comment. -/
def Item.isComment : Item → Bool
  | comment _ => true
  | _ => false

/-- A statement stands from the given place up to what remains, and is no comment. -/
structure Stands (start : Chars) (x : Item × Chars) : Prop where
  /-- The fragment of the statement. -/
  fragment : x.1.fragment = ⟨start, x.2⟩
  /-- The statement is no comment. -/
  isComment : x.1.isComment = false

/-- If a rule reads a statement, it stands from the given place up to what remains. -/
def Spans (start : Chars) (o : Option (Item × Chars)) : Prop :=
  ∀ x ∈ o, Stands start x

theorem spans_none : Spans start none :=
  fun _ h => nomatch h

theorem spans_some {x : Item × Chars} (h : Stands start x) : Spans start (some x) := by
  intro y hy
  obtain rfl := Option.some.inj hy
  exact h

theorem spans_bind {α : Type} {o : Option α} {f : α → Option (Item × Chars)}
    (h : ∀ a, Spans start (f a)) : Spans start (o.bind f) := by
  cases o with
  | none => exact spans_none
  | some a => exact h a

theorem spans_or {o p : Option (Item × Chars)} (ho : Spans start o) (hp : Spans start p) :
    Spans start (o.or p) := by
  cases o with
  | none => exact hp
  | some x => exact ho

theorem spans_map {α : Type} (o : Option α) {f : α → Item × Chars}
    (h : ∀ a, Stands start (f a)) : Spans start (o.map f) := by
  cases o with
  | none => exact spans_none
  | some a => exact spans_some (h a)

theorem spans_otherTo (o : Option Chars) : Spans start (o.map (otherTo start)) :=
  spans_map o fun _ => ⟨rfl, rfl⟩

theorem spans_importStatement : Spans start (importStatement r start rest) := by
  unfold importStatement
  dsimp only
  split
  · exact spans_map _ fun _ => ⟨rfl, rfl⟩
  · exact spans_otherTo _

theorem spans_declaring {exported : Bool} : Spans start (declaring r exported start rest) :=
  spans_bind fun _ => spans_bind fun _ => spans_some ⟨rfl, rfl⟩

theorem spans_exportedValue : Spans start (exportedValue r start rest) :=
  spans_bind fun _ => spans_bind fun _ => spans_some ⟨rfl, rfl⟩

theorem spans_expressionStatement : Spans start (expressionStatement r start) :=
  spans_bind fun _ => spans_bind fun _ => spans_some ⟨rfl, rfl⟩

theorem spans_exportDefault : Spans start (exportDefault r start rest) :=
  spans_or (spans_otherTo _) spans_exportedValue

theorem spans_exportStatement : Spans start (exportStatement r start rest) := by
  unfold exportStatement
  split
  · exact spans_exportedValue
  · split
    · exact spans_some ⟨rfl, rfl⟩
    · split
      · exact spans_none
      · dsimp only
        split
        · exact spans_exportDefault
        · split
          · exact spans_some ⟨rfl, rfl⟩
          · split
            · exact spans_declaring
            · exact spans_none

theorem spans_wordStatement {text : String} : Spans start (wordStatement r start text rest) := by
  unfold wordStatement
  split
  · exact spans_or spans_importStatement spans_expressionStatement
  · split
    · exact spans_exportStatement
    · split
      · exact spans_otherTo _
      · split
        · exact spans_some ⟨rfl, rfl⟩
        · split
          · exact spans_none
          · split
            · refine spans_or spans_declaring ?_
              split
              · exact spans_expressionStatement
              · exact spans_none
            · exact spans_or (spans_otherTo _) spans_expressionStatement

/-- **A statement stands from its first token on.** -/
theorem spans_statement : Spans (skip cs) (statement r cs) := by
  unfold statement
  dsimp only
  split
  · exact spans_none
  · next hskip => exact spans_some ⟨by rw [hskip]; rfl, rfl⟩
  · exact spans_map _ fun _ => ⟨rfl, rfl⟩
  · split
    · exact spans_wordStatement
    · exact spans_none
  · split
    · exact spans_wordStatement
    · exact spans_expressionStatement

/-! ### Declarations among the items of a source -/

/-- Whether an item is a declaration, or another statement, that follows the grammar. -/
def Item.isDeclaration : Item → Bool
  | declaring _ sound _ _ => sound
  | other _ => true
  | _ => false

/-- What does not follow the grammar is neither a declaration nor a comment. -/
theorem damagedStatement_cases (r : Reader) (start : Chars) :
    (damagedStatement r start).1.isDeclaration = false ∧
      (damagedStatement r start).1.isComment = false := by
  unfold damagedStatement
  split
  · next found hexport =>
    rw [damagedExport] at hexport
    simp only [Option.bind_eq_bind, Option.bind_eq_some_iff] at hexport
    obtain ⟨_, -, _, -, _, -, _, -, _, -, _, -, hfound⟩ := hexport
    cases hfound
    exact ⟨rfl, rfl⟩
  · split
    · exact ⟨rfl, rfl⟩
    · next stop hstop =>
      dsimp only
      split
      · exact ⟨rfl, rfl⟩
      · split
        · next behind hkeyword =>
          cases hvariable : damagedVariable (keyword "export" start).isSome start behind stop with
          | none => exact ⟨rfl, rfl⟩
          | some found =>
            simp only [damagedVariable, Option.bind_eq_bind, Option.bind_eq_some_iff] at hvariable
            obtain ⟨_, -, _, -, hfound⟩ := hvariable
            cases hfound
            exact ⟨rfl, rfl⟩
        · exact ⟨rfl, rfl⟩

/-- What an item of a source is. -/
inductive Arises (r : Reader) (found : Item) : Prop
  /-- A comment. -/
  | comment {cs rest : Chars} : comment? cs = some rest → found = .comment ⟨cs, rest⟩ →
      Arises r found
  /-- A statement. -/
  | statement {cs rest : Chars} : Source.statement r cs = some (found, rest) → Arises r found
  /-- A statement that does not follow the grammar. -/
  | damaged {cs : Chars} : found = (damagedStatement r cs).1 → Arises r found

theorem arises_of_mem_itemsFrom {found : Item} {fuel : ℕ} (h : found ∈ itemsFrom r fuel cs) :
    Arises r found := by
  induction fuel generalizing cs with
  | zero => cases h
  | succ fuel ih =>
    rw [itemsFrom] at h
    split at h
    · cases h
    · next c rest _ =>
      split at h
      · next behind hcomment =>
        rcases List.mem_cons.1 h with rfl | h
        · exact .comment hcomment rfl
        · exact ih h
      · split at h
        · next hstatement =>
          rcases List.mem_cons.1 h with rfl | h
          · exact .statement hstatement
          · exact ih h
        · have hcases : found = (damagedStatement r (c :: rest)).1 ∨
              found ∈ itemsFrom r fuel (damagedStatement r (c :: rest)).2 := List.mem_cons.1 h
          rcases hcases with rfl | h
          · exact .damaged rfl
          · exact ih h

/-- The items of a source; the first line may name an interpreter. -/
theorem arises_of_mem_items {source : Chars} {found : Item} (h : found ∈ items source) :
    Arises (reader (source.length + 1)) found ∨ ∃ front behind,
      source = '#' :: '!' :: (front ++ behind) ∧ found = .other ⟨source, behind⟩ := by
  unfold items at h
  dsimp only at h
  split at h
  · next rest =>
    rcases List.mem_cons.1 h with rfl | h
    · exact .inr ⟨_, _, by rw [List.takeWhile_append_dropWhile], rfl⟩
    · exact .inl (arises_of_mem_itemsFrom h)
  · exact .inl (arises_of_mem_itemsFrom h)

theorem statement_skip (r : Reader) (cs : Chars) : statement r (skip cs) = statement r cs := by
  unfold statement
  rw [skip_skip]

/-- **A declaration stands from its first token on**, and what remains at its end remains of what
remained at its start. -/
theorem span_of_isDeclaration {source : Chars} {found : Item} (h : found ∈ items source)
    (hfound : found.isDeclaration = true) : skip found.fragment.start = found.fragment.start ∧
      ∃ front, found.fragment.start = front ++ found.fragment.stop := by
  -- a comment, a statement, one that does not follow the grammar, or the first line
  rcases arises_of_mem_items h with
    (⟨-, rfl⟩ | @⟨cs, rest, hstatement⟩ | rfl) | ⟨front, behind, hsource, rfl⟩
  · cases hfound
  · rw [(spans_statement _ hstatement).fragment]
    refine ⟨skip_skip cs, ?_⟩
    rw [← statement_skip] at hstatement
    obtain ⟨front, hfront, -⟩ := goes_statement (steady_reader _) _ _ hstatement
    exact ⟨front, hfront⟩
  · rw [(damagedStatement_cases _ _).1] at hfound
    cases hfound
  · refine ⟨?_, '#' :: '!' :: front, hsource⟩
    rw [hsource]
    exact skip_cons (by decide) (by decide)

/-! ### Comments above a statement -/

/-- The text of a comment. -/
def IsComment (text : Chars) : Prop :=
  ∃ cs rest, comment? cs = some rest ∧ text = upTo cs rest

/-- A comment on lines of its own is commentary. -/
theorem IsComment.isCommentary {text above : Chars} (h : IsComment text)
    (habove : IsCommentary above) : IsCommentary (text ++ '\n' :: above) := by
  obtain ⟨cs, rest, hcomment, rfl⟩ := h
  unfold comment? at hcomment
  split at hcomment
  · next cs =>
    obtain rfl := Option.some.inj hcomment
    have hline : '\n' ∉ cs.takeWhile (! endsLine ·) := fun hmem => by
      have hkept := List.mem_takeWhile_imp hmem
      exact absurd hkept (by decide)
    have hsplit : '/' :: '/' :: cs = ('/' :: '/' :: cs.takeWhile (! endsLine ·)) ++
        cs.dropWhile (! endsLine ·) := by
      rw [List.cons_append, List.cons_append, List.takeWhile_append_dropWhile]
    rw [hsplit, upTo_append]
    exact .line hline habove
  · next cs =>
    obtain ⟨text, rfl, htext⟩ := exists_of_closing hcomment
    have hsplit : '/' :: '*' :: (text ++ '*' :: '/' :: rest) =
        ('/' :: '*' :: (text ++ ['*', '/'])) ++ rest := by simp
    have hblock : '/' :: '*' :: (text ++ ['*', '/']) ++ '\n' :: above =
        '/' :: '*' :: (text ++ '*' :: '/' :: '\n' :: above) := by simp
    rw [hsplit, upTo_append, hblock]
    exact .block htext (.blank (by decide) habove)
  · cases hcomment

/-- **The comments among the items of a source are comments.** -/
theorem isComment_of_mem_items {source : Chars} {f : Fragment} (h : .comment f ∈ items source) :
    IsComment f.chars := by
  rcases arises_of_mem_items h with
    (⟨hcomment, heq⟩ | hstatement | @⟨start, hdamaged⟩) | ⟨_, _, -, heq⟩
  · cases heq
    exact ⟨_, _, hcomment, rfl⟩
  · exact nomatch (spans_statement _ hstatement).isComment
  · have hnone := (damagedStatement_cases (reader (source.length + 1)) start).2
    rw [← hdamaged] at hnone
    cases hnone
  · cases heq

/-- **What is kept above a statement is commentary.** -/
theorem exists_commentary {comments : List Chars} (h : ∀ text ∈ comments, IsComment text)
    (chars : Chars) : ∃ above, IsCommentary above ∧
      Text.joinWith ['\n'] (comments ++ [chars]) = above ++ chars := by
  induction comments with
  | nil => exact ⟨[], .nil, rfl⟩
  | cons text comments ih =>
    obtain ⟨htext, hcomments⟩ := List.forall_mem_cons.1 h
    obtain ⟨above, habove, hjoined⟩ := ih hcomments
    refine ⟨text ++ '\n' :: above, htext.isCommentary habove, ?_⟩
    have hcons : Text.joinWith ['\n'] (text :: (comments ++ [chars])) =
        text ++ ['\n'] ++ Text.joinWith ['\n'] (comments ++ [chars]) := by
      cases comments <;> rfl
    rw [List.cons_append, hcons, hjoined]
    simp

theorem comments_add (reading : Reading) (found : Item) :
    (reading.add found).comments = found.commentsBehind reading.comments := by
  unfold Reading.add
  split
  · rw [Reading.addComment, Item.commentsBehind]
    split <;> rfl
  · next hstatement =>
    rw [Item.commentsBehind]
    exact hstatement

/-- **The comments that are remembered are comments of the source.** -/
theorem isComment_of_mem_comments {found : List Item}
    (h : ∀ f, .comment f ∈ found → IsComment f.chars) :
    ∀ text ∈ (found.foldl Reading.add {}).comments, IsComment text := by
  induction found using List.reverseRecOn with
  | nil => exact fun _ htext => absurd htext List.not_mem_nil
  | append_singleton found last ih =>
    have hfound := ih fun f hf => h f (List.mem_append_left _ hf)
    -- a comment is put behind those in front of it, and anything else forgets them
    rw [List.foldl_append, List.foldl_cons, List.foldl_nil, comments_add]
    unfold Item.commentsBehind
    split
    · next f =>
      split
      · exact hfound
      · intro text htext
        rcases List.mem_append.1 htext with htext | htext
        · exact hfound text htext
        · obtain rfl := List.mem_singleton.1 htext
          exact h f (List.mem_append_right _ (List.mem_singleton_self _))
    · exact fun _ htext => absurd htext List.not_mem_nil

end Source

end ModuleScaffold
