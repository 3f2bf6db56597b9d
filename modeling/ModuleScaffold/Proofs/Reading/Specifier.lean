import ModuleScaffold.Proofs.Reading.Value
import ModuleScaffold.Proofs.Text.Spacing
import ModuleScaffold.Store.Import

/-!
# Specifiers that are read back

A specifier is written in words with spaces between them: a name, a name and the one that it is
given, the mark of a type in front of either, or a star for the whole source. A list of names takes
each of them up to a comma or the closing mark, whatever the words are: `type` and `as` are names as
well, so the rule tries four ways to take the words, and only the one that takes all of them reaches
the end (`ModuleScaffold.Source.Along`).

Main statements:

* `ModuleScaffold.Import.Specifier.collapse_text` – a specifier has no blanks but single spaces;
* `ModuleScaffold.Source.itemReads_specifier` – **a specifier in a list of names is read back**.
-/

namespace ModuleScaffold

namespace Import

/-- A specifier. -/
inductive Specifier
  /-- A name of the source, possibly renamed; with the mark, only a type. -/
  | named (typeOnly : Bool) (exported : List Char) (renamed : Option (List Char))
  /-- The whole source under a name. -/
  | whole (name : List Char)
  deriving DecidableEq, Repr

namespace Specifier

/-- The names in a specifier. -/
def names : Specifier → List (List Char)
  | named _ exported renamed => exported :: renamed.toList
  | whole name => [name]

/-- The words of a specifier, which may stand for a name. -/
def words : Specifier → List (List Char)
  | named typeOnly exported renamed =>
    (if typeOnly then ["type".toList] else []) ++ exported ::
      match renamed with
      | some name => ["as".toList, name]
      | none => []
  | whole name => [['*'], "as".toList, name]

/-- The text of a specifier. -/
def text (s : Specifier) : String :=
  String.ofList (Text.joinWith [' '] s.words)

theorem toList_text (s : Specifier) : s.text.toList = Text.joinWith [' '] s.words :=
  String.toList_ofList

/-- Whether the names in a specifier are identifiers. -/
def IsRegular (s : Specifier) : Prop :=
  ∀ w ∈ s.names, Text.isIdentifierChars w = true

variable {s : Specifier}

/-- An identifier has no blanks. -/
theorem isWord_of_isIdentifierChars {w : List Char} (h : Text.isIdentifierChars w = true) :
    Text.IsWord w where
  ne_nil := by
    rintro rfl
    cases h
  solid c hc := Text.isBlank_of_isWordPart (Text.isWordPart_of_isIdentifierChars h c hc)

/-- Every word of a specifier that takes a name from a list is an identifier. -/
theorem isIdentifierChars_of_mem_words {typeOnly : Bool} {exported : List Char}
    {renamed : Option (List Char)} (h : (named typeOnly exported renamed).IsRegular) :
    ∀ w ∈ (named typeOnly exported renamed).words, Text.isIdentifierChars w = true := by
  have htype : Text.isIdentifierChars "type".toList = true := by decide
  have has : Text.isIdentifierChars "as".toList = true := by decide
  have hexported := h exported (List.mem_cons_self ..)
  have hwords : ∀ w ∈ (exported :: (match renamed with
      | some name => ["as".toList, name]
      | none => [])), Text.isIdentifierChars w = true := by
    cases renamed with
    | none => exact List.forall_mem_cons.2 ⟨hexported, fun w hw => by cases hw⟩
    | some name =>
      have hname := h name (List.mem_cons_of_mem _ (List.mem_singleton.2 rfl))
      simp only [List.forall_mem_cons]
      exact ⟨hexported, has, hname, fun w hw => by cases hw⟩
  cases typeOnly with
  | false => exact hwords
  | true => exact List.forall_mem_cons.2 ⟨htype, hwords⟩

theorem isWord_of_mem_words (h : s.IsRegular) : ∀ w ∈ s.words, Text.IsWord w := by
  cases s with
  | named typeOnly exported renamed =>
    exact fun w hw => isWord_of_isIdentifierChars (isIdentifierChars_of_mem_words h w hw)
  | whole name =>
    have hstar : Text.IsWord ['*'] := ⟨List.cons_ne_nil _ _, fun c hc => by
      rw [List.mem_singleton.1 hc]
      decide⟩
    have has : Text.IsWord "as".toList := isWord_of_isIdentifierChars (by decide)
    have hname := isWord_of_isIdentifierChars (h name (List.mem_singleton.2 rfl))
    simp only [words, List.forall_mem_cons]
    exact ⟨hstar, has, hname, fun w hw => by cases hw⟩

theorem words_text (h : s.IsRegular) : Text.words s.text.toList = s.words := by
  rw [toList_text]
  exact Text.words_joinWith (isWord_of_mem_words h)

/-- A specifier has no blanks but single spaces. -/
theorem collapse_text (h : s.IsRegular) : Text.collapse s.text = s.text := by
  rw [Text.collapse, words_text h, text]

theorem text_ne_empty (h : s.IsRegular) : s.text.isEmpty = false := by
  have hne : s.words ≠ [] := by
    cases s with
    | named typeOnly exported renamed => cases typeOnly <;> exact List.cons_ne_nil _ _
    | whole name => exact List.cons_ne_nil _ _
  rw [Bool.eq_false_iff, Ne, String.isEmpty_iff]
  intro hempty
  have hwords := words_text h
  rw [hempty] at hwords
  exact hne hwords.symm

/-- The words of a specifier that takes a name from a list. -/
theorem exists_words_named {typeOnly : Bool} {exported : List Char} {renamed : Option (List Char)}
    (h : (named typeOnly exported renamed).IsRegular) :
    ∃ w ws, (named typeOnly exported renamed).words = w :: ws ∧
      ∀ v ∈ w :: ws, Text.isIdentifierChars v = true := by
  have hwords := isIdentifierChars_of_mem_words h
  cases hcons : (named typeOnly exported renamed).words with
  | nil => cases typeOnly <;> cases hcons
  | cons w ws =>
    rw [hcons] at hwords
    exact ⟨w, ws, rfl, hwords⟩

/-- The statement of its own is for the whole source. -/
theorem isNamespace_text_iff (h : s.IsRegular) :
    isNamespace s.text = true ↔ ∃ name, s = whole name := by
  rw [isNamespace, List.isPrefixOf_iff_prefix, toList_text]
  cases s with
  | named typeOnly exported renamed =>
    obtain ⟨w, ws, hwords, hidents⟩ := exists_words_named h
    obtain ⟨c, cs, rfl, hc, -⟩ :=
      Source.exists_cons_of_isIdentifierChars (hidents w (List.mem_cons_self ..))
    rw [hwords, Text.joinWith_cons, List.cons_append]
    refine iff_of_false (fun hprefix => ?_) fun ⟨name, hname⟩ => by cases hname
    obtain ⟨rfl, -⟩ := List.cons_prefix_cons.1 hprefix
    exact absurd hc (by decide)
  | whole name =>
    refine iff_of_true ?_ ⟨name, rfl⟩
    rw [words, Text.joinWith_cons]
    exact ⟨name, by simp⟩

end Specifier

end Import

namespace Source

open Import (Specifier)

/-! ### Words behind spaces -/

/-- Words with a space in front of each, in front of a text. -/
def spaced (ws : List Chars) (tail : Chars) : Chars :=
  ws.flatMap (' ' :: ·) ++ tail

theorem text_append {w : Chars} {ws : List Chars} {s : Specifier} (h : s.words = w :: ws)
    (tail : Chars) : s.text.toList ++ tail = w ++ spaced ws tail := by
  rw [s.toList_text, h, Text.joinWith_cons, List.append_assoc]
  rfl

theorem spaced_cons (w : Chars) (ws : List Chars) (tail : Chars) :
    spaced (w :: ws) tail = ' ' :: (w ++ spaced ws tail) := by
  rw [spaced, List.flatMap_cons, List.append_assoc]
  rfl

theorem skip_spaced {w : Chars} (hw : Text.isIdentifierChars w = true) (ws : List Chars)
    (tail : Chars) : skip (spaced (w :: ws) tail) = w ++ spaced ws tail := by
  rw [spaced_cons, skip_cons_of_isSpace (by decide), skip_identifier hw]

section Words

variable {tail : Chars}

theorem stopsWord_spaced (htail : StopsWord tail) : ∀ ws, StopsWord (spaced ws tail)
  | [] => htail
  | w :: ws => by
    rw [spaced_cons]
    rintro d hd
    obtain rfl : ' ' = d := by simpa using hd
    decide

/-- The word in front of the others. -/
theorem word_of_skip {cs w : Chars} {ws : List Chars} (hw : Text.isIdentifierChars w = true)
    (htail : StopsWord tail) (hskip : skip cs = w ++ spaced ws tail) :
    word cs = some (w, spaced ws tail) := by
  rw [word, hskip, wordHere_append hw (stopsWord_spaced htail ws)]

theorem importedNameEnd_of_skip {cs w : Chars} {ws : List Chars}
    (hw : Text.isIdentifierChars w = true) (htail : StopsWord tail)
    (hskip : skip cs = w ++ spaced ws tail) : importedNameEnd cs = some (spaced ws tail) := by
  rw [importedNameEnd, anyWord, word_of_skip hw htail hskip]
  rfl

theorem keyword_of_skip {cs : Chars} {ws : List Chars} {text : String}
    (hw : Text.isIdentifierChars text.toList = true) (htail : StopsWord tail)
    (hskip : skip cs = text.toList ++ spaced ws tail) :
    keyword text cs = some (spaced ws tail) := by
  rw [keyword, word_of_skip hw htail hskip]
  exact if_pos rfl

theorem Ends.string_eq_none (h : Ends tail) : string tail = none := by
  obtain ⟨c, hc, behind, hskip⟩ := h
  have hquote := Text.forall_mem_of_all (p := fun d => ¬ (d = '"' || d = '\'') = true) (by decide)
    c hc
  rw [string, hskip, stringHere, if_neg hquote]

theorem Ends.importedNameEnd_eq_none (h : Ends tail) : importedNameEnd tail = none := by
  rw [importedNameEnd, anyWord, h.word_eq_none, h.string_eq_none]
  rfl

/-! ### Going along the words -/

/-- A rule goes along the words in front of the end of an element: from words it comes to some of
the words behind them. -/
def Along (tail : Chars) (rule : Chars → Option Chars) : Prop :=
  ∀ (ws : List Chars) (cs rest : Chars), (∀ w ∈ ws, Text.isIdentifierChars w = true) →
    skip cs = skip (spaced ws tail) → rule cs = some rest →
      ∃ more, (∀ w ∈ more, Text.isIdentifierChars w = true) ∧ rest = spaced more tail

theorem along_of_word (htail : Ends tail) {rule : Chars → Option Chars}
    (h : ∀ {cs rest}, rule cs = some rest → ∃ w, word cs = some (w, rest)) : Along tail rule := by
  intro ws cs rest hws hskip hrule
  obtain ⟨v, hv⟩ := h hrule
  cases ws with
  | nil =>
    have hnone : word cs = none := by
      rw [word, hskip]
      exact htail.word_eq_none
    rw [hnone] at hv
    cases hv
  | cons w ws =>
    obtain ⟨hw, hws⟩ := List.forall_mem_cons.1 hws
    rw [skip_spaced hw] at hskip
    rw [word_of_skip hw htail.stopsWord hskip] at hv
    obtain ⟨-, rfl⟩ := Prod.mk.inj (Option.some.inj hv)
    exact ⟨ws, hws, rfl⟩

theorem along_keyword (htail : Ends tail) (text : String) : Along tail (keyword text) := by
  refine along_of_word htail fun {cs rest} h => ?_
  rw [keyword] at h
  split at h
  · next w behind hword =>
    split at h
    · obtain rfl := Option.some.inj h
      exact ⟨w, hword⟩
    · cases h
  · cases h

theorem along_keywordAmong (htail : Ends tail) (texts : List String) :
    Along tail (keywordAmong texts) := by
  refine along_of_word htail fun {cs rest} h => ?_
  rw [keywordAmong] at h
  split at h
  · next w behind hword =>
    split at h
    · obtain rfl := Option.some.inj h
      exact ⟨w, hword⟩
    · cases h
  · cases h

theorem along_importedNameEnd (htail : Ends tail) : Along tail importedNameEnd := by
  intro ws cs rest hws hskip hrule
  cases ws with
  | nil =>
    have hnone : importedNameEnd cs = none := by
      rw [importedNameEnd, anyWord, word, string, hskip]
      exact htail.importedNameEnd_eq_none
    rw [hnone] at hrule
    cases hrule
  | cons w ws =>
    obtain ⟨hw, hws⟩ := List.forall_mem_cons.1 hws
    rw [skip_spaced hw] at hskip
    rw [importedNameEnd_of_skip hw htail.stopsWord hskip] at hrule
    exact ⟨ws, hws, (Option.some.inj hrule).symm⟩

theorem Along.bind {rule next : Chars → Option Chars} (h : Along tail rule)
    (hnext : Along tail next) : Along tail fun cs => (rule cs).bind next := by
  intro ws cs rest hws hskip hrule
  obtain ⟨behind, hbehind, hrest⟩ := Option.bind_eq_some_iff.1 hrule
  obtain ⟨more, hmore, rfl⟩ := h ws cs behind hws hskip hbehind
  exact hnext more _ rest hmore rfl hrest

/-- A member has not ended in front of a word. -/
theorem eq_nil_of_endsMember {ws : List Chars} (hws : ∀ w ∈ ws, Text.isIdentifierChars w = true)
    (h : endsMember (spaced ws tail) = true) : ws = [] := by
  cases ws with
  | nil => rfl
  | cons w ws =>
    have hbegins := begins_identifier (hws w (List.mem_cons_self ..)) []
    have hskip : skip (spaced (w :: ws) tail) = w ++ [] ++ spaced ws tail := by
      rw [skip_spaced (hws w (List.mem_cons_self ..)), List.append_nil]
    rw [endsMember, hbegins.mark_eq_none hskip "," rfl (by decide),
      hbegins.mark_eq_none hskip "\x7d" rfl (by decide)] at h
    cases h

/-- Where the member has to end, a rule that goes along the words takes all of them. -/
theorem Along.eq_tail {rule : Chars → Option Chars} (h : Along tail rule) {ws : List Chars}
    {cs rest : Chars} (hws : ∀ w ∈ ws, Text.isIdentifierChars w = true)
    (hskip : skip cs = skip (spaced ws tail))
    (hrule : (rule cs).filter endsMember = some rest) : rest = tail := by
  obtain ⟨hrest, hends⟩ := Option.filter_eq_some_iff.1 hrule
  obtain ⟨more, hmore, rfl⟩ := h ws cs rest hws hskip hrest
  rw [eq_nil_of_endsMember hmore hends]
  rfl

end Words

/-! ### Specifiers -/

/-- What remains behind a name and the one that it is given. -/
def renamedEnd (cs : Chars) : Option Chars :=
  (importedNameEnd cs).bind fun rest => (keyword "as" rest).bind importedNameEnd

/-- What remains behind the mark of a type and a name. -/
def markedEnd (named : Chars → Option Chars) (cs : Chars) : Option Chars :=
  (keywordAmong ["type", "typeof"] cs).bind named

theorem specifier_eq (cs : Chars) : specifier cs =
    (((((markedEnd renamedEnd cs).filter endsMember).or ((renamedEnd cs).filter endsMember)).or
      (((markedEnd importedNameEnd cs).filter endsMember).or
        ((importedNameEnd cs).filter endsMember))).map fun rest => (⟨skip cs, rest⟩, rest)) :=
  rfl

section Specifiers

variable {tail cs : Chars}

/-- The first of two results that are the same if they are there. -/
theorem or_eq_some {α : Type} {o p : Option α} {a : α} (ho : ∀ x, o = some x → x = a)
    (h : o = some a ∨ p = some a) : o.or p = some a := by
  cases o with
  | some x => rw [ho x rfl, Option.some_or]
  | none => rw [Option.none_or, h.resolve_left (Option.some_ne_none a).symm]

theorem eq_of_or {α : Type} {o p : Option α} {a : α} (ho : ∀ x, o = some x → x = a)
    (hp : ∀ x, p = some x → x = a) : ∀ x, o.or p = some x → x = a := by
  intro x h
  rcases Option.or_eq_some_iff.1 h with h | ⟨-, h⟩
  · exact ho x h
  · exact hp x h

/-- **A specifier takes all words if one of the four ways does.** -/
theorem specifier_of_ways {ws : List Chars} (htail : EndsIn '\x7d' tail)
    (hws : ∀ w ∈ ws, Text.isIdentifierChars w = true) (hskip : skip cs = skip (spaced ws tail))
    (h : (markedEnd renamedEnd cs = some tail ∨ renamedEnd cs = some tail) ∨
      markedEnd importedNameEnd cs = some tail ∨ importedNameEnd cs = some tail) :
    specifier cs = some (⟨skip cs, tail⟩, tail) := by
  have hends : Ends tail := htail.ends (by decide)
  have hname : Along tail importedNameEnd := along_importedNameEnd hends
  have hrenamed : Along tail renamedEnd := hname.bind ((along_keyword hends "as").bind hname)
  have hmark : Along tail (keywordAmong ["type", "typeof"]) := along_keywordAmong hends _
  have hended : ∀ {o : Option Chars}, o = some tail → o.filter endsMember = some tail :=
    fun ho => Option.filter_eq_some_iff.2 ⟨ho, endsMember_of_endsIn htail⟩
  have hall : ∀ {rule : Chars → Option Chars}, Along tail rule →
      ∀ x, (rule cs).filter endsMember = some x → x = tail :=
    fun hrule x hx => hrule.eq_tail hws hskip hx
  have hmarkedRenamed : Along tail (markedEnd renamedEnd) := hmark.bind hrenamed
  have hmarkedName : Along tail (markedEnd importedNameEnd) := hmark.bind hname
  have hfirst := hall hmarkedRenamed
  have hthird := hall hmarkedName
  rw [specifier_eq, or_eq_some (a := tail) (eq_of_or hfirst (hall hrenamed))]
  · rfl
  · rcases h with (h | h) | h | h
    · exact .inl (or_eq_some hfirst (.inl (hended h)))
    · exact .inl (or_eq_some hfirst (.inr (hended h)))
    · exact .inr (or_eq_some hthird (.inl (hended h)))
    · exact .inr (or_eq_some hthird (.inr (hended h)))

theorem markedEnd_of_skip {ws : List Chars} (htail : StopsWord tail)
    (hskip : skip cs = "type".toList ++ spaced ws tail) (named : Chars → Option Chars) :
    markedEnd named cs = named (spaced ws tail) := by
  rw [markedEnd, keywordAmong, word_of_skip (by decide) htail hskip]
  rfl

theorem renamedEnd_of_skip {a b : Chars} (ha : Text.isIdentifierChars a = true)
    (hb : Text.isIdentifierChars b = true) (htail : StopsWord tail)
    (hskip : skip cs = a ++ spaced ["as".toList, b] tail) : renamedEnd cs = some tail := by
  have has : keyword "as" (spaced ["as".toList, b] tail) = some (spaced [b] tail) :=
    keyword_of_skip (by decide) htail (skip_spaced (by decide) _ _)
  rw [renamedEnd, importedNameEnd_of_skip ha htail hskip, Option.bind_some, has, Option.bind_some]
  exact importedNameEnd_of_skip hb htail (skip_spaced hb [] tail)

/-- The words of a specifier are taken in one of the four ways. -/
theorem ways_of_skip {typeOnly : Bool} {exported : Chars} {renamed : Option Chars}
    (h : (Specifier.named typeOnly exported renamed).IsRegular) (htail : StopsWord tail)
    (hskip : skip cs = (Specifier.named typeOnly exported renamed).text.toList ++ tail) :
    (markedEnd renamedEnd cs = some tail ∨ renamedEnd cs = some tail) ∨
      markedEnd importedNameEnd cs = some tail ∨ importedNameEnd cs = some tail := by
  have hexported : Text.isIdentifierChars exported = true := h exported (List.mem_cons_self ..)
  cases typeOnly with
  | false =>
    cases renamed with
    | none =>
      rw [text_append rfl] at hskip
      exact .inr (.inr (importedNameEnd_of_skip hexported htail hskip))
    | some name =>
      have hname := h name (List.mem_cons_of_mem _ (List.mem_singleton.2 rfl))
      rw [text_append rfl] at hskip
      exact .inl (.inr (renamedEnd_of_skip hexported hname htail hskip))
  | true =>
    rw [text_append rfl] at hskip
    have hmarked := markedEnd_of_skip htail hskip
    cases renamed with
    | none =>
      refine .inr (.inl ((hmarked _).trans ?_))
      exact importedNameEnd_of_skip hexported htail (skip_spaced hexported [] tail)
    | some name =>
      have hname := h name (List.mem_cons_of_mem _ (List.mem_singleton.2 rfl))
      refine .inl (.inl ((hmarked _).trans ?_))
      exact renamedEnd_of_skip hexported hname htail (skip_spaced hexported _ tail)

/-- **A specifier in a list of names is read back.** -/
theorem itemReads_specifier {typeOnly : Bool} {exported : Chars} {renamed : Option Chars}
    (h : (Specifier.named typeOnly exported renamed).IsRegular) :
    ItemReads specifier '\x7d' (fun name f => f.text = name)
      (Specifier.named typeOnly exported renamed).text.toList
      (Specifier.named typeOnly exported renamed).text := by
  obtain ⟨w, ws, hwords, hidents⟩ := Specifier.exists_words_named h
  have hw := hidents w (List.mem_cons_self ..)
  have hbegins : Begins (Specifier.named typeOnly exported renamed).text.toList := by
    have htext := text_append hwords []
    rw [List.append_nil] at htext
    rw [htext]
    exact begins_identifier hw _
  refine ⟨hbegins, fun {cs rest} hrest hskip => ?_⟩
  have hstops := (hrest.ends (by decide)).stopsWord
  refine ⟨⟨skip cs, rest⟩, specifier_of_ways hrest hidents ?_ (ways_of_skip h hstops hskip), ?_⟩
  · rw [skip_spaced hw, ← text_append hwords, hskip]
  · rw [Fragment.text, Fragment.chars, hskip, upTo_append, String.ofList_toList]

end Specifiers

end Source

end ModuleScaffold
