import ModuleScaffold.Proofs.Reading.Literal

/-!
# Regular expressions between slashes

The grammar of the language reads a regular expression between two slashes: its body is made of
characters, of characters behind a backslash and of classes in brackets, and it ends at the first
slash that belongs to none of these. Flags stand behind it for as long as the characters may stand
in a name (`ModuleScaffold.Regex.IsLiteral`).

The project looks at such a body twice, each time with a scan of its own that only remembers whether
a backslash and whether a class is open. One scan puts backslashes in front of slashes, the other
one refuses a body that would not be read again. What the second scan accepts are exactly the bodies
of the grammar, so what it accepts is read again; and it never complains of a slash behind the
first.

Main statements:

* `ModuleScaffold.Regex.bodyProblem?_eq_none_iff` – **the bodies without a problem are the bodies of
  the grammar**;
* `ModuleScaffold.Regex.escapeFrom_escapeFrom`, `ModuleScaffold.Regex.guards_escapeFrom` – escaping
  again changes nothing, and escaping adds nothing but backslashes in front of slashes;
* `ModuleScaffold.Regex.delimiters_survive` – **a regular expression is read between its own
  slashes**.
-/

namespace ModuleScaffold

namespace Regex

/-! ### The grammar -/

/-- What a class in brackets is made of. -/
inductive ClassPart
  /-- A character that stands for itself. -/
  | plain (c : Char)
  /-- A backslash and a character. -/
  | escaped (c : Char)

/-- What the body of a regular expression is made of. -/
inductive BodyPart
  /-- A character. -/
  | plain (c : Char)
  /-- A backslash and a character. -/
  | escaped (c : Char)
  /-- A class in brackets. -/
  | inBrackets (parts : List ClassPart)

/-- The part of a class as it is written. -/
def ClassPart.text : ClassPart → List Char
  | plain c => [c]
  | escaped c => ['\\', c]

/-- Whether the part may stand in a class. -/
def ClassPart.isValid : ClassPart → Bool
  | plain c => ! isLineEnd c && c != ']' && c != '\\'
  | escaped c => ! isLineEnd c

/-- The part of a body as it is written. -/
def BodyPart.text : BodyPart → List Char
  | plain c => [c]
  | escaped c => ['\\', c]
  | inBrackets parts => '[' :: (parts.flatMap ClassPart.text ++ [']'])

/-- Whether the part may stand in a body. -/
def BodyPart.isValid : BodyPart → Bool
  | plain c => ! isLineEnd c && c != '\\' && c != '/' && c != '['
  | escaped c => ! isLineEnd c
  | inBrackets parts => parts.all ClassPart.isValid

/-- The body of a regular expression: it is not empty, and a star at its start would open a
comment. -/
structure IsBody (body : List Char) (parts : List BodyPart) : Prop where
  /-- The body is what the parts spell. -/
  spelled : parts.flatMap BodyPart.text = body
  /-- Every part may stand in a body. -/
  valid : ∀ p ∈ parts, p.isValid = true
  /-- There is a part. -/
  ne_nil : body ≠ []
  /-- No star stands at the start. -/
  head : body.head? ≠ some '*'

/-- A regular expression is read at the start of a text, up to what remains: a body between slashes
and, as far as they reach, characters that may stand in a name. -/
structure IsLiteral (isPart : Char → Bool) (text body flags rest : List Char) : Prop where
  /-- What is read stands at the start. -/
  text_eq : text = '/' :: (body ++ '/' :: (flags ++ rest))
  /-- The body follows the grammar. -/
  body : ∃ parts, IsBody body parts
  /-- The flags may stand in a name. -/
  flags : ∀ c ∈ flags, isPart c = true
  /-- No flag is left. -/
  stops : ∀ c ∈ rest.head?, isPart c = false

variable {place : Place} {offset : ℕ} {c : Char} {cs ds body : List Char}

/-! ### The bodies without a problem -/

/-- What is left of a body outside its classes. -/
def LeavesBody (cs : List Char) : Prop :=
  ∃ parts : List BodyPart, (∀ p ∈ parts, p.isValid = true) ∧ parts.flatMap BodyPart.text = cs

/-- What is left of a body inside a class. -/
def LeavesClass (cs : List Char) : Prop :=
  ∃ (inside : List ClassPart) (behind : List Char), (∀ p ∈ inside, p.isValid = true) ∧
    LeavesBody behind ∧ cs = inside.flatMap ClassPart.text ++ ']' :: behind

/-- What is left of a body where a scan of it stands. -/
def Place.Leaves : Place → List Char → Prop
  | ⟨false, false⟩, cs => LeavesBody cs
  | ⟨false, true⟩, cs => LeavesClass cs
  | ⟨true, false⟩, cs => ∃ d rest, isLineEnd d = false ∧ LeavesBody rest ∧ cs = d :: rest
  | ⟨true, true⟩, cs => ∃ d rest, isLineEnd d = false ∧ LeavesClass rest ∧ cs = d :: rest

/-- One more part in front of a body. -/
theorem LeavesBody.addPart {p : BodyPart} (hp : p.isValid = true) (h : LeavesBody cs) :
    LeavesBody (p.text ++ cs) := by
  obtain ⟨parts, hparts, rfl⟩ := h
  exact ⟨p :: parts, List.forall_mem_cons.2 ⟨hp, hparts⟩, List.flatMap_cons⟩

/-- One more part in front of what is left of a class. -/
theorem LeavesClass.addPart {p : ClassPart} (hp : p.isValid = true) (h : LeavesClass cs) :
    LeavesClass (p.text ++ cs) := by
  obtain ⟨inside, behind, hinside, hbehind, rfl⟩ := h
  refine ⟨p :: inside, behind, List.forall_mem_cons.2 ⟨hp, hinside⟩, hbehind, ?_⟩
  rw [List.flatMap_cons, List.append_assoc]

/-- A character leads the scan of a body on as it leads on in the grammar. -/
theorem Place.Leaves.cons (hline : isLineEnd c = false) (hslash : ¬(c = '/' ∧ place.isOpen = true))
    (h : (place.next c).Leaves cs) : place.Leaves (c :: cs) := by
  rcases place with ⟨_ | _, _ | _⟩
  · -- outside classes
    by_cases hbackslash : c = '\\'
    · subst hbackslash
      obtain ⟨d, rest, hd, hrest, rfl⟩ : Leaves ⟨true, false⟩ cs := h
      exact hrest.addPart (p := .escaped d) (by simpa [BodyPart.isValid] using hd)
    by_cases hopen : c = '['
    · subst hopen
      obtain ⟨inside, behind, hinside, hbehind, rfl⟩ : LeavesClass cs := h
      have hpart : (BodyPart.inBrackets inside).isValid = true := List.all_eq_true.2 hinside
      have hbody := hbehind.addPart hpart
      rw [BodyPart.text, List.cons_append, List.append_assoc] at hbody
      exact hbody
    · have hnext : Place.next ⟨false, false⟩ c = .start := by
        by_cases hclose : c = ']' <;> simp [Place.next, Place.start, hbackslash, hopen, hclose]
      rw [hnext] at h
      have hc : c ≠ '/' := fun hc => hslash ⟨hc, rfl⟩
      exact LeavesBody.addPart (p := .plain c)
        (by simp [BodyPart.isValid, hline, hbackslash, hopen, hc]) h
  · -- in a class
    by_cases hbackslash : c = '\\'
    · subst hbackslash
      obtain ⟨d, rest, hd, hrest, rfl⟩ : Leaves ⟨true, true⟩ cs := h
      exact hrest.addPart (p := .escaped d) (by simpa [ClassPart.isValid] using hd)
    by_cases hclose : c = ']'
    · subst hclose
      exact ⟨[], cs, fun _ hp => absurd hp List.not_mem_nil, h, rfl⟩
    · have hnext : Place.next ⟨false, true⟩ c = ⟨false, true⟩ := by
        by_cases hopen : c = '[' <;> simp [Place.next, hbackslash, hopen, hclose]
      rw [hnext] at h
      exact LeavesClass.addPart (p := .plain c)
        (by simp [ClassPart.isValid, hline, hbackslash, hclose]) h
  · exact ⟨c, cs, hline, h, rfl⟩
  · exact ⟨c, cs, hline, h, rfl⟩

theorem bodyProblemFrom_cons (hline : isLineEnd c = false)
    (hslash : ¬(c = '/' ∧ place.isOpen = true)) :
    bodyProblemFrom place offset (c :: cs) =
      bodyProblemFrom (place.next c) (offset + c.utf8Size) cs := by
  rw [bodyProblemFrom, if_neg (by simp [hline]), if_neg (by simpa using hslash)]

/-- What has no problem is left of a body. -/
theorem leaves_of_bodyProblemFrom (h : bodyProblemFrom place offset cs = none) :
    place.Leaves cs := by
  induction cs generalizing place offset with
  | nil =>
    rcases place with ⟨_ | _, _ | _⟩
    · exact ⟨[], fun _ hp => absurd hp List.not_mem_nil, rfl⟩
    all_goals cases h
  | cons c cs ih =>
    have hline : isLineEnd c = false := by
      rw [bodyProblemFrom] at h
      split at h
      · cases h
      · next hline => exact Bool.eq_false_iff.2 hline
    have hslash : ¬(c = '/' ∧ place.isOpen = true) := by
      rintro ⟨hc, hopen⟩
      rw [bodyProblemFrom, if_neg (by simp [hline]), if_pos (by simp [hc, hopen])] at h
      cases h
    rw [bodyProblemFrom_cons hline hslash] at h
    exact (ih h).cons hline hslash

/-- In a class the scan comes to the bracket that closes it. -/
theorem exists_bodyProblemFrom_inside {inside : List ClassPart}
    (h : ∀ p ∈ inside, p.isValid = true) (offset : ℕ) (rest : List Char) :
    ∃ offset', bodyProblemFrom ⟨false, true⟩ offset (inside.flatMap ClassPart.text ++ rest) =
      bodyProblemFrom ⟨false, true⟩ offset' rest := by
  induction inside generalizing offset with
  | nil => exact ⟨offset, rfl⟩
  | cons p inside ih =>
    obtain ⟨hp, hinside⟩ := List.forall_mem_cons.1 h
    rw [List.flatMap_cons, List.append_assoc]
    cases p with
    | plain c =>
      simp only [ClassPart.isValid, Bool.and_eq_true, Bool.not_eq_true', bne_iff_ne] at hp
      obtain ⟨⟨hline, hclose⟩, hbackslash⟩ := hp
      have hnext : Place.next ⟨false, true⟩ c = ⟨false, true⟩ := by
        by_cases hopen : c = '[' <;> simp [Place.next, hbackslash, hopen, hclose]
      obtain ⟨offset', heq⟩ := ih hinside (offset + c.utf8Size)
      refine ⟨offset', ?_⟩
      rw [ClassPart.text, List.singleton_append,
        bodyProblemFrom_cons hline (by simp [Place.isOpen]), hnext, heq]
    | escaped c =>
      have hline : isLineEnd c = false := by simpa [ClassPart.isValid] using hp
      obtain ⟨offset', heq⟩ := ih hinside (offset + '\\'.utf8Size + c.utf8Size)
      refine ⟨offset', ?_⟩
      rw [ClassPart.text, List.cons_append, List.singleton_append,
        bodyProblemFrom_cons (by decide) (by simp [Place.isOpen]),
        bodyProblemFrom_cons hline (by simp [Place.isOpen, Place.next])]
      exact heq

/-- A part of a body leads the scan back to where it started. -/
theorem exists_bodyProblemFrom_text {p : BodyPart} (h : p.isValid = true) (offset : ℕ)
    (rest : List Char) : ∃ offset', bodyProblemFrom .start offset (p.text ++ rest) =
      bodyProblemFrom .start offset' rest := by
  cases p with
  | plain c =>
    simp only [BodyPart.isValid, Bool.and_eq_true, Bool.not_eq_true', bne_iff_ne] at h
    obtain ⟨⟨⟨hline, hbackslash⟩, hslash⟩, hopen⟩ := h
    have hnext : Place.start.next c = .start := by
      by_cases hclose : c = ']' <;> simp [Place.next, Place.start, hbackslash, hopen, hclose]
    refine ⟨offset + c.utf8Size, ?_⟩
    rw [BodyPart.text, List.singleton_append,
      bodyProblemFrom_cons hline fun hc => hslash hc.1, hnext]
  | escaped c =>
    have hline : isLineEnd c = false := by simpa [BodyPart.isValid] using h
    refine ⟨offset + '\\'.utf8Size + c.utf8Size, ?_⟩
    rw [BodyPart.text, List.cons_append, List.singleton_append,
      bodyProblemFrom_cons (by decide) (by decide),
      bodyProblemFrom_cons hline (by simp [Place.isOpen, Place.next, Place.start])]
    rfl
  | inBrackets inside =>
    obtain ⟨offset', heq⟩ := exists_bodyProblemFrom_inside (List.all_eq_true.1 h)
      (offset + '['.utf8Size) (']' :: rest)
    refine ⟨offset' + ']'.utf8Size, ?_⟩
    rw [BodyPart.text, List.cons_append, List.append_assoc, List.singleton_append,
      bodyProblemFrom_cons (by decide) (by decide)]
    refine heq.trans ?_
    rw [bodyProblemFrom_cons (by decide) (by decide)]
    rfl

theorem bodyProblemFrom_flatMap {parts : List BodyPart} (h : ∀ p ∈ parts, p.isValid = true)
    (offset : ℕ) : bodyProblemFrom .start offset (parts.flatMap BodyPart.text) = none := by
  induction parts generalizing offset with
  | nil => rfl
  | cons p parts ih =>
    obtain ⟨hp, hparts⟩ := List.forall_mem_cons.1 h
    obtain ⟨offset', heq⟩ := exists_bodyProblemFrom_text hp offset (parts.flatMap BodyPart.text)
    rw [List.flatMap_cons, heq, ih hparts]

/-- **The bodies without a problem are the bodies of the grammar.** -/
theorem bodyProblem?_eq_none_iff :
    body ≠ [] ∧ bodyProblem? body = none ↔ ∃ parts, IsBody body parts := by
  constructor
  · rintro ⟨hne, hbody⟩
    rw [bodyProblem?] at hbody
    split at hbody
    · cases hbody
    · next hstar =>
      obtain ⟨parts, hvalid, hspelled⟩ := leaves_of_bodyProblemFrom hbody
      exact ⟨parts, hspelled, hvalid, hne, hstar⟩
  · rintro ⟨parts, hspelled, hvalid, hne, hstar⟩
    refine ⟨hne, ?_⟩
    rw [bodyProblem?, if_neg hstar, ← hspelled, bodyProblemFrom_flatMap hvalid]

/-! ### Escaping -/

/-- The second text is the first one with backslashes in front of some of its slashes. -/
inductive Guards : List Char → List Char → Prop
  /-- Nothing. -/
  | nil : Guards [] []
  /-- A character is kept. -/
  | keep (c : Char) {cs ds : List Char} : Guards cs ds → Guards (c :: cs) (c :: ds)
  /-- A slash gets a backslash. -/
  | guard {cs ds : List Char} : Guards cs ds → Guards ('/' :: cs) ('\\' :: '/' :: ds)

/-- Escaping puts backslashes in front of slashes, and does nothing else. -/
theorem guards_escapeFrom (place : Place) (cs : List Char) : Guards cs (escapeFrom place cs) := by
  induction cs generalizing place with
  | nil => exact .nil
  | cons c cs ih =>
    rw [escapeFrom]
    split
    · next hslash =>
      rw [Bool.and_eq_true, decide_eq_true_eq] at hslash
      rw [hslash.1]
      exact .guard (ih place)
    · exact .keep c (ih _)

/-- An escaped slash leads back to where it was escaped. -/
theorem next_next_slash (h : place.isOpen = true) : (place.next '\\').next '/' = place := by
  rcases place with ⟨_ | _, _ | _⟩
  · rfl
  all_goals cases h

/-- **What is escaped needs no further backslash.** -/
theorem escapeFrom_escapeFrom (place : Place) (cs : List Char) :
    escapeFrom place (escapeFrom place cs) = escapeFrom place cs := by
  induction cs generalizing place with
  | nil => rfl
  | cons c cs ih =>
    rw [escapeFrom]
    split
    · next hslash =>
      rw [Bool.and_eq_true, decide_eq_true_eq] at hslash
      have hopen : (place.next '\\').isOpen = false := by
        rcases place with ⟨_ | _, _ | _⟩
        · rfl
        all_goals cases hslash.2
      rw [escapeFrom, if_neg (by simp), escapeFrom, if_neg (by simp [hopen]),
        next_next_slash hslash.2, ih]
    · next hslash => rw [escapeFrom, if_neg hslash, ih]

/-- No slash ends a body early where every such slash is escaped. -/
theorem bodyProblemFrom_escapeFrom (place : Place) (offset position : ℕ) (cs : List Char) :
    bodyProblemFrom place offset (escapeFrom place cs) ≠ some (.bareSlash position) := by
  induction cs generalizing place offset with
  | nil => rcases place with ⟨_ | _, _ | _⟩ <;> exact fun h => by cases h
  | cons c cs ih =>
    rw [escapeFrom]
    split
    · next hslash =>
      rw [Bool.and_eq_true, decide_eq_true_eq] at hslash
      have hopen : (place.next '\\').isOpen = false := by
        rcases place with ⟨_ | _, _ | _⟩
        · rfl
        all_goals cases hslash.2
      rw [bodyProblemFrom_cons (by decide) (by simp), bodyProblemFrom_cons (by decide)
        (by simp [hopen]), next_next_slash hslash.2]
      exact ih _ _
    · next hslash =>
      rw [bodyProblemFrom]
      rw [if_neg hslash]
      split
      · exact fun h => by cases h
      · exact ih _ _

theorem problem?_escapeSlashes (pattern flags : String) (position : ℕ) :
    problem? (escapeSlashes pattern) flags ≠ some (.bareSlash position) := by
  rw [problem?]
  split
  · exact fun h => by cases h
  · split
    · next p hbody =>
      rw [bodyProblem?, escapeSlashes, String.toList_ofList] at hbody
      split at hbody
      · cases hbody
        exact fun h => by cases h
      · exact hbody ▸ bodyProblemFrom_escapeFrom _ _ _ _
    · split
      · exact fun h => by cases h
      · exact fun h => by cases h

/-! ### Reading -/

theorem mem_flagLetters_of_validFlags {flags : List Char} (h : validFlags flags = true) :
    ∀ c ∈ flags, c ∈ flagLetters := by
  induction flags with
  | nil => exact fun c hc => absurd hc List.not_mem_nil
  | cons d flags ih =>
    simp only [validFlags, Bool.and_eq_true, List.contains_iff_mem] at h
    exact List.forall_mem_cons.2 ⟨h.1.1, ih h.2⟩

/-- **A body ends at one slash only**: what is read between two slashes is told by the text. -/
theorem IsBody.ends_once {other flags rest : List Char} {parts parts' : List BodyPart}
    (h : IsBody body parts) (h' : IsBody other parts')
    (heq : body ++ '/' :: flags = other ++ '/' :: rest) : body = other ∧ flags = rest := by
  have hread : ∀ {body : List Char} {parts : List BodyPart} (behind : List Char),
      IsBody body parts → Source.bodyFrom .start (body ++ '/' :: behind) = some (body, behind) := by
    intro body parts behind hbody
    have hnone : bodyProblemFrom .start 0 body = none := by
      rw [← hbody.spelled, bodyProblemFrom_flatMap hbody.valid]
    exact Source.bodyFrom_append hnone
  have hsame := (hread flags h).symm.trans (heq ▸ hread rest h')
  simpa using hsame

/-- **A regular expression is read between its own slashes.** Escaping a pattern again changes
nothing, escaping adds nothing but backslashes in front of slashes, and an escaped pattern is never
refused because of a slash. If a regular expression may be written, what is read from its text – by
the grammar of the language, whatever characters besides the letters of flags may stand in a name –
is its pattern and its flags, and nothing is left. -/
theorem delimiters_survive (isPart : Char → Bool) (hletters : ∀ c ∈ flagLetters, isPart c = true)
    (pattern flags : String) :
    (∃ stored, Value.ofPattern pattern flags = .regex stored flags ∧
      Value.ofPattern stored flags = .regex stored flags ∧ Guards pattern.toList stored.toList ∧
        ∀ position, (Value.regex stored flags).problem? ≠ some (.regex (.bareSlash position))) ∧
    ((Value.regex pattern flags).problem? = none → ∀ body marks rest,
      IsLiteral isPart (Value.regex pattern flags).render body marks rest ↔
        body = pattern.toList ∧ marks = flags.toList ∧ rest = []) := by
  refine ⟨⟨escapeSlashes pattern, rfl, ?_, ?_, fun position => ?_⟩, fun hproblem => ?_⟩
  · rw [Value.ofPattern, escapeSlashes, escapeSlashes, String.toList_ofList, escapeFrom_escapeFrom]
  · rw [escapeSlashes, String.toList_ofList]
    exact guards_escapeFrom _ _
  · rw [Value.problem?]
    intro h
    obtain ⟨p, hp, heq⟩ := Option.map_eq_some_iff.1 h
    cases heq
    exact problem?_escapeSlashes pattern flags position hp
  · rw [Value.problem?, Option.map_eq_none_iff] at hproblem
    obtain ⟨hne, hstar, hbody, hflags⟩ := Source.bodyProblemFrom_of_problem? hproblem
    have hpattern : bodyProblem? pattern.toList = none := by rw [bodyProblem?, if_neg hstar, hbody]
    obtain ⟨parts, hparts⟩ := bodyProblem?_eq_none_iff.1 ⟨hne, hpattern⟩
    have hmarks : ∀ c ∈ flags.toList, isPart c = true := fun c hc =>
      hletters c (mem_flagLetters_of_validFlags hflags c hc)
    rw [Value.render]
    intro body marks rest
    constructor
    · rintro ⟨htext, ⟨parts', hparts'⟩, -, hstops⟩
      obtain ⟨rfl, hflagged⟩ := hparts.ends_once hparts' (List.cons.inj htext).2
      -- nothing can be left, since all behind the slash may stand in a name
      have hrest : rest = [] := by
        rcases rest with _ | ⟨c, rest⟩
        · rfl
        · have hc := hmarks c (by simp [hflagged])
          rw [hstops c rfl] at hc
          cases hc
      rw [hrest, List.append_nil] at hflagged
      exact ⟨rfl, hflagged.symm, hrest⟩
    · rintro ⟨rfl, rfl, rfl⟩
      exact ⟨by rw [List.append_nil], ⟨parts, hparts⟩, hmarks, fun c hc => by cases hc⟩

/-- A slash in a class and an escaped slash are read between the slashes around them. -/
theorem delimiters_survive_class :
    (∀ c ∈ flagLetters, Text.isWordPart c = true) ∧
    (Value.regex "[[/]a\\/b" "gi").problem? = none ∧
    ∀ body marks rest,
      IsLiteral Text.isWordPart (Value.regex "[[/]a\\/b" "gi").render body marks rest ↔
        body = "[[/]a\\/b".toList ∧ marks = "gi".toList ∧ rest = [] := by
  have hletters : ∀ c ∈ flagLetters, Text.isWordPart c = true :=
    Text.forall_mem_of_all (by decide)
  have hproblem : (Value.regex "[[/]a\\/b" "gi").problem? = none := by decide
  exact ⟨hletters, hproblem, (delimiters_survive Text.isWordPart hletters _ _).2 hproblem⟩

end Regex

end ModuleScaffold
