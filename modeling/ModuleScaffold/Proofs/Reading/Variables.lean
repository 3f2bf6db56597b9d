import Mathlib.Data.List.TakeDrop
import Mathlib.Data.List.TakeWhile
import ModuleScaffold.Proofs.Reading.Item

/-!
# Statements that declare variables

A source text is read by trying one rule after the other, and many rules give statements. Those that
declare variables come from one rule only, which stands behind the words in front of the variables:
decorators, the word for an export, and the word that declares them. So what is known of an item
that declares variables can be read off the text at its start.

A name is one word, which may have escaped characters in it. It ends where its own characters say, so
it is the same word in front of whatever ends a word.

Main statements:

* `ModuleScaffold.Source.wordHere_eq` – **a word is read again in front of whatever ends a word**;
* `ModuleScaffold.Source.skip_skip` – nothing is left to be skipped behind blanks and comments;
* `ModuleScaffold.Source.opens_statement` – **a statement that declares variables reads them behind
  the words in front of them**;
* `ModuleScaffold.Source.exists_declaring_of_mem_items` – the same of the items of a source.
-/

namespace ModuleScaffold

namespace Source

/-! ### Words -/

/-- An escaped character in a word is told by its own characters. -/
theorem exists_prefix_of_wordEscape {cs : Chars} {n : ℕ} (h : wordEscape cs = some n) :
    ∃ w : Chars, w.length = n ∧ 0 < n ∧ w <+: cs ∧ ∀ ds, w <+: ds → wordEscape ds = some n := by
  unfold wordEscape at h
  split at h
  · next cs =>
    split at h
    · next d ds rest hspan =>
      obtain rfl := Option.some.inj h
      rw [List.span_eq_takeWhile_dropWhile] at hspan
      obtain ⟨htake, hdrop⟩ := Prod.mk.inj hspan
      have hdigits : ∀ x ∈ d :: ds, Text.isDigitOf 16 x = true := fun x hx =>
        List.mem_takeWhile_imp (htake ▸ hx)
      have hcs : cs = (d :: ds) ++ '\x7d' :: rest := by
        rw [← htake, ← hdrop, List.takeWhile_append_dropWhile]
      refine ⟨'\\' :: 'u' :: '\x7b' :: ((d :: ds) ++ ['\x7d']), by simp, by omega,
        ⟨rest, by rw [hcs]; simp⟩, ?_⟩
      rintro _ ⟨tail, rfl⟩
      have hclose : Text.isDigitOf 16 '\x7d' = false := by decide
      have hsplit : ((d :: ds) ++ '\x7d' :: tail).span (Text.isDigitOf 16) =
          (d :: ds, '\x7d' :: tail) := by
        rw [List.span_eq_takeWhile_dropWhile, List.takeWhile_append_of_pos hdigits,
          List.dropWhile_append_of_pos hdigits, List.takeWhile_cons_of_neg (by simp [hclose]),
          List.dropWhile_cons_of_neg (by simp [hclose]), List.append_nil]
      have happend : '\\' :: 'u' :: '\x7b' :: ((d :: ds) ++ ['\x7d']) ++ tail =
          '\\' :: 'u' :: '\x7b' :: ((d :: ds) ++ '\x7d' :: tail) := by simp
      rw [happend]
      simp only [wordEscape, hsplit]
    · cases h
  · next a b c d rest hbrace =>
    split at h
    · next hdigits =>
      obtain rfl := Option.some.inj h
      refine ⟨['\\', 'u', a, b, c, d], rfl, by omega, ⟨rest, rfl⟩, ?_⟩
      rintro _ ⟨tail, rfl⟩
      simp only [List.cons_append, List.nil_append]
      rw [wordEscape, if_pos hdigits]
      exact hbrace
    · cases h
  · cases h

/-- **A word ends where its own characters say**, if what follows ends a word. -/
theorem wordFrom_eq {cs w rest : Chars} {pending : ℕ} (hpending : pending ≤ cs.length)
    (h : wordFrom pending cs = (w, rest)) : cs = w ++ rest ∧ pending ≤ w.length ∧
      ∀ {tail : Chars}, StopsWord tail → wordFrom pending (w ++ tail) = (w, tail) := by
  induction cs generalizing pending w with
  | nil =>
    obtain rfl := Nat.le_zero.1 hpending
    obtain ⟨rfl, rfl⟩ := Prod.mk.inj h
    exact ⟨rfl, Nat.le_refl _, wordFrom_eq_nil⟩
  | cons c cs ih =>
    -- the rest of the word, from its second character on
    have hnext : ∀ {n : ℕ}, n ≤ cs.length → (c :: (wordFrom n cs).1, (wordFrom n cs).2) = (w, rest) →
        ∃ w', w = c :: w' ∧ cs = w' ++ rest ∧ n ≤ w'.length ∧
          ∀ {tail : Chars}, StopsWord tail → wordFrom n (w' ++ tail) = (w', tail) := by
      intro n hn heq
      obtain ⟨rfl, rfl⟩ := Prod.mk.inj heq
      exact ⟨_, rfl, ih hn rfl⟩
    cases pending with
    | succ n =>
      rw [wordFrom] at h
      obtain ⟨w', rfl, rfl, hlength, hword⟩ := hnext (Nat.le_of_succ_le_succ hpending) h
      refine ⟨rfl, Nat.succ_le_succ hlength, fun htail => ?_⟩
      rw [List.cons_append, wordFrom, hword htail]
    | zero =>
      rw [wordFrom] at h
      split at h
      · next hc =>
        obtain ⟨w', rfl, rfl, -, hword⟩ := hnext (Nat.zero_le _) h
        refine ⟨rfl, Nat.zero_le _, fun htail => ?_⟩
        rw [List.cons_append, wordFrom, if_pos hc, hword htail]
      · next hc =>
        split at h
        · next n hescape =>
          obtain ⟨w₀, hw₀, hpos, hprefix, hagain⟩ := exists_prefix_of_wordEscape hescape
          have hn : n - 1 ≤ cs.length := by
            have := hprefix.length_le
            rw [List.length_cons] at this
            omega
          obtain ⟨w', rfl, rfl, hlength, hword⟩ := hnext hn h
          refine ⟨rfl, Nat.zero_le _, fun {tail} htail => ?_⟩
          have hshort : w₀ <+: c :: w' := by
            refine List.prefix_of_prefix_length_le hprefix ⟨rest, rfl⟩ ?_
            rw [List.length_cons]
            omega
          have hescaped : wordEscape (c :: (w' ++ tail)) = some n :=
            hagain _ (hshort.trans ⟨tail, rfl⟩)
          rw [List.cons_append, wordFrom, if_neg hc, hescaped]
          simp only
          rw [hword htail]
        · obtain ⟨rfl, rfl⟩ := Prod.mk.inj h
          exact ⟨rfl, Nat.le_refl _, wordFrom_eq_nil⟩

/-- **A word is read again in front of whatever ends a word.** -/
theorem wordHere_eq {cs w rest : Chars} (h : wordHere cs = some (w, rest)) : cs = w ++ rest ∧
    ∀ {tail : Chars}, StopsWord tail → wordHere (w ++ tail) = some (w, tail) := by
  rw [wordHere] at h
  split at h
  · cases h
  · next c w' rest' hfrom =>
    split at h
    · cases h
    · next hdigit =>
      cases h
      obtain ⟨hcs, -, hword⟩ := wordFrom_eq (Nat.zero_le _) hfrom
      refine ⟨hcs, fun htail => ?_⟩
      rw [wordHere, hword htail]
      exact if_neg hdigit

/-- A word starts with a character that may stand in one or with an escaped one. -/
theorem exists_cons_of_wordHere {cs w rest : Chars} (h : wordHere cs = some (w, rest)) :
    ∃ c w', w = c :: w' ∧ (inWord c = true ∨ c = '\\') := by
  rw [wordHere] at h
  split at h
  · cases h
  · next c w' rest' hfrom =>
    split at h
    · cases h
    · cases h
      refine ⟨c, w', rfl, ?_⟩
      by_contra hnot
      rw [not_or, Bool.not_eq_true] at hnot
      obtain ⟨hcs, -, -⟩ := wordFrom_eq (Nat.zero_le _) hfrom
      have hnil : wordFrom 0 cs = ([], cs) := wordFrom_eq_nil fun d hd => by
        rw [hcs] at hd
        obtain rfl := Option.some.inj hd
        exact hnot
      rw [hnil] at hfrom
      cases hfrom

/-! ### Blanks and comments -/

/-- What is left of a comment that is not closed is left again. -/
theorem skip_skipFrom (trivia : Trivia) (cs : Chars)
    (h : ∀ start, trivia = .block start → skip start = skipFrom trivia cs) :
    skip (skipFrom trivia cs) = skipFrom trivia cs := by
  fun_induction skipFrom trivia cs with
  | case1 cs ih => exact ih fun start hstart => by cases hstart
  | case2 cs ih => exact ih fun start hstart => by cases hstart; rfl
  | case3 c cs hline hblock hspace ih => exact ih fun start hstart => by cases hstart
  | case4 c cs hline hblock hspace => rw [skip, skipFrom, if_neg hspace] <;> assumption
  | case5 => rfl
  | case6 c cs hends ih => exact ih fun start hstart => by cases hstart
  | case7 c cs hends ih => exact ih fun start hstart => by cases hstart
  | case8 => rfl
  | case9 start cs ih => exact ih fun start hstart => by cases hstart
  | case10 start c cs hclose ih =>
    refine ih fun start' hstart => ?_
    cases hstart
    exact (h start rfl)
  | case11 start => exact h start rfl

/-- **Nothing is left to be skipped** behind blanks and comments. -/
theorem skip_skip (cs : Chars) : skip (skip cs) = skip cs :=
  skip_skipFrom .blank cs fun _ h => by cases h

/-- Nothing is done where the first step cannot be done. -/
theorem many_eq_self {step : Chars → Option Chars} {cs : Chars} (h : step cs = none) :
    many step cs = cs := by
  rw [many, manyFrom, h]

theorem decoratorEnd_eq_none {r : Reader} {cs : Chars} (h : (skip cs).head? ≠ some '@') :
    decoratorEnd r cs = none := by
  have hmark : mark "@" cs = none := by
    rw [mark]
    cases hskip : skip cs with
    | nil => rfl
    | cons c rest =>
      rw [hskip] at h
      exact if_neg fun hc => h (congrArg some hc.symm)
  rw [decoratorEnd, hmark]
  rfl

/-! ### Rules and the variables that they read -/

/-- Whether an item declares variables. -/
def Item.isVariables : Item → Bool
  | declaring .. => true
  | _ => false

/-- The words in front of variables: whether they are exported, the word that declares them, and
what remains behind it. -/
def variableOpening (r : Reader) (cs : Chars) : Option (Bool × Chars × Chars) :=
  (word (many (decoratorEnd r) cs)).bind fun (w, rest) =>
    if w = "export".toList then
      (word (many (decoratorEnd r) rest)).map fun (w, rest) => (true, w, rest)
    else some (false, w, rest)

variable {r : Reader} {start rest cs : Chars}

/-- If a rule reads variables, it reads them behind the words in front of them. -/
def Opens (r : Reader) (start : Chars) (o : Option (Item × Chars)) : Prop :=
  ∀ x ∈ o, x.1.isVariables = true → ∃ exported w behind,
    variableOpening r start = some (exported, w, behind) ∧
      declaring r exported start behind = some x

theorem opens_none : Opens r start none :=
  fun _ h => by cases h

theorem opens_some {x : Item × Chars} (h : x.1.isVariables = false) : Opens r start (some x) := by
  intro y hy hvariables
  rw [← Option.some.inj hy, h] at hvariables
  cases hvariables

theorem opens_map {α : Type} (o : Option α) {f : α → Item × Chars}
    (h : ∀ a, (f a).1.isVariables = false) : Opens r start (o.map f) := by
  cases o with
  | none => exact opens_none
  | some a => exact opens_some (h a)

theorem opens_bind {α : Type} {o : Option α} {f : α → Option (Item × Chars)}
    (h : ∀ a, Opens r start (f a)) : Opens r start (o.bind f) := by
  cases o with
  | none => exact opens_none
  | some a => exact h a

theorem opens_or {o p : Option (Item × Chars)} (ho : Opens r start o) (hp : Opens r start p) :
    Opens r start (o.or p) := by
  cases o with
  | none => exact hp
  | some x => exact ho

/-! ### Rules that read no variables -/

theorem opens_importStatement (start' : Chars) :
    Opens r start (importStatement r start' rest) := by
  unfold importStatement
  simp only
  split
  · next form rest' _ =>
    exact opens_map _ fun _ => rfl
  · exact opens_map _ fun _ => rfl

theorem opens_exportedValue (start' : Chars) : Opens r start (exportedValue r start' rest) :=
  opens_bind fun _ => opens_bind fun _ => opens_some rfl

theorem opens_expressionStatement (start' : Chars) :
    Opens r start (expressionStatement r start') :=
  opens_bind fun _ => opens_bind fun _ => opens_some rfl

theorem opens_exportDefault (start' : Chars) : Opens r start (exportDefault r start' rest) :=
  opens_or (opens_map _ fun _ => rfl) (opens_exportedValue _)

/-! ### Rules that read variables -/

theorem opens_declaring {exported : Bool} {w : Chars}
    (h : variableOpening r start = some (exported, w, rest)) :
    Opens r start (declaring r exported start rest) :=
  fun _ hx _ => ⟨exported, w, rest, h, hx⟩

theorem opens_exportStatement
    (hw : word (many (decoratorEnd r) start) = some ("export".toList, rest)) :
    Opens r start (exportStatement r start rest) := by
  unfold exportStatement
  split
  · exact opens_exportedValue _
  · split
    · exact opens_some rfl
    · split
      · exact opens_none
      · next w behind hword =>
        dsimp only
        split
        · exact opens_exportDefault _
        · split
          · exact opens_some rfl
          · split
            · refine opens_declaring (w := w) ?_
              rw [variableOpening, hw, Option.bind_some]
              dsimp only
              rw [if_pos rfl, hword, Option.map_some]
            · exact opens_none

theorem opens_wordStatement {w : Chars} (hw : word (many (decoratorEnd r) start) = some (w, rest)) :
    Opens r start (wordStatement r start (String.ofList w) rest) := by
  unfold wordStatement
  split
  · exact opens_or (opens_importStatement _) (opens_expressionStatement _)
  · split
    · next hexport =>
      refine opens_exportStatement ?_
      rw [hw, ← hexport, String.toList_ofList]
    · next hexport =>
      split
      · exact opens_map _ fun _ => rfl
      · split
        · exact opens_some rfl
        · split
          · exact opens_none
          · split
            · refine opens_or (opens_declaring (w := w) ?_) ?_
              · have hne : w ≠ "export".toList := by
                  rintro rfl
                  exact hexport String.ofList_toList
                rw [variableOpening, hw, Option.bind_some]
                dsimp only
                rw [if_neg hne]
              · split
                · exact opens_expressionStatement _
                · exact opens_none
            · exact opens_or (opens_map _ fun _ => rfl) (opens_expressionStatement _)

/-- **A statement that declares variables reads them behind the words in front of them.** -/
theorem opens_statement : Opens r (skip cs) (statement r cs) := by
  unfold statement
  dsimp only
  split
  · exact opens_none
  · exact opens_some rfl
  · exact opens_map _ fun _ => rfl
  · next rest heq =>
    split
    · next w rest hword => exact opens_wordStatement hword
    · exact opens_none
  · next hnone hsemicolon hbrace hat =>
    split
    · next w rest hword =>
      have hdecorator : decoratorEnd r (skip cs) = none := by
        refine decoratorEnd_eq_none fun hhead => ?_
        rw [skip_skip] at hhead
        obtain ⟨tail, htail⟩ := List.head?_eq_some_iff.1 hhead
        exact hat tail htail
      refine opens_wordStatement ?_
      rw [many_eq_self hdecorator, word, skip_skip, hword]
    · exact opens_expressionStatement _

/-! ### The items of a source -/

/-- The rule for variables keeps its start and whether they are exported. -/
theorem exists_declarators_of_declaring {exported exported' sound : Bool} {ds : List Declarator}
    {g : Fragment} {behind : Chars}
    (h : declaring r exported start rest = some (.declaring exported' sound ds g, behind)) :
    exported' = exported ∧ sound = true ∧ g.start = start ∧
      ∃ stop, declarators r rest = some (ds, stop) := by
  rw [declaring, Option.bind_eq_bind, Option.bind_eq_some_iff] at h
  obtain ⟨⟨ds', stop⟩, hds, h⟩ := h
  rw [Option.bind_eq_bind, Option.bind_eq_some_iff] at h
  obtain ⟨stop', -, h⟩ := h
  cases h
  exact ⟨rfl, rfl, rfl, stop, hds⟩

/-- A statement that does not follow the grammar declares no variables that do. -/
theorem not_isSound_damagedStatement
    (h : (damagedStatement r start).1.isVariables = true) :
    (damagedStatement r start).1.isSound = false := by
  unfold damagedStatement at h ⊢
  split
  · next found hexport =>
    rw [hexport] at h
    dsimp only at h
    rw [damagedExport] at hexport
    simp only [Option.bind_eq_bind, Option.bind_eq_some_iff] at hexport
    obtain ⟨_, -, _, -, _, -, _, -, _, -, _, -, hfound⟩ := hexport
    cases hfound
    cases h
  · next hexport =>
    rw [hexport] at h
    dsimp only at h ⊢
    split
    · rfl
    · next stop hstop =>
      rw [hstop] at h
      dsimp only at h ⊢
      split
      · rfl
      · split
        · next rest hkeyword =>
          cases hvariable : damagedVariable (keyword "export" start).isSome start rest stop with
          | none => rfl
          | some found =>
            simp only [damagedVariable, Option.bind_eq_bind, Option.bind_eq_some_iff] at hvariable
            obtain ⟨_, -, _, -, hfound⟩ := hvariable
            cases hfound
            rfl
        · rfl

/-- Variables that follow the grammar are read from a statement. -/
theorem exists_statement_of_mem_itemsFrom {found : Item} (hvariables : found.isVariables = true)
    (hsound : found.isSound = true) {fuel : ℕ} (h : found ∈ itemsFrom r fuel cs) :
    ∃ cs' behind, statement r cs' = some (found, behind) := by
  induction fuel generalizing cs with
  | zero => cases h
  | succ fuel ih =>
    rw [itemsFrom] at h
    split at h
    · cases h
    · next c rest _ =>
      split at h
      · rcases List.mem_cons.1 h with rfl | h
        · cases hvariables
        · exact ih h
      · split at h
        · next behind hstatement =>
          rcases List.mem_cons.1 h with rfl | h
          · exact ⟨_, _, hstatement⟩
          · exact ih h
        · have hcases : found = (damagedStatement r (c :: rest)).1 ∨
              found ∈ itemsFrom r fuel (damagedStatement r (c :: rest)).2 := List.mem_cons.1 h
          rcases hcases with rfl | h
          · rw [not_isSound_damagedStatement hvariables] at hsound
            cases hsound
          · exact ih h

/-- Variables that follow the grammar are read by the rule for variables, behind the words in front
of them. -/
theorem exists_opening_of_mem_items {source : Chars} {exported : Bool} {ds : List Declarator}
    {g : Fragment} (h : .declaring exported true ds g ∈ items source) :
    ∃ exported' w behind rest,
      variableOpening (reader (source.length + 1)) g.start = some (exported', w, behind) ∧
        declaring (reader (source.length + 1)) exported' g.start behind =
          some (.declaring exported true ds g, rest) := by
  have hfrom : ∃ fuel cs, .declaring exported true ds g ∈
      itemsFrom (reader (source.length + 1)) fuel cs := by
    unfold items at h
    dsimp only at h
    split at h
    · rcases List.mem_cons.1 h with h | h
      · cases h
      · exact ⟨_, _, h⟩
    · exact ⟨_, _, h⟩
  obtain ⟨fuel, cs, hmem⟩ := hfrom
  obtain ⟨cs', rest, hstatement⟩ := exists_statement_of_mem_itemsFrom rfl rfl hmem
  obtain ⟨exported', w, behind, hopening, hdeclaring⟩ := opens_statement _ hstatement rfl
  obtain ⟨-, -, hstart, -⟩ := exists_declarators_of_declaring hdeclaring
  rw [← hstart] at hopening hdeclaring
  exact ⟨exported', w, behind, rest, hopening, hdeclaring⟩

/-- **Variables that follow the grammar are read behind the words in front of them.** -/
theorem exists_declaring_of_mem_items {source : Chars} {exported : Bool} {ds : List Declarator}
    {g : Fragment} (h : .declaring exported true ds g ∈ items source) :
    ∃ w behind stop,
      variableOpening (reader (source.length + 1)) g.start = some (exported, w, behind) ∧
        declarators (reader (source.length + 1)) behind = some (ds, stop) := by
  obtain ⟨exported', w, behind, rest, hopening, hdeclaring⟩ := exists_opening_of_mem_items h
  obtain ⟨rfl, -, -, stop, hds⟩ := exists_declarators_of_declaring hdeclaring
  exact ⟨w, behind, stop, hopening, hds⟩

/-! ### One variable -/

/-- Variables are read one after the other, the first one first. -/
theorem prefix_extendFrom_moreDeclarators (fuel : ℕ) (before : List Declarator) (cs : Chars) :
    before <+: (extendFrom (moreDeclarators r) fuel before cs).1 := by
  induction fuel generalizing before cs with
  | zero => exact List.prefix_rfl
  | succ fuel ih =>
    rw [extendFrom]
    split
    · next ds rest hmore =>
      simp only [moreDeclarators, Option.bind_eq_bind, Option.bind_eq_some_iff] at hmore
      obtain ⟨_, -, ⟨d, _⟩, -, hds⟩ := hmore
      cases hds
      exact (List.prefix_append before [d]).trans (ih _ _)
    · exact List.prefix_rfl

/-- The only variable of a statement is the first one. -/
theorem exists_declarator_of_singleton {d : Declarator} {stop : Chars}
    (h : declarators r cs = some ([d], stop)) : ∃ rest, declarator r cs = some (d, rest) := by
  rw [declarators, Option.bind_eq_bind, Option.bind_eq_some_iff] at h
  obtain ⟨⟨first, rest⟩, hfirst, h⟩ := h
  have hprefix : [first] <+: [d] := by
    have hextend := prefix_extendFrom_moreDeclarators (r := r) (rest.length + 1) [first] rest
    rw [show extendFrom (moreDeclarators r) (rest.length + 1) [first] rest = ([d], stop) from
      Option.some.inj h] at hextend
    exact hextend
  obtain ⟨rfl, -⟩ := List.cons_prefix_cons.1 hprefix
  exact ⟨rest, hfirst⟩

/-- What stands between the name of a variable and its initializer is left out. -/
theorem declarator_eq_some {d : Declarator} {name : Fragment} {value : Expr} {stop : Chars}
    (h : declarator r cs = some (d, stop)) (hname : d.name = some name)
    (hvalue : d.value = some value) :
    ∃ behind initial, r.patternEnd (skip cs) = some behind ∧ name = ⟨skip cs, behind⟩ ∧
      (skip cs).head? ≠ some '\x7b' ∧ (skip cs).head? ≠ some '[' ∧
      operatorMark "=" (optional (annotationEnd r true) (optional (mark "!") behind)) =
        some initial ∧
      ∃ rest, r.expression true initial = some (value, rest) := by
  simp only [declarator, Option.bind_eq_bind, Option.bind_eq_some_iff] at h
  obtain ⟨behind, hbehind, h⟩ := h
  split at h
  · next initial hinitial =>
    rw [Option.bind_eq_some_iff] at h
    obtain ⟨⟨value', rest⟩, hexpression, h⟩ := h
    cases h
    cases hvalue
    dsimp only at hname
    split at hname
    · cases hname
    · next hhead =>
      cases hname
      rw [Bool.or_eq_true, not_or, decide_eq_true_iff, decide_eq_true_iff] at hhead
      exact ⟨behind, initial, hbehind, rfl, hhead.1, hhead.2, hinitial, rest, hexpression⟩
  · cases h
    cases hvalue

end Source

end ModuleScaffold
