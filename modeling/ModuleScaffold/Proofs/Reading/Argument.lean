import ModuleScaffold.Proofs.Reading.Item
import ModuleScaffold.Proofs.Reading.Layout
import ModuleScaffold.Source.Accept

/-!
# Arguments that are read back

An argument is read as a statement: it is put into parentheses, and the value of the first
expression is taken. So a value that is written as an argument is read back if its text is read as
an expression inside brackets. This is so unless a word of the language stands in the place of a
name (`ModuleScaffold.Value.isReadable`): what can be written is checked by the characters of names
only, and these words have them, too.

Main statements:

* `ModuleScaffold.Source.items_argument` – **an argument is one expression in parentheses**;
* `ModuleScaffold.Value.readValue_render` – **a value that can be written is read back if its
  references can be read**.
-/

namespace ModuleScaffold

namespace Source

/-- A text in parentheses that is read as a value, with a semicolon behind it. -/
theorem statement_parenthesized {v : Value} {text : Chars} (h : ReadsAs v text) {depth : ℕ}
    (hdepth : text.length ≤ depth) : ∃ e, e.Stands v ∧ ∃ f g,
      statement (reader (depth + 1)) ('(' :: (text ++ [')', ';'])) =
        some (.expression (.parenthesized e f) g, []) := by
  have hends : Ends [')', ';'] := ⟨')', by decide, [';'], skip_mark (by decide)⟩
  have hclosing : skip [')', ';'] = [')', ';'] := skip_mark (by decide)
  obtain ⟨e, he, -, hstands⟩ := h.reads hdepth hends (h.begins.kept [')', ';'])
  have hmark : IsMark '(' := ⟨by decide, by decide, by decide, fun tail =>
    wordHere_eq_none (stopsWord_cons (by decide) (by decide))⟩
  have hkept := hmark.kept (text ++ [')', ';'])
  have hinner : sequence (reader depth) false (text ++ [')', ';']) = some (e, [')', ';']) :=
    sequence_of_expression he (mark_eq_none "," rfl hclosing (by decide))
  have hprimary : primaryRule (reader depth) ('(' :: (text ++ [')', ';'])) =
      some (.parenthesized e ⟨'(' :: (text ++ [')', ';']), [';']⟩, [';']) := by
    have hannotation : annotationEnd (reader depth) false [')', ';'] = none := by
      rw [annotationEnd, mark_eq_none ":" rfl hclosing (by decide)]
      rfl
    rw [primaryRule, hkept]
    simp only
    rw [if_pos trivial, parenthesizedExpression, hinner]
    simp [optional, hannotation, mark_of_skip ")" rfl hclosing]
  have hsuffixed : suffixed (reader depth) true ('(' :: (text ++ [')', ';'])) =
      some (.parenthesized e ⟨'(' :: (text ++ [')', ';']), [';']⟩, [';']) := by
    rw [suffixed, hprimary]
    exact congrArg some (extend_eq_self rfl)
  have hexpression : (reader (depth + 1)).expression true ('(' :: (text ++ [')', ';'])) =
      some (.parenthesized e ⟨'(' :: (text ++ [')', ';']), [';']⟩, [';']) := by
    change expressionRule (reader depth) true ('(' :: (text ++ [')', ';'])) = _
    refine expressionRule_of_operator (mayBeAsynchronous_of_mark ?_) ?_ (operator_semicolon [])
      (word_semicolon [])
    · rw [hkept]
      exact hmark.word _
    · rw [operandRule_of_mark hkept hkept hmark.operator (hmark.word _)]
      exact counted_of_operator hsuffixed (operator_semicolon [])
  have hsequence := sequence_of_expression hexpression
    (mark_eq_none "," rfl (skip_semicolon []) (by decide))
  have hstatement : expressionStatement (reader (depth + 1)) ('(' :: (text ++ [')', ';'])) =
      some (.expression (.parenthesized e ⟨'(' :: (text ++ [')', ';']), [';']⟩)
        ⟨'(' :: (text ++ [')', ';']), []⟩, []) := by
    rw [expressionStatement, hsequence]
    simp [endStatement_semicolon]
  refine ⟨e, hstands, ⟨'(' :: (text ++ [')', ';']), [';']⟩, ⟨'(' :: (text ++ [')', ';']), []⟩, ?_⟩
  rw [statement, hkept]
  simp only [hmark.word]
  exact hstatement

/-- **An argument is one expression in parentheses.** -/
theorem items_argument {v : Value} {text : Chars} (h : ReadsAs v text) : ∃ e, e.Stands v ∧ ∃ f g,
    items ('(' :: (text ++ [')', ';'])) = [.expression (.parenthesized e f) g] := by
  have hleads : Leads '(' := ⟨by decide, by decide, by decide⟩
  have hlength : ('(' :: (text ++ [')', ';'])).length = text.length + 3 := by
    rw [List.length_cons, List.length_append]
    rfl
  obtain ⟨e, he, f, g, hstatement⟩ := statement_parenthesized h (Nat.le_add_right _ 3)
  refine ⟨e, he, f, g, ?_⟩
  rw [items_eq hleads, hlength, itemsFrom_statement hleads hstatement]
  rfl

/-- A text that is read as a value is accepted as an argument if the value can be written. -/
theorem readValue_of_readsAs {v : Value} {text : String} (h : ReadsAs v text.toList)
    (hproblem : v.problem? = none) : readValue text = .ok v := by
  obtain ⟨e, he, f, g, hitems⟩ := items_argument h
  have hvalue : (Expr.parenthesized e f).value = .ok v := by rw [Expr.value, he.value]
  have hsound : [Item.expression (.parenthesized e f) g].all Item.isSound = true := rfl
  rw [readValue, hitems, if_pos hsound, firstExpression]
  simp only [hvalue, hproblem]

end Source

namespace Value

open Source

/-- **A value that can be written is read back if its references can be read.** -/
theorem readValue_render {v : Value} (h : v.problem? = none) (hreadable : v.isReadable = true) :
    readValue (String.ofList v.render) = .ok v := by
  refine readValue_of_readsAs ?_ h
  rw [String.toList_ofList]
  exact v.render_readsAs (isRegular_of_isReadable h hreadable)

/-- A call with references that begin with words of the language. -/
def referring : Value :=
  .call "new.target.check" [.identifier "this.limit",
    .object [("true", .identifier "true"), ("a-b", .regex "^\\/a$" "i")],
    .array [.number (.ofRank true (1023 * Number.blockSize)), .string "a\n\"b\""],
    .call "import" [.string "zod", .identifier "new"], .null]

/-- The call is read back. -/
theorem readValue_render_referring : referring.problem? = none ∧ referring.isReadable = true ∧
    readValue (String.ofList referring.render) = .ok referring := by
  have hproblem : referring.problem? = none := by decide +kernel
  have hreadable : referring.isReadable = true := by decide +kernel
  exact ⟨hproblem, hreadable, readValue_render hproblem hreadable⟩

/-- Whether a reference has been read, or a call. -/
def refers : Except Rejection Value → Bool
  | .ok (.identifier _) | .ok (.call ..) => true
  | _ => false

/-- **Words of the language can be written as references, and they are not read back**: neither
alone, nor with a call behind them. -/
theorem readValue_render_words :
    (∀ w ∈ ["import"] ++ openingWords ++ valueWords, (identifier w).problem? = none ∧
      readValue (String.ofList (identifier w).render) ≠ .ok (.identifier w)) ∧
    ∀ w ∈ ["new"] ++ openingWords, (call w []).problem? = none ∧
      readValue (String.ofList (call w []).render) ≠ .ok (.call w []) := by
  have halone : ∀ w ∈ ["import"] ++ openingWords ++ valueWords, (identifier w).problem? = none ∧
      refers (readValue (String.ofList (identifier w).render)) = false := by
    decide +kernel
  have hcalled : ∀ w ∈ ["new"] ++ openingWords, (call w []).problem? = none ∧
      refers (readValue (String.ofList (call w []).render)) = false := by
    decide +kernel
  refine ⟨fun w hw => ⟨(halone w hw).1, fun h => ?_⟩, fun w hw => ⟨(hcalled w hw).1, fun h => ?_⟩⟩
  · have hrefers := (halone w hw).2
    rw [h] at hrefers
    cases hrefers
  · have hrefers := (hcalled w hw).2
    rw [h] at hrefers
    cases hrefers

end Value

end ModuleScaffold
