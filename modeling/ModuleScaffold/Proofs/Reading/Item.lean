import ModuleScaffold.Proofs.Reading.Lexeme
import ModuleScaffold.Source.Program

/-!
# Items that are read back

A source is read item by item, and a statement that is written with its semicolon is an item: no
comment begins there, and what remains is read in the same way. Nothing continues an expression in
front of a semicolon.

Main statement: `ModuleScaffold.Source.itemsFrom_statement` – **a statement is the first item**, and
the others are read from what remains.
-/

namespace ModuleScaffold

namespace Source

/-! ### Statements -/

/-- What begins a statement that is neither a comment nor the name of an interpreter. -/
structure Leads (c : Char) : Prop where
  /-- It is no blank. -/
  space : isSpace c = false
  /-- It starts no comment. -/
  slash : c ≠ '/'
  /-- It starts no line for an interpreter. -/
  hash : c ≠ '#'

theorem comment?_eq_none {c : Char} {cs : Chars} (h : c ≠ '/') : comment? (c :: cs) = none := by
  rw [comment?]
  · rintro ds h'
    exact h (List.cons.inj h').1
  · rintro ds h'
    exact h (List.cons.inj h').1

/-- **A statement is the first item**, and the others are read from what remains. -/
theorem itemsFrom_statement {r : Reader} {c : Char} {cs behind : Chars} {found : Item} (hc : Leads c)
    (h : statement r (c :: cs) = some (found, behind)) (fuel : ℕ) :
    itemsFrom r (fuel + 1) (c :: cs) = found :: itemsFrom r fuel behind := by
  have hdrop : (c :: cs).dropWhile isSpace = c :: cs := by
    rw [List.dropWhile_cons, if_neg (by simp [hc.space])]
  rw [itemsFrom, hdrop]
  simp only [comment?_eq_none hc.slash, h]

theorem items_eq {c : Char} {cs : Chars} (hc : Leads c) :
    items (c :: cs) = itemsFrom (reader ((c :: cs).length + 1)) ((c :: cs).length + 1) (c :: cs) := by
  rw [items]
  rintro rest h
  exact hc.hash (List.cons.inj h).1

theorem skip_semicolon (rest : Chars) : skip (';' :: rest) = ';' :: rest :=
  skip_cons (by decide) (by decide)

/-- Nothing that continues an expression starts with a semicolon. -/
theorem operator_semicolon (rest : Chars) : operator (';' :: rest) = none :=
  operator_eq_none (skip_semicolon rest) (by decide)

theorem word_semicolon (rest : Chars) : word (';' :: rest) = none := by
  rw [word, skip_semicolon]
  refine wordHere_eq_none ?_
  rintro d hd
  obtain rfl : ';' = d := by simpa using hd
  decide

theorem endStatement_semicolon (afterExpression : Bool) (rest : Chars) :
    endStatement afterExpression (';' :: rest) = some rest := by
  rw [endStatement, mark_of_skip ";" rfl (skip_semicolon rest)]

/-- An expression without a comma behind it. -/
theorem sequence_of_expression {r : Reader} {lineEnds : Bool} {cs rest : Chars} {e : Expr}
    (h : r.expression lineEnds cs = some (e, rest)) (hcomma : mark "," rest = none) :
    sequence r lineEnds cs = some (e, rest) := by
  rw [sequence, h]
  simp [hcomma]

end Source

end ModuleScaffold
