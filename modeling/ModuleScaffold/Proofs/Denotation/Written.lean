import ModuleScaffold.Proofs.Reading.Layout
import ModuleScaffold.Source.Accept

/-!
# What written values denote

A text *denotes* a datum (`ModuleScaffold.Source.Denotes`) if the rule for expressions takes exactly
that text wherever the end of an element follows, and the tree that it gives denotes the datum. A
value that can be written denotes the datum that it is, on one line or on several, if its references
can be read. So an argument is written with the meaning that it was read with exactly if nothing of
it is lost in the reading.

Main statements:

* `ModuleScaffold.Value.layout_denotes` – **a written value denotes itself**;
* `ModuleScaffold.Source.denotes_layout_iff` – **an argument keeps its meaning exactly if it is
  plain**.
-/

namespace ModuleScaffold

namespace Source

/-- A text is read as an expression that denotes the datum, wherever the end of an element
follows. -/
structure Denotes (text : Chars) (d : Datum) : Prop where
  /-- The text can be told from the marks of a list. -/
  begins : Begins text
  /-- It is read, and it denotes the datum. -/
  reads : ∀ {depth : ℕ} {cs rest : Chars}, text.length ≤ depth → Ends rest →
    skip cs = text ++ rest → ∃ e, (reader depth).expression false cs = some (e, rest) ∧
      e.datum = some d

/-- A text denotes one datum at most. -/
theorem Denotes.unique {text : Chars} {d d' : Datum} (h : Denotes text d) (h' : Denotes text d') :
    d = d' := by
  have hends : Ends [')'] := ⟨')', by decide, [], skip_mark (by decide)⟩
  have hskip := h.begins.kept [')']
  obtain ⟨e, he, hd⟩ := h.reads (Nat.le_refl _) hends hskip
  obtain ⟨e', he', hd'⟩ := h'.reads (Nat.le_refl _) hends hskip
  rw [he] at he'
  obtain ⟨rfl, -⟩ := Prod.mk.inj (Option.some.inj he')
  rw [hd] at hd'
  exact Option.some.inj hd'

/-- A text that is read as a value denotes the value. -/
theorem ReadsAs.denotes {v : Value} {text : Chars} (h : ReadsAs v text) : Denotes text v.datum := by
  refine ⟨h.begins, fun hdepth hrest hskip => ?_⟩
  obtain ⟨e, he, -, hv⟩ := h.reads hdepth hrest hskip
  exact ⟨e, he, (e.datum_eq_iff hv.value).2 hv.plain⟩

end Source

open Source

/-- **A written value denotes itself**, however its lines are broken. -/
theorem Value.layout_denotes {v : Value} (h : v.problem? = none)
    (hreadable : v.isReadable = true) (indent used : ℕ) :
    Denotes (v.layout indent used) v.datum :=
  (v.layout_readsAs indent used (isRegular_of_isReadable h hreadable)).denotes

namespace Source

/-! ### Arguments -/

/-- What is read of an argument: its first expression, which has the value. -/
theorem exists_expression_of_readValue {text : String} {v : Value} (h : readValue text = .ok v) :
    ∃ e, firstExpression (items ('(' :: (text.toList ++ [')', ';']))) = some e ∧
      e.value = .ok v ∧ v.problem? = none := by
  rw [readValue] at h
  split at h
  · split at h
    · cases h
    · next e he =>
      split at h
      · cases h
      · next w hw =>
        cases hproblem : w.problem? with
        | some p =>
          rw [hproblem] at h
          cases h
        | none =>
          rw [hproblem] at h
          obtain rfl := Except.ok.inj h
          exact ⟨e, he, hw, hproblem⟩
  · cases h

/-- **An argument keeps its meaning exactly if it is plain**: the texts that its value is written
with denote what the argument denotes. -/
theorem denotes_layout_iff {text : String} {v : Value} {e : Expr} (h : readValue text = .ok v)
    (he : firstExpression (items ('(' :: (text.toList ++ [')', ';']))) = some e)
    (hreadable : v.isReadable = true) :
    (∃ d, e.datum = some d ∧ ∀ indent used, Denotes (v.layout indent used) d) ↔
      e.isPlain = true := by
  obtain ⟨e', he', hv, hproblem⟩ := exists_expression_of_readValue h
  obtain rfl := Option.some.inj (he'.symm.trans he)
  have hwritten := v.layout_denotes hproblem hreadable
  rw [← e'.datum_eq_iff hv]
  constructor
  · rintro ⟨d, hd, hdenotes⟩
    rw [hd, (hdenotes 0 0).unique (hwritten 0 0)]
  · exact fun hd => ⟨_, hd, hwritten⟩

end Source

end ModuleScaffold
