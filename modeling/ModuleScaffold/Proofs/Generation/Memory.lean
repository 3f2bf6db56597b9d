import ModuleScaffold.Files

/-!
# Runs over files in memory

A file that is put in memory is found under every path that denotes the same, and no other file
changes. `ModuleScaffold.Run.Ends` says how a run over files in memory ends, with a result or with a
failure, and what it leaves behind, and `ModuleScaffold.Run.Returns` says the same of runs that
succeed. A run that consists of steps returns if its steps return one after the other, and fails if
one of them fails after those before it have returned.

Main statements:

* `ModuleScaffold.Memory.get?_put` – **a put file is found, and it is the only one that changes**;
* `ModuleScaffold.Run.ends_bind_iff` – **steps are carried out one after the other, up to the first
  that fails**.
-/

namespace ModuleScaffold

/-! ### Paths that denote the same -/

namespace Path

theorem same_iff {a b : Path} : a.same b = true ↔ a.components = b.components :=
  beq_iff_eq

theorem same_refl (a : Path) : a.same a = true :=
  same_iff.2 rfl

theorem same_symm {a b : Path} (h : a.same b = true) : b.same a = true :=
  same_iff.2 (same_iff.1 h).symm

/-- Paths that denote the same cannot be told apart. -/
theorem same_congr {a b : Path} (h : a.same b = true) (c : Path) : a.same c = b.same c := by
  rw [Bool.eq_iff_iff, same_iff, same_iff, same_iff.1 h]

end Path

/-! ### Files in memory -/

namespace Memory

/-- Paths that denote the same have the same file. -/
theorem get?_congr {memory : Memory} {a b : Path} (h : a.same b = true) :
    memory.get? a = memory.get? b := by
  have hfind : (fun f : TextFile => f.path.same a) = fun f => f.path.same b := by
    funext f
    rw [Bool.eq_iff_iff, Path.same_iff, Path.same_iff, Path.same_iff.1 h]
  rw [get?, get?, hfind]

/-- The file that is found under a path after another file was put there. -/
theorem find?_putIn (path : Path) (text : String) (q : Path) : ∀ files : List TextFile,
    ((putIn path text files).find? (·.path.same q)).map (·.text) =
      if path.same q then some text else (files.find? (·.path.same q)).map (·.text)
  | [] => by
    rw [putIn, List.find?_cons]
    cases path.same q <;> rfl
  | f :: fs => by
    rw [putIn]
    split
    · rw [List.find?_cons]
      cases path.same q <;> rfl
    · split
      · next hsame =>
        -- the file keeps the path under which it was put there first
        rw [List.find?_cons, List.find?_cons, Path.same_congr hsame q]
        cases path.same q <;> rfl
      · next hapart =>
        rw [List.find?_cons, List.find?_cons]
        cases hq : f.path.same q with
        | true =>
          have hpath : path.same q = false := by
            rw [Bool.eq_false_iff]
            intro hpath
            rw [Path.same_congr hq] at hapart
            exact hapart (Path.same_symm hpath)
          rw [hpath]
          rfl
        | false => exact find?_putIn path text q fs

/-- **A put file is found under its path, and no other file changes.** -/
theorem get?_put (memory : Memory) (path : Path) (text : String) (q : Path) :
    (memory.put path text).get? q = if path.same q then some text else memory.get? q :=
  find?_putIn path text q memory.files

theorem get?_put_self (memory : Memory) (path : Path) (text : String) :
    (memory.put path text).get? path = some text := by
  rw [get?_put, if_pos path.same_refl]

theorem get?_put_of_apart {path q : Path} (memory : Memory) (text : String)
    (h : path.same q = false) : (memory.put path text).get? q = memory.get? q := by
  rw [get?_put, h]
  rfl

/-- A file that is there is still there after any file was put. -/
theorem isSome_get?_put {memory : Memory} {q : Path} (path : Path) (text : String)
    (h : (memory.get? q).isSome = true) : ((memory.put path text).get? q).isSome = true := by
  rw [get?_put]
  split
  · rfl
  · exact h

end Memory

/-! ### Runs -/

namespace Run

variable {α β : Type} {memory after : Memory}

/-- A run over files in memory ends with an outcome, a result or a failure, and leaves the files
`after`. -/
def Ends (run : Run (StateM Memory) α) (memory : Memory) (outcome : Except Failure α)
    (after : Memory) : Prop :=
  ExceptT.run run memory = (outcome, after)

/-- A run over files in memory succeeds with a result and leaves the files `after`. -/
def Returns (run : Run (StateM Memory) α) (memory : Memory) (result : α) (after : Memory) :
    Prop :=
  ExceptT.run run memory = (.ok result, after)

theorem ends_ok_iff {run : Run (StateM Memory) α} {result : α} :
    Ends run memory (.ok result) after ↔ Returns run memory result after :=
  Iff.rfl

/-- Every run ends. -/
theorem exists_ends (run : Run (StateM Memory) α) (memory : Memory) :
    ∃ outcome after, Ends run memory outcome after :=
  ⟨_, _, rfl⟩

/-- A run ends in one way. -/
theorem Ends.unique {run : Run (StateM Memory) α} {outcome outcome' : Except Failure α}
    {after' : Memory} (h : Ends run memory outcome after) (h' : Ends run memory outcome' after') :
    outcome = outcome' ∧ after = after' :=
  Prod.mk.inj (h.symm.trans h')

/-- A run has one result. -/
theorem Returns.unique {run : Run (StateM Memory) α} {result result' : α} {after' : Memory}
    (h : Returns run memory result after) (h' : Returns run memory result' after') :
    result = result' ∧ after = after' := by
  obtain ⟨hresult, hafter⟩ := Ends.unique h h'
  exact ⟨Except.ok.inj hresult, hafter⟩

/-! ### Steps -/

/-- A step that does not fail and leaves `between` ends in one way. -/
theorem ends_iff_of_returns {run : Run (StateM Memory) α} {a : α} {between : Memory}
    {outcome : Except Failure α} (h : Returns run memory a between) :
    Ends run memory outcome after ↔ outcome = .ok a ∧ after = between := by
  constructor
  · exact fun hends => Ends.unique hends h
  · rintro ⟨rfl, rfl⟩
    exact h

theorem returns_iff_of_returns {run : Run (StateM Memory) α} {a result : α} {between : Memory}
    (h : Returns run memory a between) :
    Returns run memory result after ↔ result = a ∧ after = between := by
  rw [← ends_ok_iff, ends_iff_of_returns h, Except.ok.injEq]

theorem returns_pure_iff {a result : α} :
    Returns (pure a) memory result after ↔ result = a ∧ after = memory :=
  returns_iff_of_returns rfl

theorem returns_read_iff {path : Path} {result : Option String} :
    Returns (Files.memory.read path) memory result after ↔
      result = memory.get? path ∧ after = memory :=
  returns_iff_of_returns rfl

theorem returns_write_iff {path : Path} {text : String} {result : Unit} :
    Returns (Files.memory.write path text) memory result after ↔
      after = memory.put path text :=
  (returns_iff_of_returns rfl).trans (and_iff_right rfl)

theorem ends_ofExcept_iff {ε : Type} {failure : ε → Failure} {r : Except ε α}
    {outcome : Except Failure α} :
    Ends (ofExcept failure r) memory outcome after ↔
      outcome = r.mapError failure ∧ after = memory := by
  change ((r.mapError failure, memory) : Except Failure α × Memory) = (outcome, after) ↔ _
  rw [Prod.mk.injEq, eq_comm (a := outcome), eq_comm (a := after)]

theorem returns_ofExcept_iff {ε : Type} {failure : ε → Failure} {r : Except ε α} {result : α} :
    Returns (ofExcept failure r) memory result after ↔ r = .ok result ∧ after = memory := by
  rw [← ends_ok_iff, ends_ofExcept_iff]
  cases r with
  | error e => exact and_congr_left' ⟨nofun, nofun⟩
  | ok a =>
    change (Except.ok result : Except Failure α) = .ok a ∧ _ ↔ _
    rw [Except.ok.injEq, Except.ok.injEq, eq_comm (a := result)]

/-- **Steps are carried out one after the other, up to the first that fails.** -/
theorem ends_bind_iff {x : Run (StateM Memory) α} {f : α → Run (StateM Memory) β}
    {outcome : Except Failure β} : Ends (x >>= f) memory outcome after ↔
      (∃ e, outcome = .error e ∧ Ends x memory (.error e) after) ∨
        ∃ a between, Returns x memory a between ∧ Ends (f a) between outcome after := by
  have hbind : ExceptT.run (x >>= f) memory =
      match ExceptT.run x memory with
      | (.ok a, between) => ExceptT.run (f a) between
      | (.error e, between) => (.error e, between) := by
    change (match ExceptT.run x memory with
      | (r, between) => ExceptT.bindCont f r between) = _
    rcases ExceptT.run x memory with ⟨_ | a, between⟩ <;> rfl
  unfold Returns Ends
  rw [hbind]
  rcases ExceptT.run x memory with ⟨e | a, between⟩
  · constructor
    · intro h
      cases h
      exact .inl ⟨e, rfl, rfl⟩
    · rintro (⟨e', rfl, h⟩ | ⟨a, between', h, -⟩) <;> cases h
      rfl
  · constructor
    · exact fun h => .inr ⟨a, between, rfl, h⟩
    · rintro (⟨e', -, h⟩ | ⟨a', between', h, hf⟩) <;> cases h
      exact hf

/-- **Steps return one after the other.** -/
theorem returns_bind_iff {x : Run (StateM Memory) α} {f : α → Run (StateM Memory) β}
    {result : β} : Returns (x >>= f) memory result after ↔
      ∃ a between, Returns x memory a between ∧ Returns (f a) between result after := by
  rw [← ends_ok_iff, ends_bind_iff]
  refine or_iff_right ?_
  rintro ⟨e, h, -⟩
  cases h

/-- After a step that returns, a run ends as what remains of it does. -/
theorem ends_bind_iff_of_returns {x : Run (StateM Memory) α} {f : α → Run (StateM Memory) β}
    {a : α} {between : Memory} {outcome : Except Failure β} (h : Returns x memory a between) :
    Ends (x >>= f) memory outcome after ↔ Ends (f a) between outcome after := by
  rw [ends_bind_iff]
  constructor
  · rintro (⟨e, -, hfails⟩ | ⟨a', between', hreturns, hrest⟩)
    · cases (Ends.unique hfails h).1
    · obtain ⟨rfl, rfl⟩ := hreturns.unique h
      exact hrest
  · exact fun hrest => .inr ⟨a, between, h, hrest⟩

/-- A computation is carried out before what remains of a run. -/
theorem ends_ofExcept_bind_iff {ε : Type} {failure : ε → Failure} {r : Except ε α}
    {f : α → Run (StateM Memory) β} {outcome : Except Failure β} :
    Ends (ofExcept failure r >>= f) memory outcome after ↔
      (∃ problem, r = .error problem ∧ outcome = .error (failure problem) ∧ after = memory) ∨
        ∃ a, r = .ok a ∧ Ends (f a) memory outcome after := by
  cases r with
  | error problem =>
    have hfails : Ends (ofExcept failure (.error problem : Except ε α) >>= f) memory
        (.error (failure problem)) memory := rfl
    constructor
    · intro h
      obtain ⟨houtcome, hafter⟩ := h.unique hfails
      exact .inl ⟨problem, rfl, houtcome, hafter⟩
    · rintro (⟨problem', h, rfl, rfl⟩ | ⟨a, h, -⟩) <;> cases h
      exact hfails
  | ok a =>
    rw [ends_bind_iff_of_returns (returns_ofExcept_iff.2 ⟨rfl, rfl⟩)]
    constructor
    · exact fun h => .inr ⟨a, rfl, h⟩
    · rintro (⟨problem, h, -, -⟩ | ⟨a', h, hrest⟩) <;> cases h
      exact hrest

/-- A step that fails is the last one. -/
theorem ends_bind_of_error {x : Run (StateM Memory) α} {f : α → Run (StateM Memory) β}
    {e : Failure} (h : Ends x memory (.error e) after) : Ends (x >>= f) memory (.error e) after :=
  ends_bind_iff.2 (.inl ⟨e, rfl, h⟩)

end Run

end ModuleScaffold
