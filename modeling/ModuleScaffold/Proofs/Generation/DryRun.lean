import ModuleScaffold.Proofs.Generation.Writing

/-!
# Dry runs

A dry run leaves the disk alone and remembers what it would have written. What it reads is what was
recorded last for the path and, where nothing was recorded, what the disk holds; that is what the
disk would hold if the recorded writes had been carried out
(`ModuleScaffold.Pending.get?_replay`). So a dry run and a real run over files in memory go hand in
hand, whatever is read and written in between: they end in the same way, and the files of the real
run are those of the disk with the recorded writes carried out.

Main statements:

* `ModuleScaffold.Run.Simulates.bind` – **steps that go hand in hand are carried out hand in hand**;
* `ModuleScaffold.Generator.simulates_generate`, `ModuleScaffold.Generator.simulates_check` – **a
  generator goes hand in hand with itself**;
* `ModuleScaffold.Generator.dryRun_simulates_memory` – **a dry run answers as a real run does, and
  its writes lead to the files of the real run**.
-/

namespace ModuleScaffold

/-! ### Recorded writes -/

namespace Pending

variable {path q : Path} {text : String}

/-- The files of a disk on which the recorded writes have been carried out, in the order in which
they were recorded. -/
def replay (pending : Pending) (disk : Memory) : Memory :=
  pending.inOrder.foldl (fun memory f => memory.put f.path f.text) disk

theorem replay_put (pending : Pending) (path : Path) (text : String) (disk : Memory) :
    (pending.put path text).replay disk = (pending.replay disk).put path text := by
  rw [replay, replay, put, inOrder, inOrder, List.reverse_cons, List.foldl_append]
  rfl

theorem get?_put (pending : Pending) (path : Path) (text : String) (q : Path) :
    (pending.put path text).get? q = if path.same q then some text else pending.get? q := by
  rw [get?, put, List.find?_cons]
  cases path.same q <;> rfl

/-- **What is read in a dry run is what the disk would hold after the recorded writes.** -/
theorem get?_replay (pending : Pending) (disk : Memory) (q : Path) :
    (pending.replay disk).get? q = (pending.get? q).or (disk.get? q) := by
  obtain ⟨writes⟩ := pending
  induction writes with
  | nil => rfl
  | cons f writes ih =>
    have hput : (⟨f :: writes⟩ : Pending) = (⟨writes⟩ : Pending).put f.path f.text := rfl
    rw [hput, replay_put, Memory.get?_put, get?_put, ih]
    split <;> rfl

end Pending

/-! ### Runs that go hand in hand -/

/-- A run over a disk that is only read. -/
abbrev DryRun (α : Type) := Run (StateT Pending (StateM Memory)) α

namespace Run

variable {α β : Type}

/-- A dry run goes hand in hand with a run over files in memory: started on the files that the
recorded writes lead to, the latter ends in the same way and leaves the files that the writes
recorded by then lead to. The disk stays as it is. -/
def Simulates (dry : DryRun α) (run : Run (StateM Memory) α) : Prop :=
  ∀ (disk : Memory) (pending : Pending), ∃ outcome later,
    ExceptT.run dry pending disk = ((outcome, later), disk) ∧
      Ends run (pending.replay disk) outcome (later.replay disk)

theorem simulates_pure (a : α) : Simulates (pure a) (pure a) :=
  fun _ pending => ⟨.ok a, pending, rfl, rfl⟩

theorem simulates_ofExcept {ε : Type} (failure : ε → Failure) (r : Except ε α) :
    Simulates (ofExcept failure r) (ofExcept failure r) :=
  fun _ pending => ⟨r.mapError failure, pending, rfl, rfl⟩

/-- **Steps that go hand in hand are carried out hand in hand.** -/
theorem Simulates.bind {dry : DryRun α} {run : Run (StateM Memory) α} {f : α → DryRun β}
    {g : α → Run (StateM Memory) β} (h : Simulates dry run) (hrest : ∀ a, Simulates (f a) (g a)) :
    Simulates (dry >>= f) (run >>= g) := by
  intro disk pending
  obtain ⟨outcome, later, hdry, hrun⟩ := h disk pending
  have hbind : ExceptT.run (dry >>= f) pending disk =
      match ExceptT.run dry pending disk with
      | ((r, later), disk) => ExceptT.bindCont f r later disk := rfl
  rw [hdry] at hbind
  cases outcome with
  | error e => exact ⟨.error e, later, hbind, ends_bind_of_error hrun⟩
  | ok a =>
    obtain ⟨outcome, last, hdry', hrun'⟩ := hrest a disk later
    exact ⟨outcome, last, hbind.trans hdry', (ends_bind_iff_of_returns hrun).2 hrun'⟩

theorem simulates_read (path : Path) :
    Simulates ((Files.dryRun Files.memory).read path) (Files.memory.read path) := by
  intro disk pending
  refine ⟨.ok ((pending.get? path).or (disk.get? path)), pending, ?_, ?_⟩
  · -- the writes that are pending are looked at first
    have hread : ∀ {f : Pending → DryRun (Option String)},
        ExceptT.run (get >>= f) pending disk = ExceptT.run (f pending) pending disk := rfl
    rw [Files.dryRun]
    dsimp only
    rw [hread]
    cases pending.get? path <;> rfl
  · exact returns_read_iff.2 ⟨(pending.get?_replay disk path).symm, rfl⟩

theorem simulates_write (path : Path) (text : String) :
    Simulates ((Files.dryRun Files.memory).write path text) (Files.memory.write path text) :=
  fun disk pending =>
    ⟨.ok (), pending.put path text, rfl, returns_write_iff.2 (pending.replay_put path text disk)⟩

/-! ### Several runs -/

/-- The outcomes of runs, one after the other, whether they fail or not. -/
def outcomes {m : Type → Type} [Monad m] {ι : Type} (step : ι → Run m α) :
    List ι → m (List (Except Failure α))
  | [] => return []
  | i :: is => do return (← (step i).run) :: (← outcomes step is)

/-- Runs that go hand in hand have the same outcomes, one after the other. -/
theorem outcomes_simulates {ι : Type} {dry : ι → DryRun α} {step : ι → Run (StateM Memory) α}
    (h : ∀ i, Simulates (dry i) (step i)) (is : List ι) (disk : Memory) (pending : Pending) :
    ∃ results later, outcomes dry is pending disk = ((results, later), disk) ∧
      outcomes step is (pending.replay disk) = (results, later.replay disk) := by
  induction is generalizing pending with
  | nil => exact ⟨[], pending, rfl, rfl⟩
  | cons i is ih =>
    obtain ⟨outcome, between, hdry, hrun⟩ := h i disk pending
    obtain ⟨results, later, hdrys, hruns⟩ := ih between
    refine ⟨outcome :: results, later, ?_, ?_⟩
    · change (match ExceptT.run (dry i) pending disk with
        | ((outcome, between), disk) => match outcomes dry is between disk with
          | ((results, later), disk) => ((outcome :: results, later), disk)) = _
      rw [hdry]
      dsimp only
      rw [hdrys]
    · change (match ExceptT.run (step i) (pending.replay disk) with
        | (outcome, between) => match outcomes step is between with
          | (results, later) => (outcome :: results, later)) = _
      rw [show ExceptT.run (step i) (pending.replay disk) = _ from hrun]
      dsimp only
      rw [hruns]

end Run

/-! ### Files -/

namespace Files

/-- What can be asked of files. -/
inductive Access
  /-- The text of a file. -/
  | read (path : Path)
  /-- That a file hold a text. -/
  | write (path : Path) (text : String)

/-- What is answered: the text of a file that is read, if there is one. -/
def answer {m : Type → Type} [Monad m] (files : Files m) : Access → Run m (Option String)
  | .read path => files.read path
  | .write path text => do
    files.write path text
    return none

theorem simulates_answer (access : Access) :
    ((Files.dryRun Files.memory).answer access).Simulates (Files.memory.answer access) := by
  cases access with
  | read path => exact Run.simulates_read path
  | write path text => exact (Run.simulates_write path text).bind fun _ => Run.simulates_pure none

end Files

/-! ### Generators -/

namespace Generator

open Run Schema

/-- A generator over a disk that is only read. -/
def overDisk (project : Project) (formatter : Formatter) (helpers : Template.Helpers) :
    Generator (StateT Pending (StateM Memory)) where
  project := project
  files := .dryRun .memory
  formatter := formatter
  helpers := helpers

variable {project : Project} {formatter : Formatter} {helpers : Template.Helpers}

theorem simulates_writeFile (path : Path) (text : String) (summary : Summary) :
    ((overDisk project formatter helpers).writeFile path text summary).Simulates
      ((inMemory project formatter helpers).writeFile path text summary) := by
  refine (simulates_ofExcept _ _).bind fun written => (simulates_read _).bind fun found => ?_
  split
  · exact simulates_pure _
  · exact (simulates_write _ _).bind fun _ => simulates_pure _

theorem simulates_writeAll (fs : List Renderer.File) (summary : Summary) :
    ((overDisk project formatter helpers).writeAll summary fs).Simulates
      ((inMemory project formatter helpers).writeAll summary fs) := by
  induction fs generalizing summary with
  | nil => exact simulates_pure summary
  | cons f fs ih => exact (simulates_writeFile f.path f.text summary).bind ih

theorem simulates_writeMissing (fs : List Renderer.File) (summary : Summary) :
    ((overDisk project formatter helpers).writeMissing summary fs).Simulates
      ((inMemory project formatter helpers).writeMissing summary fs) := by
  induction fs generalizing summary with
  | nil => exact simulates_pure summary
  | cons f fs ih =>
    refine (simulates_read _).bind fun found => ?_
    cases found with
    | none => exact (simulates_writeFile f.path f.text summary).bind ih
    | some text => exact ih summary

theorem simulates_mergedMiddleware (modules : List Module) :
    ((overDisk project formatter helpers).mergedMiddleware modules).Simulates
      ((inMemory project formatter helpers).mergedMiddleware modules) := by
  have hread : (overDisk project formatter helpers).readMiddleware.Simulates
      (inMemory project formatter helpers).readMiddleware := by
    refine (simulates_read _).bind fun found => ?_
    cases found with
    | none => exact simulates_pure _
    | some text => exact simulates_pure _
  exact hread.bind fun _ => (simulates_ofExcept _ _).bind fun _ => simulates_pure _

/-- **Generating goes hand in hand with a dry run of it.** -/
theorem simulates_generate (modules : List Module) :
    ((overDisk project formatter helpers).generate modules).Simulates
      ((inMemory project formatter helpers).generate modules) :=
  (simulates_ofExcept _ _).bind fun files =>
    (simulates_writeAll files _).bind fun summary =>
    (simulates_ofExcept _ _).bind fun shared =>
    (simulates_writeMissing shared summary).bind fun summary =>
    (simulates_mergedMiddleware modules).bind fun _ =>
    (simulates_ofExcept _ _).bind fun text =>
    (simulates_writeFile _ text summary).bind fun _ => simulates_pure _

/-- **Checking goes hand in hand with a dry run of it.** -/
theorem simulates_check (modules : List Module) :
    ((overDisk project formatter helpers).check modules).Simulates
      ((inMemory project formatter helpers).check modules) :=
  (simulates_ofExcept _ _).bind fun _ =>
    (simulates_mergedMiddleware modules).bind fun _ =>
    (simulates_ofExcept _ _).bind fun _ => simulates_pure _

/-- What can be asked of a generator. -/
inductive Request
  /-- To generate the files of modules. -/
  | generate (modules : List Module)
  /-- To find out what generating the files of modules would do. -/
  | check (modules : List Module)

/-- What a generator reports. -/
inductive Report
  /-- What was done. -/
  | done (summary : Summary)
  /-- What would be done. -/
  | foreseen (forecast : Forecast)

/-- What a generator reports when it is asked. -/
def report {m : Type → Type} [Monad m] (g : Generator m) : Request → Run m Report
  | .generate modules => do return .done (← g.generate modules)
  | .check modules => do return .foreseen (← g.check modules)

theorem simulates_report (request : Request) :
    ((overDisk project formatter helpers).report request).Simulates
      ((inMemory project formatter helpers).report request) := by
  cases request with
  | generate modules => exact (simulates_generate modules).bind fun _ => simulates_pure _
  | check modules => exact (simulates_check modules).bind fun _ => simulates_pure _

/-- **A dry run answers as a real run does**, whatever is read and written and whatever a generator
is asked for, one after the other and whether it fails or not. It leaves the disk as it is, and its
writes, carried out in order, lead to the files that the real run leaves. -/
theorem dryRun_simulates_memory (disk : Memory) :
    (∀ accesses : List Files.Access, ∃ answers pending,
      outcomes (Files.dryRun Files.memory).answer accesses {} disk = ((answers, pending), disk) ∧
      outcomes Files.memory.answer accesses disk = (answers, pending.replay disk)) ∧
    ∀ (project : Project) (formatter : Formatter) (helpers : Template.Helpers)
      (requests : List Request), ∃ reports pending,
      outcomes (overDisk project formatter helpers).report requests {} disk =
        ((reports, pending), disk) ∧
      outcomes (inMemory project formatter helpers).report requests disk =
        (reports, pending.replay disk) :=
  ⟨fun accesses => outcomes_simulates Files.simulates_answer accesses disk {},
    fun _ _ _ requests => outcomes_simulates simulates_report requests disk {}⟩

end Generator

end ModuleScaffold
