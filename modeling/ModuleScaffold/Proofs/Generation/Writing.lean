import ModuleScaffold.Generator
import ModuleScaffold.Proofs.Generation.Memory

/-!
# Writing files in memory

A generator writes a file unless it has the text already. So after the files of a run have been
written they are *in place*, and writing them again changes nothing: none of them is written, and
all of them are counted as unchanged. The files that are shared by all modules are only written if
they are not there, and from then on they are.

Main statements:

* `ModuleScaffold.Generator.inPlace_of_writeAll` – **files with different paths are in place once
  they have been written**;
* `ModuleScaffold.Generator.returns_writeAll_of_inPlace` – **files in place are not written**.
-/

namespace ModuleScaffold

namespace Generator

open Run

/-- A generator over files in memory. -/
def inMemory (project : Project) (formatter : Formatter) (helpers : Template.Helpers) :
    Generator (StateM Memory) where
  project := project
  files := .memory
  formatter := formatter
  helpers := helpers

variable {project : Project} {formatter : Formatter} {helpers : Template.Helpers}
  {memory after : Memory} {summary result : Summary} {outcome : Except Failure Summary}
  {path : Path} {text : String} {f : Renderer.File} {fs : List Renderer.File}

/-- A file is in place if it holds its text, as the formatter leaves it. -/
def InPlace (project : Project) (formatter : Formatter) (memory : Memory) (path : Path)
    (text : String) : Prop :=
  ∃ written, formatter (project.locate path) text = .ok written ∧
    memory.get? (project.locate path) = some written

/-! ### One file -/

/-- A file is written unless it has the formatted text already. -/
theorem returns_writeFile_iff :
    Returns ((inMemory project formatter helpers).writeFile path text summary) memory result after ↔
      ∃ written, formatter (project.locate path) text = .ok written ∧
        if memory.get? (project.locate path) = some written then
          result = { summary with unchanged := summary.unchanged + 1 } ∧ after = memory
        else
          result = { summary with written := summary.written ++ [path] } ∧
            after = memory.put (project.locate path) written := by
  rw [writeFile]
  simp only [returns_bind_iff, returns_ofExcept_iff, inMemory, returns_read_iff]
  constructor
  · rintro ⟨written, _, ⟨hformat, rfl⟩, _, _, ⟨rfl, rfl⟩, h⟩
    refine ⟨written, hformat, ?_⟩
    split at h
    · next hsame =>
      rw [if_pos hsame]
      exact returns_pure_iff.1 h
    · next hother =>
      rw [if_neg hother]
      obtain ⟨_, _, hwrite, h⟩ := returns_bind_iff.1 h
      obtain rfl := returns_write_iff.1 hwrite
      exact returns_pure_iff.1 h
  · rintro ⟨written, hformat, h⟩
    refine ⟨written, memory, ⟨hformat, rfl⟩, _, memory, ⟨rfl, rfl⟩, ?_⟩
    split at h
    · next hsame =>
      rw [if_pos hsame]
      exact returns_pure_iff.2 h
    · next hother =>
      rw [if_neg hother]
      exact returns_bind_iff.2 ⟨(), _, returns_write_iff.2 rfl, returns_pure_iff.2 h⟩

/-- A file that has been written is in place. -/
theorem inPlace_of_writeFile
    (h : Returns ((inMemory project formatter helpers).writeFile path text summary) memory result
      after) : InPlace project formatter after path text := by
  obtain ⟨written, hformat, h⟩ := returns_writeFile_iff.1 h
  refine ⟨written, hformat, ?_⟩
  split at h
  · next hsame =>
    obtain ⟨-, rfl⟩ := h
    exact hsame
  · obtain ⟨-, rfl⟩ := h
    exact memory.get?_put_self _ _

/-- A file that can be formatted can be written. -/
theorem exists_returns_writeFile_of_format {written : String}
    (h : formatter (project.locate path) text = .ok written) (summary : Summary)
    (memory : Memory) : ∃ result after,
      Returns ((inMemory project formatter helpers).writeFile path text summary) memory result
        after := by
  by_cases hsame : memory.get? (project.locate path) = some written
  · exact ⟨_, memory, returns_writeFile_iff.2 ⟨written, h, by rw [if_pos hsame]; exact ⟨rfl, rfl⟩⟩⟩
  · exact ⟨_, _, returns_writeFile_iff.2 ⟨written, h, by rw [if_neg hsame]; exact ⟨rfl, rfl⟩⟩⟩

/-- Without a formatter a file can always be written. -/
theorem exists_returns_writeFile (project : Project) (helpers : Template.Helpers) (path : Path)
    (text : String) (summary : Summary) (memory : Memory) : ∃ result after,
      Returns ((inMemory project .identity helpers).writeFile path text summary) memory result
        after :=
  exists_returns_writeFile_of_format rfl summary memory

/-- Writing a file fails exactly if its text cannot be formatted. Then nothing is written. -/
theorem fails_writeFile_iff {e : Failure} :
    Ends ((inMemory project formatter helpers).writeFile path text summary) memory (.error e)
        after ↔
      ∃ problem, formatter (project.locate path) text = .error problem ∧ e = .format problem ∧
        after = memory := by
  have hfails : ∀ problem, formatter (project.locate path) text = .error problem →
      Ends ((inMemory project formatter helpers).writeFile path text summary) memory
        (.error (.format problem)) memory := by
    intro problem hformat
    refine ends_bind_of_error (ends_ofExcept_iff.2 ⟨?_, rfl⟩)
    change _ = (formatter (project.locate path) text).mapError Failure.format
    rw [hformat]
    rfl
  constructor
  · intro h
    cases hformat : formatter (project.locate path) text with
    | error problem =>
      obtain ⟨he, rfl⟩ := h.unique (hfails problem hformat)
      exact ⟨problem, rfl, Except.error.inj he, rfl⟩
    | ok written =>
      obtain ⟨result, after', hreturns⟩ : ∃ result after', Returns
          ((inMemory project formatter helpers).writeFile path text summary) memory result after' :=
        exists_returns_writeFile_of_format hformat summary memory
      cases (h.unique hreturns).1
  · rintro ⟨problem, hformat, rfl, rfl⟩
    exact hfails problem hformat

/-- Writing a file leaves the others as they are. -/
theorem get?_writeFile
    (h : Ends ((inMemory project formatter helpers).writeFile path text summary) memory outcome
      after) {q : Path} (hq : (project.locate path).same q = false) :
    after.get? q = memory.get? q := by
  cases outcome with
  | error e =>
    obtain ⟨-, -, -, rfl⟩ := fails_writeFile_iff.1 h
    rfl
  | ok result =>
    obtain ⟨written, -, h⟩ := returns_writeFile_iff.1 h
    split at h
    · rw [h.2]
    · rw [h.2]
      exact memory.get?_put_of_apart written hq

/-- Writing a file removes none. -/
theorem isSome_get?_writeFile
    (h : Returns ((inMemory project formatter helpers).writeFile path text summary) memory result
      after) {q : Path} (hq : (memory.get? q).isSome = true) : (after.get? q).isSome = true := by
  obtain ⟨written, -, h⟩ := returns_writeFile_iff.1 h
  split at h
  · rwa [h.2]
  · rw [h.2]
    exact Memory.isSome_get?_put _ _ hq

/-- A file in place is not written. -/
theorem returns_writeFile_of_inPlace (h : InPlace project formatter memory path text) :
    Returns ((inMemory project formatter helpers).writeFile path text summary) memory
      { summary with unchanged := summary.unchanged + 1 } memory := by
  obtain ⟨written, hformat, hget⟩ := h
  refine returns_writeFile_iff.2 ⟨written, hformat, ?_⟩
  rw [if_pos hget]
  exact ⟨rfl, rfl⟩

/-! ### All files of a run -/

theorem returns_writeAll_cons_iff :
    Returns ((inMemory project formatter helpers).writeAll summary (f :: fs)) memory result after ↔
      ∃ next between,
        Returns ((inMemory project formatter helpers).writeFile f.path f.text summary) memory next
          between ∧
        Returns ((inMemory project formatter helpers).writeAll next fs) between result after :=
  returns_bind_iff

/-- Writing files leaves the others as they are. -/
theorem get?_writeAll {q : Path} (hq : ∀ f ∈ fs, (project.locate f.path).same q = false)
    (h : Ends ((inMemory project formatter helpers).writeAll summary fs) memory outcome after) :
    after.get? q = memory.get? q := by
  induction fs generalizing memory summary with
  | nil => rw [((ends_iff_of_returns rfl).1 h).2]
  | cons f fs ih =>
    have hfirst := hq f List.mem_cons_self
    rcases ends_bind_iff.1 h with ⟨e, -, hfile⟩ | ⟨next, between, hfile, hrest⟩
    · exact get?_writeFile hfile hfirst
    · rw [ih (fun f' hf' => hq f' (List.mem_cons_of_mem _ hf')) hrest, get?_writeFile hfile hfirst]

/-- **Files with different paths are in place once they have been written.** -/
theorem inPlace_of_writeAll
    (hapart : fs.Pairwise fun f f' =>
      (project.locate f.path).same (project.locate f'.path) = false)
    (h : Returns ((inMemory project formatter helpers).writeAll summary fs) memory result after) :
    ∀ f ∈ fs, InPlace project formatter after f.path f.text := by
  induction fs generalizing memory summary with
  | nil => exact fun f hf => absurd hf List.not_mem_nil
  | cons f fs ih =>
    obtain ⟨hfirst, hapart⟩ := List.pairwise_cons.1 hapart
    obtain ⟨next, between, hfile, hrest⟩ := returns_writeAll_cons_iff.1 h
    intro f' hf'
    rcases List.mem_cons.1 hf' with rfl | hf'
    · obtain ⟨written, hformat, hget⟩ := inPlace_of_writeFile hfile
      refine ⟨written, hformat, ?_⟩
      -- the files behind it have other paths
      rw [get?_writeAll (fun f hf => ?_) hrest, hget]
      have := hfirst f hf
      rw [Bool.eq_false_iff] at this ⊢
      exact fun hsame => this (Path.same_symm hsame)
    · exact ih hapart hrest f' hf'

/-- **Files in place are not written.** -/
theorem returns_writeAll_of_inPlace
    (h : ∀ f ∈ fs, InPlace project formatter memory f.path f.text) :
    Returns ((inMemory project formatter helpers).writeAll summary fs) memory
      { summary with unchanged := summary.unchanged + fs.length } memory := by
  induction fs generalizing summary with
  | nil => exact returns_pure_iff.2 ⟨rfl, rfl⟩
  | cons f fs ih =>
    refine returns_writeAll_cons_iff.2
      ⟨_, memory, returns_writeFile_of_inPlace (h f List.mem_cons_self), ?_⟩
    rw [List.length_cons, Nat.add_comm fs.length, ← Nat.add_assoc]
    exact ih fun f' hf' => h f' (List.mem_cons_of_mem _ hf')

theorem exists_returns_writeAll (project : Project) (helpers : Template.Helpers)
    (summary : Summary) (fs : List Renderer.File) (memory : Memory) : ∃ result after,
      Returns ((inMemory project .identity helpers).writeAll summary fs) memory result after := by
  induction fs generalizing memory summary with
  | nil => exact ⟨_, _, returns_pure_iff.2 ⟨rfl, rfl⟩⟩
  | cons f fs ih =>
    obtain ⟨next, between, hfile⟩ :=
      exists_returns_writeFile project helpers f.path f.text summary memory
    obtain ⟨result, after, hrest⟩ := ih next between
    exact ⟨result, after, returns_writeAll_cons_iff.2 ⟨next, between, hfile, hrest⟩⟩

/-! ### Shared files -/

/-- A shared file that is there is passed over. -/
theorem ends_writeMissing_cons_of_isSome
    (hthere : (memory.get? (project.locate f.path)).isSome = true) :
    Ends ((inMemory project formatter helpers).writeMissing summary (f :: fs)) memory outcome
        after ↔
      Ends ((inMemory project formatter helpers).writeMissing summary fs) memory outcome after := by
  obtain ⟨held, hget⟩ := Option.isSome_iff_exists.1 hthere
  have hread : Returns ((inMemory project formatter helpers).files.read
      (project.locate f.path)) memory (some held) memory := returns_read_iff.2 ⟨hget.symm, rfl⟩
  exact ends_bind_iff_of_returns hread

/-- A shared file that is not there is written. -/
theorem ends_writeMissing_cons_of_not_isSome
    (hmissing : ¬(memory.get? (project.locate f.path)).isSome = true) :
    Ends ((inMemory project formatter helpers).writeMissing summary (f :: fs)) memory outcome
        after ↔
      Ends ((inMemory project formatter helpers).writeFile f.path f.text summary >>= fun next =>
        (inMemory project formatter helpers).writeMissing next fs) memory outcome after := by
  rw [Bool.not_eq_true, Option.isSome_eq_false_iff, Option.isNone_iff_eq_none] at hmissing
  have hread : Returns ((inMemory project formatter helpers).files.read
      (project.locate f.path)) memory none memory := returns_read_iff.2 ⟨hmissing.symm, rfl⟩
  exact ends_bind_iff_of_returns hread

theorem returns_writeMissing_cons_iff :
    Returns ((inMemory project formatter helpers).writeMissing summary (f :: fs)) memory result
        after ↔
      if (memory.get? (project.locate f.path)).isSome then
        Returns ((inMemory project formatter helpers).writeMissing summary fs) memory result after
      else ∃ next between,
        Returns ((inMemory project formatter helpers).writeFile f.path f.text summary) memory next
          between ∧
        Returns ((inMemory project formatter helpers).writeMissing next fs) between result
          after := by
  split
  · next hthere => exact ends_writeMissing_cons_of_isSome hthere
  · next hmissing => exact (ends_writeMissing_cons_of_not_isSome hmissing).trans returns_bind_iff

/-- Writing the missing files changes no file that is there. -/
theorem get?_writeMissing {q : Path} {held : String} (hq : memory.get? q = some held)
    (h : Ends ((inMemory project formatter helpers).writeMissing summary fs) memory outcome
      after) : after.get? q = some held := by
  induction fs generalizing memory summary with
  | nil => rwa [((ends_iff_of_returns rfl).1 h).2]
  | cons f fs ih =>
    by_cases hthere : (memory.get? (project.locate f.path)).isSome = true
    · exact ih hq ((ends_writeMissing_cons_of_isSome hthere).1 h)
    · -- the missing file is not the one that is there
      have hapart : (project.locate f.path).same q = false := by
        rw [Bool.eq_false_iff]
        intro hsame
        refine hthere ?_
        rw [Memory.get?_congr hsame, hq]
        rfl
      rcases ends_bind_iff.1 ((ends_writeMissing_cons_of_not_isSome hthere).1 h) with
        ⟨e, -, hfile⟩ | ⟨next, between, hfile, hrest⟩
      · rw [get?_writeFile hfile hapart, hq]
      · exact ih ((get?_writeFile hfile hapart).trans hq) hrest

/-- Writing the missing files leaves all others as they are. -/
theorem get?_writeMissing_of_apart {q : Path}
    (hq : ∀ f ∈ fs, (project.locate f.path).same q = false)
    (h : Ends ((inMemory project formatter helpers).writeMissing summary fs) memory outcome
      after) : after.get? q = memory.get? q := by
  induction fs generalizing memory summary with
  | nil => rw [((ends_iff_of_returns rfl).1 h).2]
  | cons f fs ih =>
    have hfirst := hq f List.mem_cons_self
    have hrest : ∀ f' ∈ fs, (project.locate f'.path).same q = false :=
      fun f' hf' => hq f' (List.mem_cons_of_mem _ hf')
    by_cases hthere : (memory.get? (project.locate f.path)).isSome = true
    · exact ih hrest ((ends_writeMissing_cons_of_isSome hthere).1 h)
    · rcases ends_bind_iff.1 ((ends_writeMissing_cons_of_not_isSome hthere).1 h) with
        ⟨e, -, hfile⟩ | ⟨next, between, hfile, h⟩
      · exact get?_writeFile hfile hfirst
      · rw [ih hrest h, get?_writeFile hfile hfirst]

theorem exists_returns_writeMissing (project : Project) (helpers : Template.Helpers)
    (summary : Summary) (fs : List Renderer.File) (memory : Memory) : ∃ result after,
      Returns ((inMemory project .identity helpers).writeMissing summary fs) memory result
        after := by
  induction fs generalizing memory summary with
  | nil => exact ⟨_, _, returns_pure_iff.2 ⟨rfl, rfl⟩⟩
  | cons f fs ih =>
    by_cases hthere : (memory.get? (project.locate f.path)).isSome = true
    · obtain ⟨result, after, hrest⟩ := ih summary memory
      exact ⟨result, after, by rwa [returns_writeMissing_cons_iff, if_pos hthere]⟩
    · obtain ⟨next, between, hfile⟩ :=
        exists_returns_writeFile project helpers f.path f.text summary memory
      obtain ⟨result, after, hrest⟩ := ih next between
      refine ⟨result, after, ?_⟩
      rw [returns_writeMissing_cons_iff, if_neg hthere]
      exact ⟨next, between, hfile, hrest⟩

/-- Once the missing files have been written, all of them are there. -/
theorem isSome_of_writeMissing
    (h : Returns ((inMemory project formatter helpers).writeMissing summary fs) memory result
      after) : ∀ f ∈ fs, (after.get? (project.locate f.path)).isSome = true := by
  induction fs generalizing memory summary with
  | nil => exact fun f hf => absurd hf List.not_mem_nil
  | cons f fs ih =>
    intro f' hf'
    rw [returns_writeMissing_cons_iff] at h
    have hfirst : ∃ next between, (between.get? (project.locate f.path)).isSome = true ∧
        Returns ((inMemory project formatter helpers).writeMissing next fs) between result
          after := by
      split at h
      · next hthere => exact ⟨_, _, hthere, h⟩
      · obtain ⟨next, between, hfile, h⟩ := h
        obtain ⟨written, -, hget⟩ := inPlace_of_writeFile hfile
        exact ⟨next, between, by rw [hget]; rfl, h⟩
    obtain ⟨next, between, hthere, hrest⟩ := hfirst
    rcases List.mem_cons.1 hf' with rfl | hf'
    · obtain ⟨held, hheld⟩ := Option.isSome_iff_exists.1 hthere
      rw [get?_writeMissing hheld hrest]
      rfl
    · exact ih hrest f' hf'

/-- No file is written if all of them are there. -/
theorem returns_writeMissing_of_isSome
    (h : ∀ f ∈ fs, (memory.get? (project.locate f.path)).isSome = true) :
    Returns ((inMemory project formatter helpers).writeMissing summary fs) memory summary
      memory := by
  induction fs with
  | nil => exact returns_pure_iff.2 ⟨rfl, rfl⟩
  | cons f fs ih =>
    rw [returns_writeMissing_cons_iff, if_pos (h f List.mem_cons_self)]
    exact ih fun f' hf' => h f' (List.mem_cons_of_mem _ hf')

end Generator

end ModuleScaffold
