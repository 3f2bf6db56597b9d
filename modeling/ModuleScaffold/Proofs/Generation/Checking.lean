import ModuleScaffold.Proofs.Generation.Ownership
import ModuleScaffold.Proofs.Text.Spacing

/-!
# A check predicts a run

A check and a run render the same files and merge the modules into what the middleware file
declares, but a run has written files by the time it reads the middleware file. If those lie
elsewhere it reads what the check reads. So both fail with the same failure, or both succeed and
agree on what they report; and since the two shared files have different names, each of them that is
missing is taken up once.

Main statements:

* `ModuleScaffold.Generator.pairwise_supportFiles` – the shared files lie apart;
* `ModuleScaffold.Generator.advances_writeMissing` – a run takes up each missing file once;
* `ModuleScaffold.Generator.check_predicts_generate` – **a check predicts a run**.
-/

namespace ModuleScaffold

open Schema

/-! ### The name at the end of a path -/

namespace Path

variable {base path : Path} {tail : String} {name ending : List Char}

/-- What stands behind the last slash is the name of the file. -/
theorem fileName?_of_suffix (h : ('/' :: name) <:+ path.text.toList)
    (hname : name.any (· == '/') = false)
    (hinner : innerComponent name = some (.name (String.ofList name))) :
    path.fileName? = some (String.ofList name) := by
  obtain ⟨before, hbefore⟩ := h
  have hsolid : ∀ c ∈ name, (c == '/') = false := fun c hc =>
    Bool.eq_false_iff.2 (List.any_eq_false.1 hname c hc)
  have hpieces : path.pieces = Text.fields (· == '/') before ++ [name] := by
    rw [pieces, ← hbefore, Text.fields_append_separator before rfl, Text.fields_of_forall hsolid]
  rw [fileName?, components, hpieces]
  cases hfields : Text.fields (· == '/') before with
  | nil => exact absurd hfields (Text.fields_ne_nil _ _)
  | cons first rest =>
    rw [List.cons_append]
    simp only [List.filterMap_append, List.filterMap_cons, hinner, List.filterMap_nil,
      ← List.append_assoc, List.getLast?_concat]

/-- A path ends as the one that was put behind it. -/
theorem suffix_join (h : ending <:+ tail.toList) : ending <:+ (base.join tail).text.toList := by
  rw [join]
  split
  · exact h
  · split
    all_goals
      rw [String.toList_append]
      exact h.trans (List.suffix_append _ _)

/-- Paths with different file names denote different files. -/
theorem same_eq_false_of_fileName? {a b : Path} (h : a.fileName? ≠ b.fileName?) :
    a.same b = false := by
  rw [Bool.eq_false_iff]
  intro hsame
  rw [fileName?, fileName?, same_iff.1 hsame] at h
  exact h rfl

end Path

/-- The shared files have different names, so they lie apart wherever the project lies. -/
theorem pairwise_supportFiles (project : Project) (modules : List Module) :
    (supportFiles project.layout modules).Pairwise fun f f' =>
      (project.locate f.path).same (project.locate f'.path) = false := by
  cases modules with
  | nil => exact .nil
  | cons first rest =>
    have hunless : (project.locate (project.layout.apiDir.join "utils/unless-path.ts")).fileName? =
        some "unless-path.ts" :=
      Path.fileName?_of_suffix (Path.suffix_join (Path.suffix_join ⟨"utils".toList, rfl⟩)) rfl rfl
    have hsdk : (project.locate (project.layout.adminDir.join "lib/sdk.ts")).fileName? =
        some "sdk.ts" :=
      Path.fileName?_of_suffix (Path.suffix_join (Path.suffix_join ⟨"lib".toList, rfl⟩)) rfl rfl
    refine List.pairwise_pair.2 (Path.same_eq_false_of_fileName? ?_)
    rw [hunless, hsdk]
    decide

/-! ### How many files a run takes up -/

/-- The number of files that a run has taken up: those that were written and those that had their
text already. -/
def Summary.handled (summary : Summary) : Nat :=
  summary.written.length + summary.unchanged

/-- A run over the same modules that has taken up a number of further files. -/
structure Summary.Advances (n : Nat) (summary result : Summary) : Prop where
  /-- The number of modules stays. -/
  modules : result.modules = summary.modules
  /-- The files are counted. -/
  handled : result.handled = summary.handled + n

theorem Summary.Advances.refl (summary : Summary) : summary.Advances 0 summary :=
  ⟨rfl, rfl⟩

theorem Summary.Advances.trans {summary between result : Summary} {m n : Nat}
    (h : Summary.Advances m summary between) (h' : Summary.Advances n between result) :
    Summary.Advances (m + n) summary result :=
  ⟨h'.modules.trans h.modules, by rw [h'.handled, h.handled, Nat.add_assoc]⟩

namespace Generator

open Run

variable {project : Project} {formatter : Formatter} {helpers : Template.Helpers}
  {modules : List Module} {memory between after : Memory} {summary result : Summary}
  {path : Path} {text : String} {fs : List Renderer.File}

/-- A file is taken up by being written or by being left as it is. -/
theorem advances_writeFile
    (h : Returns ((inMemory project formatter helpers).writeFile path text summary) memory result
      after) : Summary.Advances 1 summary result := by
  obtain ⟨written, -, h⟩ := returns_writeFile_iff.1 h
  split at h
  · obtain ⟨rfl, -⟩ := h
    exact ⟨rfl, rfl⟩
  · obtain ⟨rfl, -⟩ := h
    refine ⟨rfl, ?_⟩
    rw [Summary.handled, Summary.handled, List.length_append, List.length_singleton]
    exact Nat.add_right_comm _ _ _

theorem advances_writeAll
    (h : Returns ((inMemory project formatter helpers).writeAll summary fs) memory result after) :
    Summary.Advances fs.length summary result := by
  induction fs generalizing memory summary with
  | nil =>
    obtain ⟨rfl, -⟩ := returns_pure_iff.1 h
    exact .refl _
  | cons f fs ih =>
    obtain ⟨next, between, hfile, hrest⟩ := returns_writeAll_cons_iff.1 h
    rw [List.length_cons, Nat.add_comm]
    exact (advances_writeFile hfile).trans (ih hrest)

/-- The number of files that are not there. -/
def absent (project : Project) (memory : Memory) (fs : List Renderer.File) : Nat :=
  fs.countP fun f => (memory.get? (project.locate f.path)).isNone

theorem absent_congr
    (h : ∀ f ∈ fs, after.get? (project.locate f.path) = memory.get? (project.locate f.path)) :
    absent project after fs = absent project memory fs :=
  List.countP_congr fun f hf => by rw [h f hf]

/-- **A run takes up each of the missing files once**, if they lie apart. -/
theorem advances_writeMissing
    (hapart : fs.Pairwise fun f f' =>
      (project.locate f.path).same (project.locate f'.path) = false)
    (h : Returns ((inMemory project formatter helpers).writeMissing summary fs) memory result
      after) : Summary.Advances (absent project memory fs) summary result := by
  induction fs generalizing memory summary with
  | nil =>
    obtain ⟨rfl, -⟩ := returns_pure_iff.1 h
    exact .refl _
  | cons f fs ih =>
    obtain ⟨hfirst, hapart⟩ := List.pairwise_cons.1 hapart
    rw [returns_writeMissing_cons_iff] at h
    rw [absent, List.countP_cons, ← absent]
    split at h
    · next hthere =>
      rw [if_neg (by rw [Option.isNone_iff_eq_none]; exact Option.isSome_iff_ne_none.1 hthere)]
      exact ih hapart h
    · next hmissing =>
      obtain ⟨next, between, hfile, hrest⟩ := h
      have hsame : absent project between fs = absent project memory fs :=
        absent_congr fun f' hf' => get?_writeFile hfile (hfirst f' hf')
      rw [if_pos (by rw [← Option.not_isSome]; simpa using hmissing), Nat.add_comm, ← hsame]
      exact (advances_writeFile hfile).trans (ih hapart hrest)

/-- A run that has rendered its files goes on to its last step, and finds the middleware file as it
was. -/
theorem exists_before_finish {files : List Renderer.File}
    (hrender : renderModules ⟨helpers, project.layout⟩ modules = .ok files)
    (hapart : Apart project files (supportFiles project.layout modules)) (memory : Memory) :
    ∃ summary between,
      Summary.Advances (files.length + absent project memory (supportFiles project.layout modules))
        { modules := modules.length } summary ∧
      held project between = held project memory ∧
      ∀ {outcome after},
        Ends ((inMemory project .identity helpers).finish modules summary) between outcome after →
          Ends ((inMemory project .identity helpers).generate modules) memory outcome after := by
  obtain ⟨s₁, m₁, hall⟩ := exists_returns_writeAll project helpers { modules := modules.length }
    files memory
  obtain ⟨s₂, m₂, hmissing⟩ := exists_returns_writeMissing project helpers s₁
    (supportFiles project.layout modules) m₁
  -- the files of the modules are none of the shared ones
  have habsent : absent project m₁ (supportFiles project.layout modules) =
      absent project memory (supportFiles project.layout modules) :=
    absent_congr fun g hg => get?_writeAll (fun f hf => hapart.files_shared f hf g hg) hall
  have hlater := advances_writeMissing (pairwise_supportFiles project modules) hmissing
  rw [habsent] at hlater
  refine ⟨s₂, m₂, (advances_writeAll hall).trans hlater, held_congr ?_, fun h => ?_⟩
  · exact (get?_writeMissing_of_apart hapart.shared_middleware hmissing).trans
      (get?_writeAll hapart.files_middleware hall)
  · exact ends_generate_iff.2 (.inr ⟨files, hrender, .inr ⟨s₁, m₁, hall, .inr ⟨s₂, m₂, hmissing,
      h⟩⟩⟩)

/-! ### What a check finds out -/

/-- What a check finds out, and how a run ends over the same files: both fail with the same failure,
or both succeed and agree on the modules, the routes and the warnings. Then the files that the run
takes up are those that were forecast and the shared ones that were absent. -/
inductive Predicts (absent : Nat) : Except Failure Forecast → Except Failure Summary → Prop
  /-- Both fail. -/
  | failed (e : Failure) : Predicts absent (.error e) (.error e)
  /-- Both succeed. -/
  | succeeded {forecast : Forecast} {summary : Summary}
      (modules : summary.modules = forecast.modules) (routes : summary.routes = forecast.routes)
      (warnings : summary.warnings = forecast.warnings)
      (files : summary.written.length + summary.unchanged = forecast.files + absent) :
      Predicts absent (.ok forecast) (.ok summary)

/-- **A check predicts a run.** If the files of the modules, the shared files and the middleware
file lie apart, then over any files a check leaves all files as they are, and a run without a
formatter ends as the check has found out. -/
theorem check_predicts_generate
    (hapart : ∀ files, renderModules ⟨helpers, project.layout⟩ modules = .ok files →
      Apart project files (supportFiles project.layout modules)) (memory : Memory) :
    ∃ forecast outcome after,
      Ends ((inMemory project .identity helpers).check modules) memory forecast memory ∧
        Ends ((inMemory project .identity helpers).generate modules) memory outcome after ∧
        Predicts (absent project memory (supportFiles project.layout modules)) forecast outcome := by
  have hcheck : Ends ((inMemory project .identity helpers).check modules) memory
      (foretold project helpers modules (held project memory)) memory := ends_check
  cases hrender : renderModules ⟨helpers, project.layout⟩ modules with
  | error e =>
    rw [foretold, hrender] at hcheck
    exact ⟨_, _, memory, hcheck, ends_generate_iff.2 (.inl ⟨e, hrender, rfl, rfl⟩), .failed e⟩
  | ok files =>
    obtain ⟨summary, between, hadvances, hheld, hgenerate⟩ :=
      exists_before_finish hrender (hapart files hrender) memory
    cases hmerged : mergedText project modules (held project memory) with
    | error e =>
      rw [foretold, hrender, hmerged] at hcheck
      rw [← hheld] at hmerged
      exact ⟨_, _, between, hcheck, hgenerate (ends_finish_of_error hmerged), .failed e⟩
    | ok found =>
      rw [foretold, hrender, hmerged] at hcheck
      rw [← hheld] at hmerged
      obtain ⟨last, after, hwrite⟩ := exists_returns_writeFile project helpers project.middleware
        found.1 summary between
      have hfinish := (ends_finish_iff_of_ok hmerged).2
        (returns_bind_iff.2 ⟨last, after, hwrite, returns_pure_iff.2 ⟨rfl, rfl⟩⟩)
      have htaken := hadvances.trans (advances_writeFile hwrite)
      refine ⟨_, _, after, hcheck, hgenerate hfinish, .succeeded htaken.modules rfl ?_ ?_⟩
      · rw [hheld]
      · have hhandled := htaken.handled
        rw [Summary.handled, Summary.handled] at hhandled
        simp only [List.length_nil] at hhandled ⊢
        omega

/-- A module that is checked and generated in an empty project. -/
theorem check_predicts_generate_shop : ∃ forecast summary after,
    Ends ((inMemory sampleProject .identity .standard).check [shop]) {} (.ok forecast) {} ∧
      Returns ((inMemory sampleProject .identity .standard).generate [shop]) {} summary after ∧
      summary.routes = forecast.routes ∧
      summary.written.length + summary.unchanged = forecast.files + 2 := by
  have habsent : absent sampleProject {} (supportFiles sampleProject.layout [shop]) = 2 := rfl
  obtain ⟨forecast, outcome, after, hcheck, hgenerate, hpredicts⟩ :=
    check_predicts_generate apart_shop {}
  rw [habsent] at hpredicts
  cases hpredicts with
  | succeeded modules routes warnings files =>
    exact ⟨_, _, after, hcheck, hgenerate, routes, files⟩
  | failed e =>
    obtain ⟨files, hfiles, -⟩ := exists_files_shop
    obtain ⟨store, text, hstore, htext⟩ := exists_store_shop
    have hmerged := mergedText_eq_ok_iff.2 ⟨store, hstore, htext, rfl⟩
    have hforetold := (hcheck.unique ends_check).1
    rw [foretold, hfiles, hmerged] at hforetold
    cases hforetold

end Generator

end ModuleScaffold
