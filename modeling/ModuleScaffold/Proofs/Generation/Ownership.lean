import ModuleScaffold.Proofs.Generation.Again

/-!
# What a run may change

A run changes the files of the modules, the shared files that are not there, and the middleware
file, and no other file, however it ends. The middleware file comes last: it is only written if
everything else has been done, so a run that fails leaves it as it was, provided that the files that
are written before lie elsewhere. A run that cannot render the files of the modules changes nothing.
A run that succeeds lists all files that it changed.

Main statements:

* `ModuleScaffold.Generator.owned_of_ends_generate` – only files that a run owns are changed;
* `ModuleScaffold.Generator.listed_of_returns_generate` – a run that succeeds lists what it changed;
* `ModuleScaffold.Generator.generate_touches_owned` – **what a run changes, how far a failure goes,
  and what is listed**.
-/

namespace ModuleScaffold

namespace Generator

open Run Schema

variable {project : Project} {formatter : Formatter} {helpers : Template.Helpers}
  {modules : List Module} {memory between after : Memory} {summary result : Summary}
  {outcome : Except Failure Summary} {path q : Path} {text : String}
  {fs files shared : List Renderer.File}

/-- The files of the modules, the shared files and the middleware file lie apart. -/
structure Apart (project : Project) (files shared : List Renderer.File) : Prop where
  /-- No file of the modules is the middleware file. -/
  files_middleware : ∀ f ∈ files, (project.locate f.path).same project.middlewareFile = false
  /-- No shared file is the middleware file. -/
  shared_middleware : ∀ f ∈ shared, (project.locate f.path).same project.middlewareFile = false
  /-- No file of the modules is a shared file. -/
  files_shared : ∀ f ∈ files, ∀ g ∈ shared,
    (project.locate f.path).same (project.locate g.path) = false

/-- The files that a run over the given files may change: those of the modules, the shared files
that are not there, and the middleware file. -/
def Owned (project : Project) (helpers : Template.Helpers) (modules : List Module)
    (memory : Memory) (q : Path) : Prop :=
  (∃ files, renderModules ⟨helpers, project.layout⟩ modules = .ok files ∧
      ∃ f ∈ files, (project.locate f.path).same q = true) ∨
    (∃ f ∈ supportFiles project.layout modules, (project.locate f.path).same q = true ∧
      memory.get? q = none) ∨
    project.middlewareFile.same q = true

/-- Every file that has changed is listed. -/
def Listed (project : Project) (memory after : Memory) (written : List Path) : Prop :=
  ∀ q, after.get? q ≠ memory.get? q → ∃ path ∈ written, (project.locate path).same q = true

/-! ### The last step -/

/-- If the last step fails, nothing has been written in it. -/
theorem eq_of_finish_error {e : Failure}
    (h : Ends ((inMemory project formatter helpers).finish modules summary) memory (.error e)
      after) : after = memory := by
  cases hmerged : mergedText project modules (held project memory) with
  | error e' => exact (h.unique (ends_finish_of_error hmerged)).2
  | ok found =>
    rcases ends_bind_iff.1 ((ends_finish_iff_of_ok hmerged).1 h) with
      ⟨e', -, hwrite⟩ | ⟨s, between, -, hpure⟩
    · obtain ⟨-, -, -, hafter⟩ := fails_writeFile_iff.1 hwrite
      exact hafter
    · cases ((ends_iff_of_returns rfl).1 hpure).1

/-- If the last step succeeds, the middleware file has been written in it. -/
theorem exists_writeFile_of_finish
    (h : Returns ((inMemory project formatter helpers).finish modules summary) memory result
      after) : ∃ text s,
      Returns ((inMemory project formatter helpers).writeFile project.middleware text summary)
        memory s after ∧ result.written = s.written := by
  cases hmerged : mergedText project modules (held project memory) with
  | error e => cases (Ends.unique h (ends_finish_of_error hmerged)).1
  | ok found =>
    obtain ⟨s, between, hwrite, hpure⟩ := returns_bind_iff.1 ((ends_finish_iff_of_ok hmerged).1 h)
    obtain ⟨rfl, rfl⟩ := returns_pure_iff.1 hpure
    exact ⟨found.1, s, hwrite, rfl⟩

/-- The last step changes no other file than the middleware file. -/
theorem get?_finish
    (h : Ends ((inMemory project formatter helpers).finish modules summary) memory outcome after)
    (hq : project.middlewareFile.same q = false) : after.get? q = memory.get? q := by
  cases outcome with
  | error e => rw [eq_of_finish_error h]
  | ok result =>
    obtain ⟨text, s, hwrite, -⟩ := exists_writeFile_of_finish h
    exact get?_writeFile hwrite hq

/-! ### What is changed -/

/-- **Only files that a run owns are changed**, however it ends. -/
theorem owned_of_ends_generate
    (h : Ends ((inMemory project formatter helpers).generate modules) memory outcome after)
    (hq : after.get? q ≠ memory.get? q) : Owned project helpers modules memory q := by
  by_contra howned
  rw [Owned, not_or, not_or] at howned
  obtain ⟨hfiles, hshared, hmiddleware⟩ := howned
  refine hq ?_
  rcases ends_generate_iff.1 h with ⟨e, -, -, rfl⟩ | ⟨files, hrender, h⟩
  · rfl
  · have hfiles' : ∀ f ∈ files, (project.locate f.path).same q = false := fun f hf =>
      Bool.eq_false_iff.2 fun hsame => hfiles ⟨files, hrender, f, hf, hsame⟩
    -- a shared file is only written if nothing is found under its path
    have hmissing : ∀ {s₁ : Summary} {m₁ m₂ : Memory} {ended : Except Failure Summary},
        m₁.get? q = memory.get? q →
        Ends ((inMemory project formatter helpers).writeMissing s₁
          (supportFiles project.layout modules)) m₁ ended m₂ → m₂.get? q = memory.get? q := by
      intro s₁ m₁ m₂ ended hsame hends
      cases hget : memory.get? q with
      | some held => exact get?_writeMissing (hsame.trans hget) hends
      | none =>
        refine (get?_writeMissing_of_apart (fun f hf => ?_) hends).trans (hsame.trans hget)
        exact Bool.eq_false_iff.2 fun hsame => hshared ⟨f, hf, hsame, hget⟩
    rcases h with ⟨e, -, hall⟩ | ⟨s₁, m₁, hall, h⟩
    · exact get?_writeAll hfiles' hall
    · have hsame := get?_writeAll hfiles' hall
      rcases h with ⟨e, -, hends⟩ | ⟨s₂, m₂, hends, hfinish⟩
      · exact hmissing hsame hends
      · exact (get?_finish hfinish (Bool.eq_false_iff.2 hmiddleware)).trans (hmissing hsame hends)

/-- A run that fails leaves the middleware file as it was, if the other files lie apart from it. -/
theorem get?_middlewareFile_of_error {e : Failure}
    (hapart : ∀ files, renderModules ⟨helpers, project.layout⟩ modules = .ok files →
      Apart project files (supportFiles project.layout modules))
    (h : Ends ((inMemory project formatter helpers).generate modules) memory (.error e) after) :
    after.get? project.middlewareFile = memory.get? project.middlewareFile := by
  rcases ends_generate_iff.1 h with ⟨e', -, -, rfl⟩ | ⟨files, hrender, h⟩
  · rfl
  · have hlie := hapart files hrender
    rcases h with ⟨e', -, hall⟩ | ⟨s₁, m₁, hall, h⟩
    · exact get?_writeAll hlie.files_middleware hall
    · have hsame := get?_writeAll hlie.files_middleware hall
      rcases h with ⟨e', -, hmissing⟩ | ⟨s₂, m₂, hmissing, hfinish⟩
      · exact (get?_writeMissing_of_apart hlie.shared_middleware hmissing).trans hsame
      · rw [eq_of_finish_error hfinish]
        exact (get?_writeMissing_of_apart hlie.shared_middleware hmissing).trans hsame

/-! ### What is listed -/

theorem listed_writeFile (hlisted : Listed project memory between summary.written)
    (h : Returns ((inMemory project formatter helpers).writeFile path text summary) between result
      after) : Listed project memory after result.written := by
  obtain ⟨written, -, h⟩ := returns_writeFile_iff.1 h
  split at h
  · obtain ⟨rfl, rfl⟩ := h
    exact hlisted
  · obtain ⟨rfl, rfl⟩ := h
    intro q hq
    by_cases hsame : (project.locate path).same q = true
    · exact ⟨path, List.mem_append_right _ (List.mem_singleton_self _), hsame⟩
    · rw [Memory.get?_put_of_apart _ _ (Bool.eq_false_iff.2 hsame)] at hq
      obtain ⟨p, hp, hsame⟩ := hlisted q hq
      exact ⟨p, List.mem_append_left _ hp, hsame⟩

theorem listed_writeAll (hlisted : Listed project memory between summary.written)
    (h : Returns ((inMemory project formatter helpers).writeAll summary fs) between result after) :
    Listed project memory after result.written := by
  induction fs generalizing between summary with
  | nil =>
    obtain ⟨rfl, rfl⟩ := returns_pure_iff.1 h
    exact hlisted
  | cons f fs ih =>
    obtain ⟨next, later, hfile, hrest⟩ := returns_writeAll_cons_iff.1 h
    exact ih (listed_writeFile hlisted hfile) hrest

theorem listed_writeMissing (hlisted : Listed project memory between summary.written)
    (h : Returns ((inMemory project formatter helpers).writeMissing summary fs) between result
      after) : Listed project memory after result.written := by
  induction fs generalizing between summary with
  | nil =>
    obtain ⟨rfl, rfl⟩ := returns_pure_iff.1 h
    exact hlisted
  | cons f fs ih =>
    rw [returns_writeMissing_cons_iff] at h
    split at h
    · exact ih hlisted h
    · obtain ⟨next, later, hfile, hrest⟩ := h
      exact ih (listed_writeFile hlisted hfile) hrest

/-- **A run that succeeds lists what it changed.** -/
theorem listed_of_returns_generate
    (h : Returns ((inMemory project formatter helpers).generate modules) memory result after) :
    Listed project memory after result.written := by
  rcases ends_generate_iff.1 h with ⟨e, -, hfails, -⟩ | ⟨files, -, h⟩
  · cases hfails
  rcases h with ⟨e, hfails, -⟩ | ⟨s₁, m₁, hall, h⟩
  · cases hfails
  rcases h with ⟨e, hfails, -⟩ | ⟨s₂, m₂, hmissing, hfinish⟩
  · cases hfails
  obtain ⟨text, s, hwrite, hwritten⟩ := exists_writeFile_of_finish hfinish
  have hstart : Listed project memory memory [] := fun q hq => absurd rfl hq
  rw [hwritten]
  exact listed_writeFile (listed_writeMissing (listed_writeAll hstart hall) hmissing) hwrite

/-! ### A module whose files lie apart -/

/-- Files in places that are all different lie apart. -/
theorem apart_of_nodup {files shared : List Renderer.File}
    (h : (sampleProject.middlewareFile.components ::
      (files.map place ++ shared.map place)).Nodup) : Apart sampleProject files shared := by
  obtain ⟨hmiddleware, hnodup⟩ := List.nodup_cons.1 h
  rw [List.mem_append, not_or] at hmiddleware
  refine ⟨apart_of_place hmiddleware.1, apart_of_place hmiddleware.2, fun f hf g hg => ?_⟩
  rw [Bool.eq_false_iff]
  intro hsame
  exact (List.nodup_append.1 hnodup).2.2 (place f) (List.mem_map_of_mem hf) (place g)
    (List.mem_map_of_mem hg) (Path.same_iff.1 hsame)

theorem apart_shop : ∀ files,
    renderModules ⟨.standard, sampleProject.layout⟩ [shop] = .ok files →
      Apart sampleProject files (supportFiles sampleProject.layout [shop]) := by
  have hgives : givesSome (renderModules ⟨.standard, sampleProject.layout⟩ [shop]) (fun files =>
      decide (sampleProject.middlewareFile.components :: (files.map place ++
        (supportFiles sampleProject.layout [shop]).map place)).Nodup) = true := by
    decide +kernel
  obtain ⟨files, hfiles, h⟩ := exists_of_givesSome hgives
  intro files' hfiles'
  obtain rfl := Except.ok.inj (hfiles.symm.trans hfiles')
  exact apart_of_nodup (of_decide_eq_true h)

/-- A formatter that cannot format the middleware file of the sample project. -/
def refusesMiddleware : Formatter := fun path text =>
  if path = sampleProject.middlewareFile then .error .noProgram else .ok text

/-- The middleware file of the sample project, with a statement. -/
def declaredMiddleware : Memory :=
  ({} : Memory).put sampleProject.middlewareFile "const limit = 10;"

/-- A run that cannot format the middleware file fails. -/
theorem fails_of_refusesMiddleware
    (h : Ends ((inMemory sampleProject refusesMiddleware helpers).generate modules) memory outcome
      after) : ∃ e, outcome = .error e := by
  cases outcome with
  | error e => exact ⟨e, rfl⟩
  | ok result =>
    obtain ⟨files, s₁, m₁, shared, s₂, m₂, store, text, s₃, -, -, -, -, -, -, hwrite, -⟩ :=
      returns_generate_iff.1 h
    obtain ⟨written, hformat, -⟩ := returns_writeFile_iff.1 hwrite
    change refusesMiddleware sampleProject.middlewareFile _ = _ at hformat
    rw [refusesMiddleware, if_pos rfl] at hformat
    cases hformat

/-! ### All together -/

/-- **What a run changes, how far a failure goes, and what is listed.** If the files of the modules,
the shared files and the middleware file lie apart, then whatever the formatter does and however the
run ends: without files of the modules nothing changes; a run that fails leaves the middleware file
as it was; only files of the modules, missing shared files and the middleware file change, and a
shared file that is there stays as it is; and a run that succeeds lists every file that changed. -/
theorem generate_touches_owned
    (hapart : ∀ files, renderModules ⟨helpers, project.layout⟩ modules = .ok files →
      Apart project files (supportFiles project.layout modules))
    (h : Ends ((inMemory project formatter helpers).generate modules) memory outcome after) :
    (∀ e, renderModules ⟨helpers, project.layout⟩ modules = .error e →
      outcome = .error e ∧ after = memory) ∧
    (∀ e, outcome = .error e →
      after.get? project.middlewareFile = memory.get? project.middlewareFile) ∧
    (∀ q, after.get? q ≠ memory.get? q → Owned project helpers modules memory q) ∧
    (∀ f ∈ supportFiles project.layout modules, ∀ text,
      memory.get? (project.locate f.path) = some text →
        after.get? (project.locate f.path) = some text) ∧
    ∀ result, outcome = .ok result → Listed project memory after result.written := by
  refine ⟨fun e hrender => ?_, ?_, fun q hq => owned_of_ends_generate h hq, fun f hf text hget => ?_,
    ?_⟩
  · rcases ends_generate_iff.1 h with ⟨e', hrender', houtcome, hafter⟩ | ⟨files, hrender', -⟩
    · rw [hrender] at hrender'
      cases hrender'
      exact ⟨houtcome, hafter⟩
    · rw [hrender] at hrender'
      cases hrender'
  · rintro e rfl
    exact get?_middlewareFile_of_error hapart h
  · -- a shared file that is there is none of the files that the run owns
    by_contra hchanged
    rw [← hget] at hchanged
    rcases owned_of_ends_generate h hchanged with
      ⟨files, hrender, g, hg, hsame⟩ | ⟨g, -, -, hmissing⟩ | hsame
    · rw [(hapart files hrender).files_shared g hg f hf] at hsame
      cases hsame
    · rw [hget] at hmissing
      cases hmissing
    · cases hrender : renderModules ⟨helpers, project.layout⟩ modules with
      | error e =>
        rcases ends_generate_iff.1 h with ⟨-, -, -, rfl⟩ | ⟨files, hrender', -⟩
        · exact hchanged rfl
        · rw [hrender] at hrender'
          cases hrender'
      | ok files =>
        have hlie := (hapart files hrender).shared_middleware f hf
        rw [Bool.eq_false_iff] at hlie
        exact hlie (Path.same_symm hsame)
  · rintro result rfl
    exact listed_of_returns_generate h

/-- A module with a middleware file that cannot be formatted. -/
theorem generate_touches_owned_shop : ∃ e after,
    Ends ((inMemory sampleProject refusesMiddleware .standard).generate [shop]) declaredMiddleware
        (.error e) after ∧
      after.get? sampleProject.middlewareFile = some "const limit = 10;" ∧
      ∀ q, after.get? q ≠ declaredMiddleware.get? q →
        Owned sampleProject .standard [shop] declaredMiddleware q := by
  obtain ⟨outcome, after, h⟩ := exists_ends
    ((inMemory sampleProject refusesMiddleware .standard).generate [shop]) declaredMiddleware
  obtain ⟨e, rfl⟩ := fails_of_refusesMiddleware h
  obtain ⟨-, hmiddleware, howned, -, -⟩ := generate_touches_owned apart_shop h
  exact ⟨e, after, h, (hmiddleware e rfl).trans (Memory.get?_put_self _ _ _), howned⟩

end Generator

end ModuleScaffold
