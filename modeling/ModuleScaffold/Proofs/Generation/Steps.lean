import ModuleScaffold.Proofs.Generation.Writing

/-!
# The steps of a run

A run of a generator renders the files of the modules and writes them, writes those of the shared
files that are not there, and reads, merges and writes the middleware file. The shared files are the
same whatever the modules are, and their templates use no helper, so once the files of the modules
have been rendered no template fails any more (`ModuleScaffold.Generator.sharedFiles_eq`).

A check is a run without the steps that write. What it finds out depends on nothing but the
middleware file (`ModuleScaffold.foretold`).

Main statements:

* `ModuleScaffold.Generator.returns_generate_iff` – a run that succeeds, step by step;
* `ModuleScaffold.Generator.ends_generate_iff` – **how a run ends, with a result or with a failure**;
* `ModuleScaffold.Generator.ends_check` – **a check leaves all files as they are, and what it finds
  out is foretold by the middleware file**.
-/

namespace ModuleScaffold

open Schema

/-! ### What a run works with -/

/-- What is read from the middleware file in memory. -/
def held (project : Project) (memory : Memory) : Reading :=
  match memory.get? project.middlewareFile with
  | none => {}
  | some text => ⟨(Source.readMiddlewares text).1, (Source.readMiddlewares text).2⟩

theorem store_held {project : Project} {memory : Memory} {text : String}
    (h : memory.get? project.middlewareFile = some text) :
    (held project memory).store = (Source.readMiddlewares text).1 := by
  rw [held, h]

theorem held_congr {project : Project} {memory after : Memory}
    (h : after.get? project.middlewareFile = memory.get? project.middlewareFile) :
    held project after = held project memory := by
  rw [held, held, h]

/-- The files that modules share: none without a module, and otherwise the same for all. -/
def supportFiles (layout : Layout) : List Module → List Renderer.File
  | [] => []
  | _ :: _ =>
    [⟨layout.apiDir.join "utils/unless-path.ts", Template.unlessPathText⟩,
      ⟨layout.adminDir.join "lib/sdk.ts", Template.sdkText⟩]

/-- The middleware file that is to be written, with the number of its routes: the declarations of
modules on top of what was read. -/
def mergedText (project : Project) (modules : List Module) (reading : Reading) :
    Except Failure (String × Nat) := do
  let store ← mergeModules project reading.store modules
  let text ← store.serialize.mapError .store
  return (text, store.routes.length)

/-- What a check finds out. -/
def foretold (project : Project) (helpers : Template.Helpers) (modules : List Module)
    (reading : Reading) : Except Failure Forecast := do
  let files ← renderModules ⟨helpers, project.layout⟩ modules
  let (_, routes) ← mergedText project modules reading
  return { modules := modules.length, files := files.length + 1, routes := routes,
           warnings := reading.warnings }

section MergedText

variable {project : Project} {modules : List Module} {reading : Reading} {text : String}
  {routes : Nat} {e : Failure}

theorem mergedText_eq_ok_iff : mergedText project modules reading = .ok (text, routes) ↔
    ∃ store, mergeModules project reading.store modules = .ok store ∧
      store.serialize = .ok text ∧ routes = store.routes.length := by
  rw [mergedText]
  cases mergeModules project reading.store modules with
  | error e =>
    constructor
    · intro h
      cases h
    · rintro ⟨store, h, -⟩
      cases h
  | ok store =>
    change (store.serialize.mapError Failure.store >>= fun text =>
      .ok (text, store.routes.length)) = _ ↔ _
    constructor
    · intro h
      cases htext : store.serialize with
      | error problem =>
        rw [htext] at h
        cases h
      | ok text' =>
        rw [htext] at h
        cases h
        exact ⟨store, rfl, htext, rfl⟩
    · rintro ⟨store', h, htext, rfl⟩
      cases h
      rw [htext]
      rfl

theorem mergedText_eq_error_iff : mergedText project modules reading = .error e ↔
    mergeModules project reading.store modules = .error e ∨
      ∃ store problem, mergeModules project reading.store modules = .ok store ∧
        store.serialize = .error problem ∧ e = .store problem := by
  rw [mergedText]
  cases mergeModules project reading.store modules with
  | error e' =>
    constructor
    · intro h
      cases h
      exact .inl rfl
    · rintro (h | ⟨store, problem, h, -⟩) <;> cases h
      rfl
  | ok store =>
    change (store.serialize.mapError Failure.store >>= fun text =>
      .ok (text, store.routes.length)) = _ ↔ _
    constructor
    · intro h
      cases htext : store.serialize with
      | error problem =>
        rw [htext] at h
        cases h
        exact .inr ⟨store, problem, rfl, htext, rfl⟩
      | ok text =>
        rw [htext] at h
        cases h
    · rintro (h | ⟨store', problem, h, htext, rfl⟩) <;> cases h
      rw [htext]
      rfl

end MergedText

namespace Generator

open Run

variable {project : Project} {formatter : Formatter} {helpers : Template.Helpers}
  {memory after : Memory} {modules : List Module} {summary result : Summary}

/-- The templates of the shared files cannot fail. -/
theorem sharedFiles_eq {m : Type → Type} [Monad m] (g : Generator m) (modules : List Module) :
    g.sharedFiles modules = .ok (supportFiles g.project.layout modules) := by
  cases modules with
  | nil => rfl
  | cons first rest => rfl

/-! ### The middleware file -/

theorem returns_readMiddleware_iff {reading : Reading} :
    Returns (inMemory project formatter helpers).readMiddleware memory reading after ↔
      reading = held project memory ∧ after = memory := by
  refine returns_iff_of_returns ?_
  rw [readMiddleware, returns_bind_iff, held]
  refine ⟨_, memory, returns_read_iff.2 ⟨rfl, rfl⟩, ?_⟩
  change Returns (match memory.get? project.middlewareFile with
    | none => _
    | some text => _) _ _ _
  cases memory.get? project.middlewareFile <;> exact returns_pure_iff.2 ⟨rfl, rfl⟩

theorem returns_mergedMiddleware_iff {reading : Reading} :
    Returns ((inMemory project formatter helpers).mergedMiddleware modules) memory reading after ↔
      ∃ store, mergeModules project (held project memory).store modules = .ok store ∧
        reading = { held project memory with store := store } ∧ after = memory := by
  rw [mergedMiddleware]
  simp only [returns_bind_iff, returns_readMiddleware_iff, returns_ofExcept_iff, returns_pure_iff]
  constructor
  · rintro ⟨_, _, ⟨rfl, rfl⟩, store, _, ⟨hstore, rfl⟩, rfl, rfl⟩
    exact ⟨store, hstore, rfl, rfl⟩
  · rintro ⟨store, hstore, rfl, rfl⟩
    exact ⟨_, _, ⟨rfl, rfl⟩, store, _, ⟨hstore, rfl⟩, rfl, rfl⟩

theorem ends_mergedMiddleware_of_error {e : Failure}
    (h : mergeModules project (held project memory).store modules = .error e) :
    Ends ((inMemory project formatter helpers).mergedMiddleware modules) memory (.error e)
      memory := by
  rw [mergedMiddleware, ends_bind_iff_of_returns (returns_readMiddleware_iff.2 ⟨rfl, rfl⟩)]
  exact ends_ofExcept_bind_iff.2 (.inl ⟨e, h, rfl, rfl⟩)

/-- The last step of a run: the middleware file is read, merged with the modules and written. -/
def finish {m : Type → Type} [Monad m] (g : Generator m) (modules : List Module)
    (summary : Summary) : Run m Summary := do
  let reading ← g.mergedMiddleware modules
  let text ← Run.ofExcept .store reading.store.serialize
  let summary ← g.writeFile g.project.middleware text summary
  return { summary with routes := reading.store.routes.length, warnings := reading.warnings }

/-- The last step fails, and writes nothing, if there is no text for the middleware file. -/
theorem ends_finish_of_error {e : Failure}
    (h : mergedText project modules (held project memory) = .error e) :
    Ends ((inMemory project formatter helpers).finish modules summary) memory (.error e)
      memory := by
  rcases mergedText_eq_error_iff.1 h with hmerge | ⟨store, problem, hmerge, htext, rfl⟩
  · exact ends_bind_of_error (ends_mergedMiddleware_of_error hmerge)
  · have hmerged : Returns ((inMemory project formatter helpers).mergedMiddleware modules) memory
        { held project memory with store } memory :=
      returns_mergedMiddleware_iff.2 ⟨store, hmerge, rfl, rfl⟩
    rw [finish, ends_bind_iff_of_returns hmerged]
    exact ends_ofExcept_bind_iff.2 (.inl ⟨problem, htext, rfl, rfl⟩)

/-- If there is a text for the middleware file, the last step writes it. -/
theorem ends_finish_iff_of_ok {text : String} {routes : Nat} {outcome : Except Failure Summary}
    (h : mergedText project modules (held project memory) = .ok (text, routes)) :
    Ends ((inMemory project formatter helpers).finish modules summary) memory outcome after ↔
      Ends ((inMemory project formatter helpers).writeFile project.middleware text summary >>=
        fun s => pure { s with routes := routes, warnings := (held project memory).warnings })
        memory outcome after := by
  obtain ⟨store, hmerge, htext, rfl⟩ := mergedText_eq_ok_iff.1 h
  have hmerged : Returns ((inMemory project formatter helpers).mergedMiddleware modules) memory
      { held project memory with store } memory :=
    returns_mergedMiddleware_iff.2 ⟨store, hmerge, rfl, rfl⟩
  rw [finish, ends_bind_iff_of_returns hmerged,
    ends_bind_iff_of_returns (returns_ofExcept_iff.2 ⟨htext, rfl⟩)]
  rfl

/-! ### The whole run -/

/-- **How a run ends**: with the failure to render a file, when nothing has been written; with the
failure to write one of the files of the modules or one of the shared files; or with the last
step. -/
theorem ends_generate_iff {outcome : Except Failure Summary} :
    Ends ((inMemory project formatter helpers).generate modules) memory outcome after ↔
      (∃ e, renderModules ⟨helpers, project.layout⟩ modules = .error e ∧ outcome = .error e ∧
        after = memory) ∨
      ∃ files, renderModules ⟨helpers, project.layout⟩ modules = .ok files ∧
        ((∃ e, outcome = .error e ∧ Ends ((inMemory project formatter helpers).writeAll
            { modules := modules.length } files) memory (.error e) after) ∨
          ∃ s₁ m₁, Returns ((inMemory project formatter helpers).writeAll
              { modules := modules.length } files) memory s₁ m₁ ∧
            ((∃ e, outcome = .error e ∧ Ends ((inMemory project formatter helpers).writeMissing s₁
                (supportFiles project.layout modules)) m₁ (.error e) after) ∨
              ∃ s₂ m₂, Returns ((inMemory project formatter helpers).writeMissing s₁
                  (supportFiles project.layout modules)) m₁ s₂ m₂ ∧
                Ends ((inMemory project formatter helpers).finish modules s₂) m₂ outcome
                  after)) := by
  refine ends_ofExcept_bind_iff.trans (or_congr_right (exists_congr fun files =>
    and_congr_right fun _ => ends_bind_iff.trans (or_congr_right (exists_congr fun s₁ =>
      exists_congr fun m₁ => and_congr_right fun _ => ?_))))
  -- the shared files are known, so what is left is to write them and the middleware file
  rw [ends_bind_iff_of_returns (returns_ofExcept_iff.2 ⟨sharedFiles_eq _ modules, rfl⟩)]
  exact ends_bind_iff

/-- A run that succeeds writes the files of the modules, then the shared files that are missing, and
then the middleware file. -/
theorem returns_generate_iff :
    Returns ((inMemory project formatter helpers).generate modules) memory result after ↔
      ∃ files s₁ m₁ shared s₂ m₂ store text s₃,
        renderModules ⟨helpers, project.layout⟩ modules = .ok files ∧
        Returns ((inMemory project formatter helpers).writeAll { modules := modules.length } files)
          memory s₁ m₁ ∧
        (inMemory project formatter helpers).sharedFiles modules = .ok shared ∧
        Returns ((inMemory project formatter helpers).writeMissing s₁ shared) m₁ s₂ m₂ ∧
        mergeModules project (held project m₂).store modules = .ok store ∧
        store.serialize = .ok text ∧
        Returns ((inMemory project formatter helpers).writeFile project.middleware text s₂) m₂ s₃
          after ∧
        result = { s₃ with
          routes := store.routes.length, warnings := (held project m₂).warnings } := by
  rw [generate]
  simp only [returns_bind_iff, returns_mergedMiddleware_iff, returns_ofExcept_iff,
    returns_pure_iff]
  constructor
  · rintro ⟨files, _, ⟨hfiles, rfl⟩, s₁, m₁, hall, shared, _, ⟨hshared, rfl⟩, s₂, m₂, hmissing,
      _, _, ⟨store, hstore, rfl, rfl⟩, text, _, ⟨htext, rfl⟩, s₃, _, hwrite, rfl, rfl⟩
    exact ⟨files, s₁, _, shared, s₂, _, store, text, s₃, hfiles, hall, hshared, hmissing, hstore,
      htext, hwrite, rfl⟩
  · rintro ⟨files, s₁, m₁, shared, s₂, m₂, store, text, s₃, hfiles, hall, hshared, hmissing, hstore,
      htext, hwrite, rfl⟩
    exact ⟨files, _, ⟨hfiles, rfl⟩, s₁, m₁, hall, shared, _, ⟨hshared, rfl⟩, s₂, m₂, hmissing, _, _,
      ⟨store, hstore, rfl, rfl⟩, text, _, ⟨htext, rfl⟩, s₃, _, hwrite, rfl, rfl⟩

/-- **A check leaves all files as they are, and the middleware file foretells what it finds
out.** -/
theorem ends_check : Ends ((inMemory project formatter helpers).check modules) memory
    (foretold project helpers modules (held project memory)) memory := by
  rw [check, foretold]
  cases hfiles : renderModules ⟨helpers, project.layout⟩ modules with
  | error e => exact ends_ofExcept_bind_iff.2 (.inl ⟨e, hfiles, rfl, rfl⟩)
  | ok files =>
    have hrender : Returns (Run.ofExcept id (renderModules
        (inMemory project formatter helpers).renderer modules)) memory files memory :=
      returns_ofExcept_iff.2 ⟨hfiles, rfl⟩
    rw [ends_bind_iff_of_returns hrender]
    cases hmerged : mergedText project modules (held project memory) with
    | error e =>
      rcases mergedText_eq_error_iff.1 hmerged with hmerge | ⟨store, problem, hmerge, htext, rfl⟩
      · exact ends_bind_of_error (ends_mergedMiddleware_of_error hmerge)
      · rw [ends_bind_iff_of_returns (returns_mergedMiddleware_iff.2 ⟨store, hmerge, rfl, rfl⟩)]
        exact ends_ofExcept_bind_iff.2 (.inl ⟨problem, htext, rfl, rfl⟩)
    | ok found =>
      obtain ⟨text, routes⟩ := found
      obtain ⟨store, hmerge, htext, rfl⟩ := mergedText_eq_ok_iff.1 hmerged
      rw [ends_bind_iff_of_returns (returns_mergedMiddleware_iff.2 ⟨store, hmerge, rfl, rfl⟩),
        ends_bind_iff_of_returns (returns_ofExcept_iff.2 ⟨htext, rfl⟩)]
      rfl

end Generator

end ModuleScaffold
