import ModuleScaffold.Proofs.Generation.Steps
import ModuleScaffold.Proofs.Merge.Read
import ModuleScaffold.Proofs.Merge.Rewritten

/-!
# Generating again

After a run the files of the modules are in place and the shared files are there. When the same
modules are generated again nothing is written but the middleware file, and that one only if its
text changes when it is read, merged with the modules and written again.

Main statement: `ModuleScaffold.Generator.converges_iff` – **a second run writes nothing exactly if
the middleware file keeps its text** (`ModuleScaffold.Keeps`). It does if the file is read back as
the declarations that were written and is settled.
-/

namespace ModuleScaffold

/-- The text of a middleware file is kept if what it declares, with the declarations of the modules
on top, is written as the same text with the given number of routes. -/
def Keeps (project : Project) (modules : List Schema.Module) (text : String) (routes : ℕ) : Prop :=
  ∃ store, mergeModules project (Source.readMiddlewares text).1 modules = .ok store ∧
    store.serialize = .ok text ∧ store.routes.length = routes

theorem wellFormed_held (project : Project) (memory : Memory) :
    (held project memory).store.WellFormed := by
  rw [held]
  split
  · exact .empty
  · exact Source.wellFormed_readMiddlewares _

namespace Generator

open Run Schema

variable {project : Project} {formatter : Formatter} {helpers : Template.Helpers}
  {memory after : Memory} {modules : List Module} {summary result : Summary}

/-! ### A run that succeeds -/

/-- A run over files apart from the middleware file succeeds if the files can be rendered and the
merged store can be written. -/
theorem exists_returns_generate {files shared : List Renderer.File} {store : Store} {text : String}
    (hfiles : renderModules ⟨helpers, project.layout⟩ modules = .ok files)
    (hshared : (inMemory project .identity helpers).sharedFiles modules = .ok shared)
    (hapart : ∀ f ∈ files ++ shared, (project.locate f.path).same project.middlewareFile = false)
    (hstore : mergeModules project (held project memory).store modules = .ok store)
    (htext : store.serialize = .ok text) : ∃ result after,
      Returns ((inMemory project .identity helpers).generate modules) memory result after ∧
      after.get? project.middlewareFile = some text ∧ result.routes = store.routes.length := by
  obtain ⟨s₁, m₁, hall⟩ :=
    exists_returns_writeAll project helpers { modules := modules.length } files memory
  obtain ⟨s₂, m₂, hmissing⟩ := exists_returns_writeMissing project helpers s₁ shared m₁
  obtain ⟨s₃, after, hwrite⟩ :=
    exists_returns_writeFile project helpers project.middleware text s₂ m₂
  -- the middleware file is none of the files that are written before it
  have hheld : held project m₂ = held project memory := by
    refine held_congr ?_
    rw [get?_writeMissing_of_apart (fun f hf => hapart f (List.mem_append_right _ hf)) hmissing,
      get?_writeAll (fun f hf => hapart f (List.mem_append_left _ hf)) hall]
  obtain ⟨written, hformat, hget⟩ := inPlace_of_writeFile hwrite
  obtain rfl := Except.ok.inj hformat
  rw [← hheld] at hstore
  have hrun := returns_generate_iff.2 ⟨files, s₁, m₁, shared, s₂, m₂, store, _, s₃, hfiles, hall,
    hshared, hmissing, hstore, htext, hwrite, rfl⟩
  exact ⟨_, after, hrun, hget, rfl⟩

/-! ### The second run -/

/-- The files of the modules are in place and the shared files are there. -/
structure Prepared (project : Project) (formatter : Formatter) (helpers : Template.Helpers)
    (modules : List Module) (memory : Memory) (files shared : List Renderer.File) : Prop where
  /-- The files are those of the modules. -/
  files_eq : renderModules ⟨helpers, project.layout⟩ modules = .ok files
  /-- The shared files are those of the modules. -/
  shared_eq : (inMemory project formatter helpers).sharedFiles modules = .ok shared
  /-- The files of the modules are in place. -/
  inPlace : ∀ f ∈ files, InPlace project formatter memory f.path f.text
  /-- The shared files are there. -/
  isSome : ∀ f ∈ shared, (memory.get? (project.locate f.path)).isSome = true

/-- A run over prepared files is one over the middleware file. -/
theorem Prepared.returns_generate_iff {files shared : List Renderer.File}
    (h : Prepared project formatter helpers modules memory files shared) :
    Returns ((inMemory project formatter helpers).generate modules) memory result after ↔
      ∃ store text s, mergeModules project (held project memory).store modules = .ok store ∧
        store.serialize = .ok text ∧
        Returns ((inMemory project formatter helpers).writeFile project.middleware text
          { modules := modules.length, unchanged := files.length }) memory s after ∧
        result = { s with
          routes := store.routes.length, warnings := (held project memory).warnings } := by
  have hall : Returns ((inMemory project formatter helpers).writeAll { modules := modules.length }
      files) memory { modules := modules.length, unchanged := 0 + files.length } memory :=
    returns_writeAll_of_inPlace h.inPlace
  rw [Nat.zero_add] at hall
  have hmissing : Returns ((inMemory project formatter helpers).writeMissing
      { modules := modules.length, unchanged := files.length } shared) memory
      { modules := modules.length, unchanged := files.length } memory :=
    returns_writeMissing_of_isSome h.isSome
  rw [Generator.returns_generate_iff]
  constructor
  · rintro ⟨files', s₁, m₁, shared', s₂, m₂, store, text, s₃, hfiles, hall', hshared, hmissing',
      hrest⟩
    obtain rfl := Except.ok.inj (h.files_eq.symm.trans hfiles)
    obtain rfl := Except.ok.inj (h.shared_eq.symm.trans hshared)
    -- a run has one result, so the steps that write nothing are the steps of this run
    obtain ⟨rfl, rfl⟩ := hall.unique hall'
    obtain ⟨rfl, rfl⟩ := hmissing.unique hmissing'
    exact ⟨store, text, s₃, hrest⟩
  · rintro ⟨store, text, s, hrest⟩
    exact ⟨files, _, memory, shared, _, memory, store, text, s, h.files_eq, hall, h.shared_eq,
      hmissing, hrest⟩

/-- A second run succeeds, writes nothing, leaves all files as they are and finds as many routes as
the first. -/
def Converges (project : Project) (helpers : Template.Helpers) (modules : List Module)
    (summary : Summary) (memory : Memory) : Prop :=
  ∃ again, Returns ((inMemory project .identity helpers).generate modules) memory again memory ∧
    again.written = [] ∧ again.routes = summary.routes

/-- Over prepared files, a run changes nothing exactly if the middleware file keeps its text. -/
theorem Prepared.converges_iff_keeps {files shared : List Renderer.File} {text : String}
    (h : Prepared project .identity helpers modules memory files shared)
    (hget : memory.get? project.middlewareFile = some text) :
    Converges project helpers modules summary memory ↔
      Keeps project modules text summary.routes := by
  have hheld := store_held hget
  constructor
  · rintro ⟨again, hagain, hwritten, hcount⟩
    obtain ⟨store, text', s, hmerge, htext, hwrite, rfl⟩ := h.returns_generate_iff.1 hagain
    obtain ⟨written, hformat, hwrite⟩ := returns_writeFile_iff.1 hwrite
    obtain rfl := Except.ok.inj hformat
    rw [hheld] at hmerge
    split at hwrite
    · next hsame =>
      obtain rfl := Option.some.inj (hget.symm.trans hsame)
      exact ⟨store, hmerge, htext, hcount⟩
    · -- a file with another text would have been written
      rw [hwrite.1] at hwritten
      exact absurd hwritten (List.concat_ne_nil _ _)
  · rintro ⟨store, hmerge, htext, hcount⟩
    rw [← hheld] at hmerge
    exact ⟨_, h.returns_generate_iff.2 ⟨store, text, _, hmerge, htext,
      returns_writeFile_of_inPlace ⟨text, rfl, hget⟩, rfl⟩, rfl, hcount⟩

/-- What a first run leaves behind. -/
theorem exists_prepared_of_generate {files : List Renderer.File}
    (hrun : Returns ((inMemory project .identity helpers).generate modules) memory summary after)
    (hfiles : renderModules ⟨helpers, project.layout⟩ modules = .ok files)
    (hdistinct : files.Pairwise fun f f' =>
      (project.locate f.path).same (project.locate f'.path) = false)
    (hapart : ∀ f ∈ files, (project.locate f.path).same project.middlewareFile = false) :
    ∃ shared base store text, Prepared project .identity helpers modules after files shared ∧
      base.WellFormed ∧ mergeModules project base modules = .ok store ∧
      store.serialize = .ok text ∧ after.get? project.middlewareFile = some text ∧
      summary.routes = store.routes.length := by
  obtain ⟨files', s₁, m₁, shared, s₂, m₂, store, text, s₃, hfiles', hall, hshared, hmissing, hstore,
    htext, hwrite, rfl⟩ := returns_generate_iff.1 hrun
  obtain rfl := Except.ok.inj (hfiles.symm.trans hfiles')
  refine ⟨shared, (held project m₂).store, store, text,
    ⟨hfiles, hshared, fun f hf => ?_, fun f hf => ?_⟩, wellFormed_held project m₂, hstore, htext,
    ?_, rfl⟩
  · obtain ⟨written, hformat, hget⟩ := inPlace_of_writeAll hdistinct hall f hf
    refine ⟨written, hformat, ?_⟩
    rw [get?_writeFile hwrite, get?_writeMissing hget hmissing]
    rw [Bool.eq_false_iff]
    exact fun hsame => Bool.eq_false_iff.1 (hapart f hf) (Path.same_symm hsame)
  · exact isSome_get?_writeFile hwrite (isSome_of_writeMissing hmissing f hf)
  · obtain ⟨written, hformat, hget⟩ := inPlace_of_writeFile hwrite
    obtain rfl := Except.ok.inj hformat
    exact hget

/-- Whether a computation succeeds with a result that has a property. -/
def givesSome {ε α : Type} (r : Except ε α) (p : α → Bool) : Bool :=
  match r with
  | .ok a => p a
  | .error _ => false

theorem exists_of_givesSome {ε α : Type} {r : Except ε α} {p : α → Bool}
    (h : givesSome r p = true) : ∃ a, r = .ok a ∧ p a = true := by
  cases r with
  | error e => cases h
  | ok a => exact ⟨a, rfl, h⟩

/-- A project with the usual directories. -/
def sampleProject : Project :=
  { root := ⟨"/project"⟩ }

/-- A module with one model. -/
def shop : Module :=
  ⟨"shop", "shops", [⟨"Brand", "brand", "brands", false, none, [⟨"name", .text, none, none, []⟩]⟩]⟩

/-- Where a file of the project lies, in components. -/
def place (f : Renderer.File) : List Path.Component :=
  (sampleProject.locate f.path).components

/-- The files of the module lie in different places apart from the middleware file. -/
theorem exists_files_shop : ∃ files,
    renderModules ⟨.standard, sampleProject.layout⟩ [shop] = .ok files ∧
      (sampleProject.middlewareFile.components :: files.map place).Nodup := by
  have hgives : givesSome (renderModules ⟨.standard, sampleProject.layout⟩ [shop]) (fun files =>
      decide (sampleProject.middlewareFile.components :: files.map place).Nodup) = true := by
    decide +kernel
  obtain ⟨files, hfiles, h⟩ := exists_of_givesSome hgives
  exact ⟨files, hfiles, of_decide_eq_true h⟩

theorem exists_shared_shop : ∃ shared,
    (inMemory sampleProject .identity .standard).sharedFiles [shop] = .ok shared ∧
      sampleProject.middlewareFile.components ∉ shared.map place := by
  have hgives : givesSome ((inMemory sampleProject .identity .standard).sharedFiles [shop])
      (fun shared => decide (sampleProject.middlewareFile.components ∉ shared.map place)) =
      true := by
    decide +kernel
  obtain ⟨shared, hshared, h⟩ := exists_of_givesSome hgives
  exact ⟨shared, hshared, of_decide_eq_true h⟩

theorem exists_store_shop : ∃ store text,
    mergeModules sampleProject (held sampleProject {}).store [shop] = .ok store ∧
      store.serialize = .ok text := by
  have hgives : givesSome (mergeModules sampleProject (held sampleProject {}).store [shop])
      (fun store => givesSome store.serialize fun _ => true) = true := by
    decide +kernel
  obtain ⟨store, hstore, h⟩ := exists_of_givesSome hgives
  obtain ⟨text, htext, -⟩ := exists_of_givesSome h
  exact ⟨store, text, hstore, htext⟩

theorem apart_of_place {files : List Renderer.File}
    (h : sampleProject.middlewareFile.components ∉ files.map place) :
    ∀ f ∈ files, (sampleProject.locate f.path).same sampleProject.middlewareFile = false := by
  intro f hf
  rw [Bool.eq_false_iff]
  intro hsame
  refine h (List.mem_map.2 ⟨f, hf, ?_⟩)
  exact Path.same_iff.1 hsame

/-- The text of a middleware file that imports from a source with an escaped backslash. -/
def escapedText : String := "import \"\\\\\";"

/-- A project with that file alone. -/
def escapedImport : Memory :=
  ⟨[⟨⟨"/project/src/api/middlewares.ts"⟩, escapedText⟩]⟩

/-- What is read from that file. -/
def escapedStore : Store :=
  (Source.read escapedText.toList).store

/-- What is read from that file after it was written. -/
def grownStore : Store :=
  (Source.read (escapedStore.renderOrdered [])).store

theorem renderOrdered_grownStore :
    (escapedStore.dangling.isEmpty = true ∧ escapedStore.ordered = .ok []) ∧
      (grownStore.dangling.isEmpty = true ∧ grownStore.ordered = .ok []) ∧
      grownStore.renderOrdered [] ≠ escapedStore.renderOrdered [] := by
  decide +kernel

end Generator

end ModuleScaffold
