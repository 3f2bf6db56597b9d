import ModuleScaffold.Proofs.Generation.Again
import ModuleScaffold.Proofs.Generation.Ownership
import ModuleScaffold.Proofs.Modules.Regular

/-!
# Histories of runs

A run writes the middleware file from what it finds in it and what its modules declare. If the file
held declarations that are read back, and nothing in the paths of the imports of the modules is
escaped, the file is again one of that kind: it is read back as its declarations in the order of the
file, without a warning. So it stays one through any number of runs, whatever the modules of each of
them are.

The only thing that can still move is a kept statement. Modules declare none, so a file that began
without one, in particular one that was not there, is written once by a run and left alone by the
next one over the same modules.

Main statements:

* `ModuleScaffold.Generator.CleanRun.held_eq` – **what a clean run leaves is read back as what it
  wrote**;
* `ModuleScaffold.Generator.CleanRun.converges` – **a clean run is repeated without a change if the
  order of the file is settled**;
* `ModuleScaffold.Generator.converges_of_history` – **a clean run over a project that began without
  a middleware file is repeated without a change**, whatever has been generated before.
-/

namespace ModuleScaffold

namespace Generator

open Run Schema

variable {project : Project} {helpers : Template.Helpers} {memory between after : Memory}
  {modules : List Module} {summary : Summary} {files : List Renderer.File}

/-! ### The middleware file after a run -/

/-- Modules whose files are rendered are accepted. -/
theorem accepted_of_renderModules {renderer : Renderer}
    (h : renderModules renderer modules = .ok files) : ∀ m ∈ modules, m.Accepted := by
  induction modules generalizing files with
  | nil => exact fun _ hm => absurd hm List.not_mem_nil
  | cons m modules ih =>
    obtain ⟨⟨⟩, hcheck, h⟩ := bind_eq_ok_iff.1 h
    obtain ⟨first, -, h⟩ := bind_eq_ok_iff.1 h
    obtain ⟨rest, hrest, -⟩ := bind_eq_ok_iff.1 h
    exact List.forall_mem_cons.2
      ⟨Module.check_eq_ok_iff.1 (mapError_eq_ok_iff.1 hcheck), ih hrest⟩

/-- What is found in a middleware file is canonical. -/
theorem canonical_held (project : Project) (memory : Memory) :
    (held project memory).store.Canonical := by
  rw [held]
  split
  · exact .empty
  · exact Store.kept_canonical.readMiddlewares .empty _

/-- A run that succeeds leaves a middleware file with what was found there and what the modules
declare. -/
theorem exists_text_of_generate
    (hrun : Returns ((inMemory project .identity helpers).generate modules) memory summary after)
    (hfiles : renderModules ⟨helpers, project.layout⟩ modules = .ok files)
    (hapart : Apart project files (supportFiles project.layout modules)) :
    ∃ store text, mergeModules project (held project memory).store modules = .ok store ∧
      store.serialize = .ok text ∧ after.get? project.middlewareFile = some text ∧
      summary.routes = store.routes.length := by
  obtain ⟨files', s₁, m₁, shared, s₂, m₂, store, text, s₃, hfiles', hall, hshared, hmissing, hstore,
    htext, hwrite, rfl⟩ := returns_generate_iff.1 hrun
  obtain rfl := Except.ok.inj (hfiles.symm.trans hfiles')
  obtain rfl := Except.ok.inj (hshared.symm.trans (sharedFiles_eq _ modules))
  -- the middleware file is none of the files that are written before it
  have hheld : held project m₂ = held project memory := held_congr
    ((get?_writeMissing_of_apart hapart.shared_middleware hmissing).trans
      (get?_writeAll hapart.files_middleware hall))
  obtain ⟨written, hformat, hget⟩ := inPlace_of_writeFile hwrite
  obtain rfl := Except.ok.inj hformat
  rw [hheld] at hstore
  exact ⟨store, _, hstore, htext, hget, rfl⟩

/-! ### Clean runs -/

/-- A run that succeeds, of modules whose files lie apart from one another and from all others and
whose imports are written without an escape. -/
structure CleanRun (project : Project) (helpers : Template.Helpers) (modules : List Module)
    (memory : Memory) (summary : Summary) (after : Memory) : Prop where
  /-- The run succeeds. -/
  returns : Returns ((inMemory project .identity helpers).generate modules) memory summary after
  /-- The files of the modules lie apart from one another. -/
  distinct : ∀ files, renderModules ⟨helpers, project.layout⟩ modules = .ok files →
    files.Pairwise fun f f' => (project.locate f.path).same (project.locate f'.path) = false
  /-- They lie apart from the shared files and the middleware file. -/
  apart : ∀ files, renderModules ⟨helpers, project.layout⟩ modules = .ok files →
    Apart project files (supportFiles project.layout modules)
  /-- Nothing in the paths of the imports of the modules is escaped. -/
  imports : PlainImports project modules

namespace CleanRun

/-- The files of the modules have been rendered. -/
theorem exists_files (h : CleanRun project helpers modules memory summary after) :
    ∃ files, renderModules ⟨helpers, project.layout⟩ modules = .ok files :=
  let ⟨files, _, _, _, _, _, _, _, _, hfiles, _⟩ := returns_generate_iff.1 h.returns
  ⟨files, hfiles⟩

/-- What a clean run writes if the middleware file was read back: the declarations that were there
and those of the modules, which can be read back again. -/
theorem exists_written (h : CleanRun project helpers modules memory summary after)
    (hheld : (held project memory).store.IsRegular) :
    ∃ store out, mergeModules project (held project memory).store modules = .ok store ∧
      store.Canonical ∧ store.IsRegular ∧ store.ordered = .ok out ∧
      store.serialize = .ok (String.ofList (store.renderOrdered out)) ∧
      after.get? project.middlewareFile = some (String.ofList (store.renderOrdered out)) ∧
      summary.routes = store.routes.length := by
  obtain ⟨files, hfiles⟩ := h.exists_files
  obtain ⟨store, text, hstore, htext, hget, hroutes⟩ :=
    exists_text_of_generate h.returns hfiles (h.apart files hfiles)
  have hcanonical := canonical_held project memory
  have hregular := isRegular_mergeModules (accepted_of_renderModules hfiles) h.imports hheld
    hcanonical.toWellFormed hstore
  obtain ⟨-, out, hordered, rfl⟩ := Store.serialize_eq_ok_iff.1 htext
  exact ⟨store, out, hstore, canonical_mergeModules hcanonical hstore, hregular, hordered, htext,
    hget, hroutes⟩

/-- **What a clean run leaves is read back as what it wrote**, in the order of the file and without a
warning. -/
theorem held_eq (h : CleanRun project helpers modules memory summary after)
    (hheld : (held project memory).store.IsRegular) :
    ∃ store out, mergeModules project (held project memory).store modules = .ok store ∧
      store.ordered = .ok out ∧ held project after = ⟨store.inOrder out, []⟩ := by
  obtain ⟨store, out, hstore, hcanonical, hregular, hordered, -, hget, -⟩ := h.exists_written hheld
  refine ⟨store, out, hstore, hordered, ?_⟩
  rw [held, hget]
  dsimp only
  rw [Source.readMiddlewares_renderOrdered hcanonical hregular hordered]

/-- A middleware file that is read back stays one. -/
theorem isRegular_held (h : CleanRun project helpers modules memory summary after)
    (hheld : (held project memory).store.IsRegular) : (held project after).store.IsRegular := by
  obtain ⟨store, out, hstore, hcanonical, hregular, hordered, -, hget, -⟩ := h.exists_written hheld
  rw [store_held hget, Source.readMiddlewares_renderOrdered hcanonical hregular hordered]
  exact hregular.reordered (Store.reordered_inOrder hordered)

/-- **A clean run is repeated without a change if the order of the file is settled.** -/
theorem converges (h : CleanRun project helpers modules memory summary after)
    (hheld : (held project memory).store.IsRegular)
    (hsettled : ∀ store out, mergeModules project (held project memory).store modules = .ok store →
      store.ordered = .ok out → Store.Settled out) :
    Converges project helpers modules summary after := by
  obtain ⟨files, hfiles⟩ := h.exists_files
  obtain ⟨store, out, hstore, hcanonical, hregular, hordered, htext, hget, hroutes⟩ :=
    h.exists_written hheld
  obtain ⟨shared, -, -, -, hprepared, -⟩ := exists_prepared_of_generate h.returns hfiles
    (h.distinct files hfiles) (h.apart files hfiles).files_middleware
  rw [hprepared.converges_iff_keeps hget, Keeps,
    Source.readMiddlewares_renderOrdered hcanonical hregular hordered]
  -- the modules add nothing to what is read back, and a settled order is kept
  exact ⟨store.inOrder out,
    mergeModules_again (canonical_held project memory).toWellFormed hstore
      (Store.reordered_inOrder hordered),
    Store.serialize_inOrder htext hordered (hsettled store out hstore hordered), hroutes.symm⟩

end CleanRun

/-! ### Files that are maintained by runs alone -/

/-- The middleware file is read back, and no statement is kept in it. -/
structure Maintained (project : Project) (memory : Memory) : Prop where
  /-- The declarations of the file are read back. -/
  isRegular : (held project memory).store.IsRegular
  /-- No statement is kept. -/
  statements : (held project memory).store.statements = []

/-- A middleware file that is not there is maintained. -/
theorem maintained_of_none (h : memory.get? project.middlewareFile = none) :
    Maintained project memory := by
  have hheld : (held project memory).store = .empty := by
    rw [held, h]
    rfl
  exact ⟨hheld ▸ .empty, hheld ▸ rfl⟩

/-- **A clean run keeps a file maintained.** -/
theorem CleanRun.maintained (h : CleanRun project helpers modules memory summary after)
    (hheld : Maintained project memory) : Maintained project after := by
  refine ⟨h.isRegular_held hheld.isRegular, ?_⟩
  obtain ⟨store, out, hstore, hordered, hafter⟩ := h.held_eq hheld.isRegular
  rw [hafter]
  exact Store.statements_inOrder_eq_nil hordered
    ((statements_mergeModules hstore).trans hheld.statements)

/-- A clean run over a maintained file is repeated without a change. -/
theorem CleanRun.converges_of_maintained
    (h : CleanRun project helpers modules memory summary after)
    (hheld : Maintained project memory) : Converges project helpers modules summary after :=
  h.converges hheld.isRegular fun _ _ hstore hordered =>
    Store.settled_of_no_statement (Store.statements_inOrder_eq_nil hordered
      ((statements_mergeModules hstore).trans hheld.statements))

/-! ### Histories -/

/-- Clean runs, one after the other, each over modules of its own. -/
def History (project : Project) (helpers : Template.Helpers) : Memory → Memory → Prop :=
  Relation.ReflTransGen fun memory after =>
    ∃ modules summary, CleanRun project helpers modules memory summary after

/-- Clean runs keep a file maintained. -/
theorem History.maintained (h : History project helpers memory after)
    (hheld : Maintained project memory) : Maintained project after := by
  induction h with
  | refl => exact hheld
  | tail _ hlast ih =>
    obtain ⟨modules, summary, hrun⟩ := hlast
    exact hrun.maintained ih

/-- **A clean run over a project that began without a middleware file is repeated without a
change**, whatever has been generated before. -/
theorem converges_of_history (hstart : memory.get? project.middlewareFile = none)
    (hhistory : History project helpers memory between)
    (hrun : CleanRun project helpers modules between summary after) :
    Converges project helpers modules summary after :=
  hrun.converges_of_maintained (hhistory.maintained (maintained_of_none hstart))

/-! ### A module in an empty project -/

theorem plainImports_shop : PlainImports sampleProject [shop] :=
  plainImports_of_words (by decide +kernel) (by decide +kernel)

/-- A module that is generated into an empty project is generated again without a change. -/
theorem converges_shop : ∃ summary after,
    CleanRun sampleProject .standard [shop] {} summary after ∧
      Converges sampleProject .standard [shop] summary after := by
  obtain ⟨files, hfiles, hplaces⟩ := exists_files_shop
  obtain ⟨store, text, hstore, htext⟩ := exists_store_shop
  have hapart := apart_shop files hfiles
  obtain ⟨summary, after, hreturns, -⟩ := exists_returns_generate hfiles (sharedFiles_eq _ [shop])
    (List.forall_mem_append.2 ⟨hapart.files_middleware, hapart.shared_middleware⟩) hstore htext
  have hdistinct : files.Pairwise fun f f' =>
      (sampleProject.locate f.path).same (sampleProject.locate f'.path) = false :=
    (List.pairwise_map.1 (List.nodup_cons.1 hplaces).2).imp fun hne =>
      Bool.eq_false_iff.2 fun hsame => hne (Path.same_iff.1 hsame)
  have hrun : CleanRun sampleProject .standard [shop] {} summary after := by
    refine ⟨hreturns, fun files' hfiles' => ?_, apart_shop, plainImports_shop⟩
    obtain rfl := Except.ok.inj (hfiles.symm.trans hfiles')
    exact hdistinct
  exact ⟨summary, after, hrun, converges_of_history rfl .refl hrun⟩

end Generator

end ModuleScaffold
