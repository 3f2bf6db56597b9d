import ModuleScaffold.Proofs.Merge.Monoid
import ModuleScaffold.Proofs.Merge.Rewritten
import ModuleScaffold.Proofs.Reading.Registration

/-!
# Files that are read back

A written file is a comment, the imports, the constants and kept statements in dependency order,
and the registration. If each of these texts is read back by itself, whatever stands on the lines
behind it, the file is read back as a whole: the imports of one source come together again, the
constants and statements are found in the order in which they were written, and the routes, which
are written by group, are put in the order of their keys.

Main statements:

* `ModuleScaffold.Store.keepsStatement_of_comesBack` – constants of others are kept as they are
  written;
* `ModuleScaffold.Source.passage_declarations` – what stands in front of the registration;
* `ModuleScaffold.Source.readMiddlewares_renderOrdered` – **a file is read back as its declarations
  in the order of the file, without a warning**, if each of them is read back.
-/

namespace ModuleScaffold

open Source

/-! ### What is asked of the declarations -/

/-- Nothing in a text is escaped when it is written between quotes. -/
def Text.IsPlain (text : String) : Prop :=
  ∀ c ∈ text.toList, Text.escaped c = [c]

instance : DecidablePred Text.IsPlain :=
  fun text => List.decidableBAll (fun c => Text.escaped c = [c]) text.toList

/-- An import comes back from its statements. -/
structure Import.IsRegular (decl : Import) : Prop where
  /-- Nothing in the source is escaped. -/
  source : Text.IsPlain decl.source
  /-- The names are those of an import statement. -/
  names : ∀ name ∈ decl.names, ∃ s : Import.Specifier, s.IsRegular ∧ name = s.text

/-- A kept statement comes back from its text. -/
def Store.KeepsStatement (text : String) : Prop :=
  Contributes text.toList fun store => store.addStatement text

/-- The declarations of a store come back from their texts. -/
structure Store.IsRegular (store : Store) : Prop where
  /-- The imports come back. -/
  imports : ∀ decl ∈ store.imports, decl.IsRegular
  /-- The constants come back. -/
  definitions : ∀ d ∈ store.definitions, d.IsRegular
  /-- The routes come back. -/
  routes : ∀ route ∈ store.routes, route.IsRegular
  /-- The kept statements come back. -/
  statements : ∀ text ∈ store.statements, Store.KeepsStatement text
  /-- The settings come back. -/
  settings : ∀ setting ∈ store.settings, setting.IsRegular

/-! ### Imports -/

/-- A statement of an import, and what it imports. -/
abbrev ImportPiece := Chars × Import

/-- What the statement of an import contributes. -/
def ImportPiece.IsRead (piece : ImportPiece) : Prop :=
  Contributes piece.1 fun store => store.addImports piece.2.source piece.2.names

namespace Import

theorem sort_perm (imports : List Import) : (sort imports).Perm imports :=
  List.filter_append_perm _ _

/-- The parts of an import, of which there is at least one, import what it imports. -/
theorem sameImports_parts {decl : Import} {nss : List (List String)} (hne : nss ≠ [])
    (hmem : ∀ name, name ∈ nss.flatten ↔ name ∈ decl.names) :
    Store.SameImports (nss.map (Import.mk decl.source)) [decl] where
  source source := by
    simp only [List.mem_map, List.mem_singleton, exists_eq_left, exists_exists_and_eq_and,
      exists_and_right]
    exact and_iff_right (List.exists_mem_of_ne_nil nss hne)
  name source name := by
    simp only [List.mem_map, List.mem_singleton, exists_eq_left, exists_exists_and_eq_and, ← hmem,
      List.mem_flatten]
    exact ⟨fun ⟨names, hnames, hsource, hname⟩ => ⟨hsource, names, hnames, hname⟩,
      fun ⟨hsource, names, hnames, hname⟩ => ⟨names, hnames, hsource, hname⟩⟩

/-- The statements of a regular import are read as parts of it. -/
theorem IsRegular.exists_pieces {decl : Import} (h : decl.IsRegular) :
    ∃ pieces : List ImportPiece, pieces.map Prod.fst = decl.render ∧
      (∀ piece ∈ pieces, piece.IsRead) ∧ Store.SameImports (pieces.map Prod.snd) [decl] := by
  obtain ⟨nss, hne, hmem, hreads⟩ := exists_imports_of_render h.names
  have hsource : String.ofList (Text.unquoted (Text.quoteChars decl.source.toList)) =
      decl.source := by
    rw [Text.unquoted_quoteChars, flatMap_escaped_eq_self_iff.2 h.source, String.ofList_toList]
  have hlength : decl.render.length = nss.length := hreads.length_eq
  refine ⟨(decl.render.zip nss).map fun piece => (piece.1, ⟨decl.source, piece.2⟩), ?_, ?_, ?_⟩
  · rw [List.map_map]
    exact List.map_fst_zip hlength.le
  · intro piece hpiece
    obtain ⟨⟨text, names⟩, hzip, rfl⟩ := List.mem_map.1 hpiece
    have hcontributes := contributes_import (List.forall₂_zip hreads hzip)
    rwa [hsource] at hcontributes
  · have hpieces : ((decl.render.zip nss).map fun piece => ((piece.1, ⟨decl.source, piece.2⟩) :
        ImportPiece)).map Prod.snd = nss.map (Import.mk decl.source) := by
      conv_rhs => rw [← List.map_snd_zip hlength.ge]
      rw [List.map_map, List.map_map]
      rfl
    rw [hpieces]
    exact sameImports_parts hne hmem

theorem exists_pieces {imports : List Import} (h : ∀ decl ∈ imports, decl.IsRegular) :
    ∃ pieces : List ImportPiece, pieces.map Prod.fst = imports.flatMap render ∧
      (∀ piece ∈ pieces, piece.IsRead) ∧ Store.SameImports (pieces.map Prod.snd) imports := by
  induction imports with
  | nil => exact ⟨[], rfl, fun _ hp => absurd hp List.not_mem_nil, .of_perm (List.Perm.refl _)⟩
  | cons decl imports ih =>
    obtain ⟨hdecl, himports⟩ := List.forall_mem_cons.1 h
    obtain ⟨first, hfirst, hread, hsame⟩ := hdecl.exists_pieces
    obtain ⟨more, hmore, hread', hsame'⟩ := ih himports
    refine ⟨first ++ more, ?_, List.forall_mem_append.2 ⟨hread, hread'⟩, ?_⟩
    · rw [List.map_append, hfirst, hmore, List.flatMap_cons]
    · rw [List.map_append]
      exact hsame.append hsame'

end Import

/-! ### Constants and statements -/

/-- A constant whose initializer is a call that comes back does so itself. -/
theorem Definition.comesBack_call {d : Definition} {callee : String} {args : List Value}
    (hname : IsToken d.name.toList) (henum : d.name.toList ≠ "enum".toList)
    (hcall : (Value.call callee args).IsRegular)
    (hexpression : d.expression.toList = Value.render (.call callee args)) : d.ComesBack := by
  refine ⟨hname, henum, fun depth rest hdepth => ?_⟩
  have hargs := Value.renderAll_readsAs args hcall.args
  have hbody := Value.isBody_commaSeparated (show ')' ∈ enders by decide)
    (Value.begins_of_readsAs hargs)
  rw [Value.render] at hexpression
  generalize Value.commaSeparated (Value.renderAll args) ++ [')'] = body at hbody hexpression
  rw [hexpression, List.length_append, List.length_cons] at hdepth
  obtain ⟨depth, rfl⟩ := Nat.exists_eq_add_one_of_ne_zero (Nat.ne_zero_of_lt hdepth)
  obtain ⟨es, hlist, hes⟩ :=
    arguments_of_readsAs hargs hbody (show body.length ≤ depth by omega) (';' :: '\n' :: rest)
  have hskip : skip (' ' :: (d.expression.toList ++ ';' :: '\n' :: rest)) =
      callee.toList ++ '(' :: (body ++ ';' :: '\n' :: rest) := by
    rw [hexpression, skip_cons_of_isSpace (by decide), (begins_path hcall.callee.1 _).kept,
      List.append_assoc, List.cons_append]
  obtain ⟨kind, hvalue⟩ :=
    expression_call hcall.callee.1 hcall.callee.2 hlist (halts_semicolon _ true _) hskip
  refine ⟨_, hvalue, (values_of_items hes).2, ?_⟩
  have htext : callee.toList ++ '(' :: (body ++ ';' :: '\n' :: rest) =
      d.expression.toList ++ ';' :: '\n' :: rest := by
    rw [hexpression, List.append_assoc, List.cons_append]
  rw [Expr.fragment, Fragment.text, Fragment.chars, htext, upTo_append, String.ofList_toList]

namespace Store

variable {store : Store} {out : List Declaration}

/-- A constant that is not that of a schema is a statement that comes back. -/
theorem keepsStatement_of_comesBack {d : Definition} (h : d.ComesBack)
    (hother : isSchemaName d.name = false) :
    KeepsStatement (String.ofList (renderDefinition d)) := by
  rw [KeepsStatement, String.toList_ofList]
  exact contributes_keptDefinition h hother

/-- Declarations that are made one after the other put their constants and add their statements. -/
theorem foldl_declare (out : List Declaration) (store : Store) :
    out.foldl (fun store d => declare d store) store = { store with
      definitions := putAll Definition.name (out.filterMap Declaration.definition?) store.definitions
      statements := (out.filterMap Declaration.statement?).foldl withStatement store.statements } := by
  induction out generalizing store with
  | nil => rfl
  | cons d out ih =>
    rw [List.foldl_cons, ih]
    cases d with
    | schema d =>
      simp only [List.filterMap_cons, Declaration.definition?, Declaration.statement?, putAll_cons]
      rfl
    | statement text =>
      simp only [List.filterMap_cons, Declaration.definition?, Declaration.statement?,
        List.foldl_cons, declare, addStatement_eq]

/-- The members of the registration put the routes and the settings. -/
theorem foldl_propertyChanges (store held : Store) :
    (propertyChanges store).foldl (fun held change => change held) held = { held with
      routes := (Route.sort store.routes).foldl (fun routes route => insertRoute route routes)
        held.routes
      settings := putAll Setting.key (store.settings.map heldSetting) held.settings } := by
  rw [propertyChanges, List.foldl_cons, List.foldl_map, foldl_addSetting]

/-- Routes that are put in another order are in their order again. -/
theorem Canonical.foldl_insertRoute_sort (h : store.Canonical) :
    (Route.sort store.routes).foldl (fun routes route => insertRoute route routes) [] =
      store.routes := by
  have hperm := Route.sort_perm store.routes
  have hkeys : ((Route.sort store.routes).map routeKey).Nodup :=
    (hperm.map routeKey).nodup_iff.2 h.nodup_routeKeys
  refine eq_of_lookup_routeKey (pairwise_foldl_insertRoute .nil) h.routes fun k => ?_
  rw [lookup_foldl_insertRoute hkeys, lookup_perm routeKey hkeys hperm]
  exact Option.or_none

/-- What a file declares, read into an empty store, is the store in the order of the file. -/
theorem Canonical.reread (h : store.Canonical) (hordered : store.ordered = .ok out)
    {added : List Import} (hadded : SameImports added store.imports) :
    (propertyChanges store).foldl (fun held change => change held)
      (out.foldl (fun store d => declare d store)
        (added.foldl (fun store i => store.addImports i.source i.names) {})) =
      store.inOrder out := by
  have hreordered := reordered_inOrder hordered
  have hdefinitions : ((store.inOrder out).definitions.map Definition.name).Nodup :=
    (hreordered.definitions.map _).nodup_iff.1 h.definitions
  have hstatements : (store.inOrder out).statements.foldl withStatement [] =
      (store.inOrder out).statements := by
    have htrimmed : ∀ text ∈ (store.inOrder out).statements,
        text.isEmpty = false ∧ Text.trim text = text :=
      fun text htext => h.trimmed text (hreordered.statements.mem_iff.2 htext)
    rw [foldl_withStatement_eq htrimmed]
    exact foldl_withNew_of_nodup (hreordered.statements.nodup_iff.1 h.distinct)
  -- each part of the file fills one part of the store, and no entry of it is there twice
  rw [foldl_addImports, foldl_declare, foldl_propertyChanges, h.map_heldSetting,
    h.foldl_insertRoute_sort, putAll_nil Setting.key h.settings,
    hadded.foldl_withImport h.imports h.collapsed]
  have hput := putAll_nil Definition.name hdefinitions
  rw [inOrder] at hput hstatements ⊢
  dsimp only at hput hstatements ⊢
  rw [hput, hstatements]

end Store

/-! ### The file -/

namespace Source

open Store (Declaration)

variable {store : Store} {out : List Declaration} {depth : ℕ}

/-- The ends of lines between the parts of a file. -/
def partGap : Chars := ['\n', '\n']

/-- A file is its parts with gaps behind them, the registration and the end of a line. -/
theorem renderOrdered_eq (store : Store) (out : List Declaration) : store.renderOrdered out =
    Text.joinWith ['\n'] (Store.headerLines.map String.toList) ++ partGap ++
      ((Store.block ((Import.sort store.imports).flatMap Import.render)).flatMap (· ++ partGap) ++
        ((Store.declarationBlocks [] out).flatMap (· ++ partGap) ++
          (store.renderRegistration ++ ['\n']))) := by
  rw [Store.renderOrdered, Store.blocks, Text.joinWith_concat, List.flatMap_append, partGap]
  generalize Text.joinWith ['\n'] (Store.headerLines.map String.toList) = header
  simp only [List.append_assoc]

/-- The declarations of a file whose store is regular are read back. -/
theorem contributes_of_mem (hregular : store.IsRegular) (hordered : store.ordered = .ok out) :
    ∀ d ∈ out, Contributes (declarationText d) (declare d) := by
  have hreordered := Store.reordered_inOrder hordered
  intro d hd
  cases d with
  | schema d =>
    have hmem : d ∈ (store.inOrder out).definitions := List.mem_filterMap.2 ⟨_, hd, rfl⟩
    exact contributes_definition (hregular.definitions d (hreordered.definitions.mem_iff.2 hmem))
  | statement text =>
    have hmem : text ∈ (store.inOrder out).statements := List.mem_filterMap.2 ⟨_, hd, rfl⟩
    exact hregular.statements text (hreordered.statements.mem_iff.2 hmem)

/-- **What stands in front of the registration** contributes the imports, and then the constants and
statements in the order of the file. -/
theorem passage_declarations (hregular : store.IsRegular) (hordered : store.ordered = .ok out)
    (hdepth : (store.renderOrdered out).length < depth) :
    ∃ added, Store.SameImports added store.imports ∧
      Passage depth (fun held => out.foldl (fun store d => declare d store)
          (added.foldl (fun store i => store.addImports i.source i.names) held))
        (store.renderOrdered out) (store.renderRegistration ++ ['\n']) := by
  have hsorted := Import.sort_perm store.imports
  obtain ⟨pieces, hrender, hread, hsame⟩ :=
    Import.exists_pieces fun decl hdecl => hregular.imports decl (hsorted.mem_iff.1 hdecl)
  refine ⟨pieces.map Prod.snd, hsame.trans (.of_perm hsorted), ?_⟩
  rw [renderOrdered_eq, ← hrender] at hdepth ⊢
  simp only [List.length_append] at hdepth
  generalize store.renderRegistration ++ ['\n'] = tail
  generalize hbehind : (Store.declarationBlocks [] out).flatMap (· ++ partGap) ++ tail = behind
  have hblocks : Passage depth (fun held => out.foldl (fun store d => declare d store) held)
      behind tail := by
    rw [← hbehind]
    exact passage_blocks isGap_lines (fun _ (h : _ ∈ []) => absurd h List.not_mem_nil)
      (contributes_of_mem hregular hordered)
      (show ((Store.declarationBlocks [] out).flatMap (· ++ partGap)).length < depth by omega)
  have himports : Passage depth (fun held => pieces.foldl (fun store piece =>
      store.addImports piece.2.source piece.2.names) held)
      ((Store.block (pieces.map Prod.fst)).flatMap (· ++ partGap) ++ behind) behind :=
    passage_block hread isGap_lines (by omega)
  generalize hmiddle : (Store.block (pieces.map Prod.fst)).flatMap (· ++ partGap) ++ behind =
    middle at himports ⊢
  have hheader : Passage depth id (Text.joinWith ['\n'] (Store.headerLines.map String.toList) ++
      partGap ++ middle) middle := contributes_header.passage isGap_lines (by omega)
  simp only [List.foldl_map]
  exact ((hheader.trans himports).trans hblocks :)

/-- The registration is the last item of a file. -/
theorem itemsFrom_registration {item : Item} {fuel : ℕ} (hfuel : 0 < fuel)
    (h : statement (reader depth) (store.renderRegistration ++ ['\n']) = some (item, ['\n'])) :
    itemsFrom (reader depth) fuel (store.renderRegistration ++ ['\n']) = [item] := by
  obtain ⟨cs, hcons⟩ : ∃ cs, store.renderRegistration = 'e' :: cs :=
    ⟨_, renderRegistration_eq store⟩
  obtain ⟨fuel, rfl⟩ := Nat.exists_eq_add_one.2 hfuel
  rw [hcons, List.cons_append] at h ⊢
  rw [itemsFrom_statement ⟨by decide, by decide, by decide⟩ h, itemsFrom_cons_of_isSpace rfl]
  cases fuel <;> rfl

/-- What is read of a file whose store is regular. -/
theorem read_renderOrdered (hcanonical : store.Canonical) (hregular : store.IsRegular)
    (hordered : store.ordered = .ok out) : read (store.renderOrdered out) =
      { store := store.inOrder out, complaints := [], registered := true, comments := [] } := by
  have hhash : ∀ rest, store.renderOrdered out = '#' :: '!' :: rest → False := fun rest h => by
    rw [renderOrdered_eq] at h
    exact absurd (List.cons.inj h).1 (show '/' ≠ '#' by decide)
  have hlength : store.renderRegistration.length < (store.renderOrdered out).length + 1 := by
    rw [renderOrdered_eq]
    simp only [List.length_append]
    omega
  -- the items of the file are those in front of the registration, and the registration
  obtain ⟨added, hadded, found, hreads, hfound⟩ :=
    passage_declarations hregular hordered (Nat.lt_succ_self _)
  obtain ⟨item, hitem, hadd⟩ := statement_registration hregular.routes hregular.settings hlength
    ['\n']
  obtain ⟨fuel, hfuel, hitems⟩ := hreads.itemsFrom_eq (Nat.lt_succ_self _)
  rw [read, items_eq_itemsFrom hhash, hitems,
    itemsFrom_registration (Nat.zero_lt_of_lt hfuel) hitem, List.foldl_append, hfound {} rfl,
    List.foldl_cons, List.foldl_nil, hadd _ rfl]
  exact congrArg (fun held => ({ store := held, registered := true } : Reading))
    (hcanonical.reread hordered hadded)

/-- **A file is read back as its declarations in the order of the file, without a warning**, if each
of them is read back. -/
theorem readMiddlewares_renderOrdered (hcanonical : store.Canonical) (hregular : store.IsRegular)
    (hordered : store.ordered = .ok out) :
    readMiddlewares (String.ofList (store.renderOrdered out)) = (store.inOrder out, []) := by
  rw [readMiddlewares, String.toList_ofList, read_renderOrdered hcanonical hregular hordered]
  rfl

end Source

end ModuleScaffold
