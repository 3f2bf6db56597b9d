import ModuleScaffold.Proofs.Paths.Joining

/-!
# Where import specifiers lead

A specifier is followed piece by piece from the directory of its file: two points lead to the
directory above, one point stays, a name leads into the directory of that name. The specifier that
is made for a target drops the start that the target has in common with the directory, goes up for
what remains of the directory and then down to the target, so whoever follows it gets there –
provided that all that both paths do is to name directories, since there is no way back from a
directory that is only known as the one above another.

Main statements:

* `ModuleScaffold.Path.resolve_importPath` – **an import specifier leads to its target**;
* `ModuleScaffold.Path.isRelative_importPath` – **an import specifier is relative**;
* `ModuleScaffold.Path.components_of_parent` – **the components of the directory of a file**.
-/

namespace ModuleScaffold

namespace Path

variable {path origin target : Path} {place steps : List Component} {specifier : String}
  {piece : List Char} {pieces : List (List Char)}

/-! ### Following a specifier -/

/-- The place above a place. Above the root there is nothing, and above a place that is itself only
known as one above another there is no name. -/
def above (place : List Component) : List Component :=
  match place.getLast? with
  | some (.name _) => place.dropLast
  | some .root => place
  | _ => place ++ [.up]

/-- Where steps lead from a place. -/
def follow (place : List Component) : List Component → List Component
  | [] => place
  | .up :: steps => follow (above place) steps
  | step :: steps => follow (place ++ [step]) steps

/-- Where a specifier leads from a directory. -/
def resolve (directory : List Component) (specifier : String) : List Component :=
  follow directory (inner specifier.toList)

/-- A specifier is relative if it begins with the current directory or the one above. -/
def IsRelative (specifier : String) : Prop :=
  (Text.fields (· == '/') specifier.toList).head? ∈ [some ['.'], some ['.', '.']]

instance : DecidablePred IsRelative :=
  fun _ => inferInstanceAs (Decidable (_ ∈ _))

theorem above_append_name (text : String) : above (place ++ [.name text]) = place := by
  rw [above, List.getLast?_concat, List.dropLast_concat]

theorem follow_append (place steps more : List Component) :
    follow place (steps ++ more) = follow (follow place steps) more := by
  induction steps generalizing place with
  | nil => rfl
  | cons step steps ih => cases step <;> exact ih _

/-- All components name directories or files. -/
def Named (components : List Component) : Prop :=
  ∀ c ∈ components, ∃ text, c = .name text

theorem follow_of_named (h : Named steps) : follow place steps = place ++ steps := by
  induction steps generalizing place with
  | nil => rw [List.append_nil]; rfl
  | cons step steps ih =>
    obtain ⟨⟨text, rfl⟩, hrest⟩ := List.forall_mem_cons.1 h
    rw [follow, ih hrest, List.append_assoc, List.singleton_append]
    exact fun h => nomatch h

/-- Going up as often as names lead down leads back. -/
theorem follow_ups (h : Named steps) :
    follow (place ++ steps) (steps.map fun _ => .up) = place := by
  induction steps using List.reverseRecOn with
  | nil => rw [List.append_nil]; rfl
  | append_singleton steps step ih =>
    obtain ⟨text, rfl⟩ := h step (List.mem_append_right _ List.mem_cons_self)
    have hups : (steps ++ [Component.name text]).map (fun _ => Component.up) =
        .up :: steps.map fun _ => .up := by
      rw [List.map_append, List.map_singleton, List.map_const', ← List.replicate_succ',
        List.replicate_succ]
    rw [hups, follow, ← List.append_assoc, above_append_name]
    exact ih fun c hc => h c (List.mem_append_left _ hc)

/-! ### The steps to a target -/

theorem stepsFrom_nil_left (out origin : List Component) :
    stepsFrom out [] origin = some (out ++ origin.map fun _ => .up) := by
  induction origin generalizing out with
  | nil => rw [stepsFrom]; rfl
  | cons y origin ih =>
    rw [stepsFrom, ih, List.append_assoc]
    rfl

/-- **The steps to a target lead there**, from every place that the directory can have. -/
theorem follow_stepsFrom {origin target : List Component} (horigin : Named origin)
    (htarget : Named target) (place : List Component) :
    ∃ steps, stepsFrom [] target origin = some steps ∧
      (∀ step ∈ steps, step = .up ∨ step ∈ target) ∧
        follow (place ++ origin) steps = place ++ target := by
  induction target generalizing origin place with
  | nil =>
    refine ⟨_, stepsFrom_nil_left [] origin, fun step hstep => .inl ?_, ?_⟩
    · obtain ⟨_, _, rfl⟩ := List.mem_map.1 hstep
      rfl
    · rw [List.nil_append, follow_ups horigin, List.append_nil]
  | cons x target ih =>
    cases origin with
    | nil =>
      refine ⟨x :: target, rfl, fun step hstep => .inr hstep, ?_⟩
      rw [follow_of_named htarget, List.append_nil]
    | cons y origin =>
      obtain ⟨⟨text, rfl⟩, horigin'⟩ := List.forall_mem_cons.1 horigin
      rw [stepsFrom]
      by_cases hsame : x = .name text
      · -- a common start is skipped
        subst hsame
        obtain ⟨steps, hsteps, hfrom, hfollow⟩ :=
          ih horigin' (fun c hc => htarget c (List.mem_cons_of_mem _ hc)) (place ++ [.name text])
        rw [List.append_assoc, List.append_assoc] at hfollow
        refine ⟨steps, ?_, fun step hstep => (hfrom step hstep).imp_right (List.mem_cons_of_mem _),
          hfollow⟩
        rw [if_pos (by rw [List.isEmpty_nil, Bool.true_and, beq_iff_eq])]
        exact hsteps
      · refine ⟨(Component.name text :: origin).map (fun _ => .up) ++ x :: target, ?_, ?_, ?_⟩
        · rw [if_neg (by rw [List.isEmpty_nil, Bool.true_and, beq_iff_eq]; exact hsame),
            if_neg (fun h => nomatch h), if_neg (fun h => nomatch h)]
          rfl
        · intro step hstep
          rcases List.mem_append.1 hstep with hstep | hstep
          · obtain ⟨_, _, rfl⟩ := List.mem_map.1 hstep
            exact .inl rfl
          · exact .inr hstep
        · rw [follow_append, follow_ups horigin, follow_of_named htarget]

/-! ### Steps as text -/

theorem fields_joinWith (h : ∀ piece ∈ pieces, '/' ∉ piece) (hne : pieces ≠ []) :
    Text.fields (· == '/') (Text.joinWith ['/'] pieces) = pieces := by
  have hsolid : ∀ {piece : List Char}, '/' ∉ piece → ∀ c ∈ piece, (c == '/') = false := by
    rintro piece hslash c hc
    rw [beq_eq_false_iff_ne]
    rintro rfl
    exact hslash hc
  induction pieces with
  | nil => exact absurd rfl hne
  | cons piece pieces ih =>
    obtain ⟨hpiece, hrest⟩ := List.forall_mem_cons.1 h
    cases pieces with
    | nil => exact Text.fields_of_forall (hsolid hpiece)
    | cons other pieces =>
      rw [Text.joinWith, List.append_assoc, List.singleton_append,
        Text.fields_append_cons (hsolid hpiece) (beq_self_eq_true '/'),
        ih hrest (List.cons_ne_nil _ _)]

theorem inner_joinWith (h : ∀ piece ∈ pieces, '/' ∉ piece) :
    inner (Text.joinWith ['/'] pieces) = pieces.filterMap innerComponent := by
  cases pieces with
  | nil => rfl
  | cons piece pieces => rw [inner, fields_joinWith h (List.cons_ne_nil _ _)]

/-- A text that begins with two points begins with a piece that does. -/
theorem prefix_of_prefix_joinWith (h : ['.', '.'] <+: Text.joinWith ['/'] (piece :: pieces)) :
    ['.', '.'] <+: piece := by
  cases pieces with
  | nil => exact h
  | cons other pieces =>
    rw [Text.joinWith, List.append_assoc] at h
    obtain ⟨rest, hrest⟩ := h
    cases piece with
    | nil => cases hrest
    | cons c piece =>
      cases piece with
      | nil => cases hrest
      | cons d piece =>
        simp only [List.cons_append, List.cons.injEq] at hrest
        obtain ⟨rfl, rfl, -⟩ := hrest
        exact ⟨piece, rfl⟩

/-- A component that a piece denotes, written as that piece. -/
def Written (c : Component) : Prop :=
  ∃ piece, stepText c = some piece ∧ innerComponent piece = some c ∧ '/' ∉ piece

theorem written_of_innerComponent {c : Component} (h : innerComponent piece = some c)
    (hslash : '/' ∉ piece) : Written c := by
  refine ⟨piece, ?_, h, hslash⟩
  rw [innerComponent] at h
  split at h
  · cases h
  · split at h
    · next hup =>
      cases h
      rw [hup]
      rfl
    · cases h
      rw [stepText, String.toList_ofList]

theorem written_of_mem_inner {c : Component} {text : List Char} (h : c ∈ inner text) :
    Written c := by
  obtain ⟨piece, hpiece, hc⟩ := List.mem_filterMap.1 h
  refine written_of_innerComponent hc fun hslash => ?_
  have hsolid := Text.eq_false_of_mem_fields hpiece '/' hslash
  cases hsolid

/-- Steps are read back from their text. -/
theorem inner_stepTexts (h : ∀ step ∈ steps, Written step) :
    inner (Text.joinWith ['/'] (steps.filterMap stepText)) = steps := by
  have hslash : ∀ piece ∈ steps.filterMap stepText, '/' ∉ piece := by
    intro piece hpiece
    obtain ⟨step, hstep, htext⟩ := List.mem_filterMap.1 hpiece
    obtain ⟨piece', htext', -, hslash⟩ := h step hstep
    exact Option.some.inj (htext'.symm.trans htext) ▸ hslash
  rw [inner_joinWith hslash, List.filterMap_filterMap]
  clear hslash
  induction steps with
  | nil => rfl
  | cons step steps ih =>
    obtain ⟨⟨piece, htext, hdenotes, -⟩, hrest⟩ := List.forall_mem_cons.1 h
    rw [List.filterMap_cons_some (b := step) (by rw [htext]; exact hdenotes), ih hrest]

theorem isAbsolute_eq_false_of_named (h : Named path.components) : path.isAbsolute = false := by
  rw [Bool.eq_false_iff]
  intro habsolute
  obtain ⟨rest, hrest⟩ := List.head?_eq_some_iff.1 (beq_iff_eq.1 habsolute)
  obtain ⟨text, htext⟩ := h .root (by rw [components_of_absolute hrest]; exact List.mem_cons_self)
  cases htext

/-- The names of a path are written as they are. -/
theorem written_of_named (h : Named path.components) : ∀ c ∈ path.components, Written c := by
  intro c hc
  have habsolute := isAbsolute_eq_false_of_named h
  have hrelative : path.text.toList.head? ≠ some '/' := by
    rw [isAbsolute, beq_eq_false_iff_ne] at habsolute
    exact habsolute
  have hcurrent : (Text.fields (· == '/') path.text.toList).head? ≠ some ['.'] := by
    intro hpoint
    obtain ⟨pieces, hpieces⟩ := List.head?_eq_some_iff.1 hpoint
    obtain ⟨text, htext⟩ := h .current <| by
      rw [components, Path.pieces, hpieces]
      simp only [firstComponent, habsolute]
      exact List.mem_cons_self
    cases htext
  rw [components_of_relative rfl hrelative hcurrent] at hc
  exact written_of_mem_inner hc

/-- The steps of a specifier lead to the target, and they are what its text says. -/
theorem exists_steps (horigin : Named origin.components) (htarget : Named target.components) :
    ∃ steps, (origin.steps target).getD target.components = steps ∧
      (∀ step ∈ steps, step = .up ∨ step ∈ target.components) ∧
        (∀ step ∈ steps, Written step) ∧ follow origin.components steps = target.components := by
  obtain ⟨steps, hsteps, hfrom, hfollow⟩ := follow_stepsFrom horigin htarget []
  refine ⟨steps, ?_, hfrom, fun step hstep => ?_, hfollow⟩
  · rw [Path.steps, isAbsolute_eq_false_of_named horigin, isAbsolute_eq_false_of_named htarget,
      if_pos (beq_self_eq_true false), hsteps]
    rfl
  · rcases hfrom step hstep with rfl | hmem
    · exact ⟨['.', '.'], rfl, rfl, by decide⟩
    · exact written_of_named htarget step hmem

/-- A point and a slash in front of a specifier lead nowhere. -/
theorem inner_importPath : inner (importPath origin target).toList =
    inner (Text.joinWith ['/'] (((origin.steps target).getD target.components).filterMap
      stepText)) := by
  rw [importPath, String.toList_ofList]
  split
  · rfl
  · exact inner_append_slash ['.'] _

/-- **An import specifier leads to its target.** -/
theorem resolve_importPath (horigin : Named origin.components)
    (htarget : Named target.components) :
    resolve origin.components (importPath origin target) = target.components := by
  obtain ⟨steps, hsteps, -, hwritten, hfollow⟩ := exists_steps horigin htarget
  rw [resolve, inner_importPath, hsteps, inner_stepTexts hwritten, hfollow]

/-- **An import specifier is relative**, if the names on the way do not begin with the mark of the
directory above. -/
theorem isRelative_importPath (horigin : Named origin.components)
    (htarget : Named target.components)
    (hnames : ∀ text, .name text ∈ target.components → ¬['.', '.'] <+: text.toList) :
    IsRelative (importPath origin target) := by
  obtain ⟨steps, hsteps, hfrom, hwritten, -⟩ := exists_steps horigin htarget
  rw [IsRelative, importPath, hsteps, String.toList_ofList]
  split
  · next hup =>
    -- only a step up can begin so
    cases steps with
    | nil => cases hup
    | cons step steps =>
      obtain ⟨piece, htext, -, hslash⟩ := hwritten step List.mem_cons_self
      rw [List.filterMap_cons_some htext] at hup ⊢
      have hfields : Text.fields (· == '/')
          (Text.joinWith ['/'] (piece :: steps.filterMap stepText)) =
            piece :: steps.filterMap stepText := by
        refine fields_joinWith (List.forall_mem_cons.2 ⟨hslash, fun other hother => ?_⟩)
          (List.cons_ne_nil _ _)
        obtain ⟨step', hstep', htext'⟩ := List.mem_filterMap.1 hother
        obtain ⟨piece', hpiece', -, hslash'⟩ := hwritten step' (List.mem_cons_of_mem _ hstep')
        exact Option.some.inj (hpiece'.symm.trans htext') ▸ hslash'
      rw [hfields]
      rcases hfrom step List.mem_cons_self with rfl | hmem
      · obtain rfl : ['.', '.'] = piece := Option.some.inj htext
        exact List.mem_cons_of_mem _ List.mem_cons_self
      · obtain ⟨text, rfl⟩ := htarget step hmem
        obtain rfl : text.toList = piece := Option.some.inj htext
        rw [List.isPrefixOf_iff_prefix] at hup
        exact absurd (prefix_of_prefix_joinWith hup) (hnames text hmem)
  · rw [show ('.' :: '/' :: Text.joinWith ['/'] (steps.filterMap stepText)) =
      ['.'] ++ '/' :: Text.joinWith ['/'] (steps.filterMap stepText) from rfl,
      Text.fields_append_cons (List.forall_mem_singleton.2 rfl) rfl]
    exact List.mem_cons_self

/-! ### The directory of a file -/

theorem innerComponent_eq_none_iff : innerComponent piece = none ↔ isEmptyPiece piece = true := by
  have hdecide : isEmptyPiece piece = (decide (piece = []) || decide (piece = ['.'])) := by
    rw [isEmptyPiece, beq_eq_decide, beq_eq_decide]
  rw [innerComponent, hdecide]
  split
  · next hempty => exact iff_of_true rfl hempty
  · next hempty =>
    refine iff_of_false (fun h => ?_) hempty
    split at h <;> cases h

/-- Empty pieces at the end of a path denote nothing. -/
theorem filterMap_dropEndWhile (pieces : List (List Char)) :
    (Text.dropEndWhile isEmptyPiece pieces).filterMap innerComponent =
      pieces.filterMap innerComponent := by
  induction pieces using List.reverseRecOn with
  | nil => rfl
  | append_singleton pieces piece ih =>
    rw [Text.dropEndWhile_concat]
    split
    · next hempty =>
      rw [ih, List.filterMap_append, List.filterMap_cons_none (innerComponent_eq_none_iff.2 hempty),
        List.filterMap_nil, List.append_nil]
    · rfl

/-- Of pieces without empty ones at the end, the last one denotes something. -/
theorem filterMap_dropLast {kept : List (List Char)}
    (h : Text.dropEndWhile isEmptyPiece pieces = kept) (hne : kept ≠ []) :
    ∃ last, pieces.filterMap innerComponent =
      kept.dropLast.filterMap innerComponent ++ [last] := by
  obtain ⟨last, hlast⟩ : ∃ c, innerComponent (kept.getLast hne) = some c := by
    rw [← Option.isSome_iff_exists, Option.isSome_iff_ne_none, Ne, innerComponent_eq_none_iff]
    subst h
    exact List.rdropWhile_last_not isEmptyPiece pieces hne
  refine ⟨last, ?_⟩
  rw [← filterMap_dropEndWhile, h]
  nth_rewrite 1 [← List.dropLast_append_getLast hne]
  rw [List.filterMap_append, List.filterMap_cons_some hlast, List.filterMap_nil]

/-- Pieces with slashes between them denote what they denoted in the path that they are from, if it
is absolute exactly if the new path is. -/
theorem components_ofPieces (path : Path) {first : List Char} {rest : List (List Char)}
    (h : ∀ piece ∈ first :: rest, '/' ∉ piece)
    (habsolute : (ofPieces (first :: rest)).isAbsolute = path.isAbsolute) :
    (ofPieces (first :: rest)).components =
      (path.firstComponent first).toList ++ rest.filterMap innerComponent := by
  have hpieces : (ofPieces (first :: rest)).pieces = first :: rest := by
    rw [Path.pieces, ofPieces, String.toList_ofList]
    exact fields_joinWith h (List.cons_ne_nil _ _)
  rw [components, hpieces]
  simp only [firstComponent, habsolute]

/-- Pieces with slashes between them are an absolute path if the first one is empty. -/
theorem isAbsolute_ofPieces {first : List Char} {rest : List (List Char)} (hslash : '/' ∉ first)
    (hne : rest ≠ []) : (ofPieces (first :: rest)).isAbsolute = decide (first = []) := by
  obtain ⟨second, rest, rfl⟩ := List.exists_cons_of_ne_nil hne
  rw [isAbsolute, ofPieces, String.toList_ofList, Text.joinWith]
  cases first with
  | nil => rfl
  | cons c first =>
    rw [decide_eq_false (List.cons_ne_nil c first), beq_eq_false_iff_ne]
    intro hhead
    obtain rfl : c = '/' := Option.some.inj hhead
    exact hslash List.mem_cons_self

theorem ofPieces_pieces (path : Path) : ofPieces path.pieces = path := by
  rw [ofPieces, Path.pieces, Text.joinWith_fieldsAt, String.ofList_toList]

theorem slash_notMem_pieces (path : Path) : ∀ piece ∈ path.pieces, '/' ∉ piece := by
  intro piece hpiece hmem
  have hsolid := Text.eq_false_of_mem_fields hpiece '/' hmem
  cases hsolid

theorem components_eq {first : List Char} {rest : List (List Char)}
    (h : path.pieces = first :: rest) : path.components =
      (path.firstComponent first).toList ++ rest.filterMap innerComponent := by
  rw [components, h]

/-- **The components of the directory of a file.** -/
theorem components_of_parent {parent : Path} (h : path.parent = some parent) :
    parent.components = path.components.dropLast := by
  have hslash := path.slash_notMem_pieces
  have hpath := path.ofPieces_pieces
  rw [Path.parent] at h
  cases hpieces : path.pieces with
  | nil => rw [hpieces] at h; cases h
  | cons first rest =>
    rw [hpieces] at h hslash hpath
    obtain ⟨hfirst, hrest⟩ := List.forall_mem_cons.1 hslash
    dsimp only at h
    rw [components_eq hpieces]
    cases hkept : Text.dropEndWhile isEmptyPiece rest with
    | nil =>
      -- nothing but the first piece denotes anything
      rw [hkept] at h
      rw [← filterMap_dropEndWhile, hkept, List.filterMap_nil, List.append_nil]
      dsimp only at h
      split at h
      · cases h
      · cases h
        cases path.firstComponent first <;> rfl
    | cons second kept =>
      obtain ⟨last, hlast⟩ := filterMap_dropLast hkept (List.cons_ne_nil _ _)
      have habsolute : path.isAbsolute = decide (first = []) := by
        rw [← hpath]
        refine isAbsolute_ofPieces hfirst ?_
        rintro rfl
        cases hkept
      have hkeptPieces : ∀ piece ∈ second :: kept, '/' ∉ piece := fun piece hpiece =>
        hrest piece ((List.rdropWhile_prefix _ _).subset (hkept ▸ hpiece))
      rw [hkept] at h
      dsimp only at h
      rw [hlast, ← List.append_assoc, List.dropLast_concat, ← filterMap_dropEndWhile]
      cases habove : Text.dropEndWhile isEmptyPiece (second :: kept).dropLast with
      | nil =>
        rw [habove] at h
        dsimp only at h
        rw [List.filterMap_nil, List.append_nil]
        split at h
        · next hroot =>
          cases h
          rw [firstComponent, if_pos hroot]
          rfl
        · next hroot =>
          cases h
          rw [components_ofPieces path (List.forall_mem_singleton.2 hfirst),
            List.filterMap_nil, List.append_nil]
          rw [Bool.eq_false_iff.2 hroot, isAbsolute, ofPieces, String.toList_ofList,
            beq_eq_false_iff_ne]
          exact fun hhead => hfirst (List.mem_of_mem_head? hhead)
      | cons third above =>
        rw [habove] at h
        cases h
        have haboveSlash : ∀ piece ∈ third :: above, '/' ∉ piece := fun piece hpiece =>
          hkeptPieces piece
            (List.dropLast_subset _ ((List.rdropWhile_prefix _ _).subset (habove ▸ hpiece)))
        refine components_ofPieces path (List.forall_mem_cons.2 ⟨hfirst, haboveSlash⟩) ?_
        rw [habsolute, isAbsolute_ofPieces hfirst (List.cons_ne_nil _ _)]

/-- A path without a directory names no file. -/
theorem components_of_parent_eq_none (h : path.parent = none) :
    ∀ c ∈ path.components, c = .root := by
  rw [Path.parent] at h
  cases hpieces : path.pieces with
  | nil =>
    rw [components, hpieces]
    exact fun c hc => absurd hc List.not_mem_nil
  | cons first rest =>
    rw [hpieces] at h
    dsimp only at h
    rw [components_eq hpieces]
    cases hkept : Text.dropEndWhile isEmptyPiece rest with
    | nil =>
      rw [hkept] at h
      rw [← filterMap_dropEndWhile, hkept, List.filterMap_nil, List.append_nil]
      dsimp only at h
      split at h
      · next hfirst =>
        intro c hc
        rw [hfirst, firstComponent] at hc
        split at hc
        · exact List.mem_singleton.1 hc
        · exact absurd hc List.not_mem_nil
      · cases h
    | cons second kept =>
      rw [hkept] at h
      dsimp only at h
      split at h
      · split at h <;> cases h
      · cases h

/-- The directory of a file. -/
theorem exists_parent {directory : List Component} {file : String}
    (h : path.components = directory ++ [.name file]) :
    ∃ parent, path.parent = some parent ∧ parent.components = directory := by
  cases hparent : path.parent with
  | none =>
    have hroot := components_of_parent_eq_none hparent (.name file)
      (by rw [h]; exact List.mem_append_right _ List.mem_cons_self)
    cases hroot
  | some parent =>
    refine ⟨parent, rfl, ?_⟩
    rw [components_of_parent hparent, h, List.dropLast_concat]

end Path

end ModuleScaffold
