import ModuleScaffold.Proofs.Paths.Leading

/-!
# Specifiers between paths that may begin with a point

A path may begin with a point for the current directory, as paths on a command line do. The point is
a component of its own, although it denotes no step, and the steps from a directory to a target
compare components: a point on one side only keeps the common start of the two paths from being
dropped. If the point is on the side of the target, the specifier takes a longer way and still gets
there. If it is on the side of the directory, the first name of the target is entered before the
directory is left, so one directory too few is left, and the way ends at the target only if both
paths begin with the same name, or if there was nothing to leave.

What the specifier begins with is tested on its text: a text that begins with two points is taken
for one that goes up, be it the name of a directory.

Main statement: `ModuleScaffold.Path.leadsBack_iff` – **when a specifier between two paths that go
down is relative and leads to its target**.
-/

namespace ModuleScaffold

namespace Path

variable {path origin target : Path} {out steps names origins targets : List Component}

/-! ### Paths that go down -/

/-- A path that does not begin at the root and goes up nowhere. -/
structure GoesDown (path : Path) : Prop where
  /-- The path is relative. -/
  relative : path.isAbsolute = false
  /-- No component is the directory above. -/
  down : .up ∉ path.components

instance (path : Path) : Decidable (GoesDown path) :=
  decidable_of_iff (path.isAbsolute = false ∧ .up ∉ path.components)
    ⟨fun h => ⟨h.1, h.2⟩, fun h => ⟨h.relative, h.down⟩⟩

/-- Whether the path begins with the current directory. -/
def isPointed (path : Path) : Bool :=
  path.components.head? = some .current

/-- Components without those for the current directory. -/
def unpointed (components : List Component) : List Component :=
  components.filter (· ≠ .current)

/-- The place that a path denotes: its components without the current directory. -/
def place (path : Path) : List Component :=
  unpointed path.components

theorem unpointed_eq_self (h : .current ∉ names) : unpointed names = names := by
  rw [unpointed, List.filter_eq_self]
  intro c hc
  exact decide_eq_true fun hcurrent => h (hcurrent ▸ hc)

theorem current_notMem_of_named (h : Named names) : .current ∉ names := by
  intro hc
  obtain ⟨text, htext⟩ := h _ hc
  rcases htext with ⟨⟩

/-- No piece but the first one denotes the current directory. -/
theorem current_notMem_filterMap (pieces : List (List Char)) :
    .current ∉ pieces.filterMap innerComponent := by
  intro hc
  obtain ⟨piece, -, hdenotes⟩ := List.mem_filterMap.1 hc
  rw [innerComponent] at hdenotes
  split at hdenotes
  · rcases hdenotes with ⟨⟩
  · split at hdenotes
    · rcases hdenotes with ⟨⟩
    · rcases hdenotes with ⟨⟩

/-- Components behind the first one, and the first one if it is no point, are written as they
are. -/
theorem written_of_mem_components (h : path.isAbsolute = false) {c : Component}
    (hc : c ∈ path.components) (hpoint : c ≠ .current) : Written c := by
  obtain ⟨first, rest, hpieces⟩ := List.exists_cons_of_ne_nil
    (Text.fields_ne_nil (· == '/') path.text.toList)
  have hslash := path.slash_notMem_pieces
  rw [Path.pieces, hpieces] at hslash
  rw [components_eq hpieces, List.mem_append, Option.mem_toList] at hc
  rcases hc with hc | hc
  · rw [firstComponent, if_neg (by rw [h]; exact Bool.false_ne_true)] at hc
    split at hc
    · exact absurd (Option.some.inj hc).symm hpoint
    · exact written_of_innerComponent hc (hslash first List.mem_cons_self)
  · obtain ⟨piece, hpiece, hdenotes⟩ := List.mem_filterMap.1 hc
    exact written_of_innerComponent hdenotes (hslash piece (List.mem_cons_of_mem _ hpiece))

/-- A path that goes down consists of the names of its place, possibly behind a point. -/
theorem GoesDown.components_eq_place (h : GoesDown path) : Named path.place ∧
    path.components = if path.isPointed then .current :: path.place else path.place := by
  refine ⟨fun c hc => ?_, ?_⟩
  · obtain ⟨hmem, hpoint⟩ := List.mem_filter.1 hc
    obtain ⟨piece, htext, -, -⟩ :=
      written_of_mem_components h.relative hmem (of_decide_eq_true hpoint)
    rcases c with _ | _ | _ | text
    · rcases htext with ⟨⟩
    · rcases htext with ⟨⟩
    · exact absurd hmem h.down
    · exact ⟨text, rfl⟩
  · obtain ⟨first, rest, hpieces⟩ := List.exists_cons_of_ne_nil
      (Text.fields_ne_nil (· == '/') path.text.toList)
    have hcomponents := components_eq hpieces
    have hrest := unpointed_eq_self (current_notMem_filterMap rest)
    rw [firstComponent, if_neg (by rw [h.relative]; exact Bool.false_ne_true)] at hcomponents
    split at hcomponents
    · -- the point is the first component and no other one
      have hpointed : path.isPointed = true := by
        rw [isPointed, hcomponents]
        rfl
      have hplace : path.place = rest.filterMap innerComponent := by
        rw [place, hcomponents]
        exact hrest
      rw [if_pos hpointed, hplace, hcomponents]
      rfl
    · have hnone : .current ∉ path.components := by
        have hall : path.components = (first :: rest).filterMap innerComponent := by
          rw [hcomponents, List.filterMap_cons]
          rcases innerComponent first with _ | c <;> rfl
        rw [hall]
        exact current_notMem_filterMap (first :: rest)
      have hbare : ¬path.isPointed = true := by
        rw [isPointed, decide_eq_true_eq]
        exact fun hhead => hnone (List.mem_of_mem_head? hhead)
      rw [if_neg hbare, place, unpointed_eq_self hnone]

/-! ### The way of a specifier -/

/-- The steps of the specifier from a directory to a target: those that are written. -/
def way (origin target : Path) : List Component :=
  unpointed ((origin.steps target).getD target.components)

/-- Steps that drop no common start leave all of the directory before they go down. -/
theorem stepsFrom_apart (h : out ≠ [] ∨ targets.head? ≠ origins.head?) (horigins : Named origins) :
    stepsFrom out targets origins = some (out ++ (origins.map fun _ => .up) ++ targets) := by
  rcases targets with _ | ⟨x, targets⟩
  · rw [stepsFrom_nil_left, List.append_nil]
  · rcases origins with _ | ⟨y, origins⟩
    · rw [stepsFrom, List.map_nil, List.append_nil]
    · obtain ⟨⟨text, rfl⟩, -⟩ := List.forall_mem_cons.1 horigins
      have hdropped : ¬(out.isEmpty && x == .name text) = true := by
        rw [Bool.and_eq_true, List.isEmpty_iff, beq_iff_eq]
        rintro ⟨rfl, rfl⟩
        rcases h with h | h <;> exact h rfl
      rw [stepsFrom, if_neg hdropped, if_neg (by simp), if_neg (by simp), List.map_cons,
        List.append_assoc, List.cons_append]

/-- Every step goes up or to a part of the target. -/
theorem mem_of_stepsFrom (h : stepsFrom out targets origins = some steps) {step : Component}
    (hstep : step ∈ steps) : step ∈ out ∨ step = .up ∨ step ∈ targets := by
  induction origins generalizing out targets with
  | nil =>
    rw [stepsFrom, Option.some.injEq] at h
    subst h
    rcases List.mem_append.1 hstep with hout | htarget
    · exact .inl hout
    · exact .inr (.inr htarget)
  | cons y origins ih =>
    rcases targets with _ | ⟨x, targets⟩
    · rw [stepsFrom] at h
      rcases ih h with hout | hup | htarget
      · rcases List.mem_append.1 hout with hout | hup
        · exact .inl hout
        · exact .inr (.inl (List.mem_singleton.1 hup))
      · exact .inr (.inl hup)
      · exact absurd htarget List.not_mem_nil
    · rw [stepsFrom] at h
      split at h
      · rcases ih h with hout | hup | htarget
        · exact .inl hout
        · exact .inr (.inl hup)
        · exact .inr (.inr (List.mem_cons_of_mem _ htarget))
      split at h
      · rcases ih h with hout | hup | htarget
        · rcases List.mem_append.1 hout with hout | hx
          · exact .inl hout
          · exact .inr (.inr (List.mem_singleton.1 hx ▸ List.mem_cons_self))
        · exact .inr (.inl hup)
        · exact .inr (.inr (List.mem_cons_of_mem _ htarget))
      split at h
      · rcases h with ⟨⟩
      · rw [Option.some.injEq] at h
        subst h
        simp only [List.mem_append, List.mem_cons, List.mem_map] at hstep
        rcases hstep with (hout | hup | ⟨-, -, rfl⟩) | htarget
        · exact .inl hout
        · exact .inr (.inl hup)
        · exact .inr (.inl rfl)
        · exact .inr (.inr (List.mem_cons.2 htarget))

/-- The steps of a specifier go up or to a part of the target. -/
theorem mem_of_steps {step : Component}
    (h : step ∈ (origin.steps target).getD target.components) :
    step = .up ∨ step ∈ target.components := by
  rcases hsteps : origin.steps target with _ | steps
  · rw [hsteps] at h
    exact .inr h
  · rw [hsteps] at h
    rw [Path.steps] at hsteps
    split at hsteps
    · exact (mem_of_stepsFrom hsteps h).resolve_left List.not_mem_nil
    split at hsteps
    · rw [← Option.some.inj hsteps] at h
      exact .inr h
    · rcases hsteps with ⟨⟩

/-- The steps that a specifier writes are read as what they are. -/
theorem written_of_mem_way (htarget : target.isAbsolute = false) :
    ∀ step ∈ way origin target, Written step := by
  intro step hstep
  obtain ⟨hmem, hpoint⟩ := List.mem_filter.1 hstep
  have hne : step ≠ .current := of_decide_eq_true hpoint
  have hup : Written .up := ⟨['.', '.'], rfl, rfl, by decide⟩
  rcases mem_of_steps hmem with rfl | hmem
  · exact hup
  · exact written_of_mem_components htarget hmem hne

/-- A name that is entered before a directory is left: one directory too few is left. -/
theorem follow_entered (horigins : Named origins) {x : Component} (hx : ∃ text, x = .name text)
    (htargets : Named targets) :
    follow origins (x :: ((origins.map fun _ => .up) ++ targets)) =
      origins.head?.getD x :: targets := by
  have hfollow : ∀ more, follow origins (x :: more) = follow (origins ++ [x]) more := by
    obtain ⟨text, rfl⟩ := hx
    exact fun _ => rfl
  rw [hfollow, follow_append]
  rcases origins with _ | ⟨y, origins⟩
  · exact follow_of_named htargets
  · have hnamed : Named (origins ++ [x]) := by
      intro c hc
      rcases List.mem_append.1 hc with hc | hc
      · exact horigins c (List.mem_cons_of_mem _ hc)
      · exact List.mem_singleton.1 hc ▸ hx
    have hups : ((y :: origins).map fun _ => Component.up) = (origins ++ [x]).map fun _ => .up := by
      rw [List.map_const', List.map_const', List.length_append]
      rfl
    rw [hups, show y :: origins ++ [x] = [y] ++ (origins ++ [x]) from rfl, follow_ups hnamed]
    exact follow_of_named htargets

/-- The steps between two lists of names lead to the second one. -/
theorem follow_unpointed_stepsFrom (horigins : Named origins) (htargets : Named targets) :
    follow origins (unpointed ((stepsFrom [] targets origins).getD steps)) = targets := by
  obtain ⟨steps', hsteps, hmem, hfollow⟩ := follow_stepsFrom horigins htargets []
  have hbare : .current ∉ steps' := by
    intro hcurrent
    rcases hmem _ hcurrent with hup | htarget
    · rcases hup with ⟨⟩
    · exact current_notMem_of_named htargets htarget
  rw [hsteps, Option.getD_some, unpointed_eq_self hbare]
  exact hfollow

theorem unpointed_ups (origins : List Component) :
    unpointed (origins.map fun _ => .up) = origins.map fun _ => .up :=
  unpointed_eq_self fun hmem => by
    obtain ⟨_, -, hup⟩ := List.mem_map.1 hmem
    rcases hup with ⟨⟩

/-- **Where a specifier leads** between two paths that go down. -/
theorem follow_way_iff (horigin : GoesDown origin) (htarget : GoesDown target) :
    follow origin.place (way origin target) = target.place ↔
      (origin.isPointed = true → target.isPointed = false → target.place ≠ [] ∧
        (origin.place = [] ∨ origin.place.head? = target.place.head?)) := by
  obtain ⟨hos, hocomponents⟩ := horigin.components_eq_place
  obtain ⟨hts, htcomponents⟩ := htarget.components_eq_place
  have hway : way origin target = unpointed ((stepsFrom [] target.components
      origin.components).getD target.components) := by
    rw [way, Path.steps, horigin.relative, htarget.relative, if_pos (beq_self_eq_true false)]
  have hleft : follow ([] ++ origin.place) (origin.place.map fun _ => .up) = [] := follow_ups hos
  rw [List.nil_append] at hleft
  rw [hway, hocomponents, htcomponents]
  rcases origin.isPointed with _ | _ <;> rcases target.isPointed with _ | _
  · exact iff_of_true (follow_unpointed_stepsFrom hos hts) fun h => absurd h Bool.false_ne_true
  · -- all of the directory is left, the common start too
    refine iff_of_true ?_ fun h => absurd h Bool.false_ne_true
    have hheads : (Component.current :: target.place).head? ≠ origin.place.head? := fun heq =>
      current_notMem_of_named hos (List.mem_of_mem_head? heq.symm)
    have hways : unpointed ((origin.place.map fun _ => .up) ++ .current :: target.place) =
        (origin.place.map fun _ => .up) ++ target.place := by
      have htargets := unpointed_eq_self (current_notMem_of_named hts)
      rw [unpointed, List.filter_append]
      exact congrArg₂ (· ++ ·) (unpointed_ups _) htargets
    simp only [if_true, Bool.false_eq_true, if_false]
    rw [stepsFrom_apart (.inr hheads) hos, Option.getD_some, List.nil_append, hways, follow_append,
      hleft]
    exact follow_of_named hts
  · simp only [if_true, Bool.false_eq_true, if_false, forall_const]
    rcases hcases : target.place with _ | ⟨x, targets⟩
    · -- nothing is entered, and the point of the directory is left with the rest of it
      refine iff_of_false (fun heq => ?_) fun h => h.1 rfl
      have hups : ((Component.current :: origin.place).map fun _ => Component.up) =
          (origin.place.map fun _ => .up) ++ [.up] := by
        rw [List.map_const', List.map_const', ← List.replicate_succ', List.length_cons]
      rw [stepsFrom_nil_left, Option.getD_some, List.nil_append, unpointed_ups, hups, follow_append,
        hleft] at heq
      rcases heq with ⟨⟩
    · rw [hcases] at hts
      obtain ⟨hx, htargets⟩ := List.forall_mem_cons.1 hts
      have hpoint : x ≠ .current := by
        rintro rfl
        exact current_notMem_of_named hts List.mem_cons_self
      have hsteps : stepsFrom [] (x :: targets) (.current :: origin.place) =
          some ([x] ++ (origin.place.map fun _ => .up) ++ targets) := by
        rw [stepsFrom, if_neg (by simp [hpoint]), if_pos rfl]
        exact stepsFrom_apart (.inl (List.cons_ne_nil _ _)) hos
      have hbare : .current ∉ [x] ++ (origin.place.map fun _ => .up) ++ targets := by
        simp only [List.mem_append, List.mem_singleton, List.mem_map]
        rintro ((rfl | ⟨-, -, hup⟩) | hmem)
        · exact hpoint rfl
        · rcases hup with ⟨⟩
        · exact current_notMem_of_named htargets hmem
      rw [hsteps, Option.getD_some, unpointed_eq_self hbare, List.append_assoc,
        List.singleton_append, follow_entered hos hx htargets, List.cons.injEq, and_iff_left rfl,
        and_iff_right (List.cons_ne_nil _ _), List.head?_cons]
      rcases origin.place with _ | ⟨y, origins⟩
      · exact iff_of_true rfl (.inl rfl)
      · simp
  · refine iff_of_true ?_ fun _ h => absurd h.symm Bool.false_ne_true
    have hdrop : stepsFrom [] (.current :: target.place) (.current :: origin.place) =
        stepsFrom [] target.place origin.place := by
      rw [stepsFrom, if_pos (by rfl)]
    simp only [if_true]
    rw [hdrop]
    exact follow_unpointed_stepsFrom hos hts

/-! ### The characters of a specifier -/

/-- The names in a path are made of its characters. -/
theorem mem_of_mem_components {name : String} (h : .name name ∈ path.components) {c : Char}
    (hc : c ∈ name.toList) : c ∈ path.text.toList := by
  have hpieces : ∀ piece ∈ path.pieces, innerComponent piece = some (.name name) →
      c ∈ path.text.toList := by
    intro piece hpiece hdenotes
    rw [innerComponent] at hdenotes
    split at hdenotes
    · rcases hdenotes with ⟨⟩
    split at hdenotes
    · rcases hdenotes with ⟨⟩
    · obtain rfl := Component.name.inj (Option.some.inj hdenotes)
      rw [String.toList_ofList] at hc
      exact Text.mem_of_mem_fields hpiece hc
  obtain ⟨first, rest, hcons⟩ := List.exists_cons_of_ne_nil
    (Text.fields_ne_nil (· == '/') path.text.toList)
  rw [← Path.pieces] at hcons
  rw [components_eq hcons, List.mem_append, Option.mem_toList] at h
  rcases h with h | h
  · rw [firstComponent] at h
    split at h
    · rcases h with ⟨⟩
    split at h
    · rcases h with ⟨⟩
    · exact hpieces first (hcons ▸ List.mem_cons_self) h
  · obtain ⟨piece, hpiece, hdenotes⟩ := List.mem_filterMap.1 h
    exact hpieces piece (hcons ▸ List.mem_cons_of_mem _ hpiece) hdenotes

/-- A step is written with points or with its name. -/
theorem mem_of_stepText {step : Component} {piece : List Char} (h : stepText step = some piece)
    {c : Char} (hc : c ∈ piece) : c = '.' ∨ ∃ name, step = .name name ∧ c ∈ name.toList := by
  rcases step with _ | _ | _ | name
  · rcases h with ⟨⟩
  · rcases h with ⟨⟩
  · obtain rfl := Option.some.inj h
    exact .inl (by simpa using hc)
  · obtain rfl := Option.some.inj h
    exact .inr ⟨name, rfl, hc⟩

/-- **A specifier is made of points, slashes and the characters of the target.** -/
theorem mem_of_mem_importPath {c : Char} (h : c ∈ (importPath origin target).toList) :
    c ∈ ['.', '/'] ∨ c ∈ target.text.toList := by
  have hjoined : c ∈ Text.joinWith ['/']
      (((origin.steps target).getD target.components).filterMap stepText) →
      c ∈ ['.', '/'] ∨ c ∈ target.text.toList := by
    intro hmem
    rcases Text.mem_joinWith hmem with hslash | ⟨piece, hpiece, hc⟩
    · exact .inl (List.mem_cons_of_mem _ hslash)
    obtain ⟨step, hstep, htext⟩ := List.mem_filterMap.1 hpiece
    rcases mem_of_stepText htext hc with rfl | ⟨name, rfl, hname⟩
    · exact .inl List.mem_cons_self
    · exact .inr (mem_of_mem_components ((mem_of_steps hstep).resolve_left nofun) hname)
  rw [importPath, String.toList_ofList] at h
  split at h
  · exact hjoined h
  · simp only [List.mem_cons] at h ⊢
    rcases h with rfl | rfl | h
    · exact .inl (.inl rfl)
    · exact .inl (.inr (.inl rfl))
    · simpa only [List.mem_cons] using hjoined h

/-! ### How a specifier begins -/

/-- A specifier begins with the current directory or the one above. -/
def BeginsRelative (specifier : List Char) : Prop :=
  ['.', '/'] <+: specifier ∨ ['.', '.', '/'] <+: specifier ∨ specifier = ['.', '.']

instance : DecidablePred BeginsRelative :=
  fun _ => inferInstanceAs (Decidable (_ ∨ _ ∨ _))

/-- The text of the steps of a specifier. -/
theorem joinWith_steps (origin target : Path) :
    Text.joinWith ['/'] (((origin.steps target).getD target.components).filterMap stepText) =
      Text.joinWith ['/'] ((way origin target).filterMap stepText) := by
  rw [way, unpointed, List.filterMap_filter]
  refine congrArg _ (List.filterMap_congr fun c _ => ?_)
  rcases c with _ | _ | _ | _ <;> rfl

theorem joinWith_step_cons {step : Component} {piece : List Char}
    (htext : stepText step = some piece) (steps : List Component) :
    ∃ more, Text.joinWith ['/'] ((step :: steps).filterMap stepText) = piece ++ more ∧
      (more = [] ∨ ∃ rest, more = '/' :: rest) := by
  rw [List.filterMap_cons_some htext]
  rcases steps.filterMap stepText with _ | ⟨other, pieces⟩
  · exact ⟨[], (List.append_nil piece).symm, .inl rfl⟩
  · refine ⟨'/' :: Text.joinWith ['/'] (other :: pieces), ?_, .inr ⟨_, rfl⟩⟩
    rw [Text.joinWith, List.append_assoc, List.singleton_append]

/-- **How a specifier begins**: with a mark of a directory, unless it enters a directory whose name
looks like one. -/
theorem beginsRelative_importPath_iff (htarget : target.isAbsolute = false) :
    BeginsRelative (importPath origin target).toList ↔
      ∀ name, (way origin target).head? = some (.name name) → ¬['.', '.'] <+: name.toList := by
  have hhere : ∀ text, BeginsRelative ('.' :: '/' :: text) := fun text => .inl ⟨text, rfl⟩
  have hwritten : ∀ step ∈ way origin target, Written step := written_of_mem_way htarget
  rw [importPath, joinWith_steps, String.toList_ofList]
  rcases hway : way origin target with _ | ⟨step, steps⟩
  · exact iff_of_true (hhere _) fun _ h => (by cases h)
  · rw [hway] at hwritten
    obtain ⟨piece, htext, hdenotes, hslash⟩ := hwritten step List.mem_cons_self
    obtain ⟨more, hjoined, hmore⟩ := joinWith_step_cons htext steps
    rcases step with _ | _ | _ | name
    · rcases htext with ⟨⟩
    · rcases htext with ⟨⟩
    · -- the first step goes up
      obtain rfl : ['.', '.'] = piece := Option.some.inj htext
      refine iff_of_true ?_ fun _ h => (by cases h)
      rw [hjoined]
      rcases hmore with rfl | ⟨rest, rfl⟩
      · exact .inr (.inr rfl)
      · exact .inr (.inl ⟨rest, rfl⟩)
    · obtain rfl : name.toList = piece := Option.some.inj htext
      by_cases hpoints : ['.', '.'] <+: name.toList
      · -- the text begins as if the step went up, and goes on with the rest of the name
        refine iff_of_false ?_ fun h => h name rfl hpoints
        obtain ⟨rest, hname⟩ := hpoints
        rcases rest with _ | ⟨c, rest⟩
        · rw [← hname] at hdenotes
          rcases hdenotes with ⟨⟩
        · have hc : '/' ≠ c := by
            rintro rfl
            exact hslash (hname ▸ by simp)
          rw [hjoined, ← hname]
          rintro (h | h | h)
          · exact absurd (List.cons_prefix_cons.1 (List.cons_prefix_cons.1 h).2).1 (by decide)
          · exact hc (List.cons_prefix_cons.1 (List.cons_prefix_cons.1
              (List.cons_prefix_cons.1 h).2).2).1
          · rcases h with ⟨⟩
      · refine iff_of_true ?_ fun other h => ?_
        · rw [if_neg]
          · exact hhere _
          · rw [List.isPrefixOf_iff_prefix, List.filterMap_cons_some htext]
            exact fun h => hpoints (prefix_of_prefix_joinWith h)
        · obtain rfl : name = other := by simpa using h
          exact hpoints

/-! ### Specifiers that lead back -/

/-- An import specifier leads back from a directory to its target. -/
structure LeadsBack (origin target : Path) : Prop where
  /-- The specifier is relative. -/
  relative : BeginsRelative (importPath origin target).toList
  /-- Whoever follows it from the directory gets to the target. -/
  resolved : resolve origin.place (importPath origin target) = target.place

instance (origin target : Path) : Decidable (LeadsBack origin target) :=
  decidable_of_iff (BeginsRelative (importPath origin target).toList ∧
      resolve origin.place (importPath origin target) = target.place)
    ⟨fun h => ⟨h.1, h.2⟩, fun h => ⟨h.relative, h.resolved⟩⟩

/-- Following a specifier is following its steps. -/
theorem resolve_importPath_eq (htarget : target.isAbsolute = false) (place : List Component) :
    resolve place (importPath origin target) = follow place (way origin target) := by
  have hwritten : ∀ step ∈ way origin target, Written step := written_of_mem_way htarget
  rw [resolve, inner_importPath, joinWith_steps, inner_stepTexts hwritten]

/-- **When an import specifier leads back to its target**, between paths that go down: it enters no
directory whose name begins with two points before anything else, and if only the directory begins
with a point, then there is nothing to leave or the two paths begin with the same name. -/
theorem leadsBack_iff (horigin : GoesDown origin) (htarget : GoesDown target) :
    LeadsBack origin target ↔
      (∀ name, (way origin target).head? = some (.name name) → ¬['.', '.'] <+: name.toList) ∧
        (origin.isPointed = true → target.isPointed = false → target.place ≠ [] ∧
          (origin.place = [] ∨ origin.place.head? = target.place.head?)) := by
  rw [← beginsRelative_importPath_iff htarget.relative, ← follow_way_iff horigin htarget,
    ← resolve_importPath_eq htarget.relative]
  exact ⟨fun h => ⟨h.relative, h.resolved⟩, fun h => ⟨h.1, h.2⟩⟩

/-- From a pointed directory into a directory of the same start. -/
theorem leadsBack_pointed : GoesDown ⟨"./src/api"⟩ ∧ GoesDown ⟨"src/modules/..shop"⟩ ∧
    LeadsBack ⟨"./src/api"⟩ ⟨"src/modules/..shop"⟩ := by
  have horigin : GoesDown ⟨"./src/api"⟩ := by decide
  have htarget : GoesDown ⟨"src/modules/..shop"⟩ := by decide
  have hhead : (way ⟨"./src/api"⟩ ⟨"src/modules/..shop"⟩).head? = some (.name "src") := by decide
  refine ⟨horigin, htarget, (leadsBack_iff horigin htarget).2 ⟨fun name hname => ?_, fun _ _ => ?_⟩⟩
  · rw [hhead] at hname
    obtain rfl : "src" = name := Component.name.inj (Option.some.inj hname)
    decide
  · decide

/-- **A specifier from a pointed directory leads elsewhere**, and one into a directory whose name
begins with two points is not relative. -/
theorem not_leadsBack_pointed :
    (GoesDown ⟨"./src/api"⟩ ∧ GoesDown ⟨"modules/shop"⟩ ∧
      importPath ⟨"./src/api"⟩ ⟨"modules/shop"⟩ = "./modules/../../shop" ∧
      resolve (place ⟨"./src/api"⟩) "./modules/../../shop" = [.name "src", .name "shop"] ∧
        ¬LeadsBack ⟨"./src/api"⟩ ⟨"modules/shop"⟩) ∧
    GoesDown ⟨"src"⟩ ∧ GoesDown ⟨"src/..shop"⟩ ∧
      importPath ⟨"src"⟩ ⟨"src/..shop"⟩ = "..shop" ∧ ¬LeadsBack ⟨"src"⟩ ⟨"src/..shop"⟩ := by
  decide

end Path

end ModuleScaffold
