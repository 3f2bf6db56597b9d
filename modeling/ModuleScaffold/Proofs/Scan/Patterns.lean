import ModuleScaffold.Proofs.Reading.Variables
import ModuleScaffold.Proofs.Scan.Statements

/-!
# The names of patterns and the scan of variables

A list of variables binds the names in its patterns. Where such a name stands is read off the
grammar: a pattern is a name, or an object or an array of patterns, whose keys and initial values
bind nothing.

A pattern of the list starts where the scan is outside brackets and in a pattern, and the scan does
not leave a pattern in brackets. So the scan is in a pattern where it comes to a name, and behind a
character that is none of a word.

Main statements:

* `ModuleScaffold.Source.finds_of_mem_patternPlaces` – **from the start of a pattern to its names**;
* `ModuleScaffold.Source.renews_of_mem_declarators` – **from the start of a list of variables to
  the pattern of each of them**.
-/

namespace ModuleScaffold

namespace Source

open Store (DeclaratorScan)
open Store.DeclaratorScan (Parted isOpening isPlain)

/-! ### Where names stand -/

/-- The places at which the items of a list are read. -/
def itemStarts (step : Chars → Option Chars) (closing : String) (cs : Chars) : List Chars :=
  ((list true (fun cs => (step cs).map (cs, ·)) closing cs).map (·.1)).getD []

/-- The places of the names in a part of a pattern. -/
def partPlaces (places : Chars → List Chars) (cs : Chars) : List Chars :=
  match mark "..." cs with
  | some rest => places rest
  | none => places cs

/-- The places of the names in a part of the pattern of an object. A part without a key is a name.
-/
def memberPlaces (r : Reader) (places : Chars → List Chars) (cs : Chars) : List Chars :=
  match ((propertyNameEnd r cs).bind (mark ":")).filter
    fun rest => (patternPartEnd r rest).isSome with
  | some rest => partPlaces places rest
  | none =>
    match mark "..." cs with
    | some rest => places rest
    | none => [skip cs]

/-- The places of the names that the pattern of a variable binds. -/
def patternPlaces : ℕ → Chars → List Chars
  | 0, _ => []
  | depth + 1, cs =>
    match skip cs with
    | '\x7b' :: rest => (itemStarts (patternMemberEnd (reader depth)) "\x7d" rest).flatMap
        (memberPlaces (reader depth) (patternPlaces depth))
    | '[' :: rest => (itemStarts (patternPartEnd (reader depth)) "]" rest).flatMap
        (partPlaces (patternPlaces depth))
    | here => [here]

/-! ### Where a word begins -/

/-- At a place of the source a word begins, if one stands there. -/
def Fresh (source cs : Chars) : Prop :=
  ∃ front, source = front ++ cs ∧ Parted front

variable {source cs mid rest place : Chars} {c : Char} {low low' rise rise' : ℤ}

theorem Fresh.start (source : Chars) : Fresh source source :=
  ⟨[], rfl, DeclaratorScan.parted_nil⟩

theorem Fresh.on {front : Chars} (h : Fresh source (front ++ cs)) (hfront : Parted front) :
    Fresh source cs := by
  obtain ⟨before, rfl, hbefore⟩ := h
  exact ⟨before ++ front, (List.append_assoc _ _ _).symm, Parted.append hbefore hfront⟩

theorem isWordPart_of_isSpace (h : isSpace c = true) : Text.isWordPart c = false := by
  by_contra hword
  have hin := inWord_of_isWordPart (by simpa using hword)
  rw [inWord, h] at hin
  simp at hin

/-- A comment ends behind its closing mark, in front of a blank or with the text. -/
theorem exists_parted_comment (h : comment? cs = some rest) : ∃ front, cs = front ++ rest ∧
    (Parted front ∨ rest = [] ∨ ∃ c behind, rest = c :: behind ∧ isSpace c = true) := by
  unfold comment? at h
  split at h
  · next cs =>
    obtain rfl := Option.some.inj h
    refine ⟨'/' :: '/' :: cs.takeWhile (! endsLine ·), ?_, .inr ?_⟩
    · rw [List.cons_append, List.cons_append, List.takeWhile_append_dropWhile]
    · cases hbehind : cs.dropWhile (! endsLine ·) with
      | nil => exact .inl rfl
      | cons c behind =>
        have hends := List.head?_dropWhile_not (! endsLine ·) cs
        rw [hbehind] at hends
        exact .inr ⟨c, behind, rfl, isSpace_of_endsLine (by simpa using hends)⟩
  · next cs =>
    obtain ⟨front, rfl, -⟩ := exists_of_closing h
    refine ⟨'/' :: '*' :: (front ++ ['*', '/']), by simp, .inl ?_⟩
    have hsplit :
        '/' :: '*' :: (front ++ ['*', '/']) = '/' :: '*' :: (front ++ ['*']) ++ ['/'] := by simp
    rw [hsplit]
    exact DeclaratorScan.parted_concat (by decide) _
  · cases h

/-- Behind blanks and comments a word begins. -/
theorem exists_parted_skip (cs : Chars) :
    ∃ front, cs = front ++ skip cs ∧ (skip cs ≠ [] → Parted front) := by
  induction cs using skip_induction with
  | hspace c cs hspace ih =>
    obtain ⟨front, hcs, hfront⟩ := ih
    rw [skip_cons_of_isSpace hspace]
    refine ⟨[c] ++ front, by rw [List.append_assoc, ← hcs]; rfl, fun hne => ?_⟩
    have hblank : Parted [c] := DeclaratorScan.parted_concat (isWordPart_of_isSpace hspace) []
    exact hblank.append (hfront hne)
  | hcomment cs rest hcomment ih =>
    obtain ⟨front, hrest, hfront⟩ := ih
    obtain ⟨before, hcs, hbefore⟩ := exists_parted_comment hcomment
    rw [skip_of_comment hcomment]
    refine ⟨before ++ front, by rw [List.append_assoc, ← hrest, hcs], fun hne => ?_⟩
    rcases hbefore with hparted | rfl | ⟨c, behind, rfl, hspace⟩
    · exact hparted.append (hfront hne)
    · exact absurd rfl hne
    · refine Parted.append_of_ne_nil (hfront hne) ?_
      rintro rfl
      -- the blank behind the comment is skipped as well
      have hle := length_skip_le behind
      rw [skip_cons_of_isSpace hspace, List.nil_append] at hrest
      rw [← hrest, List.length_cons] at hle
      omega
  | hstop cs hskip _ =>
    exact ⟨[], by rw [hskip, List.nil_append], fun _ => DeclaratorScan.parted_nil⟩

/-! ### Landing -/

/-- From one place to another the scan rises by a number of brackets, and a word begins at the
second place if one begins at the first. -/
structure Lands (low rise : ℤ) (cs place : Chars) : Prop where
  /-- The scan rises. -/
  moves : Moves low rise cs place
  /-- A word begins. -/
  fresh : ∀ source, Fresh source cs → place ≠ [] → Fresh source place

theorem Lands.trans (h : Lands low rise cs mid) (h' : Lands low' rise' mid rest)
    (hle : low' ≤ low + rise) : Lands low (rise + rise') cs rest where
  moves := h.moves.trans h'.moves hle
  fresh source hsource hne := by
    refine h'.fresh source (h.fresh source hsource ?_) hne
    rintro rfl
    obtain ⟨front, hrest, -⟩ := h'.moves
    exact hne (List.append_eq_nil_iff.1 hrest.symm).2

theorem lands_skip (low : ℤ) (cs : Chars) : Lands low 0 cs (skip cs) where
  moves := moves_skip low cs
  fresh source hsource hne := by
    obtain ⟨front, hcs, hfront⟩ := exists_parted_skip cs
    rw [hcs] at hsource
    exact hsource.on (hfront hne)

/-- Behind a mark that does not end like a word, a word begins. -/
theorem fresh_of_mark {text : String}
    (htext : text.toList.getLast?.map Text.isWordPart = some false)
    (h : mark text cs = some rest) (hsource : ∃ front, source = front ++ cs) :
    Fresh source rest := by
  obtain ⟨before, rfl⟩ := hsource
  obtain ⟨front, hcs, -⟩ := exists_parted_skip cs
  obtain ⟨c, hlast, hc⟩ := Option.map_eq_some_iff.1 htext
  refine ⟨before ++ front ++ text.toList, ?_, fun d hd => ?_⟩
  · rw [List.append_assoc, List.append_assoc, ← append_of_exactly h, ← hcs]
  · rw [List.getLast?_append, hlast] at hd
    exact Option.some.inj hd ▸ hc

/-- What stands behind a mark. -/
theorem lands_mark {text : String} (htext : text.toList.all isPlain = true)
    (hlast : text.toList.getLast?.map Text.isWordPart = some false) (hcs : Passes cs mid)
    (h : mark text mid = some rest) : Lands 0 0 cs rest where
  moves := (Onward.trans hcs (goes_mark htext mid rest h) : Passes cs rest)
  fresh source hsource _ := by
    obtain ⟨before, rfl, -⟩ := hsource
    obtain ⟨front, rfl, -⟩ := hcs
    exact fresh_of_mark hlast h ⟨before ++ front, (List.append_assoc _ _ _).symm⟩

/-- What stands in brackets. -/
theorem lands_opening (low : ℤ) (hskip : skip cs = c :: rest) (hc : isOpening c = true) :
    Lands low 1 cs rest where
  moves := by
    have hmoves := moves_skip low cs
    rw [hskip] at hmoves
    exact hmoves.trans (.opening hc) (Int.le_refl _)
  fresh source hsource _ := by
    obtain ⟨front, hcs, hfront⟩ := exists_parted_skip cs
    rw [hskip] at hcs hfront
    have hword : Text.isWordPart c = false := by
      simp only [isOpening, Bool.or_eq_true, beq_iff_eq] at hc
      rcases hc with (rfl | rfl) | rfl <;> decide
    rw [hcs] at hsource
    have hbracket : Fresh source ([c] ++ rest) := hsource.on (hfront (List.cons_ne_nil _ _))
    exact hbracket.on (DeclaratorScan.parted_concat hword [])

/-- The items of a list. -/
theorem lands_of_mem_itemStarts {step : Chars → Option Chars} {closing : String}
    (hstep : ∀ rest, Goes Passes rest (step rest)) (h : rest ∈ itemStarts step closing cs) :
    Lands 0 0 cs rest := by
  have hself (cs : Chars) : Lands 0 0 cs cs := ⟨.refl cs, fun _ hsource _ => hsource⟩
  have hfrom : ∀ fuel cs x,
      listFrom true (fun cs => (step cs).map (cs, ·)) closing fuel cs = some x →
      ∀ rest ∈ x.1, Lands 0 0 cs rest := by
    intro fuel
    induction fuel with
    | zero => exact fun _ _ hx => nomatch hx
    | succ fuel ih =>
      intro cs x hx rest hrest
      -- what stands behind a comma behind a part of the list
      have hcomma : ∀ {mid behind : Chars} {y : List Chars × Chars}, Passes cs mid →
          mark "," mid = some behind →
          listFrom true (fun cs => (step cs).map (cs, ·)) closing fuel behind = some y →
          rest ∈ y.1 → Lands 0 0 cs rest := fun hmid hmark hy hmem =>
        (lands_mark (by decide) (by decide) hmid hmark).trans (ih _ _ hy rest hmem) (Int.le_refl 0)
      rw [listFrom] at hx
      split at hx
      · obtain rfl := Option.some.inj hx
        exact absurd hrest List.not_mem_nil
      · split at hx
        · next behind hhole => exact hcomma (Onward.refl cs) hhole hx hrest
        · split at hx
          · cases hx
          · next a mid hread =>
            obtain ⟨mid', hmid, hpair⟩ := Option.map_eq_some_iff.1 hread
            obtain ⟨rfl, rfl⟩ := Prod.mk.inj hpair
            split at hx
            · next behind hmark =>
              split at hx
              · next as last hbehind =>
                obtain rfl := Option.some.inj hx
                rcases List.mem_cons.1 hrest with rfl | hmem
                · exact hself _
                · exact hcomma (hstep _ _ hmid) hmark hbehind hmem
              · cases hx
            · split at hx
              · obtain rfl := Option.some.inj hx
                obtain rfl := List.mem_singleton.1 hrest
                exact hself _
              · cases hx
  unfold itemStarts at h
  cases hlist : list true (fun cs => (step cs).map (cs, ·)) closing cs with
  | none =>
    rw [hlist] at h
    exact absurd h List.not_mem_nil
  | some x =>
    rw [hlist] at h
    exact hfrom _ cs x hlist rest h

/-! ### The names of a pattern -/

/-- From the start of a pattern the scan comes to a name in it. -/
def Finds (cs place : Chars) : Prop :=
  ∃ rise, 0 ≤ rise ∧ Lands (-1) rise cs place

section Places

variable {places : Chars → List Chars} {start : Chars}

/-- A pattern in the brackets of another one. -/
theorem Finds.inside (h : Finds cs place) (hin : Lands (-1) 1 start cs) : Finds start place := by
  obtain ⟨rise, hrise, hlands⟩ := h
  exact ⟨1 + rise, by omega, hin.trans hlands (by omega)⟩

theorem Lands.on (h : Lands (-1) 1 start mid) (h' : Lands 0 0 mid rest) : Lands (-1) 1 start rest :=
  h.trans h' (by omega)

theorem lands_spread (h : mark "..." cs = some rest) : Lands 0 0 cs rest :=
  lands_mark (by decide) (by decide) (Onward.refl cs) h

theorem finds_of_mem_partPlaces (hplaces : ∀ {cs}, ∀ place ∈ places cs, Finds cs place)
    (hin : Lands (-1) 1 start cs) (h : place ∈ partPlaces places cs) : Finds start place := by
  unfold partPlaces at h
  split at h
  · next rest hmark => exact (hplaces place h).inside (hin.on (lands_spread hmark))
  · exact (hplaces place h).inside hin

theorem finds_of_mem_memberPlaces {r : Reader} (hr : Steady r)
    (hplaces : ∀ {cs}, ∀ place ∈ places cs, Finds cs place)
    (hin : Lands (-1) 1 start cs) (h : place ∈ memberPlaces r places cs) : Finds start place := by
  unfold memberPlaces at h
  split at h
  · next rest hkeyed =>
    obtain ⟨key, hkey, hmark⟩ := Option.bind_eq_some_iff.1 (Option.filter_eq_some_iff.1 hkeyed).1
    have hcolon : Lands 0 0 cs rest := lands_mark (by decide) (by decide)
      (goes_propertyNameEnd hr cs key hkey) hmark
    exact finds_of_mem_partPlaces hplaces (hin.on hcolon) h
  · split at h
    · next rest hmark => exact (hplaces place h).inside (hin.on (lands_spread hmark))
    · obtain rfl := List.mem_singleton.1 h
      exact ⟨1, by omega, hin.on (lands_skip 0 cs)⟩

/-- **From the start of a pattern to its names.** -/
theorem finds_of_mem_patternPlaces {depth : ℕ} (h : place ∈ patternPlaces depth cs) :
    Finds cs place := by
  induction depth generalizing cs place with
  | zero => exact absurd h List.not_mem_nil
  | succ depth ih =>
    have hr := steady_reader depth
    unfold patternPlaces at h
    split at h
    · next rest hskip =>
      obtain ⟨member, hmember, h⟩ := List.mem_flatMap.1 h
      have hstart : Lands (-1) 1 cs rest := lands_opening (-1) hskip (by decide)
      exact finds_of_mem_memberPlaces hr (fun _ => ih)
        (hstart.on (lands_of_mem_itemStarts (goes_patternMemberEnd hr) hmember)) h
    · next rest hskip =>
      obtain ⟨part, hpart, h⟩ := List.mem_flatMap.1 h
      have hstart : Lands (-1) 1 cs rest := lands_opening (-1) hskip (by decide)
      exact finds_of_mem_partPlaces (fun _ => ih)
        (hstart.on (lands_of_mem_itemStarts (goes_patternPartEnd hr) hpart)) h
    · obtain rfl := List.mem_singleton.1 h
      exact ⟨0, Int.le_refl 0, lands_skip (-1) cs⟩

end Places

/-! ### The patterns of a list -/

/-- The places of the names that a list of variables binds. -/
def listPlaces (depth : ℕ) (cs : Chars) : List Chars :=
  match declarators (reader depth) cs with
  | some (ds, _) => ds.flatMap fun d => patternPlaces depth d.fragment.start
  | none => []

/-- A scan where a pattern of the list starts: outside brackets and in a pattern. -/
structure AtPattern (scan : DeclaratorScan) : Prop where
  /-- The scan is outside quotes. -/
  calm : scan.Calm
  /-- No bracket is open. -/
  depth : scan.depth = 0
  /-- The scan is in a pattern. -/
  inPattern : scan.inPattern = true

/-- From one start of a pattern to another one, in front of which a word begins. -/
structure Renews (cs rest : Chars) : Prop where
  /-- The scan is outside brackets and in a pattern again. -/
  moves : ∃ front, cs = front ++ rest ∧ ∀ scan : DeclaratorScan, AtPattern scan →
    Quiet scan cs rest → Walk scan cs front rest ∧ AtPattern (scan.after front)
  /-- A word begins. -/
  fresh : ∀ source, Fresh source cs → rest ≠ [] → Fresh source rest

theorem renews_skip (cs : Chars) : Renews cs (skip cs) where
  moves := by
    obtain ⟨front, hcs, hmoves⟩ := moves_skip (-1) cs
    refine ⟨front, hcs, fun scan hscan hquiet => ?_⟩
    have hdepth := hscan.depth
    obtain ⟨hwalk, hled⟩ := hmoves scan hscan.calm (by omega) hquiet
    refine ⟨hwalk, hled.calm, ?_, hled.inPattern (by omega) hscan.inPattern⟩
    rw [hled.depth, hdepth]
    rfl
  fresh := (lands_skip 0 cs).fresh

/-- Behind a comma a pattern starts, whatever stands in front of it. -/
theorem renews_comma (hcs : Passes cs mid) (h : mark "," mid = some rest) : Renews cs rest where
  moves := by
    obtain ⟨front, rfl, hmoves⟩ := Onward.trans hcs (passes_skip mid)
    rw [skip_of_mark (c := ',') rfl h] at hmoves ⊢
    refine ⟨front ++ [','], by simp, fun scan hscan hquiet => ?_⟩
    have hcomma : ',' :: rest = [','] ++ rest := rfl
    have hopen := hscan.depth
    obtain ⟨hwalk, hled⟩ := hmoves scan hscan.calm (by omega) (hquiet.upTo hcomma)
    have hdepth : (scan.after front).depth = 0 := by
      rw [hled.depth, hopen]
      rfl
    refine ⟨hwalk.char fun _ => ⟨Moves.comment?_eq_none (by decide), by decide⟩, ?_⟩
    rw [DeclaratorScan.after_append, DeclaratorScan.after_cons, DeclaratorScan.after_nil,
      DeclaratorScan.next_comma hled.calm hdepth]
    exact ⟨⟨hled.calm.unquoted, hled.calm.unescaped, hled.calm.running⟩, hdepth, rfl⟩
  fresh := (lands_mark (by decide) (by decide) hcs h).fresh

theorem Renews.trans (h : Renews cs mid) (h' : Renews mid rest) : Renews cs rest where
  moves := by
    obtain ⟨front, rfl, hfront⟩ := h.moves
    obtain ⟨back, rfl, hback⟩ := h'.moves
    refine ⟨front ++ back, (List.append_assoc _ _ _).symm, fun scan hscan hquiet => ?_⟩
    obtain ⟨hwalk, hscan'⟩ := hfront scan hscan (hquiet.upTo rfl)
    obtain ⟨hwalk', hscan''⟩ := hback _ hscan' (hquiet.from hwalk)
    rw [DeclaratorScan.after_append]
    exact ⟨hwalk.trans hwalk', hscan''⟩
  fresh source hsource hne := by
    refine h'.fresh source (h.fresh source hsource ?_) hne
    rintro rfl
    obtain ⟨front, hrest, -⟩ := h'.moves
    exact hne (List.append_eq_nil_iff.1 hrest.symm).2

/-- **Where the scan comes to a name of a list, it is in a pattern**, and a word begins. -/
theorem exists_arrival {start : Chars} (hstart : Renews cs start) (hplace : Finds start place)
    (hne : place ≠ []) : ∃ front, cs = front ++ place ∧ Parted front ∧
      (Quiet {} cs place → (DeclaratorScan.after {} front).Calm ∧
        (DeclaratorScan.after {} front).inPattern = true) := by
  obtain ⟨front, rfl, hfront⟩ := hstart.moves
  obtain ⟨rise, hrise, ⟨back, rfl, hback⟩, hfresh⟩ := hplace
  -- what stands in front of the name is the same text for the grammar and for the scan
  obtain ⟨before, hbefore, hparted⟩ :=
    hfresh _ (hstart.fresh _ (Fresh.start _) (by simp [hne])) hne
  obtain rfl : front ++ back = before := by
    rw [← List.append_assoc] at hbefore
    exact List.append_cancel_right hbefore
  refine ⟨front ++ back, (List.append_assoc _ _ _).symm, hparted, fun hquiet => ?_⟩
  obtain ⟨hwalk, hpattern⟩ :=
    hfront {} ⟨⟨rfl, rfl, rfl⟩, rfl, rfl⟩ (hquiet.upTo rfl)
  have hdepth := hpattern.depth
  obtain ⟨-, hled⟩ := hback _ hpattern.calm (by omega) (hquiet.from hwalk)
  rw [DeclaratorScan.after_append]
  exact ⟨hled.calm, hled.inPattern (by omega) hpattern.inPattern⟩

theorem Renews.refl (cs : Chars) : Renews cs cs where
  moves := ⟨[], rfl, fun _ hscan _ => ⟨.start, hscan⟩⟩
  fresh _ hsource _ := hsource

theorem fragment_of_declarator {r : Reader} {d : Declarator}
    (h : declarator r cs = some (d, rest)) : d.fragment.start = skip cs := by
  simp only [declarator, Option.bind_eq_bind, Option.bind_eq_some_iff] at h
  obtain ⟨behind, -, h⟩ := h
  split at h
  · rw [Option.bind_eq_some_iff] at h
    obtain ⟨x, -, h⟩ := h
    cases h
    rfl
  · cases h
    rfl

/-- **From the start of a list of variables to the pattern of each of them.** -/
theorem renews_of_mem_declarators {r : Reader} (hr : Steady r) {ds : List Declarator}
    (h : declarators r cs = some (ds, rest)) {d : Declarator} (hd : d ∈ ds) :
    Renews cs d.fragment.start := by
  have hfrom : ∀ fuel before mid, (∀ d ∈ before, Renews cs d.fragment.start) → Passes cs mid →
      ∀ d ∈ (extendFrom (moreDeclarators r) fuel before mid).1, Renews cs d.fragment.start := by
    intro fuel
    induction fuel with
    | zero => exact fun _ _ hbefore _ => hbefore
    | succ fuel ih =>
      intro before mid hbefore hmid
      rw [extendFrom]
      split
      · next ds behind hmore =>
        have hpassed := Onward.trans hmid (goes_moreDeclarators hr before mid _ hmore)
        simp only [moreDeclarators, Option.bind_eq_bind, Option.bind_eq_some_iff] at hmore
        obtain ⟨start, hcomma, ⟨last, stop⟩, hlast, hds⟩ := hmore
        cases hds
        refine ih _ _ (fun d hd => ?_) hpassed
        rcases List.mem_append.1 hd with hd | hd
        · exact hbefore d hd
        · obtain rfl := List.mem_singleton.1 hd
          rw [fragment_of_declarator hlast]
          exact (renews_comma hmid hcomma).trans (renews_skip start)
      · exact hbefore
  rw [declarators, Option.bind_eq_bind, Option.bind_eq_some_iff] at h
  obtain ⟨⟨first, mid⟩, hfirst, h⟩ := h
  obtain rfl : (extend (moreDeclarators r) [first] mid).1 = ds :=
    congrArg Prod.fst (Option.some.inj h)
  refine hfrom _ _ _ (fun d hd => ?_) (goes_declarator hr cs _ hfirst) d hd
  obtain rfl := List.mem_singleton.1 hd
  rw [fragment_of_declarator hfirst]
  exact renews_skip cs

end Source

end ModuleScaffold
