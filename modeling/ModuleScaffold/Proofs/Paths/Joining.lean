import ModuleScaffold.Path
import ModuleScaffold.Proofs.Text.Spacing

/-!
# The components of a path that was put together

A relative path that is put behind another one adds its pieces to the components, whatever the other
path is and whether it ends in a slash. So what a path denotes can be told from what it was put
together from, and the places of two files are compared part by part.

Main statement: `ModuleScaffold.Path.components_join` – **the components of a path with another one
behind it**.
-/

namespace ModuleScaffold

namespace Path

variable {base : Path} {tail : String} {piece : List Char}

/-- What the pieces of a text denote that does not stand at the start of a path. -/
def inner (text : List Char) : List Component :=
  (Text.fields (· == '/') text).filterMap innerComponent

theorem inner_append_slash (before after : List Char) :
    inner (before ++ '/' :: after) = inner before ++ inner after := by
  rw [inner, Text.fields_append_separator before rfl, List.filterMap_append]
  rfl

theorem inner_nil : inner [] = [] :=
  rfl

/-- Slashes around a text denote nothing. -/
theorem inner_trimMatches (text : String) :
    inner (Text.trimMatches (· == '/') text).toList = inner text.toList := by
  have hstart : ∀ cs : List Char, inner (cs.dropWhile (· == '/')) = inner cs := by
    intro cs
    induction cs with
    | nil => rfl
    | cons c cs ih =>
      rw [List.dropWhile_cons]
      split
      · next hc =>
        obtain rfl := beq_iff_eq.1 hc
        exact ih.trans (inner_append_slash [] cs).symm
      · rfl
  have hend : ∀ cs : List Char, inner (Text.dropEndWhile (· == '/') cs) = inner cs := by
    intro cs
    induction cs using List.reverseRecOn with
    | nil => rfl
    | append_singleton cs c ih =>
      rw [Text.dropEndWhile_concat]
      split
      · next hc =>
        obtain rfl := beq_iff_eq.1 hc
        exact ih.trans ((inner_append_slash cs []).trans (List.append_nil _)).symm
      · rfl
  rw [Text.trimMatches, String.toList_ofList, hend, hstart]

/-- A piece that is no mark of a directory is a name. -/
theorem inner_piece (hslash : '/' ∉ piece) (hne : piece ≠ []) (hpoint : piece ≠ ['.'])
    (hpoints : piece ≠ ['.', '.']) : inner piece = [.name (String.ofList piece)] := by
  have hsolid : ∀ c ∈ piece, (c == '/') = false := by
    intro c hc
    rw [beq_eq_false_iff_ne]
    rintro rfl
    exact hslash hc
  have hdenotes : innerComponent piece = some (.name (String.ofList piece)) := by
    rw [innerComponent, if_neg (by simp [hne, hpoint]), if_neg hpoints]
  rw [inner, Text.fields_of_forall hsolid, List.filterMap_cons_some hdenotes, List.filterMap_nil]

/-- The components behind a first piece are those of the inner pieces. -/
theorem components_of_text {text rest : List Char} (hne : text ≠ [])
    (h : base.text.toList = text ++ '/' :: rest) {other : Path}
    (hother : other.text.toList = text) : base.components = other.components ++ inner rest := by
  have habsolute : base.isAbsolute = other.isAbsolute := by
    rw [isAbsolute, isAbsolute, h, hother]
    cases text with
    | nil => exact absurd rfl hne
    | cons c text => rfl
  rw [components, components, pieces, pieces, h, hother, Text.fields_append_separator text rfl]
  cases hfields : Text.fields (· == '/') text with
  | nil => exact absurd hfields (Text.fields_ne_nil _ _)
  | cons first pieces =>
    have hfirst : base.firstComponent first = other.firstComponent first := by
      rw [firstComponent, firstComponent, habsolute]
    rw [List.cons_append]
    simp only [hfirst, List.filterMap_append, List.append_assoc]
    rfl

/-- A path from the root has the root in front of its inner pieces. -/
theorem components_of_absolute {rest : List Char} (h : base.text.toList = '/' :: rest) :
    base.components = .root :: inner rest := by
  have habsolute : base.isAbsolute = true := by
    rw [isAbsolute, h]
    rfl
  have hfields : Text.fields (· == '/') ('/' :: rest) = [] :: Text.fields (· == '/') rest := by
    rw [Text.fields, if_pos (beq_self_eq_true '/')]
  rw [components, pieces, h, hfields]
  simp only [firstComponent, habsolute, if_true]
  rfl

/-- A slash at the end of a path changes nothing. -/
theorem components_of_endsInSlash {text rest : List Char}
    (h : base.text.toList = text ++ '/' :: rest) {other : Path}
    (hother : other.text.toList = text ++ ['/']) :
    base.components = other.components ++ inner rest := by
  by_cases hne : text = []
  · subst hne
    rw [components_of_absolute h, components_of_absolute hother, inner_nil]
    rfl
  · have hbare : (⟨String.ofList text⟩ : Path).text.toList = text := String.toList_ofList
    rw [components_of_text hne h hbare, components_of_text hne hother hbare, inner_nil,
      List.append_nil]

/-- The components of a relative path are those of its pieces if it does not start at the current
directory. -/
theorem components_of_relative {text : List Char} (h : base.text.toList = text)
    (hrelative : text.head? ≠ some '/')
    (hcurrent : (Text.fields (· == '/') text).head? ≠ some ['.']) :
    base.components = inner text := by
  have habsolute : base.isAbsolute = false := by
    rw [isAbsolute, h]
    exact beq_eq_false_iff_ne.2 hrelative
  rw [components, pieces, h, inner]
  cases hfields : Text.fields (· == '/') text with
  | nil => exact absurd hfields (Text.fields_ne_nil _ _)
  | cons first pieces =>
    have hfirst : first ≠ ['.'] := by
      rw [hfields] at hcurrent
      exact fun h => hcurrent (congrArg some h)
    simp only [firstComponent, habsolute, if_neg hfirst, Bool.false_eq_true, if_false,
      List.filterMap_cons]
    cases innerComponent first <;> rfl

/-- **The components of a path with another one behind it.** -/
theorem components_join (hrelative : tail.toList.head? ≠ some '/')
    (hcurrent : base.text = "" → (Text.fields (· == '/') tail.toList).head? ≠ some ['.']) :
    (base.join tail).components = base.components ++ inner tail.toList := by
  rw [join, if_neg hrelative]
  by_cases hempty : base.text = ""
  · -- nothing stands in front
    have hbase : base.components = [] :=
      components_of_relative (congrArg String.toList hempty) (by simp) (by decide)
    have htext : (⟨base.text ++ tail⟩ : Path).text.toList = tail.toList := by
      rw [hempty, String.toList_append]
      rfl
    rw [hbase, List.nil_append, if_pos (by rw [hempty]; rfl)]
    exact components_of_relative htext hrelative (hcurrent hempty)
  · have hne : base.text.toList ≠ [] := fun h => hempty (String.toList_inj.1 h)
    have hfilled : base.text.isEmpty = false := by
      rw [Bool.eq_false_iff, ne_eq, String.isEmpty_iff]
      exact hempty
    rw [hfilled, Bool.false_or]
    split
    · next hlast =>
      -- the slash is there
      obtain ⟨front, hfront⟩ : ∃ front, base.text.toList = front ++ ['/'] :=
        List.getLast?_eq_some_iff.1 (of_decide_eq_true hlast)
      have htext : (⟨base.text ++ tail⟩ : Path).text.toList = front ++ '/' :: tail.toList := by
        rw [String.toList_append, hfront, List.append_assoc, List.singleton_append]
      exact components_of_endsInSlash htext hfront
    · refine components_of_text hne ?_ rfl
      rw [String.toList_append, String.toList_append, List.append_assoc]
      rfl

/-- Behind something, a name without a slash is one more component. -/
theorem components_join_name (hne : base.text ≠ "") {name : String} (hslash : '/' ∉ name.toList)
    (hfilled : name ≠ "") (hpoint : name ≠ ".") (hpoints : name ≠ "..") :
    (base.join name).components = base.components ++ [.name name] := by
  have hrelative : name.toList.head? ≠ some '/' := fun h => hslash (List.mem_of_mem_head? h)
  have hpiece : inner name.toList = [.name (String.ofList name.toList)] :=
    inner_piece hslash (fun h => hfilled (String.toList_inj.1 h))
      (fun h => hpoint (String.toList_inj.1 h)) fun h => hpoints (String.toList_inj.1 h)
  rw [components_join hrelative fun h => absurd h hne, hpiece, String.ofList_toList]

/-- A path with another one behind it is made of their characters and slashes. -/
theorem mem_of_mem_join {c : Char} (h : c ∈ (base.join tail).text.toList) :
    c = '/' ∨ c ∈ base.text.toList ∨ c ∈ tail.toList := by
  rw [join] at h
  split at h
  · exact .inr (.inr h)
  split at h
  · rw [String.toList_append, List.mem_append] at h
    exact .inr h
  · rw [String.toList_append, String.toList_append, List.mem_append, List.mem_append] at h
    rcases h with (hbase | hslash) | htail
    · exact .inr (.inl hbase)
    · exact .inl (List.mem_singleton.1 hslash)
    · exact .inr (.inr htail)

theorem text_join_ne_empty (h : base.text ≠ "" ∨ tail ≠ "") : (base.join tail).text ≠ "" := by
  rw [join]
  split
  · next habsolute =>
    rintro rfl
    cases habsolute
  · split
    · exact fun hempty => h.elim (· (String.append_eq_empty_iff.1 hempty).1)
        (· (String.append_eq_empty_iff.1 hempty).2)
    · exact fun hempty => absurd (String.append_eq_empty_iff.1 (String.append_eq_empty_iff.1
        hempty).1).2 (by decide)

end Path

end ModuleScaffold
