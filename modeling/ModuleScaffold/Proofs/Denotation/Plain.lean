import ModuleScaffold.Proofs.Denotation.Data
import ModuleScaffold.Proofs.Number.Shortest

/-!
# Expressions of which nothing is lost

An expression is *plain* (`ModuleScaffold.Source.Expr.isPlain`) if its value keeps all of it: each
literal is read as what it denotes, no array has holes, no call is optional, and no key is read as
another name. Part by part, that is what it takes for the value to be the datum that is denoted.

Main statement:

* `ModuleScaffold.Source.Expr.datum_eq_iff` – **an expression that has a value denotes that value
  exactly if it is plain**.
-/

namespace ModuleScaffold

open Text

namespace Number

/-! ### Numbers that are written -/

/-- A decimal that is not octal is the same number for the grammar as for the reader. -/
theorem Numeric.ofLiteral_isDecimal {cs : List Char} (h : Source.IsDecimal cs)
    (hoctal : isLegacyOctal cs = false) : ofLiteral cs = (Double.ofLiteral cs).map .number := by
  have hbig : cs.getLast? ≠ some 'n' := fun hlast =>
    notMem_isDecimal h (by decide) (by decide) (List.mem_of_getLast? hlast)
  rw [Number.ofLiteral_isDecimal h, ← ofChars_isDecimal h, ofLiteral,
    smallAscii_filter_isDecimal h]
  split
  · exact absurd rfl (isDecimal_ne_radix h (by decide) (by decide))
  · exact absurd rfl (isDecimal_ne_radix h (by decide) (by decide))
  · exact absurd rfl (isDecimal_ne_radix h (by decide) (by decide))
  · rw [if_neg hbig, hoctal, if_neg Bool.false_ne_true]

theorem isLegacyOctal_eq_false {cs : List Char} (h : cs.head? ≠ some '0') :
    isLegacyOctal cs = false := by
  unfold isLegacyOctal
  split
  · exact absurd rfl h
  · rfl

/-- A number is not written in octal digits. -/
theorem isLegacyOctal_positional {d : Decimal} (hd : 0 < d.digits) :
    isLegacyOctal d.positional = false := by
  have hhead : (decimalDigits d.digits).head? ≠ some '0' := head?_toDigits_ne hd
  have hne : decimalDigits d.digits ≠ [] := Nat.toDigits_ne_nil
  rw [Decimal.positional]
  simp only
  split
  · refine isLegacyOctal_eq_false ?_
    rwa [List.head?_append_of_ne_nil _ hne]
  · next hexp =>
    split
    · rfl
    · refine isLegacyOctal_eq_false ?_
      rwa [List.head?_append_of_ne_nil, List.head?_take, if_neg (by omega)]
      rw [Ne, List.take_eq_nil_iff]
      simp only [hne, or_false]
      omega

/-- **The digits of a number are the same number for the grammar as for the reader.** -/
theorem Numeric.ofLiteral_shortest (rank : ℕ) : ofLiteral (shortest rank).positional =
    (Double.ofLiteral (shortest rank).positional).map .number := by
  refine ofLiteral_isDecimal (isDecimal_positional _) ?_
  rcases Nat.eq_zero_or_pos rank with rfl | hrank
  · rfl
  · exact isLegacyOctal_positional (digits_pos_of_roundsTo hrank (shortest_roundsTo hrank))

end Number

namespace Source

open Number (Numeric)

/-! ### Plain parts -/

/-- Whether a literal or a name is read as what it denotes. -/
def isPlainLeaf (kind : Kind) (f : Fragment) : Bool :=
  match kind with
  | .identifier | .undefined => unitsFrom 0 f.chars == some (units f.chars)
  | .string => stringUnits f.chars == some (units (unescape (unquoted f.chars)))
  | .number => Numeric.ofLiteral f.chars == (Number.Double.ofLiteral f.chars).map .number
  | _ => true

/-- Whether a key that is written in front of the value is read as what it names. -/
def Key.isPlain (key : Key) (value : Value) : Bool :=
  key.property == some (value.property key.text)

/-- Whether a name that is written alone is read as what it names. -/
def isPlainName (f : Fragment) : Bool :=
  unitsFrom 0 f.chars == some (units f.chars) &&
    (Value.identifier f.text).property f.text == .own (units f.chars)

mutual

/-- Whether all of the expression is kept. -/
def Expr.isPlain : Expr → Bool
  | .leaf kind f => isPlainLeaf kind f
  | .template _ f => templateUnits f.chars == some (units (unescape (unquoted f.chars)))
  | .regex .. => true
  | .array items f => commas (f.start.drop 1) == 0 && Expr.arePlainItems items
  | .object members _ => Member.arePlain members
  | .call _ callee _ args _ => (mark "?." callee.stop).isNone && Expr.arePlain args
  | .unary _ operand _ => Expr.isPlain operand
  | .parenthesized inner _ => Expr.isPlain inner
  | .tagged .. | .damaged .. => false

/-- Whether all of each expression is kept. -/
def Expr.arePlain : List Expr → Bool
  | [] => true
  | e :: es => Expr.isPlain e && Expr.arePlain es

/-- Whether all of each item of an array is kept, and there are no holes behind them. -/
def Expr.arePlainItems : List Expr → Bool
  | [] => true
  | e :: es => commas e.fragment.stop ≤ 1 && Expr.isPlain e && Expr.arePlainItems es

/-- Whether all of each member of an object is kept. -/
def Member.arePlain : List Member → Bool
  | [] => true
  | m :: ms => Member.isPlain m && Member.arePlain ms

/-- Whether all of the member of an object is kept. -/
def Member.isPlain : Member → Bool
  | .pair key value _ =>
    (match Expr.value value with
      | .ok v => key.isPlain v
      | .error _ => false) && Expr.isPlain value
  | .shorthand f => isPlainName f
  | .other .. | .damaged .. => false

end

/-! ### Parts that are denoted -/

/-- A value is something. -/
theorem hole_ne_datum (v : Value) : Datum.hole ≠ v.datum := by
  cases v <;> intro h <;> cases h

theorem hole_notMem_dataAll (vs : List Value) : Datum.hole ∉ Value.dataAll vs := by
  induction vs with
  | nil => exact List.not_mem_nil
  | cons v vs ih =>
    rw [Value.dataAll, List.mem_cons, not_or]
    exact ⟨hole_ne_datum v, ih⟩

/-- Holes in front of data are seen where there should be none. -/
theorem holes_append_eq_iff {n : ℕ} {ds : List Datum} {vs : List Value} :
    holes n ++ ds = Value.dataAll vs ↔ n = 0 ∧ ds = Value.dataAll vs := by
  cases n with
  | zero => simp [holes]
  | succ n =>
    refine iff_of_false (fun h => hole_notMem_dataAll vs ?_) fun h => Nat.succ_ne_zero n h.1
    rw [← h]
    exact List.mem_append_left _ (List.mem_replicate.2 ⟨Nat.succ_ne_zero n, rfl⟩)

theorem bind_map_cons_eq_iff {α : Type} {o : Option α} {os : Option (List α)} {x : α}
    {xs : List α} : (o.bind fun d => os.map (d :: ·)) = some (x :: xs) ↔
      o = some x ∧ os = some xs := by
  cases o <;> cases os <;> simp

theorem leafDatum_eq_iff {kind : Kind} {f : Fragment} {v : Value} (h : leafValue kind f = .ok v) :
    leafDatum kind f = some v.datum ↔ isPlainLeaf kind f = true := by
  have htext : f.text.toList = f.chars := String.toList_ofList
  have hquoted : (quotedText f).toList = unescape (unquoted f.chars) := String.toList_ofList
  cases kind
  case identifier | undefined =>
    obtain rfl := Except.ok.inj h
    simp [leafDatum, isPlainLeaf, Value.datum, htext]
  case member =>
    rw [leafValue] at h
    split at h
    · next hpath =>
      obtain rfl := Except.ok.inj h
      simp [leafDatum, isPlainLeaf, Value.datum, hpath]
    · cases h
  case string =>
    obtain rfl := Except.ok.inj h
    simp [leafDatum, isPlainLeaf, Value.datum, hquoted]
  case number =>
    rw [leafValue] at h
    split at h
    · next n hn =>
      obtain rfl := Except.ok.inj h
      simp [leafDatum, isPlainLeaf, Value.datum, hn]
    · cases h
  case trueLiteral | falseLiteral | null =>
    obtain rfl := Except.ok.inj h
    exact iff_of_true rfl rfl
  all_goals cases h

theorem neg_injective {m n : Number.Double} (h : m.neg = n.neg) : m = n := by
  cases m <;> cases n <;> simp_all [Number.Double.neg]

/-- A sign keeps a number that is kept, and changes no other one into it. -/
theorem signedDatum_eq_iff {mark : Chars} {v w : Value} {o : Option Datum}
    (h : signed mark v = .ok w) :
    o.bind (signedDatum mark) = some w.datum ↔ o = some v.datum := by
  rw [signed.eq_def] at h
  split at h
  · next n =>
    obtain rfl := Except.ok.inj h
    rw [Option.bind_eq_some_iff]
    refine ⟨?_, fun ho => ⟨_, ho, rfl⟩⟩
    rintro ⟨d, rfl, hd⟩
    rw [signedDatum.eq_def] at hd
    split at hd
    · next n' _ =>
      cases n' with
      | number m =>
        have : m.neg = n.neg := by simpa [Value.datum, Numeric.neg] using hd
        rw [neg_injective this]
        rfl
      | big b => simp [Value.datum, Numeric.neg] at hd
    · next heq => exact absurd heq (by decide)
    · cases hd
  · next n =>
    obtain rfl := Except.ok.inj h
    rw [Option.bind_eq_some_iff]
    refine ⟨?_, fun ho => ⟨_, ho, rfl⟩⟩
    rintro ⟨d, rfl, hd⟩
    rw [signedDatum.eq_def] at hd
    split at hd
    · next heq => exact absurd heq (by decide)
    · rw [← Option.some.inj hd]
    · cases hd
  · cases h

/-! ### Expressions that are denoted -/

theorem ok_of_values_cons {e : Expr} {es : List Expr} {vs : List Value}
    (h : Expr.values (e :: es) = .ok vs) :
    ∃ v ws, vs = v :: ws ∧ e.value = .ok v ∧ Expr.values es = .ok ws := by
  rw [Expr.values] at h
  split at h
  · cases h
  · next v hv =>
    split at h
    · cases h
    · next ws hws => exact ⟨v, ws, (Except.ok.inj h).symm, hv, hws⟩

theorem ok_of_members_cons {m : Member} {ms : List Member} {entries : List (String × Value)}
    (h : Member.values (m :: ms) = .ok entries) :
    ∃ entry more, entries = entry :: more ∧ m.entry = .ok entry ∧ Member.values ms = .ok more := by
  rw [Member.values] at h
  split at h
  · cases h
  · next entry hentry =>
    split at h
    · cases h
    · next more hmore => exact ⟨entry, more, (Except.ok.inj h).symm, hentry, hmore⟩

mutual

/-- **An expression that has a value denotes that value exactly if it is plain.** -/
theorem Expr.datum_eq_iff : ∀ (e : Expr) {v : Value}, e.value = .ok v →
    (e.datum = some v.datum ↔ e.isPlain = true)
  | .leaf kind f => fun h => by
    rw [Expr.value] at h
    rw [Expr.datum, Expr.isPlain]
    exact leafDatum_eq_iff h
  | .template filled f => fun h => by
    rw [Expr.value] at h
    split at h
    · cases h
    · next hfilled =>
      obtain rfl := Except.ok.inj h
      have hquoted : (quotedText f).toList = unescape (unquoted f.chars) := String.toList_ofList
      simp [Expr.datum, Expr.isPlain, Value.datum, hfilled, hquoted]
  | .regex pattern flags f => fun h => by
    rw [Expr.value] at h
    rw [← Except.ok.inj h, Expr.datum, Expr.isPlain, Value.ofPattern, Value.datum]
    exact iff_of_true rfl rfl
  | .array items f => fun h => by
    rw [Expr.value] at h
    split at h
    · next vs hvs =>
      obtain rfl := Except.ok.inj h
      have hitems := Expr.elements_eq_iff items hvs
      rw [Expr.datum, Expr.isPlain, Value.datum, Bool.and_eq_true, beq_iff_eq, ← hitems,
        Option.map_eq_some_iff]
      constructor
      · rintro ⟨ds, hds, heq⟩
        obtain ⟨hn, rfl⟩ := holes_append_eq_iff.1 (Datum.array.inj heq)
        exact ⟨hn, hds⟩
      · rintro ⟨hn, hds⟩
        exact ⟨_, hds, congrArg _ (holes_append_eq_iff.2 ⟨hn, rfl⟩)⟩
    · cases h
  | .object members f => fun h => by
    rw [Expr.value] at h
    split at h
    · next ms hms =>
      obtain rfl := Except.ok.inj h
      rw [Expr.datum, Expr.isPlain, Value.datum, ← Member.data_eq_iff members hms]
      simp
    · cases h
  | .call kind callee typed args f => fun h => by
    rw [Expr.value] at h
    split at h
    · cases h
    split at h
    · cases h
    split at h
    · next vs hvs =>
      obtain rfl := Except.ok.inj h
      rw [Expr.datum, Expr.isPlain, Value.datum, Bool.and_eq_true, ← Expr.data_eq_iff args hvs]
      simp [and_comm]
    · cases h
  | .tagged kind callee f => fun h => by
    rw [Expr.value] at h
    split at h <;> cases h
  | .unary mark operand f => fun h => by
    rw [Expr.value] at h
    split at h
    · next w hw =>
      rw [Expr.datum, Expr.isPlain, signedDatum_eq_iff h]
      exact Expr.datum_eq_iff operand hw
    · cases h
  | .parenthesized inner f => fun h => by
    rw [Expr.value] at h
    rw [Expr.datum, Expr.isPlain]
    exact Expr.datum_eq_iff inner h
  | .damaged kind f => fun h => by
    rw [Expr.value] at h
    cases h

theorem Expr.data_eq_iff : ∀ (es : List Expr) {vs : List Value}, Expr.values es = .ok vs →
    (Expr.data es = some (Value.dataAll vs) ↔ Expr.arePlain es = true)
  | [] => fun h => by
    rw [Expr.values] at h
    rw [← Except.ok.inj h, Expr.data, Value.dataAll, Expr.arePlain]
    exact iff_of_true rfl rfl
  | e :: es => fun h => by
    obtain ⟨v, ws, rfl, hv, hws⟩ := ok_of_values_cons h
    rw [Expr.data, Value.dataAll, bind_map_cons_eq_iff, Expr.arePlain, Bool.and_eq_true,
      Expr.datum_eq_iff e hv, Expr.data_eq_iff es hws]

/-- The elements of an array are its items if there is at most one comma behind each. -/
theorem Expr.elements_eq_iff : ∀ (es : List Expr) {vs : List Value}, Expr.values es = .ok vs →
    (Expr.elements es = some (Value.dataAll vs) ↔ Expr.arePlainItems es = true)
  | [] => fun h => by
    rw [Expr.values] at h
    rw [← Except.ok.inj h, Expr.elements, Value.dataAll, Expr.arePlainItems]
    exact iff_of_true rfl rfl
  | e :: es => fun h => by
    obtain ⟨v, ws, rfl, hv, hws⟩ := ok_of_values_cons h
    have hcommas : commas e.fragment.stop - 1 = 0 ↔ commas e.fragment.stop ≤ 1 := by omega
    rw [Expr.elements, Value.dataAll, Expr.arePlainItems, Bool.and_eq_true, Bool.and_eq_true,
      decide_eq_true_iff, ← hcommas, ← Expr.datum_eq_iff e hv, ← Expr.elements_eq_iff es hws,
      Option.bind_eq_some_iff]
    constructor
    · rintro ⟨d, hd, hds⟩
      obtain ⟨ds, hes, heq⟩ := Option.map_eq_some_iff.1 hds
      obtain ⟨rfl, hrest⟩ := List.cons.inj heq
      obtain ⟨hn, rfl⟩ := holes_append_eq_iff.1 hrest
      exact ⟨⟨hn, hd⟩, hes⟩
    · rintro ⟨⟨hn, hd⟩, hes⟩
      refine ⟨_, hd, Option.map_eq_some_iff.2 ⟨_, hes, congrArg _ ?_⟩⟩
      exact holes_append_eq_iff.2 ⟨hn, rfl⟩

theorem Member.data_eq_iff : ∀ (ms : List Member) {entries : List (String × Value)},
    Member.values ms = .ok entries →
      (Member.data ms = some (Value.dataMembers entries) ↔ Member.arePlain ms = true)
  | [] => fun h => by
    rw [Member.values] at h
    rw [← Except.ok.inj h, Member.data, Value.dataMembers, Member.arePlain]
    exact iff_of_true rfl rfl
  | m :: ms => fun h => by
    obtain ⟨⟨k, v⟩, more, rfl, hm, hms⟩ := ok_of_members_cons h
    rw [Member.data, Value.dataMembers, bind_map_cons_eq_iff, Member.arePlain, Bool.and_eq_true,
      Member.datum_eq_iff m hm, Member.data_eq_iff ms hms]

theorem Member.datum_eq_iff : ∀ (m : Member) {k : String} {v : Value}, m.entry = .ok (k, v) →
    (m.datum = some (v.property k, v.datum) ↔ m.isPlain = true)
  | .pair key value f => fun h => by
    rw [Member.entry] at h
    split at h
    · cases h
    split at h
    · next w hw =>
      obtain ⟨rfl, rfl⟩ := Prod.mk.inj (Except.ok.inj h)
      rw [Member.datum, Member.isPlain, hw]
      simp only
      rw [Bool.and_eq_true, ← Expr.datum_eq_iff value hw, Key.isPlain, beq_iff_eq,
        Option.bind_eq_some_iff]
      constructor
      · rintro ⟨p, hp, hmap⟩
        obtain ⟨d, hd, heq⟩ := Option.map_eq_some_iff.1 hmap
        obtain ⟨rfl, rfl⟩ := Prod.mk.inj heq
        exact ⟨hp, hd⟩
      · rintro ⟨hp, hd⟩
        exact ⟨_, hp, by rw [hd]; rfl⟩
    · cases h
  | .shorthand f => fun h => by
    rw [Member.entry] at h
    obtain ⟨rfl, rfl⟩ := Prod.mk.inj (Except.ok.inj h)
    have htext : f.text.toList = f.chars := String.toList_ofList
    rw [Member.datum, Member.isPlain, isPlainName, Bool.and_eq_true, beq_iff_eq, beq_iff_eq,
      Option.map_eq_some_iff, Value.datum, htext]
    constructor
    · rintro ⟨name, hname, heq⟩
      obtain ⟨hown, hpath⟩ := Prod.mk.inj heq
      obtain rfl := Datum.name.inj hpath
      exact ⟨hname, hown.symm⟩
    · rintro ⟨hname, hown⟩
      exact ⟨_, hname, by rw [hown]⟩
  | .other kind f => fun h => by
    rw [Member.entry] at h
    cases h
  | .damaged key f => fun h => by
    rw [Member.entry] at h
    cases h

end

end Source

end ModuleScaffold
