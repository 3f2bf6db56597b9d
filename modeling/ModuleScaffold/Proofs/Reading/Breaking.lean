import ModuleScaffold.Proofs.Reading.Layout
import ModuleScaffold.Proofs.Reading.Tokens

/-!
# Broken lines and tokens

A value on several lines has a comma behind the last element of everything that is broken, and
blanks in other places. Otherwise it has the tokens of the value on one line: both texts have the
tokens of the value (`ModuleScaffold.Value.tokens`), once the commas in front of closing brackets
are left out. Which lines are broken plays no role, since every way of writing a list puts the same
elements in front of the closing bracket.

Main statements:

* `ModuleScaffold.Value.lex_listed` – the tokens in front of the end of a list are those of its
  elements, however it is written;
* `ModuleScaffold.Value.Spells.bracket`, `ModuleScaffold.Value.Spells.call` – **lists and calls are
  spelled by the texts of their parts**;
* `ModuleScaffold.Value.spells_render`, `ModuleScaffold.Value.spells_layout` – both ways of writing
  a value spell it;
* `ModuleScaffold.Value.lex_layout` – **breaking lines does not change the tokens of a value**.
-/

namespace ModuleScaffold

namespace Source

/-! ### Trailing commas -/

/-- The tokens that are left without the commas directly in front of closing brackets. -/
def withoutTrailingCommas : List Token → List Token
  | [] => []
  | t :: ts =>
    if t = .comma ∧ ts.head?.any Token.isClosing = true then withoutTrailingCommas ts
    else t :: withoutTrailingCommas ts

variable {t : Token} {ts us : List Token}

theorem withoutTrailingCommas_cons (h : t ≠ .comma) :
    withoutTrailingCommas (t :: ts) = t :: withoutTrailingCommas ts := by
  rw [withoutTrailingCommas, if_neg fun heq => h heq.1]

theorem withoutTrailingCommas_comma : withoutTrailingCommas (.comma :: ts) =
    if ts.head?.any Token.isClosing = true then withoutTrailingCommas ts
    else .comma :: withoutTrailingCommas ts := by
  rw [withoutTrailingCommas]
  exact if_congr (and_iff_right rfl) rfl rfl

/-- Tokens without commas are left as they are. -/
theorem withoutTrailingCommas_append (h : .comma ∉ ts) :
    withoutTrailingCommas (ts ++ us) = ts ++ withoutTrailingCommas us := by
  induction ts with
  | nil => rfl
  | cons t ts ih =>
    obtain ⟨ht, hts⟩ := not_or.1 (List.mem_cons.not.1 h)
    rw [List.cons_append, withoutTrailingCommas_cons (Ne.symm ht), ih hts, List.cons_append]

/-- Quoted texts and regular expressions are left as they are. -/
theorem filter_withoutTrailingCommas :
    (withoutTrailingCommas ts).filter Token.isQuoted = ts.filter Token.isQuoted := by
  induction ts with
  | nil => rfl
  | cons t ts ih =>
    rw [withoutTrailingCommas]
    split
    · next h => rw [h.1, ih, List.filter_cons_of_neg (by decide)]
    · rw [List.filter_cons, List.filter_cons, ih]

/-- What begins with the beginning of an element. -/
theorem Begins.append {text : Chars} (h : Begins text) (more : Chars) : Begins (text ++ more) := by
  obtain ⟨hkept, c, cs, rfl, hc⟩ := h
  refine ⟨fun rest => ?_, c, cs ++ more, rfl, hc⟩
  rw [List.append_assoc]
  exact hkept _

end Source

namespace Value

open Source

/-! ### The tokens of a value -/

/-- Tokens with a comma between neighbours. -/
def separated : List (List Token) → List Token
  | [] => []
  | [ts] => ts
  | ts :: us :: rest => ts ++ .comma :: separated (us :: rest)

/-- The tokens of a list between brackets. -/
def bracketTokens (opening closing : Char) (elements : List (List Token)) : List Token :=
  .mark [opening] :: (separated elements ++ [.mark [closing]])

/-- The tokens of a number: its sign and its digits. -/
def numberTokens : Number.Double → List Token
  | .finite true rank => [.mark ['-'], .number (Number.shortest rank).positional]
  | n => [.number n.toText.toList]

/-- The token of a key. -/
def keyToken (key : String) : Token :=
  if Text.isIdentifier key then .word key.toList else .string (Text.quoteChars key.toList)

mutual

/-- The tokens of a value. -/
def tokens : Value → List Token
  | identifier path => pathTokens path
  | string text => [.string (Text.quoteChars text.toList)]
  | number n => numberTokens n
  | boolean value => [.word (if value then "true".toList else "false".toList)]
  | null => [.word "null".toList]
  | regex pattern flags => [.regex ⟨pattern.toList, flags.toList⟩]
  | array items => bracketTokens '[' ']' (tokensAll items)
  | object members => bracketTokens '\x7b' '\x7d' (tokensMembers members)
  | call callee args => pathTokens callee ++ bracketTokens '(' ')' (tokensAll args)

/-- The tokens of several values. -/
def tokensAll : List Value → List (List Token)
  | [] => []
  | v :: vs => tokens v :: tokensAll vs

/-- The tokens of the members of an object. A name that is key and value at once is one token. -/
def tokensMembers : List (String × Value) → List (List Token)
  | [] => []
  | (k, v) :: ms =>
    (if isShorthand k v then [.word k.toList] else keyToken k :: .mark [':'] :: tokens v)
      :: tokensMembers ms

end

theorem tokensAll_eq_map : ∀ vs : List Value, tokensAll vs = vs.map tokens
  | [] => by rw [tokensAll, List.map_nil]
  | v :: vs => by rw [tokensAll, List.map_cons, tokensAll_eq_map vs]

/-! ### Texts that spell tokens -/

/-- A text has the given tokens, up to trailing commas. -/
structure Spells (text : Chars) (clean : List Token) : Prop where
  /-- The text can be told from the marks of a list. -/
  begins : Begins text
  /-- It has the tokens in front of whatever cannot go on with the last of them. The first one
  closes no bracket, so a comma in front of the text is no trailing one. -/
  lexes : ∀ {rest : Chars} {us : List Token}, EndsToken rest →
    (∀ operand, lexFrom operand rest = some us) →
      ∃ ts, lexFrom false (text ++ rest) = some ts ∧
        withoutTrailingCommas ts = clean ++ withoutTrailingCommas us ∧
        ts.head?.any Token.isClosing = false

variable {text body rest : Chars} {clean us : List Token} {texts : List Chars}
  {cleans : List (List Token)} {opening closing : Char}

theorem begins_of_spells (h : List.Forall₂ Spells texts cleans) : ∀ text ∈ texts, Begins text := by
  induction h with
  | nil => exact fun _ ht => absurd ht List.not_mem_nil
  | cons htext _ ih => exact List.forall_mem_cons.2 ⟨htext.begins, ih⟩

/-- A text without commas. -/
theorem Spells.of_lexFrom {t : Token} (hbegins : Begins text) (ht : t.isClosing = false)
    (hclean : .comma ∉ t :: clean)
    (h : ∀ {rest : Chars} {us : List Token}, EndsToken rest → lexFrom true rest = some us →
      lexFrom false (text ++ rest) = some (t :: clean ++ us)) : Spells text (t :: clean) := by
  refine ⟨hbegins, fun {rest us} hrest hlex => ?_⟩
  exact ⟨t :: clean ++ us, h hrest (hlex true), withoutTrailingCommas_append hclean, by simp [ht]⟩

/-! ### Lists -/

/-- The opening brackets. -/
def openers : List Char := ['(', '[', '\x7b']

/-- The closing brackets. -/
def closers : List Char := [')', ']', '\x7d']

theorem endsToken_of_ends (h : Ends rest) : EndsToken rest :=
  ⟨h.stopsWord, h.head?_ne_point⟩

/-- The tokens in front of the end of a list are those of its elements, however it is written. If
there are elements, the first token closes no bracket, so that a comma in front of it stays. -/
theorem lex_listed (hclosing : closing ∈ closers) (h : Listed closing texts text rest)
    (hall : List.Forall₂ Spells texts cleans) (hlex : lexFrom true rest = some us) :
    ∃ ts, lexFrom false text = some ts ∧
      withoutTrailingCommas ts =
        separated cleans ++ .mark [closing] :: withoutTrailingCommas us ∧
      ts.head?.any Token.isClosing = texts.isEmpty := by
  obtain ⟨hmark, hender, hbracket, hne⟩ := Text.forall_mem_of_all (p := fun c => c ∈ plainMarks ∧
    c ∈ enders ∧ (Token.mark [c]).isClosing = true ∧ Token.mark [c] ≠ .comma) (by decide)
    closing hclosing
  -- the closing bracket, behind blanks
  have hend : ∀ {cs : Chars} {operand : Bool}, skip cs = closing :: rest →
      lexFrom operand cs = some (.mark [closing] :: us) := by
    intro cs operand hskip
    rw [← lexFrom_skip, hskip]
    exact lexFrom_mark hmark (by rw [Token.endsOperand, hbracket]; exact hlex)
  induction h generalizing cleans with
  | done hskip =>
    rcases hall
    exact ⟨_, hend hskip, withoutTrailingCommas_cons hne, by simp [hbracket]⟩
  | @last text cs behind rest hskip hlast =>
    rcases hall with _ | ⟨htext, hnone⟩
    rcases hnone
    obtain ⟨ts, hts, hclean, hhead⟩ :=
      htext.lexes (endsToken_of_ends ⟨closing, hender, rest, hlast⟩) fun operand => hend hlast
    refine ⟨ts, ?_, ?_, hhead⟩
    · rw [← lexFrom_skip, hskip, hts]
    · rw [hclean, withoutTrailingCommas_cons hne, separated]
  | @more text cs behind next rest texts hskip hcomma hmore ih =>
    rcases hall with _ | ⟨htext, hothers⟩
    obtain ⟨us', hus, hclean', hhead'⟩ := ih hothers hlex hend
    have hbehind : ∀ operand, lexFrom operand behind = some (.comma :: us') := by
      intro operand
      rw [← lexFrom_skip, hcomma]
      exact lexFrom_mark (by decide) hus
    obtain ⟨ts, hts, hclean, hhead⟩ :=
      htext.lexes (endsToken_of_ends ⟨',', by decide, next, hcomma⟩) hbehind
    refine ⟨ts, ?_, ?_, hhead⟩
    · rw [← lexFrom_skip, hskip, hts]
    · -- the comma is a trailing one if this is the last element
      rw [hclean, withoutTrailingCommas_comma, hhead', hclean']
      rcases hothers with _ | ⟨hother, hothers⟩
      · rfl
      · rw [List.isEmpty_cons, if_neg Bool.false_ne_true, separated, List.append_assoc,
          List.cons_append]

/-- The tokens of a list with its brackets, whatever stands in front of it. -/
theorem lex_bracket (hopening : opening ∈ openers) (hclosing : closing ∈ closers)
    (hbody : IsBody closing texts body) (hall : List.Forall₂ Spells texts cleans)
    (hlex : lexFrom true rest = some us) :
    ∃ ts, (∀ operand, lexFrom operand (opening :: (body ++ rest)) = some ts) ∧
      withoutTrailingCommas ts =
        bracketTokens opening closing cleans ++ withoutTrailingCommas us ∧
      ts.head?.any Token.isClosing = false := by
  obtain ⟨hmark, hopens, hne⟩ := Text.forall_mem_of_all (p := fun c => c ∈ plainMarks ∧
    (Token.mark [c]).isClosing = false ∧ Token.mark [c] ≠ .comma) (by decide) opening hopening
  obtain ⟨ts, hts, hclean, -⟩ := lex_listed hclosing (hbody rest) hall hlex
  refine ⟨.mark [opening] :: ts, fun operand => lexFrom_mark hmark ?_, ?_, ?_⟩
  · rw [Token.endsOperand, hopens]
    exact hts
  · rw [withoutTrailingCommas_cons hne, hclean, bracketTokens, List.cons_append, List.append_assoc,
      List.singleton_append]
  · rw [List.head?_cons, Option.any_some, hopens]

namespace Spells

/-- A list is spelled by its elements. -/
theorem bracket (hopening : opening ∈ openers) (hclosing : closing ∈ closers)
    (hbody : IsBody closing texts body) (hall : List.Forall₂ Spells texts cleans) :
    Spells (opening :: body) (bracketTokens opening closing cleans) := by
  obtain ⟨hspace, hslash, hender⟩ := Text.forall_mem_of_all (p := fun c => isSpace c = false ∧
    c ≠ '/' ∧ c ∉ '.' :: enders) (by decide) opening hopening
  refine ⟨⟨fun rest => skip_cons hspace hslash, opening, body, rfl, hender⟩,
    fun {rest us} _ hlex => ?_⟩
  obtain ⟨ts, hts, hspelled⟩ := lex_bracket hopening hclosing hbody hall (hlex true)
  exact ⟨ts, hts false, hspelled⟩

/-- **A call is spelled by its path and its arguments.** -/
theorem call {callee : String} (hpath : Text.isIdentifierPath callee = true)
    (hbody : IsBody ')' texts body) (hall : List.Forall₂ Spells texts cleans) :
    Spells (callee.toList ++ '(' :: body) (pathTokens callee ++ bracketTokens '(' ')' cleans) := by
  refine ⟨begins_path hpath _, fun {rest us} _ hlex => ?_⟩
  obtain ⟨w, ts', hcons, hcomma⟩ := pathTokens_eq_cons hpath
  obtain ⟨ts, hts, hclean, -⟩ :=
    lex_bracket (show '(' ∈ openers by decide) (by decide) hbody hall (hlex true)
  refine ⟨pathTokens callee ++ ts, ?_, ?_, ?_⟩
  · rw [List.append_assoc, List.cons_append]
    exact lexFrom_path hpath (stopsWord_cons (by decide) (by decide)) (hts true)
  · rw [withoutTrailingCommas_append hcomma, hclean, List.append_assoc]
  · rw [hcons]
    rfl

/-! ### Leaves -/

theorem identifier {path : String} (hpath : Text.isIdentifierPath path = true) :
    Spells path.toList (pathTokens path) := by
  obtain ⟨w, ts, hcons, hcomma⟩ := pathTokens_eq_cons hpath
  have hlex : ∀ {rest : Chars} {us : List Token}, EndsToken rest → lexFrom true rest = some us →
      lexFrom false (path.toList ++ rest) = some (pathTokens path ++ us) := fun hrest hlex =>
    lexFrom_path hpath hrest.stopsWord hlex
  rw [hcons] at hcomma hlex ⊢
  exact .of_lexFrom (by simpa using begins_path hpath []) rfl hcomma hlex

theorem word {w : Chars} (hw : Text.isIdentifierChars w = true) : Spells w [.word w] :=
  .of_lexFrom (by simpa using begins_identifier hw []) rfl (by simp) fun hrest hlex =>
    lexFrom_word hw hrest.stopsWord hlex

theorem string (text : String) :
    Spells (Text.quoteChars text.toList) [.string (Text.quoteChars text.toList)] :=
  .of_lexFrom (ReadsAs.string text).begins rfl (by simp) fun _ hlex => lexFrom_string _ hlex

theorem regex {pattern flags : String} (h : Regex.problem? pattern flags = none) :
    Spells ('/' :: (pattern.toList ++ '/' :: flags.toList))
      [.regex ⟨pattern.toList, flags.toList⟩] :=
  .of_lexFrom (ReadsAs.regex h).begins rfl (by simp) fun hrest hlex =>
    lexFrom_regex h hrest.stopsWord hlex

theorem number {n : Number.Double} (h : n.isFinite = true) :
    Spells n.toText.toList (numberTokens n) := by
  have hbegins := (ReadsAs.number h (readsBack h)).begins
  rcases n with _ | negative | ⟨negative, rank⟩
  · cases h
  · cases h
  have hdecimal := Number.isDecimal_positional (Number.shortest rank)
  cases negative with
  | false =>
    have htext : (Number.Double.finite false rank).toText.toList =
        (Number.shortest rank).positional := String.toList_ofList
    rw [htext] at hbegins ⊢
    rw [numberTokens.eq_2 _ (by simp), htext]
    exact .of_lexFrom hbegins rfl (by simp) fun hrest hlex => lexFrom_number hdecimal hrest hlex
  | true =>
    have htext : (Number.Double.finite true rank).toText.toList =
        '-' :: (Number.shortest rank).positional := String.toList_ofList
    rw [htext] at hbegins ⊢
    rw [numberTokens]
    refine .of_lexFrom hbegins rfl (by simp) fun {rest us} hrest hlex => ?_
    -- the sign is no operand, but digits are a number behind anything
    have hnumber : lexFrom false ((Number.shortest rank).positional ++ rest) = _ :=
      lexFrom_number hdecimal hrest hlex
    obtain ⟨c, cs, hcons, hc⟩ := exists_cons_of_isDecimal hdecimal
    rw [hcons] at hnumber ⊢
    exact lexFrom_minus hc hnumber

/-! ### Members -/

/-- A key is one token. -/
theorem lexFrom_renderKey (key : String) (hrest : StopsWord rest)
    (hlex : lexFrom true rest = some us) :
    lexFrom false (renderKey key ++ rest) = some (keyToken key :: us) := by
  rw [renderKey, keyToken]
  split
  · next hkey => exact lexFrom_word hkey hrest hlex
  · exact lexFrom_string _ hlex

/-- A key and a value. -/
theorem pair (key : String) (h : Spells text clean) :
    Spells (renderKey key ++ ':' :: ' ' :: text) (keyToken key :: .mark [':'] :: clean) := by
  have hcolon : ∀ tail, StopsWord (':' :: tail) := fun _ => stopsWord_cons (by decide) (by decide)
  have hkey : Begins (renderKey key) := (keyReads (reader 0) key (hcolon [])).begins
  obtain ⟨hcomma, hopens⟩ : keyToken key ≠ .comma ∧ (keyToken key).isClosing = false := by
    rw [keyToken]
    split <;> exact ⟨nofun, rfl⟩
  refine ⟨hkey.append _, fun {rest us} hrest hlex => ?_⟩
  obtain ⟨ts, hts, hclean, -⟩ := h.lexes hrest hlex
  have hvalue : lexFrom false (' ' :: (text ++ rest)) = some ts := by
    rw [← lexFrom_skip, skip_cons_of_isSpace (by decide), lexFrom_skip, hts]
  refine ⟨keyToken key :: .mark [':'] :: ts, ?_, ?_, ?_⟩
  · rw [List.append_assoc]
    exact lexFrom_renderKey key (hcolon _) (lexFrom_mark (by decide) hvalue)
  · rw [withoutTrailingCommas_cons hcomma, withoutTrailingCommas_cons (by decide), hclean]
    rfl
  · rw [List.head?_cons, Option.any_some, hopens]

end Spells

/-! ### On one line -/

mutual

/-- A value on one line spells its tokens. -/
theorem spells_render : ∀ v : Value, v.problem? = none → Spells (render v) v.tokens
  | identifier path, h => by
    rw [problem?] at h
    split at h
    · next hpath =>
      rw [render, tokens]
      exact .identifier hpath
    · cases h
  | string text, _ => by
    rw [render, tokens]
    exact .string text
  | number n, h => by
    rw [problem?] at h
    split at h
    · next hfinite =>
      rw [render, tokens]
      exact .number hfinite
    · cases h
  | boolean value, _ => by
    rw [render, tokens]
    rcases value with _ | _ <;> exact .word (by decide)
  | null, _ => by
    rw [render, tokens]
    exact .word (by decide)
  | regex pattern flags, h => by
    rw [problem?, Option.map_eq_none_iff] at h
    rw [render, tokens]
    exact .regex h
  | array items, h => by
    rw [problem?] at h
    have hitems := spells_renderAll items (problem?_of_problemAll? h)
    rw [render, tokens]
    exact .bracket (by decide) (by decide)
      (isBody_commaSeparated (by decide) (begins_of_spells hitems)) hitems
  | object [], _ => by
    rw [render, tokens]
    exact .bracket (by decide) (by decide) (fun rest => .done (skip_mark (by decide))) .nil
  | object (m :: ms), h => by
    rw [problem?] at h
    have hmembers := spells_renderMembers (m :: ms) (problem?_of_problemMembers? h)
    rw [render, tokens]
    exact .bracket (by decide) (by decide)
      (isBody_spaced (by decide) (begins_of_spells hmembers)) hmembers
  | call callee args, h => by
    rw [problem?] at h
    split at h
    · next hpath =>
      have hargs := spells_renderAll args (problem?_of_problemAll? h)
      rw [render, tokens]
      exact .call hpath (isBody_commaSeparated (by decide) (begins_of_spells hargs)) hargs
    · cases h

theorem spells_renderAll : ∀ vs : List Value, (∀ v ∈ vs, v.problem? = none) →
    List.Forall₂ Spells (renderAll vs) (tokensAll vs)
  | [], _ => .nil
  | v :: vs, h => by
    rw [renderAll, tokensAll]
    exact .cons (spells_render v (h v List.mem_cons_self))
      (spells_renderAll vs fun w hw => h w (List.mem_cons_of_mem _ hw))

theorem spells_renderMembers : ∀ ms : List (String × Value), (∀ m ∈ ms, m.2.problem? = none) →
    List.Forall₂ Spells (renderMembers ms) (tokensMembers ms)
  | [], _ => .nil
  | (k, v) :: ms, h => by
    rw [renderMembers, tokensMembers]
    refine .cons ?_ (spells_renderMembers ms fun w hw => h w (List.mem_cons_of_mem _ hw))
    split
    · next hk => exact .word (isShorthand_iff.1 hk).2
    · exact .pair k (spells_render v (h (k, v) List.mem_cons_self))

end

/-! ### On several lines -/

/-- Elements each on a line of its own, between brackets. -/
theorem Spells.lines (hopening : opening ∈ openers) (hclosing : closing ∈ closers) (indent : ℕ)
    (hall : List.Forall₂ Spells texts cleans) :
    Spells (bracketLines [opening] texts indent closing)
      (bracketTokens opening closing cleans) := by
  have hender : closing ∈ enders :=
    Text.forall_mem_of_all (p := fun c => c ∈ enders) (by decide) closing hclosing
  rw [bracketLines_eq]
  exact .bracket hopening hclosing (isBody_lines hender indent (begins_of_spells hall)) hall

/-- A call that keeps its arguments but the last one on its first line. -/
theorem Spells.hugged {callee : String} {front : List Value} {last : Value}
    (hpath : Text.isIdentifierPath callee = true)
    (hfront : List.Forall₂ Spells (renderAll front) (tokensAll front))
    (hlast : Spells text last.tokens) :
    Spells (callHead callee (front ++ [last]) ++ text ++ [')'])
      (Value.call callee (front ++ [last])).tokens := by
  have hbody := isBody_hugged (show ')' ∈ enders by decide) hlast.begins (begins_of_spells hfront)
  -- the last argument has a text of its own, whatever way it is broken
  have hall : List.Forall₂ Spells (renderAll front ++ [text]) (tokensAll (front ++ [last])) := by
    rw [tokensAll_eq_map, List.map_append, ← tokensAll_eq_map]
    exact List.rel_append hfront (.cons hlast .nil)
  have hcall := Spells.call hpath hbody hall
  rw [callHead, List.dropLast_concat, tokens]
  simpa using hcall

mutual

/-- However the lines of a value are broken, it spells its tokens. -/
theorem spells_layout : ∀ (v : Value) (indent used : ℕ), v.problem? = none →
    Spells (layout v indent used) v.tokens
  | array (v :: vs), indent, used, h => by
    rw [layout]
    split
    · exact spells_render _ h
    · rw [problem?] at h
      rw [tokens]
      exact .lines (by decide) (by decide) indent
        (spells_layoutAll (v :: vs) (indent + 2) (problem?_of_problemAll? h))
  | object (m :: ms), indent, used, h => by
    rw [layout]
    split
    · exact spells_render _ h
    · rw [problem?] at h
      rw [tokens]
      exact .lines (by decide) (by decide) indent
        (spells_layoutMembers (m :: ms) (indent + 2) (problem?_of_problemMembers? h))
  | call callee (v :: vs), indent, used, h => by
    rw [layout]
    split
    · exact spells_render _ h
    rw [problem?] at h
    split at h
    case isFalse => cases h
    next hpath =>
    have hargs := problem?_of_problemAll? h
    split
    · -- the last argument is broken in place of the call
      obtain ⟨front, last, hsplit, hlast⟩ := spells_breakLast (v :: vs) indent (by simp) hargs
      rw [hsplit] at hargs hlast ⊢
      exact .hugged hpath (spells_renderAll front fun w hw => hargs w (by simp [hw])) hlast
    · have hall := spells_layoutAll (v :: vs) (indent + 2) hargs
      rw [bracketLines_eq, List.append_assoc, tokens]
      exact .call hpath (isBody_lines (by decide) indent (begins_of_spells hall)) hall
  | array [], _, _, h | object [], _, _, h | call _ [], _, _, h | identifier _, _, _, h
  | string _, _, _, h | number _, _, _, h | boolean _, _, _, h | null, _, _, h
  | regex _ _, _, _, h => by
    rw [layout]
    · exact spells_render _ h
    all_goals simp

theorem spells_layoutAll : ∀ (vs : List Value) (indent : ℕ), (∀ v ∈ vs, v.problem? = none) →
    List.Forall₂ Spells (layoutAll vs indent) (tokensAll vs)
  | [], _, _ => .nil
  | v :: vs, indent, h => by
    rw [layoutAll, tokensAll]
    exact .cons (spells_layout v indent indent (h v List.mem_cons_self))
      (spells_layoutAll vs indent fun w hw => h w (List.mem_cons_of_mem _ hw))

theorem spells_layoutMembers : ∀ (ms : List (String × Value)) (indent : ℕ),
    (∀ m ∈ ms, m.2.problem? = none) →
      List.Forall₂ Spells (layoutMembers ms indent) (tokensMembers ms)
  | [], _, _ => .nil
  | (k, v) :: ms, indent, h => by
    rw [layoutMembers, tokensMembers]
    refine .cons ?_ (spells_layoutMembers ms indent fun w hw => h w (List.mem_cons_of_mem _ hw))
    split
    · next hk => exact .word (isShorthand_iff.1 hk).2
    · exact .pair k (spells_layout v indent (indent + Text.width (renderKey k) + 2)
        (h (k, v) List.mem_cons_self))

/-- The last of several values spells its tokens, whether it is broken or not. -/
theorem spells_breakLast : ∀ (vs : List Value) (indent : ℕ), vs ≠ [] →
    (∀ v ∈ vs, v.problem? = none) →
      ∃ front last, vs = front ++ [last] ∧ Spells (breakLast vs indent) last.tokens
  | [], _, hne, _ => absurd rfl hne
  | [array items], indent, _, h => by
    have hitems := h (array items) List.mem_cons_self
    rw [problem?] at hitems
    refine ⟨[], array items, rfl, ?_⟩
    rw [breakLast, tokens]
    exact .lines (by decide) (by decide) indent
      (spells_layoutAll items (indent + 2) (problem?_of_problemAll? hitems))
  | [object members], indent, _, h => by
    have hmembers := h (object members) List.mem_cons_self
    rw [problem?] at hmembers
    refine ⟨[], object members, rfl, ?_⟩
    rw [breakLast, tokens]
    exact .lines (by decide) (by decide) indent
      (spells_layoutMembers members (indent + 2) (problem?_of_problemMembers? hmembers))
  | [identifier _], _, _, h | [string _], _, _, h | [number _], _, _, h | [boolean _], _, _, h
  | [null], _, _, h | [regex _ _], _, _, h | [call _ _], _, _, h => by
    refine ⟨[], _, rfl, ?_⟩
    rw [breakLast]
    · exact spells_render _ (h _ List.mem_cons_self)
    all_goals simp
  | v :: w :: vs, indent, _, h => by
    obtain ⟨front, last, hsplit, hlast⟩ :=
      spells_breakLast (w :: vs) indent (by simp) fun x hx => h x (List.mem_cons_of_mem _ hx)
    refine ⟨v :: front, last, by rw [hsplit]; rfl, ?_⟩
    rwa [breakLast]
    all_goals simp

end

/-- An object that is broken in any case spells its tokens. -/
theorem spells_brokenObject {members : List (String × Value)} (indent : ℕ)
    (h : (object members).problem? = none) :
    Spells (brokenObject members indent) (object members).tokens := by
  rw [problem?] at h
  rw [tokens]
  exact .lines (by decide) (by decide) indent
    (spells_layoutMembers members (indent + 2) (problem?_of_problemMembers? h))

/-! ### Both ways -/

/-- A text that spells tokens has them, up to trailing commas. -/
theorem Spells.lex (h : Spells text clean) :
    ∃ ts, Source.lex text = some ts ∧ withoutTrailingCommas ts = clean := by
  obtain ⟨ts, hts, hclean, -⟩ := h.lexes endsToken_nil fun operand => lexFrom_of_skip_eq_nil rfl
  rw [withoutTrailingCommas, List.append_nil] at hclean
  rw [List.append_nil] at hts
  exact ⟨ts, hts, hclean⟩

/-- **Breaking lines does not change the tokens of a value**, except for commas in front of closing
brackets. -/
theorem lex_layout {v : Value} (h : v.problem? = none) (indent used : ℕ) :
    ∃ flat broken, lex (render v) = some flat ∧ lex (layout v indent used) = some broken ∧
      withoutTrailingCommas broken = withoutTrailingCommas flat ∧
      broken.filter Token.isQuoted = flat.filter Token.isQuoted := by
  obtain ⟨flat, hflat, hrender⟩ := (spells_render v h).lex
  obtain ⟨broken, hbroken, hlayout⟩ := (spells_layout v indent used h).lex
  have hsame : withoutTrailingCommas broken = withoutTrailingCommas flat :=
    hlayout.trans hrender.symm
  refine ⟨flat, broken, hflat, hbroken, hsame, ?_⟩
  rw [← filter_withoutTrailingCommas, hsame, filter_withoutTrailingCommas]

/-- A call that is too long for a line and has an object as its last argument. -/
def queryCall : Value :=
  .call "validateAndTransformQuery" [.identifier "GetWipersSchema",
    .object [("defaults", .strings ["id", "name", "created_at", "updated_at"]),
      ("isList", .boolean true)]]

/-- Only its last argument is broken, and a comma gets in front of the closing bracket there. -/
theorem lex_layout_queryCall : queryCall.problem? = none ∧
    lex (layout queryCall 8 8) ≠ lex (render queryCall) ∧
      (lex (layout queryCall 8 8)).map withoutTrailingCommas =
        (lex (render queryCall)).map withoutTrailingCommas := by
  have hproblem : queryCall.problem? = none := by decide +kernel
  obtain ⟨flat, broken, hflat, hbroken, hsame, -⟩ := lex_layout hproblem 8 8
  refine ⟨hproblem, by decide +kernel, ?_⟩
  rw [hflat, hbroken, Option.map_some, Option.map_some, hsame]

end Value

end ModuleScaffold
