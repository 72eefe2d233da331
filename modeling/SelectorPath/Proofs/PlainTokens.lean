import SelectorPath.Proofs.Drafts
import SelectorPath.Proofs.Nesting
import SelectorPath.Proofs.Positions

/-!
# Filters of plain tokens

The names and values of a plain token consist of ASCII letters, digits, `-` and
`_`, also inside the selectors of its argument. Its filters are closed texts.

Two kinds of author text pass through the compiler as they are, and plain tokens
have neither: the condition of `:comment` and the selector of `:any`. A text
that is looked for may hold anything but the quote of the literal that it is
written in (`isQuotable`), which the compiler does not check.

## Main results

* `exists_ownTests`: what tokens other than `:not` are made into.
* `closed_filters`: every filter of a plain token is closed and not empty.
-/

namespace SelectorPath

/-! ## Plain tokens -/

/-- Whether a character is an ASCII letter, a digit, `-` or `_`. -/
def isPlainChar (c : Char) : Bool :=
  c.isAlphanum || c == '-' || c == '_'

/-- Whether a text has plain characters only. -/
def Text.isPlain (t : Text) : Bool :=
  t.all isPlainChar

namespace XPath

/-- Whether the literal for a text that is looked for ends at its last quote. -/
def isQuotable (caseSensitive : Bool) (search : Text) : Bool :=
  let (quote, body) :=
    searchLiteral (if caseSensitive then search else Text.lower search)
  !body.contains quote

end XPath

mutual

/-- Whether a token and all tokens inside it are plain. -/
def Token.isPlain : Token → Bool
  | ⟨.tag, name, _, _, _⟩ => (name.getD []).isPlain
  | ⟨.attr, name, value, _, _⟩ =>
    (name.getD []).isPlain && (value.getD []).isPlain
  | ⟨.pseudoClass, name, _, _, argument⟩ =>
    match PseudoClass.ofName? (name.getD []) with
    | some .any => false
    | some .comment => argument.isNone
    | some (.text _ caseSensitive) =>
      match argument with
      | some (.text a) => XPath.isQuotable caseSensitive (Text.trim a)
      | _ => true
    | _ => isPlainArgument? argument
  | _ => true

/-- Whether an argument, where there is one, holds plain tokens only. -/
def isPlainArgument? : Option (Argument Token) → Bool
  | none => true
  | some argument => isPlainArgument argument

/-- Whether an argument holds plain tokens only. -/
def isPlainArgument : Argument Token → Bool
  | .text _ => true
  | .selectors streams => areAllPlain streams

/-- Whether all streams hold plain tokens only. -/
def areAllPlain : List (List Token) → Bool
  | [] => true
  | stream :: streams => arePlain stream && areAllPlain streams

/-- Whether a stream holds plain tokens only. -/
def arePlain : List Token → Bool
  | [] => true
  | token :: tokens => token.isPlain && arePlain tokens

end

/-- The name of a plain type selector is plain. -/
theorem Token.isPlain_label {t : Token} (hkind : t.kind = .tag)
    (h : t.isPlain = true) :
    t.label.isPlain = true := by
  obtain ⟨kind, name, value, test, argument⟩ := t
  cases hkind
  exact h

private theorem Token.isPlain_attr {t : Token} (hkind : t.kind = .attr)
    (h : t.isPlain = true) :
    t.label.isPlain = true ∧ (t.value.getD []).isPlain = true := by
  obtain ⟨kind, name, value, test, argument⟩ := t
  cases hkind
  rwa [Token.isPlain, Bool.and_eq_true] at h

/-- Whether a known pseudo-class is plain with the given argument. -/
def PseudoClass.isPlainWith (argument : Option (Argument Token)) :
    PseudoClass → Bool
  | .any => false
  | .comment => argument.isNone
  | .text _ caseSensitive =>
    match argument with
    | some (.text a) => XPath.isQuotable caseSensitive (Text.trim a)
    | _ => true
  | _ => isPlainArgument? argument

/-- A pseudo-class is plain by its argument. -/
theorem Token.isPlain_pseudo {t : Token} {pseudo : PseudoClass}
    (hpseudo : t.pseudo? = some pseudo) :
    t.isPlain = pseudo.isPlainWith t.argument := by
  obtain ⟨kind, name, value, test, argument⟩ := t
  unfold Token.pseudo? at hpseudo
  split at hpseudo
  · rename_i hkind
    cases hkind
    have hname : PseudoClass.ofName? (name.getD []) = some pseudo := hpseudo
    rw [Token.isPlain, hname]
    cases pseudo <;> rfl
  · simp at hpseudo

/-- Whether the names and texts of a token by itself can stand in its fragments.
The argument of `:any` is a selector again, so nothing is known of it. -/
def Token.isSoundAlone (t : Token) : Bool :=
  match t.kind with
  | .tag => !t.label.contains '\''
  | .attr => t.label.isPlain && !(t.value.getD []).contains '\''
  | .pseudoClass =>
    match t.pseudo? with
    | some .any => false
    | some (.text _ caseSensitive) =>
      t.argumentText?.all fun a => XPath.isQuotable caseSensitive (Text.trim a)
    | _ => true
  | _ => true

theorem arePlain_iff {stream : Stream} :
    arePlain stream = true ↔ ∀ t ∈ stream, t.isPlain = true := by
  induction stream with
  | nil => simp [arePlain]
  | cons token tokens ih => simp [arePlain, ih]

theorem areAllPlain_iff {streams : List Stream} :
    areAllPlain streams = true ↔
      ∀ stream ∈ streams, arePlain stream = true := by
  induction streams with
  | nil => simp [areAllPlain]
  | cons stream streams ih => simp [areAllPlain, ih]

namespace XPath

/-! ## Sealed expressions -/

private theorem isNeutral_of_isPlainChar {c : Char} (h : isPlainChar c = true) :
    isNeutral c = true := by
  cases hc : isNeutral c with
  | true => rfl
  | false =>
    simp only [isNeutral, List.contains_eq_mem, Bool.not_eq_false',
      decide_eq_true_eq] at hc
    have hspecial : ("'\"()[]" : Text).all
        (fun d => !isPlainChar d) = true := by decide
    have hplain := List.all_eq_true.mp hspecial c hc
    rw [h] at hplain
    exact absurd hplain (by decide)

/-- A plain text has no character with a meaning in XPath. -/
theorem all_isNeutral_of_isPlain {t : Text} (h : t.isPlain = true) :
    t.all isNeutral = true := by
  rw [Text.isPlain, List.all_eq_true] at h
  rw [List.all_eq_true]
  exact fun c hc => isNeutral_of_isPlainChar (h c hc)

/-- A plain text has plain characters only. -/
theorem not_mem_of_isPlain {t : Text} {c : Char} (h : t.isPlain = true)
    (hc : isPlainChar c = false) :
    c ∉ t := by
  intro hmem
  rw [Text.isPlain, List.all_eq_true] at h
  rw [h c hmem] at hc
  exact absurd hc (by decide)

/-- A literal in single quotes is sealed if no single quote is in it. -/
theorem isSealed_single {t : Text} (h : '\'' ∉ t) :
    (Expr.single t).isSealed = true := by
  simp [Expr.single, Expr.isSealed, h]

private theorem isSealed_tagFilter {name : Text} (h : '\'' ∉ name) :
    (tagFilter name).isSealed = true := by
  obtain ⟨hlower, hupper⟩ := quote_not_mem_letters name
  have hname := Text.quote_not_mem_upper h
  simp only [tagFilter, Expr.isSealed, isSealed_single hlower,
    isSealed_single hupper, isSealed_single hname, Bool.and_self]

theorem all_isNeutral_ofInt (n : Int) :
    (Text.ofInt n).all isNeutral = true := by
  have hdigits : ∀ t : Text, isNumeral t = true → t.all isNeutral = true := by
    intro t ht
    rw [isNumeral, Bool.and_eq_true, List.all_eq_true] at ht
    rw [List.all_eq_true]
    intro c hc
    apply isNeutral_of_isPlainChar
    simp [isPlainChar, Char.isAlphanum, ht.2 c hc]
  have hsigned := isSigned_ofInt n
  unfold Expr.isSigned at hsigned
  split at hsigned
  · rename_i t heq
    rw [heq, List.all_cons, hdigits t hsigned]
    rfl
  · exact hdigits _ hsigned

/-- Two sealed expressions are sealed together, whatever joins them. -/
theorem isSealed_pair {l r : Expr} (hl : l.isSealed = true)
    (hr : r.isSealed = true) :
    (l.isSealed && r.isSealed) = true := by
  rw [hl, hr]
  rfl

private theorem isSealed_endsWith {e : Expr} {quote : Char} {body : Text}
    (he : e.isSealed = true)
    (hbody : (Expr.literal quote body).isSealed = true) :
    (e.endsWith quote body).isSealed = true := by
  have hnumber :
      (Expr.number (Text.ofInt (Int.ofNat body.length - 1))).isSealed = true :=
    all_isNeutral_ofInt _
  show (e.isSealed && (e.isSealed && (Expr.number _).isSealed)
    && (Expr.literal quote body).isSealed) = true
  rw [he, hnumber, hbody]
  rfl

private theorem isSealed_attributeFilters {name value : Text}
    (test : AttributeTest) (hname : name.isPlain = true)
    (hvalue : '\'' ∉ value) :
    ∀ e ∈ attributeFilters name value test, e.isSealed = true ∧
      e.isTest = true := by
  have hattr : (Expr.attr name).isSealed = true :=
    all_isNeutral_of_isPlain hname
  have hsingle := isSealed_single hvalue
  intro e he
  cases test with
  | present =>
    rw [attributeFilters, List.mem_singleton] at he
    rw [he]
    exact ⟨hattr, rfl⟩
  | hasWord =>
    have hword : (Expr.single (" " ++ value ++ " ")).isSealed = true := by
      apply isSealed_single
      simpa using hvalue
    simp only [attributeFilters, List.mem_cons, List.not_mem_nil,
      or_false] at he
    rcases he with rfl | rfl
    · exact ⟨hattr, rfl⟩
    · refine ⟨?_, rfl⟩
      have hblank : (Expr.single " ").isSealed = true := by decide
      show ((Expr.single " ").isSealed && (Expr.attr name).isSealed &&
          (Expr.single " ").isSealed
        && (Expr.single (" " ++ value ++ " ")).isSealed) = true
      rw [hblank, hattr, hword]
      rfl
  | contains =>
    simp only [attributeFilters, List.mem_cons, List.not_mem_nil,
      or_false] at he
    rcases he with rfl | rfl
    · exact ⟨hattr, rfl⟩
    · exact ⟨isSealed_pair hattr hsingle, rfl⟩
  | startsWith =>
    simp only [attributeFilters, List.mem_cons, List.not_mem_nil,
      or_false] at he
    rcases he with rfl | rfl
    · exact ⟨hattr, rfl⟩
    · exact ⟨isSealed_pair hattr hsingle, rfl⟩
  | endsWith =>
    simp only [attributeFilters, List.mem_cons, List.not_mem_nil,
      or_false] at he
    rcases he with rfl | rfl
    · exact ⟨hattr, rfl⟩
    · exact ⟨isSealed_endsWith hattr hsingle, rfl⟩
  | hyphenated =>
    have hhyphen : (Expr.single (value ++ "-")).isSealed = true := by
      apply isSealed_single
      simpa using hvalue
    simp only [attributeFilters, List.mem_cons, List.not_mem_nil,
      or_false] at he
    rcases he with rfl | rfl
    · exact ⟨hattr, rfl⟩
    · exact ⟨isSealed_pair (isSealed_pair hattr hsingle)
        (isSealed_pair hattr hhyphen), rfl⟩
  | differs =>
    rw [attributeFilters, List.mem_singleton] at he
    rw [he]
    exact ⟨isSealed_pair hattr (isSealed_pair hattr hsingle), rfl⟩
  | equals =>
    rw [attributeFilters, List.mem_singleton] at he
    rw [he]
    exact ⟨isSealed_pair hattr hsingle, rfl⟩

/-- A search is written in single or in double quotes. -/
theorem searchLiteral_quote (search : Text) :
    (searchLiteral search).1 = '\'' ∨ (searchLiteral search).1 = '"' := by
  cases search with
  | nil => exact .inr rfl
  | cons q rest =>
    rw [searchLiteral]
    split
    · rename_i hquoted
      exact hquoted.1
    · exact .inr rfl

/-- What a condition on a text looks at. -/
def ownExpr (caseSensitive : Bool) (search : Text) : Expr :=
  if caseSensitive || (Letters.ofText search).lower.isEmpty then .ownText
  else .translate .ownText (.single (Letters.ofText search).upper)
    (.single (Letters.ofText search).lower)

/-- The text of an element that a search looks at is sealed. -/
theorem isSealed_ownExpr (caseSensitive : Bool) (search : Text) :
    (ownExpr caseSensitive search).isSealed = true := by
  obtain ⟨hlower, hupper⟩ := quote_not_mem_letters search
  unfold ownExpr
  split
  · rfl
  · show (true && (Expr.single (Letters.ofText search).upper).isSealed
      && (Expr.single (Letters.ofText search).lower).isSealed) = true
    rw [isSealed_single hlower, isSealed_single hupper]
    rfl

/-- The condition on a text is sealed if the text can stand in its literal. -/
theorem isSealed_textFilter (relation : TextRelation) {caseSensitive : Bool}
    {search : Text} (h : isQuotable caseSensitive search = true) :
    (textFilter relation caseSensitive search).isSealed = true ∧
      (textFilter relation caseSensitive search).isTest = true := by
  have hown := isSealed_ownExpr caseSensitive search
  have hquote := searchLiteral_quote (if caseSensitive then search
    else Text.lower search)
  have hliteral : (Expr.literal
      (searchLiteral (if caseSensitive then search else Text.lower search)).1
      (searchLiteral (if caseSensitive then search
        else Text.lower search)).2).isSealed = true := by
    rw [Expr.isSealed, Bool.and_eq_true, Bool.or_eq_true, beq_iff_eq,
      beq_iff_eq]
    exact ⟨hquote, h⟩
  cases relation with
  | equals => exact ⟨isSealed_pair hown hliteral, rfl⟩
  | contains => exact ⟨isSealed_pair hown hliteral, rfl⟩
  | startsWith => exact ⟨isSealed_pair hown hliteral, rfl⟩
  | endsWith => exact ⟨isSealed_endsWith hown hliteral, rfl⟩

/-- The place in a formula is sealed if its numerals are. -/
theorem isSealed_placeExpr {reverse : Bool} {step : Text} {offset : Option Text}
    (h : (Formula.progression reverse step offset).hasNumerals
      isNeutral = true) :
    (Formula.placeExpr offset).isSealed = true := by
  simp only [Formula.hasNumerals, Bool.and_eq_true] at h
  cases offset with
  | none => rfl
  | some b =>
    simp only [Option.all_some, Bool.and_eq_true] at h
    have hnumber : (Expr.number b).isSealed = true := h.2.2
    exact isSealed_pair rfl hnumber

private theorem isSealed_condition {f : Formula}
    (h : f.hasNumerals isNeutral = true) :
    f.condition.isSealed = true ∧ f.condition.isTest = true := by
  cases f with
  | exactly numeral =>
    rw [Formula.hasNumerals, Bool.and_eq_true] at h
    have hnumber : (Expr.number numeral).isSealed = true := h.2
    exact ⟨isSealed_pair rfl hnumber, rfl⟩
  | progression reverse step offset =>
    have hplace := isSealed_placeExpr h
    simp only [Formula.hasNumerals, Bool.and_eq_true] at h
    have hzero : (Expr.number "0").isSealed = true := by decide
    have hbound : (Formula.boundExpr reverse offset).isSealed = true :=
      isSealed_pair hplace hzero
    rw [Formula.condition_progression]
    split
    · refine ⟨hbound, ?_⟩
      cases reverse <;> rfl
    · have hdivisor : (Expr.number (if reverse then
          '-' :: step.dropWhile (· == '0')
          else step.dropWhile (· == '0'))).isSealed = true := by
        have hstep : (step.dropWhile (· == '0')).all isNeutral = true := by
          rw [List.all_eq_true]
          intro c hc
          exact List.all_eq_true.mp h.1 c
            ((List.dropWhile_suffix (· == '0')).subset hc)
        cases reverse with
        | true =>
          show ('-' :: step.dropWhile (· == '0')).all isNeutral = true
          rw [List.all_cons, hstep]
          decide
        | false => exact hstep
      exact ⟨isSealed_pair hbound
        (isSealed_pair (isSealed_pair hplace hdivisor) hzero), rfl⟩

/-- No decimal digit has a part in the nesting. -/
theorem isNeutral_of_isDecimalDigit {c : Char}
    (h : Text.isDecimalDigit c = true) :
    isNeutral c = true := by
  cases hc : isNeutral c with
  | true => rfl
  | false =>
    simp only [isNeutral, List.contains_eq_mem, Bool.not_eq_false',
      decide_eq_true_eq] at hc
    have hspecial : ("'\"()[]" : Text).all
        (fun d => !Text.isDecimalDigit d) = true := by decide
    have hdigit := List.all_eq_true.mp hspecial c hc
    rw [h] at hdigit
    exact absurd hdigit (by decide)

/-- A test says something. -/
theorem render_ne_nil_of_isTest {e : Expr} (h : e.isTest = true) :
    e.render ≠ [] := by
  cases e with
  | attr t => exact List.cons_ne_nil _ _
  | children => decide
  | not e => exact List.cons_ne_nil _ _
  | contains e part => exact List.cons_ne_nil _ _
  | startsWith e part => exact List.cons_ne_nil _ _
  | group e => exact List.cons_ne_nil _ _
  | binary op l r =>
    have hblank : ' ' ∈ (Expr.binary op l r).render := by
      rw [mem_render_binary]
      exact .inr (.inl (by cases op <;> decide))
    exact List.ne_nil_of_mem hblank
  | _ => simp [Expr.isTest] at h

/-! ## Tokens by themselves -/

private theorem Token.isSoundAlone_of_isPlain {t : Token}
    (h : t.isPlain = true) : t.isSoundAlone = true := by
  unfold Token.isSoundAlone
  cases hkind : t.kind with
  | tag =>
    have hname :=
      not_mem_of_isPlain (c := '\'') (Token.isPlain_label hkind h) (by decide)
    simpa using hname
  | attr =>
    obtain ⟨hname, hvalue⟩ := Token.isPlain_attr hkind h
    have hquote := not_mem_of_isPlain (c := '\'') hvalue (by decide)
    rw [hname]
    simpa using hquote
  | pseudoClass =>
    simp only
    cases hpseudo : t.pseudo? with
    | none => rfl
    | some pseudo =>
      rw [Token.isPlain_pseudo hpseudo] at h
      cases pseudo with
      | any => exact h
      | text relation caseSensitive =>
        show t.argumentText?.all
            (fun a => isQuotable caseSensitive (Text.trim a)) = true
        rw [Token.argumentText?]
        cases hargument : t.argument with
        | none => rfl
        | some argument =>
          rw [hargument] at h
          cases argument with
          | text a => exact h
          | selectors streams => rfl
      | _ => rfl
  | _ => rfl

/-- The conditions that tokens other than `:not` and `:any` are made into, if
what the author wrote stays in its literals. -/
inductive IsOwnTest : Expr → Prop
  | tag {name : Text} (hname : '\'' ∉ name) : IsOwnTest (tagFilter name)
  | attr {name value : Text} {test : AttributeTest}
    (hname : name.isPlain = true) (hvalue : '\'' ∉ value) {e : Expr}
    (he : e ∈ attributeFilters name value test) : IsOwnTest e
  | text {relation : TextRelation} {caseSensitive : Bool} {search : Text}
    (h : isQuotable caseSensitive search = true) :
    IsOwnTest (textFilter relation caseSensitive search)
  | position {f : Formula} (h : f.hasNumerals isNeutral = true) :
    IsOwnTest f.condition
  | last : IsOwnTest (.binary .equal .position .last)
  | only : IsOwnTest (.binary .equal .last (.number "1"))
  | empty : IsOwnTest (.binary .and (.not .children) (.not .ownLength))
  | childless :
    IsOwnTest (.binary .and (.not .children) (.not (.stringLength .ownText)))

/-- A test of a token's own is sealed and is a test. -/
theorem IsOwnTest.isSealed {e : Expr} (h : IsOwnTest e) :
    e.isSealed = true ∧ e.isTest = true := by
  cases h with
  | tag hname => exact ⟨isSealed_tagFilter hname, rfl⟩
  | attr hname hvalue he => exact isSealed_attributeFilters _ hname hvalue e he
  | text h => exact isSealed_textFilter _ h
  | position h => exact isSealed_condition h
  | last => exact ⟨rfl, rfl⟩
  | only => exact ⟨by decide, rfl⟩
  | empty => exact ⟨rfl, rfl⟩
  | childless => exact ⟨rfl, rfl⟩

/-- The argument of a text test is its trimmed text. -/
theorem argumentText_eq_ok {t : Token} {search : Text}
    (h : argumentText t = .ok search) :
    ∃ a, t.argument = some (.text a) ∧ Text.trim a = search := by
  unfold argumentText Token.argumentText? at h
  split at h
  · simp at h
  · rename_i a hargument
    split at hargument
    · rename_i a' ha'
      cases hargument
      split at h
      · simp at h
      · cases h
        exact ⟨a, ha', rfl⟩
    · simp at hargument

/-- The argument of a negation are its streams. -/
theorem argumentStreams_eq_ok {t : Token} {streams : List Stream}
    (h : argumentStreams t = .ok streams) :
    t.argument = some (.selectors streams) := by
  unfold argumentStreams at h
  split at h
  · rename_i streams' hargument
    cases h
    exact hargument
  · simp at h

private theorem exists_formula_of_positionTest {t condition : Text}
    (h : positionTest t = .ok condition) :
    ∃ f : Formula, condition = f.condition.render ∧
      f.hasNumerals isNeutral = true := by
  unfold positionTest at h
  split at h
  · rename_i formula hformula
    injection h with h
    refine ⟨formula, h.symm, ?_⟩
    apply Formula.hasNumerals_of_ofTrimmed? _
      (fun c _ => isNeutral_of_isDecimalDigit) hformula
    intro c hc
    exact isNeutral_of_isDecimalDigit
      (by rw [Text.isDecimalDigit, hc, Bool.true_or])
  · simp at h

/-- What a token by itself is made into. -/
theorem exists_ownTests {t : Token} {fs : List Text}
    (hnot : t.pseudo? ≠ some .not) (hsound : t.isSoundAlone = true)
    (h : filters t = .ok fs) :
    ∃ es : List Expr, es ≠ [] ∧ fs = es.map Expr.render ∧ ∀ e ∈ es,
      IsOwnTest e := by
  have hsingle : ∀ e : Expr, IsOwnTest e →
      ∃ es : List Expr, es ≠ [] ∧ [e.render] = es.map Expr.render ∧ ∀ e ∈ es,
        IsOwnTest e :=
    fun e he => ⟨[e], List.cons_ne_nil _ _, rfl,
      List.forall_mem_singleton.mpr he⟩
  rw [filters] at h
  unfold Token.isSoundAlone at hsound
  cases hkind : t.kind with
  | tag =>
    rw [hkind] at h hsound
    cases h
    exact hsingle _ (.tag (by simpa using hsound))
  | attr =>
    rw [hkind] at h hsound
    cases htest : t.test with
    | none => simp [htest] at h
    | some test =>
      simp only [htest] at h
      cases h
      rw [Bool.and_eq_true] at hsound
      refine ⟨attributeFilters t.label (t.value.getD []) test, ?_, rfl,
        fun e he => ?_⟩
      · cases test <;> exact List.cons_ne_nil _ _
      · exact .attr hsound.1 (by simpa using hsound.2) he
  | pseudoClass =>
    simp only [hkind] at h hsound
    cases hpseudo : t.pseudo? with
    | none => simp [hpseudo] at h
    | some pseudo =>
      simp only [hpseudo] at h hsound
      cases pseudo with
      | root => simp at h
      | comment => simp at h
      | not => exact absurd hpseudo hnot
      | any => exact absurd hsound Bool.false_ne_true
      | empty =>
        cases h
        exact hsingle _ .empty
      | childless =>
        cases h
        exact hsingle _ .childless
      | firstChild =>
        cases h
        exact hsingle _ (.position (f := .exactly "1") (by decide))
      | firstOfType =>
        cases h
        exact hsingle _ (.position (f := .exactly "1") (by decide))
      | lastChild =>
        cases h
        exact hsingle _ .last
      | lastOfType =>
        cases h
        exact hsingle _ .last
      | onlyChild =>
        cases h
        exact hsingle _ .only
      | nthChild =>
        obtain ⟨formula, -, h⟩ := bind_eq_ok_iff.mp h
        obtain ⟨condition, hcondition, h⟩ := bind_eq_ok_iff.mp h
        cases h
        obtain ⟨f, rfl, hf⟩ := exists_formula_of_positionTest hcondition
        exact hsingle _ (.position hf)
      | nthOfType =>
        obtain ⟨formula, -, h⟩ := bind_eq_ok_iff.mp h
        obtain ⟨condition, hcondition, h⟩ := bind_eq_ok_iff.mp h
        cases h
        obtain ⟨f, rfl, hf⟩ := exists_formula_of_positionTest hcondition
        exact hsingle _ (.position hf)
      | text relation caseSensitive =>
        obtain ⟨search, hsearch, h⟩ := bind_eq_ok_iff.mp h
        cases h
        obtain ⟨a, hargument, rfl⟩ := argumentText_eq_ok hsearch
        simp only [Token.argumentText?, hargument, Option.all_some] at hsound
        exact hsingle _ (.text hsound)
  | _ => simp [hkind] at h

/-- What `:not` is made into. -/
theorem filters_not {t : Token} (hnot : t.pseudo? = some .not) :
    filters t = (argumentStreams t >>= fun streams =>
      streamsFilters streams >>= fun alternatives =>
        .ok ["not(" ++ flatten .or alternatives ++ ")"]) := by
  rw [filters, kind_of_pseudo? hnot]
  simp only [hnot]
  split
  · rename_i e he
    rw [he]
    rfl
  · rename_i streams hstreams
    rw [hstreams]
    rfl

/-- A negation is made from the alternatives of its argument. -/
theorem filters_eq_ok_of_not {t : Token} {fs : List Text}
    (hnot : t.pseudo? = some .not) (h : filters t = .ok fs) :
    ∃ streams alternatives, argumentStreams t = .ok streams ∧
      streamsFilters streams = .ok alternatives ∧
      fs = ["not(" ++ flatten .or alternatives ++ ")"] := by
  rw [filters_not hnot] at h
  obtain ⟨streams, hstreams, h⟩ := bind_eq_ok_iff.mp h
  obtain ⟨alternatives, halternatives, h⟩ := bind_eq_ok_iff.mp h
  cases h
  exact ⟨streams, alternatives, hstreams, halternatives, rfl⟩

/-! ## Filters -/

/-- Closed texts of which none is empty, and at least one. -/
def AreClosed (fs : List Text) : Prop :=
  fs ≠ [] ∧ ∀ f ∈ fs, isClosed f = true ∧ f ≠ []

private theorem areClosed_map {es : List Expr} (hne : es ≠ [])
    (h : ∀ e ∈ es, e.isSealed = true ∧ e.isTest = true) :
    AreClosed (es.map Expr.render) := by
  refine ⟨by simpa using hne, ?_⟩
  intro f hf
  obtain ⟨e, he, rfl⟩ := List.mem_map.mp hf
  obtain ⟨hsealed, htest⟩ := h e he
  exact ⟨isClosed_render e hsealed, render_ne_nil_of_isTest htest⟩

/-- A sealed test is closed as a fragment. -/
theorem areClosed_expr {e : Expr} (hsealed : e.isSealed = true)
    (htest : e.isTest = true) :
    AreClosed [e.render] :=
  areClosed_map (List.cons_ne_nil e [])
    (List.forall_mem_singleton.mpr ⟨hsealed, htest⟩)

private theorem areClosed_not {predicate : Text}
    (h : isClosed predicate = true) :
    AreClosed ["not(" ++ predicate ++ ")"] := by
  refine ⟨List.cons_ne_nil _ _,
    List.forall_mem_singleton.mpr ⟨?_, List.cons_ne_nil _ _⟩⟩
  exact isClosed_call rfl h

private theorem closed_streamFilters {stream : Stream} {fs : List Text}
    (hclosed : ∀ t ∈ stream, ∀ fs, t.isPlain = true → filters t = .ok fs →
      AreClosed fs)
    (hplain : arePlain stream = true) (h : streamFilters stream = .ok fs) :
    ∀ f ∈ fs, isClosed f = true := by
  induction stream generalizing fs with
  | nil =>
    rw [streamFilters] at h
    cases h
    exact List.forall_mem_nil _
  | cons token tokens ih =>
    rw [List.forall_mem_cons] at hclosed
    rw [arePlain, Bool.and_eq_true] at hplain
    rw [streamFilters] at h
    obtain ⟨first, hfirst, h⟩ := bind_eq_ok_iff.mp h
    obtain ⟨others, hothers, h⟩ := bind_eq_ok_iff.mp h
    cases h
    intro f hf
    rcases List.mem_append.mp hf with hf | hf
    · exact ((hclosed.1 first hplain.1 hfirst).2 f hf).1
    · exact ih hclosed.2 hplain.2 hothers f hf

private theorem closed_streamsFilters {streams : List Stream} {fs : List Text}
    (hclosed : ∀ stream ∈ streams, ∀ t ∈ stream, ∀ fs, t.isPlain = true →
      filters t = .ok fs → AreClosed fs)
    (hplain : areAllPlain streams = true)
    (h : streamsFilters streams = .ok fs) :
    ∀ f ∈ fs, isClosed f = true := by
  induction streams generalizing fs with
  | nil =>
    rw [streamsFilters] at h
    cases h
    exact List.forall_mem_nil _
  | cons stream streams ih =>
    rw [List.forall_mem_cons] at hclosed
    rw [areAllPlain, Bool.and_eq_true] at hplain
    rw [streamsFilters] at h
    obtain ⟨first, hfirst, h⟩ := bind_eq_ok_iff.mp h
    obtain ⟨others, hothers, h⟩ := bind_eq_ok_iff.mp h
    cases h
    have hstream :=
      isClosed_flatten .and (closed_streamFilters hclosed.1 hplain.1 hfirst)
    exact List.forall_mem_cons.mpr ⟨hstream, ih hclosed.2 hplain.2 hothers⟩

/-- Every filter of a plain token is closed and not empty. -/
theorem closed_filters (t : Token) {fs : List Text} (hplain : t.isPlain = true)
    (h : filters t = .ok fs) : AreClosed fs := by
  by_cases hnot : t.pseudo? = some .not
  · obtain ⟨streams, alternatives, hstreams, halternatives, rfl⟩ :=
      filters_eq_ok_of_not hnot h
    rw [Token.isPlain_pseudo hnot, argumentStreams_eq_ok hstreams] at hplain
    have hinner : ∀ stream ∈ streams, ∀ token ∈ stream, ∀ fs,
        token.isPlain = true →
        filters token = .ok fs → AreClosed fs :=
      fun stream hstream token htoken fs hplain h =>
        closed_filters token hplain h
    exact areClosed_not (isClosed_flatten .or
      (closed_streamsFilters hinner hplain halternatives))
  · obtain ⟨es, hne, rfl, hes⟩ :=
      exists_ownTests hnot (Token.isSoundAlone_of_isPlain hplain) h
    exact areClosed_map hne fun e he => (hes e he).isSealed
termination_by t.weight
decreasing_by
  exact Nat.lt_of_le_of_lt (Token.weight_le_weightAll htoken hstream)
    (argumentStreams_weight hstreams)

end XPath

end SelectorPath
