import SelectorPath.Proofs.Connectives
import SelectorPath.Proofs.PlainTokens
import SelectorPath.Proofs.TokenTrees

/-!
# Boolean structure of nested predicates

A `:not` holds predicates made of the fragments of its tokens, which may be
`:not` again, and each level adds parentheses and leaves repetitions out. Read
back with the precedence of XPath, the whole predicate is true when the
selectors say so, for every choice of truth values of the fragments that are not
made by `:not`.

Fragments are read as wholes, also those with a connective of their own, so a
predicate that was put together must not be mistaken for one of them. It is not:
the comparisons of a fragment stand outside of parentheses, those of a predicate
of several fragments stand in them.

## Main results

* `Token.negation_induction`: induction over `:not` and the tokens in it.
* `IsOwnTest.isLeaf`: the shapes of the fragments.
* `not_isLeaf_join`, `not_isLeaf_not`, `not_isLeaf_parens`: no predicate that
  was put together has one of them.
* `isReadBack_of_isSound`: what `:not` and the tokens around it say of a token
  is read back.
* `truth_streamsExpression`: what a nested predicate means.
-/

namespace SelectorPath

/-! ## Tokens and the selectors in them -/

section Fold

variable {β : Type} (own : Token → β) (negated : List (List β) → β)

mutual

/-- What a token comes to: `:not` by what the tokens of its selectors come to,
any other token by itself. -/
def Token.fold : Token → β
  | ⟨kind, name, value, test, argument⟩ =>
    if (Token.mk kind name value test argument).pseudo? =
      some .not then negated (foldArgument? argument)
    else own ⟨kind, name, value, test, argument⟩

/-- What the tokens of an argument come to, where there is one. -/
def foldArgument? : Option (Argument Token) → List (List β)
  | none => []
  | some argument => foldArgument argument

/-- What the tokens of an argument come to. -/
def foldArgument : Argument Token → List (List β)
  | .text _ => []
  | .selectors streams => foldAll streams

/-- What the tokens of all streams come to. -/
def foldAll : List (List Token) → List (List β)
  | [] => []
  | stream :: streams => foldStream stream :: foldAll streams

/-- What the tokens of a stream come to. -/
def foldStream : List Token → List β
  | [] => []
  | token :: tokens => token.fold :: foldStream tokens

end

private theorem foldStream_eq_map (stream : Stream) :
    foldStream own negated stream = stream.map (Token.fold own negated) := by
  induction stream with
  | nil => rfl
  | cons token tokens ih => rw [foldStream, ih, List.map_cons]

private theorem foldAll_eq_map (streams : List Stream) :
    foldAll own negated streams =
      streams.map (List.map (Token.fold own negated)) := by
  induction streams with
  | nil => rfl
  | cons stream streams ih => rw [foldAll, ih, foldStream_eq_map, List.map_cons]

private theorem Token.fold_own {t : Token} (h : t.pseudo? ≠ some .not) :
    t.fold own negated = own t := by
  obtain ⟨kind, name, value, test, argument⟩ := t
  rw [Token.fold, if_neg h]

private theorem Token.fold_not {t : Token} (h : t.pseudo? = some .not)
    {streams : List Stream}
    (hargument : t.argument = some (.selectors streams)) :
    t.fold own negated =
      negated (streams.map (List.map (Token.fold own negated))) := by
  obtain ⟨kind, name, value, test, argument⟩ := t
  cases hargument
  rw [Token.fold, if_pos h, foldArgument?, foldArgument, foldAll_eq_map]

end Fold

/-- What holds of every token but `:not`, and of `:not` if it holds of the
tokens of its selectors, holds of all tokens. -/
@[elab_as_elim]
theorem Token.negation_induction {motive : Token → Prop}
    (own : ∀ t, t.pseudo? ≠ some .not → motive t)
    (negation : ∀ t, t.pseudo? = some .not →
      (∀ streams, t.argument = some (.selectors streams) →
      ∀ stream ∈ streams, ∀ inner ∈ stream, motive inner) → motive t)
    (t : Token) : motive t := by
  induction t using Token.nested_induction with
  | step t ih =>
    by_cases hnot : t.pseudo? = some .not
    · exact negation t hnot ih
    · exact own t hnot

namespace XPath

/-! ## Shapes of fragments -/

/-- Whether a character belongs to a comparison. -/
def isSign (c : Char) : Bool :=
  c == '=' || c == '<' || c == '>'

/-- The shapes of the fragments that are not made by `:not`. -/
inductive IsLeaf : Text → Prop
  /-- A comparison outside of everything, perhaps beside other conditions. -/
  | comparison {t : Text} (hsign : HasTop isSign t) (hstar : t.head? ≠ some '*')
    (hends : ¬(t.head? = some '@' ∧ t.getLast? = some ')')) : IsLeaf t
  | attr {name : Text} (hname : name.isPlain = true) : IsLeaf ('@' :: name)
  /-- The call of a function other than `not`. -/
  | call {t : Text} (hblank : ¬HasTop (· == ' ') t)
    (hhead : t.head? = some 'c' ∨ t.head? = some 's') : IsLeaf t
  /-- A comparison or a call, in parentheses. -/
  | group {inner : Text} (hclosed : isClosed inner = true)
    (hsign : HasTop isSign inner) (hhead : inner.head? = some '@')
    (hlast : inner.getLast? = some ')') : IsLeaf ("(" ++ inner ++ ")")
  | empty : IsLeaf "not(*) and not(string-length())"
  | childless : IsLeaf "not(*) and not(string-length(normalize-space()))"

section Shapes

variable {l r : Expr}

private theorem render_binary (op : Operator) (l r : Expr) :
    (Expr.binary op l r).render =
      l.render ++ (" " ++ op.symbol ++ " " ++ r.render) := by
  show l.render ++ " " ++ op.symbol ++ " " ++ r.render = _
  simp only [List.append_assoc]

private theorem head?_binary (op : Operator) (r : Expr) {c : Char}
    (h : l.render.head? = some c) :
    (Expr.binary op l r).render.head? = some c := by
  rw [render_binary, List.head?_append, h]
  rfl

private theorem getLast?_binary (op : Operator) (l : Expr) {c : Char}
    (h : r.render.getLast? = some c) :
    (Expr.binary op l r).render.getLast? = some c := by
  rw [render_binary, List.getLast?_append, List.getLast?_append, h]
  rfl

private theorem hasTop_comparison {op : Operator} (hop : op.isComparison = true)
    (hl : l.isSealed = true) :
    HasTop isSign (Expr.binary op l r).render := by
  have hclosed := isClosed_render l hl
  have hrun : ∀ sign : Text, isClosed sign = true →
      ({} : Nesting).run (l.render ++ sign) = some {} :=
    fun sign hsign => isClosed_iff.mp (isClosed_append hclosed hsign)
  rw [render_binary]
  cases op with
  | equal =>
    exact ⟨l.render ++ " ", '=', " " ++ r.render, by simp [Operator.symbol],
      hrun _ rfl, rfl⟩
  | unequal =>
    exact ⟨l.render ++ " !", '=', " " ++ r.render, by simp [Operator.symbol],
      hrun _ rfl, rfl⟩
  | atMost =>
    exact ⟨l.render ++ " ", '<', "= " ++ r.render, by simp [Operator.symbol],
      hrun _ rfl, rfl⟩
  | atLeast =>
    exact ⟨l.render ++ " ", '>', "= " ++ r.render, by simp [Operator.symbol],
      hrun _ rfl, rfl⟩
  | modulo => exact absurd hop (by decide)
  | and => exact absurd hop (by decide)
  | or => exact absurd hop (by decide)

/-- A comparison that starts neither with `*` nor with an attribute. -/
theorem isLeaf_of_head? {t : Text} (hsign : HasTop isSign t) {c : Char}
    (hhead : t.head? = some c) (hc : (c != '*' && c != '@') = true) :
    IsLeaf t := by
  rw [Bool.and_eq_true, bne_iff_ne, bne_iff_ne] at hc
  refine .comparison hsign ?_ ?_
  · rw [hhead]
    exact fun h => hc.1 (Option.some.inj h)
  · rw [hhead]
    exact fun h => hc.2 (Option.some.inj h.1)

private theorem isLeaf_comparison {op : Operator} (hop : op.isComparison = true)
    (hl : l.isSealed = true) {c : Char} (hhead : l.render.head? = some c)
    (hc : (c != '*' && c != '@') = true) : IsLeaf (Expr.binary op l r).render :=
  isLeaf_of_head? (hasTop_comparison hop hl) (head?_binary op r hhead) hc

private theorem isLeaf_contains (hl : l.isSealed = true)
    (hr : r.isSealed = true) : IsLeaf (Expr.contains l r).render := by
  have hinner := isClosed_between ", " (by decide) (isClosed_render l hl)
    (isClosed_render r hr)
  have hrender : (Expr.contains l r).render =
      "contains(" ++ (l.render ++ ", " ++ r.render) ++ ")" := by
    show "contains(" ++ l.render ++ ", " ++ r.render ++ ")" = _
    simp only [List.append_assoc]
  rw [hrender]
  exact .call (not_hasTop_call rfl rfl hinner) (.inl rfl)

private theorem isLeaf_startsWith (hl : l.isSealed = true)
    (hr : r.isSealed = true) :
    IsLeaf (Expr.startsWith l r).render := by
  have hinner := isClosed_between ", " (by decide) (isClosed_render l hl)
    (isClosed_render r hr)
  have hrender : (Expr.startsWith l r).render =
      "starts-with(" ++ (l.render ++ ", " ++ r.render) ++ ")" := by
    show "starts-with(" ++ l.render ++ ", " ++ r.render ++ ")" = _
    simp only [List.append_assoc]
  rw [hrender]
  exact .call (not_hasTop_call rfl rfl hinner) (.inr rfl)

private theorem isLeaf_endsWith {quote : Char} {body : Text}
    (hl : l.isSealed = true) :
    IsLeaf (l.endsWith quote body).render := by
  have hnumber :
      (Expr.number (Text.ofInt (Int.ofNat body.length - 1))).isSealed = true :=
    all_isNeutral_ofInt _
  have hminus : (Expr.minus (.stringLength l)
      (.number (Text.ofInt (Int.ofNat body.length - 1)))).isSealed = true :=
    isSealed_pair hl hnumber
  exact isLeaf_comparison rfl (isSealed_pair hl hminus) (c := 's') rfl rfl

end Shapes

private theorem isLeaf_attributeFilters {name value : Text}
    (test : AttributeTest) (hname : name.isPlain = true)
    (hvalue : '\'' ∉ value) :
    ∀ e ∈ attributeFilters name value test, IsLeaf e.render := by
  have hattr : (Expr.attr name).isSealed = true :=
    all_isNeutral_of_isPlain hname
  have hleaf : IsLeaf (Expr.attr name).render := .attr hname
  have hsingle := isSealed_single hvalue
  intro e he
  cases test with
  | present =>
    rw [attributeFilters, List.mem_singleton] at he
    rw [he]
    exact hleaf
  | hasWord =>
    have hword : (Expr.single (" " ++ value ++ " ")).isSealed = true := by
      apply isSealed_single
      simpa using hvalue
    have hblank : (Expr.single " ").isSealed = true := by decide
    simp only [attributeFilters, List.mem_cons, List.not_mem_nil,
      or_false] at he
    rcases he with rfl | rfl
    · exact hleaf
    · refine isLeaf_contains ?_ hword
      show ((Expr.single " ").isSealed && (Expr.attr name).isSealed &&
          (Expr.single " ").isSealed) = true
      rw [hblank, hattr]
      rfl
  | contains =>
    simp only [attributeFilters, List.mem_cons, List.not_mem_nil,
      or_false] at he
    rcases he with rfl | rfl
    · exact hleaf
    · exact isLeaf_contains hattr hsingle
  | startsWith =>
    simp only [attributeFilters, List.mem_cons, List.not_mem_nil,
      or_false] at he
    rcases he with rfl | rfl
    · exact hleaf
    · exact isLeaf_startsWith hattr hsingle
  | endsWith =>
    simp only [attributeFilters, List.mem_cons, List.not_mem_nil,
      or_false] at he
    rcases he with rfl | rfl
    · exact hleaf
    · exact isLeaf_endsWith hattr
  | hyphenated =>
    simp only [attributeFilters, List.mem_cons, List.not_mem_nil,
      or_false] at he
    rcases he with rfl | rfl
    · exact hleaf
    · have hleft : (Expr.binary .equal (.attr name) (.single value)).isSealed =
          true := isSealed_pair hattr hsingle
      have hright : (Expr.startsWith (.attr name)
          (.single (value ++ "-"))).isSealed = true :=
        isSealed_pair hattr (isSealed_single (by simpa using hvalue))
      refine .group (isClosed_render (.binary .or _ _)
        (isSealed_pair hleft hright)) ?_
        (head?_binary .or _ (head?_binary .equal _ rfl)) ?_
      · rw [render_binary, hasTop_append (isClosed_render _ hleft)]
        exact .inl (hasTop_comparison rfl hattr)
      · refine getLast?_binary .or _ ?_
        show ("starts-with(" ++ _ ++ ", " ++ _ ++ ")" : Text).getLast? =
            some ')'
        rw [List.getLast?_append]
        rfl
  | differs =>
    rw [attributeFilters, List.mem_singleton] at he
    rw [he]
    refine isLeaf_of_head? ?_ (head?_binary .or _ (c := 'n') rfl) rfl
    rw [render_binary,
      hasTop_append (isClosed_render (.not (.attr name)) hattr),
      hasTop_append (by decide)]
    exact .inr (.inr (hasTop_comparison rfl hattr))
  | equals =>
    rw [attributeFilters, List.mem_singleton] at he
    rw [he]
    refine .comparison (hasTop_comparison rfl hattr) ?_ ?_
    · rw [head?_binary .equal _ (c := '@') rfl]
      decide
    · rw [getLast?_binary .equal _ (c := '\'') List.getLast?_concat]
      exact fun h => absurd h.2 (by decide)

private theorem isLeaf_tagFilter (name : Text) :
    IsLeaf (tagFilter name).render := by
  obtain ⟨hlower, hupper⟩ := quote_not_mem_letters name
  have hsealed : (Expr.translate .elementName
      (.single (Letters.ofText name).lower)
      (.single (Letters.ofText name).upper)).isSealed = true := by
    simp only [Expr.isSealed, isSealed_single hlower, isSealed_single hupper,
      Bool.and_self]
  exact isLeaf_comparison rfl hsealed (c := 't') rfl rfl

private theorem isLeaf_textFilter (relation : TextRelation)
    {caseSensitive : Bool} {search : Text}
    (h : isQuotable caseSensitive search = true) :
    IsLeaf (textFilter relation caseSensitive search).render := by
  have hown := isSealed_ownExpr caseSensitive search
  have hliteral : (Expr.literal
      (searchLiteral (if caseSensitive then search else Text.lower search)).1
      (searchLiteral (if caseSensitive then search
        else Text.lower search)).2).isSealed = true := by
    rw [Expr.isSealed, Bool.and_eq_true, Bool.or_eq_true, beq_iff_eq,
      beq_iff_eq]
    exact ⟨searchLiteral_quote _, h⟩
  cases relation with
  | equals =>
    have hhead : ∃ c, (ownExpr caseSensitive search).render.head? = some c ∧
        (c != '*' && c != '@') = true := by
      unfold ownExpr
      split
      · exact ⟨'n', rfl, rfl⟩
      · exact ⟨'t', rfl, rfl⟩
    obtain ⟨c, hhead, hc⟩ := hhead
    exact isLeaf_comparison rfl hown hhead hc
  | contains => exact isLeaf_contains hown hliteral
  | startsWith => exact isLeaf_startsWith hown hliteral
  | endsWith => exact isLeaf_endsWith hown

/-- The condition on a position compares, whatever stands behind the
comparison. -/
theorem isLeaf_condition {f : Formula} (h : f.hasNumerals isNeutral = true) :
    IsLeaf f.condition.render := by
  cases f with
  | exactly numeral => exact isLeaf_comparison rfl rfl (c := 'p') rfl rfl
  | progression reverse step offset =>
    have hplace := isSealed_placeExpr h
    have hsign : HasTop isSign (Formula.boundExpr reverse offset).render := by
      refine hasTop_comparison ?_ hplace
      cases reverse <;> rfl
    have hhead : (Formula.boundExpr reverse offset).render.head? =
        some 'p' := by
      refine head?_binary _ _ ?_
      cases offset <;> rfl
    rw [Formula.condition_progression]
    split
    · exact isLeaf_of_head? hsign hhead rfl
    · have hbound : isClosed (Formula.boundExpr reverse offset).render = true :=
        isClosed_render _ (isSealed_pair hplace (by decide))
      refine isLeaf_of_head? ?_ (head?_binary .and _ hhead) rfl
      rw [render_binary, hasTop_append hbound]
      exact .inl hsign

/-- A test of a token's own is a leaf. -/
theorem IsOwnTest.isLeaf {e : Expr} (h : IsOwnTest e) : IsLeaf e.render := by
  cases h with
  | tag hname => exact isLeaf_tagFilter _
  | attr hname hvalue he => exact isLeaf_attributeFilters _ hname hvalue e he
  | text h => exact isLeaf_textFilter _ h
  | position h => exact isLeaf_condition h
  | last => exact isLeaf_comparison rfl rfl (c := 'p') rfl rfl
  | only => exact isLeaf_comparison rfl rfl (c := 'l') rfl rfl
  | empty => exact .empty
  | childless => exact .childless

/-! ## Predicates that are put together -/

/-- What fragments and predicates have in common: the shape of no fragment comes
about when they are put in parentheses, into `not(…)` or side by side. -/
structure IsRegular (t : Text) : Prop where
  isClosed : isClosed t = true
  ne_nil : t ≠ []
  head_ne : t.head? ≠ some '*'
  ne_not : t ≠ "not(*)"
  ends : ¬(HasTop isSign t ∧ t.head? = some '@' ∧ t.getLast? = some ')')

private theorem not_hasTop_not {p : Char → Bool}
    (hp : ("not(" : Text).all (fun c => !p c) = true) {t : Text}
    (h : isClosed t = true) : ¬HasTop p ("not(" ++ t ++ ")") :=
  not_hasTop_call rfl hp h

private theorem not_hasTop_parens {p : Char → Bool} (hp : p '(' = false)
    {t : Text} (h : isClosed t = true) :
    ¬HasTop p ("(" ++ t ++ ")") := by
  refine not_hasTop_call rfl ?_ h
  show (!p '(' && true) = true
  rw [hp]
  rfl

private theorem isRegular_of_head? {t : Text} (hclosed : isClosed t = true)
    {c : Char} (hhead : t.head? = some c)
    (hc : (c != '*' && c != 'n' && c != '@') = true) : IsRegular t := by
  simp only [Bool.and_eq_true, bne_iff_ne] at hc
  refine ⟨hclosed, ?_, ?_, ?_, ?_⟩
  · rintro rfl
    exact absurd hhead (Option.some_ne_none c).symm
  · rw [hhead]
    exact fun h => hc.1.1 (Option.some.inj h)
  · rintro rfl
    exact hc.1.2 (Option.some.inj hhead).symm
  · rw [hhead]
    exact fun h => hc.2 (Option.some.inj h.2.1)

/-- A closed leaf is regular. -/
theorem IsLeaf.isRegular {t : Text} (h : IsLeaf t)
    (hclosed : isClosed t = true) : IsRegular t := by
  cases h with
  | comparison hsign hstar hends =>
    refine ⟨hclosed, ?_, hstar, ?_, fun h => hends h.2⟩
    · rintro rfl
      exact not_hasTop_of_not (fun c hc => absurd hc List.not_mem_nil) hsign
    · rintro rfl
      exact not_hasTop_not (t := "*") rfl rfl hsign
  | @attr name hname =>
    have hsign : ∀ c ∈ '@' :: name, isSign c = false := by
      intro c hc
      rcases List.mem_cons.mp hc with rfl | hc
      · rfl
      · have hplain := List.all_eq_true.mp hname c hc
        rw [Bool.eq_false_iff]
        intro hsign
        simp only [isSign, Bool.or_eq_true, beq_iff_eq] at hsign
        rcases hsign with (rfl | rfl) | rfl <;> exact absurd hplain (by decide)
    have hne : '@' :: name ≠ "not(*)".toList :=
      fun h => absurd (List.cons.inj h).1 (by decide)
    exact ⟨hclosed, List.cons_ne_nil _ _, by simp, hne,
      fun h => not_hasTop_of_not hsign h.1⟩
  | call hblank hhead =>
    rcases hhead with hhead | hhead
    · exact isRegular_of_head? hclosed hhead rfl
    · exact isRegular_of_head? hclosed hhead rfl
  | group => exact isRegular_of_head? hclosed (c := '(') rfl rfl
  | empty =>
    exact ⟨hclosed, List.cons_ne_nil _ _, by decide, by decide,
      fun h => absurd h.2.1 (by decide)⟩
  | childless =>
    exact ⟨hclosed, List.cons_ne_nil _ _, by decide, by decide,
      fun h => absurd h.2.1 (by decide)⟩

/-- A negation of something regular is regular. -/
theorem IsRegular.not {t : Text} (h : IsRegular t) :
    IsRegular ("not(" ++ t ++ ")") := by
  refine ⟨isClosed_call rfl h.isClosed, List.cons_ne_nil _ _, ?_, ?_, ?_⟩
  · show some 'n' ≠ some '*'
    decide
  · intro heq
    have hinner : t = "*" :=
      List.append_cancel_left (List.append_cancel_right heq)
    exact h.head_ne (by rw [hinner]; rfl)
  · exact fun hends => not_hasTop_not rfl h.isClosed hends.1

/-- Something regular stays so when it is guarded. -/
theorem IsRegular.guarded {t : Text} (h : IsRegular t) :
    IsRegular (guarded t) := by
  unfold XPath.guarded
  split
  · exact isRegular_of_head? (isClosed_parens h.isClosed) (c := '(') rfl rfl
  · exact h

/-- Of a fragment in its parentheses, where it needs them, no comparison is
outside. -/
theorem not_hasTop_guarded {t : Text} (h : isClosed t = true) :
    ¬HasTop isSign (guarded t) := by
  unfold guarded
  split
  · exact not_hasTop_parens rfl h
  · rename_i hparens
    refine not_hasTop_of_not fun c hc => ?_
    rw [Bool.eq_false_iff]
    intro hsign
    exact hparens (Bool.or_eq_true_iff.mpr
      (.inl (List.any_eq_true.mpr ⟨c, hc, hsign⟩)))

/-- Texts that stand side by side in a predicate. -/
def ArePieces (gs : List Text) : Prop :=
  ∀ g ∈ gs, ∃ f, IsRegular f ∧ g = guarded f

section Join

variable (op : Connective) {gs : List Text} (hgs : ArePieces gs)

include hgs

private theorem not_hasTop_join : ¬HasTop isSign (Text.join op.spaced gs) := by
  induction gs with
  | nil => exact not_hasTop_of_not fun c hc => absurd hc List.not_mem_nil
  | cons g gs ih =>
    obtain ⟨f, hf, rfl⟩ := hgs g List.mem_cons_self
    have hg := not_hasTop_guarded hf.isClosed
    cases gs with
    | nil => simpa [Text.join] using hg
    | cons g' gs =>
      have hspaced : isClosed op.spaced = true ∧
          op.spaced.all (fun c => !isSign c) = true := by
        cases op <;> decide
      rw [Text.join_cons_cons, List.append_assoc,
        hasTop_append (isClosed_guarded hf.isClosed), hasTop_append hspaced.1]
      rintro (h | h | h)
      · exact hg h
      · exact not_hasTop_of_not
          (fun c hc => by simpa using List.all_eq_true.mp hspaced.2 c hc) h
      · exact ih (fun x hx => hgs x (List.mem_cons_of_mem _ hx)) h

private theorem exists_join_eq (hmany : 1 < gs.length) :
    ∃ f rest, IsRegular f ∧ Text.join op.spaced gs =
      guarded f ++ (op.spaced ++ rest) := by
  obtain ⟨g, others, rfl⟩ :=
    List.exists_cons_of_length_pos (Nat.zero_lt_of_lt hmany)
  obtain ⟨g', gs, rfl⟩ :=
    List.exists_cons_of_length_pos (Nat.lt_of_succ_lt_succ hmany)
  obtain ⟨f, hf, rfl⟩ := hgs g List.mem_cons_self
  exact ⟨f, Text.join op.spaced (g' :: gs), hf,
    by rw [Text.join_cons_cons, List.append_assoc]⟩

/-- Where several texts stand side by side, a blank is outside of them. -/
theorem hasTop_blank_join (hmany : 1 < gs.length) :
    HasTop (· == ' ') (Text.join op.spaced gs) := by
  obtain ⟨f, rest, hf, hjoin⟩ := exists_join_eq op hgs hmany
  rw [hjoin]
  exact ⟨guarded f, ' ', _, rfl, isClosed_iff.mp (isClosed_guarded hf.isClosed),
    rfl⟩

private theorem isRegular_join (hmany : 1 < gs.length) :
    IsRegular (Text.join op.spaced gs) := by
  have hclosed : isClosed (Text.join op.spaced gs) = true := by
    refine isClosed_join (by cases op <;> decide) fun g hg => ?_
    obtain ⟨f, hf, rfl⟩ := hgs g hg
    exact isClosed_guarded hf.isClosed
  have hblank := hasTop_blank_join op hgs hmany
  obtain ⟨f, rest, hf, hjoin⟩ := exists_join_eq op hgs hmany
  refine ⟨hclosed, ?_, ?_, ?_, fun h => not_hasTop_join op hgs h.1⟩
  · rw [hjoin]
    exact fun h => hf.guarded.ne_nil (List.append_eq_nil_iff.mp h).1
  · obtain ⟨c, cs, hcons⟩ := List.exists_cons_of_ne_nil hf.guarded.ne_nil
    have hstar := hf.guarded.head_ne
    rw [hcons] at hstar
    rwa [hjoin, hcons]
  · intro heq
    rw [heq] at hblank
    exact not_hasTop_not (t := "*") rfl rfl hblank

/-- No fragment has the shape of several texts side by side. -/
theorem not_isLeaf_join (hmany : 1 < gs.length) :
    ¬IsLeaf (Text.join op.spaced gs) := by
  have hsign := not_hasTop_join op hgs
  have hblank := hasTop_blank_join op hgs hmany
  obtain ⟨f, rest, hf, hjoin⟩ := exists_join_eq op hgs hmany
  have hcut := (@isSolid_guarded op _ hf.isClosed).cutTop_spaced_append rest
  rw [← hjoin] at hcut
  intro h
  -- only two shapes have a blank outside and no comparison, and what stands
  -- before their `and` is `not(*)`
  have hstart : ∀ behind : Text,
      cutTop .or {} ("not(*) and " ++ behind) = none →
      cutTop .and {} ("not(*) and " ++ behind) =
        some (("not(*)" : Text), behind) →
      Text.join op.spaced gs ≠ "not(*) and " ++ behind := by
    intro behind hor hand heq
    rw [heq] at hcut
    cases op with
    | or => exact absurd (hor.symm.trans hcut) (Option.some_ne_none _).symm
    | and =>
      rw [hand, Option.some.injEq, Prod.mk.injEq] at hcut
      exact hf.guarded.ne_not hcut.1.symm
  generalize Text.join op.spaced gs = t at h hsign hblank hstart
  cases h with
  | comparison htop => exact hsign htop
  | attr hname =>
    refine not_hasTop_of_not (fun c hc => ?_) hblank
    rcases List.mem_cons.mp hc with rfl | hc
    · rfl
    · exact beq_false_of_ne fun hblank =>
        not_mem_of_isPlain hname (c := ' ') (by decide) (hblank ▸ hc)
  | call hnone => exact hnone hblank
  | group hclosed => exact not_hasTop_parens rfl hclosed hblank
  | empty => exact hstart "not(string-length())" (by decide) (by decide) rfl
  | childless =>
    exact hstart "not(string-length(normalize-space()))" (by decide)
      (by decide) rfl

end Join

/-- A negation is no leaf. -/
theorem not_isLeaf_not {t : Text} (h : isClosed t = true) :
    ¬IsLeaf ("not(" ++ t ++ ")") := by
  have hhead : ("not(" ++ t ++ ")" : Text).head? = some 'n' := rfl
  have hsign := not_hasTop_not (p := isSign) rfl h
  have hblank := not_hasTop_not (p := (· == ' ')) rfl h
  intro hleaf
  generalize ("not(" ++ t ++ ")" : Text) = u at hleaf hhead hsign hblank
  cases hleaf with
  | comparison htop => exact hsign htop
  | attr => exact absurd (Option.some.inj hhead) (by decide)
  | call _ hcall =>
    rcases hcall with h | h <;> exact absurd (h.symm.trans hhead) (by decide)
  | group => exact absurd (Option.some.inj hhead) (by decide)
  | empty =>
    exact hblank ⟨"not(*)", ' ', "and not(string-length())", rfl, rfl, rfl⟩
  | childless =>
    exact hblank ⟨"not(*)", ' ', "and not(string-length(normalize-space()))",
      rfl, rfl, rfl⟩

/-- Something regular in parentheses is no leaf. -/
theorem not_isLeaf_parens {t : Text} (h : IsRegular t) :
    ¬IsLeaf ("(" ++ t ++ ")") := by
  have hhead : ("(" ++ t ++ ")" : Text).head? = some '(' := rfl
  have hsign := not_hasTop_parens (p := isSign) rfl h.isClosed
  intro hleaf
  generalize hu : ("(" ++ t ++ ")" : Text) = u at hleaf hhead hsign
  cases hleaf with
  | comparison htop => exact hsign htop
  | attr => exact absurd (Option.some.inj hhead) (by decide)
  | call _ hcall =>
    rcases hcall with h | h <;> exact absurd (h.symm.trans hhead) (by decide)
  | @group inner _ htop hfirst hlast =>
    have hinner : t = inner :=
      List.append_cancel_left (List.append_cancel_right hu)
    rw [← hinner] at htop hfirst hlast
    exact h.ends ⟨htop, hfirst, hlast⟩
  | empty => exact absurd hhead (by decide)
  | childless => exact absurd hhead (by decide)

/-- The shapes of all fragments: those of `:not` too. -/
def IsFragment (t : Text) : Prop :=
  IsLeaf t ∨ ∃ inner, isClosed inner = true ∧ t = "not(" ++ inner ++ ")"

/-- No fragment is taken for regular texts that were put together. -/
theorem isReadable_of_isRegular {atoms : Text → Bool}
    (hatoms : ∀ t, atoms t = true → IsFragment t) (op : Connective)
    {fs : List Text} (h : ∀ f ∈ fs, f ≠ [] → IsRegular f) :
    IsReadable atoms op fs := by
  have hatom : ∀ t, ¬IsFragment t → atoms t = false :=
    fun t ht => Bool.eq_false_iff.mpr fun hat => ht (hatoms t hat)
  refine ⟨fun f hf => ?_, fun f hf hparens => hatom _ ?_,
    fun gs hgs hmany => hatom _ ?_⟩
  · by_cases hne : f = []
    · rw [hne]
      rfl
    · exact (h f hf hne).isClosed
  · have hne : f ≠ [] := by
      rintro rfl
      exact absurd hparens (by decide)
    rintro (hleaf | ⟨inner, -, heq⟩)
    · exact not_isLeaf_parens (h f hf hne) hleaf
    · exact absurd (List.cons.inj heq).1 (by decide)
  · have hpieces : ArePieces gs := by
      intro g hg
      obtain ⟨f, hf, hne, rfl⟩ := hgs g hg
      exact ⟨f, h f hf hne, rfl⟩
    rintro (hleaf | ⟨inner, hinner, heq⟩)
    · exact not_isLeaf_join op hpieces hmany hleaf
    · have hblank := hasTop_blank_join op hpieces hmany
      rw [heq] at hblank
      exact not_hasTop_not rfl hinner hblank

private theorem filter_of_isRegular {fs : List Text}
    (h : ∀ f ∈ fs, IsRegular f) : fs.filter (fun f => !f.isEmpty) = fs := by
  rw [List.filter_eq_self]
  intro f hf
  simpa using (h f hf).ne_nil

/-- Regular fragments are joined to a regular text. -/
theorem isRegular_flatten (op : Connective) {fs : List Text} (hne : fs ≠ [])
    (h : ∀ f ∈ fs, IsRegular f) :
    IsRegular (flatten op fs) := by
  unfold flatten
  simp only [filter_of_isRegular h]
  split
  · have hpieces : ArePieces (fs.map guarded).eraseDups := by
      intro g hg
      obtain ⟨f, hf, rfl⟩ := List.mem_map.mp (List.mem_eraseDups.mp hg)
      exact ⟨f, h f hf, rfl⟩
    obtain ⟨f, hf⟩ := List.exists_mem_of_ne_nil fs hne
    have hmem := List.mem_eraseDups.mpr (List.mem_map_of_mem (f := guarded) hf)
    generalize (fs.map guarded).eraseDups = gs at hpieces hmem
    cases gs with
    | nil => exact absurd hmem List.not_mem_nil
    | cons g others =>
      cases others with
      | nil =>
        -- all fragments are the same
        obtain ⟨f', hf', rfl⟩ := hpieces g List.mem_cons_self
        simpa [Text.join] using hf'.guarded
      | cons g' others => exact isRegular_join op hpieces (by simp)
  · rename_i hmany
    obtain ⟨f, rest, rfl⟩ := List.exists_cons_of_ne_nil hne
    rw [List.length_cons] at hmany
    have hone : [f].eraseDups = [f] := List.eraseDups_cons
    rw [List.length_eq_zero_iff.mp (show rest.length = 0 by omega), hone]
    simpa [Text.join] using h f List.mem_cons_self

/-! ## Fragments of streams -/

/-- The fragments of a token; none where it has no filters. -/
def fragments (t : Token) : List Text :=
  (filters t).toOption.getD []

/-- The fragments of a token are its filters where these can be made. -/
theorem fragments_of_filters {t : Token} {fs : List Text}
    (h : filters t = .ok fs) : fragments t = fs := by
  rw [fragments, h]
  rfl

/-- The predicate of a stream. -/
def predicate (stream : Stream) : Text :=
  flatten .and (stream.flatMap fragments)

private theorem streamFilters_eq_ok_iff {stream : Stream} {fs : List Text} :
    streamFilters stream = .ok fs ↔
      (∀ t ∈ stream, filters t = .ok (fragments t)) ∧
        fs = stream.flatMap fragments := by
  induction stream generalizing fs with
  | nil => simp [streamFilters, eq_comm]
  | cons token tokens ih =>
    rw [streamFilters, bind_eq_ok_iff, List.forall_mem_cons, List.flatMap_cons]
    constructor
    · rintro ⟨first, hfirst, h⟩
      obtain ⟨others, hothers, h⟩ := bind_eq_ok_iff.mp h
      obtain ⟨htokens, rfl⟩ := ih.mp hothers
      cases h
      rw [fragments_of_filters hfirst]
      exact ⟨⟨hfirst, htokens⟩, rfl⟩
    · rintro ⟨⟨hfirst, htokens⟩, rfl⟩
      exact ⟨_, hfirst, bind_eq_ok_iff.mpr ⟨_, ih.mpr ⟨htokens, rfl⟩, rfl⟩⟩

/-- The filters of streams can be made if those of all tokens can. -/
theorem streamsFilters_eq_ok_iff {streams : List Stream} {fs : List Text} :
    streamsFilters streams = .ok fs ↔
      (∀ stream ∈ streams, ∀ t ∈ stream, filters t = .ok (fragments t)) ∧
        fs = streams.map predicate := by
  induction streams generalizing fs with
  | nil => simp [streamsFilters, eq_comm]
  | cons stream streams ih =>
    rw [streamsFilters, bind_eq_ok_iff, List.forall_mem_cons, List.map_cons]
    constructor
    · rintro ⟨first, hfirst, h⟩
      obtain ⟨others, hothers, h⟩ := bind_eq_ok_iff.mp h
      obtain ⟨hstream, rfl⟩ := streamFilters_eq_ok_iff.mp hfirst
      obtain ⟨hstreams, rfl⟩ := ih.mp hothers
      cases h
      exact ⟨⟨hstream, hstreams⟩, rfl⟩
    · rintro ⟨⟨hstream, hstreams⟩, rfl⟩
      refine ⟨_, streamFilters_eq_ok_iff.mpr ⟨hstream, rfl⟩,
        bind_eq_ok_iff.mpr ⟨_, ih.mpr ⟨hstreams, rfl⟩, rfl⟩⟩

end XPath

/-! ## Meaning of tokens -/

open XPath (fragments)

/-- The truth of a token for given truth values of the fragments that are not
made by `:not`: all of its fragments are true, or, for `:not`, none of its
selectors has true tokens only. -/
def Token.truth (v : Text → Bool) : Token → Bool :=
  Token.fold (fun t => (fragments t).all v) fun alternatives =>
    !alternatives.any (·.all id)

/-- The fragments of a token, and of the tokens in it, that are not made by
`:not`. -/
def Token.leaves : Token → List Text :=
  Token.fold fragments fun alternatives => alternatives.flatMap List.flatten

/-- Whether names and texts of a token, and of the tokens in it, can stand in
its fragments, and `:not` has selectors, none of them empty. -/
def Token.isSound : Token → Bool :=
  Token.fold Token.isSoundAlone fun alternatives =>
    !alternatives.isEmpty && alternatives.all fun stream =>
      !stream.isEmpty && stream.all id

section Not

variable {t : Token} {streams : List Stream} (h : t.pseudo? = some .not)
  (hargument : t.argument = some (.selectors streams))

include h hargument

/-- A negation is true if none of its streams is. -/
theorem Token.truth_not (v : Text → Bool) :
    t.truth v = !streams.any fun stream => stream.all (Token.truth v) := by
  unfold Token.truth
  rw [Token.fold_not _ _ h hargument]
  simp [List.any_map, List.all_map, Function.comp_def]

private theorem Token.mem_leaves_not {l : Text} :
    l ∈ t.leaves ↔ ∃ stream ∈ streams, ∃ inner ∈ stream, l ∈ inner.leaves := by
  unfold Token.leaves
  rw [Token.fold_not _ _ h hargument]
  simp only [List.flatMap_map, ← List.flatMap_def, List.mem_flatMap]

private theorem Token.isSound_not :
    t.isSound = true ↔ streams ≠ [] ∧ ∀ stream ∈ streams, stream ≠ [] ∧
      ∀ inner ∈ stream, inner.isSound = true := by
  unfold Token.isSound
  rw [Token.fold_not _ _ h hargument]
  simp

end Not

/-- Without selectors `:not` is not sound. -/
theorem Token.exists_selectors_of_isSound {t : Token}
    (h : t.pseudo? = some .not) (hsound : t.isSound = true) :
    ∃ streams, t.argument = some (.selectors streams) := by
  obtain ⟨kind, name, value, test, argument⟩ := t
  rw [Token.isSound, Token.fold, if_pos h] at hsound
  cases argument with
  | none => exact absurd hsound (by decide)
  | some argument =>
    cases argument with
    | text a =>
      exact absurd hsound (by rw [foldArgument?, foldArgument]; decide)
    | selectors streams => exact ⟨streams, rfl⟩

namespace XPath

/-- The leaves of a sound token are leaves. -/
theorem isLeaf_of_mem_leaves {t : Token} (hsound : t.isSound = true) :
    ∀ l ∈ t.leaves, IsLeaf l := by
  induction t using Token.negation_induction with
  | own t hnot =>
    rw [Token.isSound, Token.fold_own _ _ hnot] at hsound
    rw [Token.leaves, Token.fold_own _ _ hnot]
    intro l hl
    cases hfilters : filters t with
    | error e =>
      exact absurd hl (by rw [fragments, hfilters]; exact List.not_mem_nil)
    | ok fs =>
      obtain ⟨es, -, rfl, hes⟩ := exists_ownTests hnot hsound hfilters
      rw [fragments_of_filters hfilters] at hl
      obtain ⟨e, he, rfl⟩ := List.mem_map.mp hl
      exact (hes e he).isLeaf
  | negation t hnot ih =>
    obtain ⟨streams, hargument⟩ := Token.exists_selectors_of_isSound hnot hsound
    have hinner := ((Token.isSound_not hnot hargument).mp hsound).2
    intro l hl
    obtain ⟨stream, hstream, inner, hmem, hl⟩ :=
      (Token.mem_leaves_not hnot hargument).mp hl
    exact ih streams hargument stream hstream inner hmem
      ((hinner stream hstream).2 inner hmem) l hl

/-- The fragments of a token, put together with others or not, are read back as
the token means them. -/
structure IsReadBack (atoms v : Text → Bool) (t : Token) : Prop where
  ne_nil : fragments t ≠ []
  isRegular : ∀ f ∈ fragments t, IsRegular f
  isFragment : ∀ f ∈ fragments t, IsFragment f
  truth : (fragments t).all (truth atoms v) = t.truth v

section Reading

variable {atoms v : Text → Bool} (hatoms : ∀ t, atoms t = true → IsLeaf t)

include hatoms

private theorem truth_flatten_of_isRegular (op : Connective) {fs : List Text}
    (hne : fs ≠ []) (h : ∀ f ∈ fs, IsRegular f) :
    truth atoms v (flatten op fs) = op.join (fs.map (truth atoms v)) := by
  have hread := isReadable_of_isRegular (fun t ht => .inl (hatoms t ht)) op
    fun f hf _ => h f hf
  rw [truth_flatten hread (by rwa [filter_of_isRegular h]),
    filter_of_isRegular h]

private theorem truth_predicate {stream : Stream} (hne : stream ≠ [])
    (h : ∀ t ∈ stream, IsReadBack atoms v t) :
    IsRegular (predicate stream) ∧ truth atoms v (predicate stream) =
      stream.all (Token.truth v) := by
  have hregular : ∀ f ∈ stream.flatMap fragments, IsRegular f := by
    intro f hf
    obtain ⟨t, ht, hf⟩ := List.mem_flatMap.mp hf
    exact (h t ht).isRegular f hf
  have hfragments : stream.flatMap fragments ≠ [] := by
    obtain ⟨t, rest, rfl⟩ := List.exists_cons_of_ne_nil hne
    rw [List.flatMap_cons]
    exact fun hnil => (h t List.mem_cons_self).ne_nil
      (List.append_eq_nil_iff.mp hnil).1
  refine ⟨isRegular_flatten .and hfragments hregular, ?_⟩
  rw [predicate, truth_flatten_of_isRegular hatoms .and hfragments hregular]
  show ((stream.flatMap fragments).map (truth atoms v)).all id = _
  rw [List.all_map, Function.id_comp, List.all_flatMap, Bool.eq_iff_iff,
    List.all_eq_true, List.all_eq_true]
  exact forall₂_congr fun t ht => by rw [(h t ht).truth]

private theorem truth_predicates (op : Connective) {streams : List Stream}
    (hne : streams ≠ [])
    (h : ∀ stream ∈ streams, stream ≠ [] ∧ ∀ t ∈ stream, IsReadBack atoms v t) :
    IsRegular (flatten op (streams.map predicate)) ∧
      truth atoms v (flatten op (streams.map predicate)) =
        op.join (streams.map fun stream => stream.all (Token.truth v)) := by
  have hread : ∀ stream ∈ streams,
      IsRegular (predicate stream) ∧ truth atoms v (predicate stream) =
        stream.all (Token.truth v) :=
    fun stream hstream =>
      truth_predicate hatoms (h stream hstream).1 (h stream hstream).2
  have hregular : ∀ f ∈ streams.map predicate, IsRegular f :=
    List.forall_mem_map.mpr fun stream hstream => (hread stream hstream).1
  have hpredicates : streams.map predicate ≠ [] := by simpa using hne
  refine ⟨isRegular_flatten op hpredicates hregular, ?_⟩
  rw [truth_flatten_of_isRegular hatoms op hpredicates hregular, List.map_map]
  exact congrArg op.join (List.map_congr_left fun stream hstream =>
    (hread stream hstream).2)

/-- A sound token is read back with the truth that it has. -/
theorem isReadBack_of_isSound {t : Token} (hsound : t.isSound = true)
    (hleaves : ∀ l ∈ t.leaves, atoms l = true)
    (h : filters t = .ok (fragments t)) : IsReadBack atoms v t := by
  induction t using Token.negation_induction with
  | own t hnot =>
    rw [Token.isSound, Token.fold_own _ _ hnot] at hsound
    rw [Token.leaves, Token.fold_own _ _ hnot] at hleaves
    obtain ⟨es, hne, hes, hown⟩ := exists_ownTests hnot hsound h
    have hregular : ∀ f ∈ fragments t, IsRegular f := by
      rw [hes]
      exact List.forall_mem_map.mpr fun e he =>
        (hown e he).isLeaf.isRegular (isClosed_render e (hown e he).isSealed.1)
    have hfragment : ∀ f ∈ fragments t, IsFragment f := by
      rw [hes]
      exact List.forall_mem_map.mpr fun e he => .inl (hown e he).isLeaf
    refine ⟨by simpa [hes] using hne, hregular, hfragment, ?_⟩
    rw [Token.truth, Token.fold_own _ _ hnot, Bool.eq_iff_iff, List.all_eq_true,
      List.all_eq_true]
    exact forall₂_congr fun f hf => by
      rw [truth_of_atom (hregular f hf).ne_nil (hleaves f hf)]
  | negation t hnot ih =>
    obtain ⟨streams, alternatives, hstreams, halternatives, hfragments⟩ :=
      filters_eq_ok_of_not hnot h
    have hargument := argumentStreams_eq_ok hstreams
    obtain ⟨hne, hsound⟩ := (Token.isSound_not hnot hargument).mp hsound
    obtain ⟨hfilters, rfl⟩ := streamsFilters_eq_ok_iff.mp halternatives
    obtain ⟨hregular, htruth⟩ :=
      truth_predicates (v := v) hatoms .or hne fun stream hstream =>
      ⟨(hsound stream hstream).1, fun inner hinner =>
        ih streams hargument stream hstream inner hinner
          ((hsound stream hstream).2 inner hinner) (fun l hl => hleaves l
            ((Token.mem_leaves_not hnot hargument).mpr ⟨stream, hstream, inner,
            hinner, hl⟩))
          (hfilters stream hstream inner hinner)⟩
    have hatom : atoms ("not(" ++ flatten .or (streams.map predicate) ++ ")") =
        false :=
      Bool.eq_false_iff.mpr fun hat =>
        not_isLeaf_not hregular.isClosed (hatoms _ hat)
    refine ⟨by rw [hfragments]; exact List.cons_ne_nil _ _, ?_, ?_, ?_⟩
    · rw [hfragments]
      exact List.forall_mem_singleton.mpr hregular.not
    · rw [hfragments]
      exact List.forall_mem_singleton.mpr (.inr ⟨_, hregular.isClosed, rfl⟩)
    · rw [hfragments, List.all_cons, List.all_nil, Bool.and_true,
        truth_not hregular.isClosed hatom, htruth,
        Token.truth_not hnot hargument, Connective.join, List.any_map,
        Function.id_comp]

end Reading

/-- What a nested predicate means. Read with the precedence of XPath, it says
that in the streams, joined by `op`, all tokens are true, whatever the fragments
that are not made by `:not` say. -/
theorem truth_streamsExpression (op : Connective) {streams : List Stream}
    (hne : streams ≠ [])
    (hsound : ∀ stream ∈ streams, stream ≠ [] ∧ ∀ t ∈ stream, t.isSound = true)
    {text : Text} (h : streamsExpression op streams = .ok text)
    (v : Text → Bool) :
    truth (fun t => (streams.flatMap fun stream =>
      stream.flatMap Token.leaves).contains t) v text =
      op.join (streams.map fun stream => stream.all (Token.truth v)) := by
  obtain ⟨predicates, hpredicates, h⟩ := bind_eq_ok_iff.mp h
  cases h
  obtain ⟨hfilters, rfl⟩ := streamsFilters_eq_ok_iff.mp hpredicates
  have hmem : ∀ l,
      (streams.flatMap fun stream =>
        stream.flatMap Token.leaves).contains l = true ↔
      ∃ stream ∈ streams, ∃ t ∈ stream, l ∈ t.leaves := by
    intro l
    simp only [List.contains_iff_mem, List.mem_flatMap]
  have hatoms : ∀ l,
      (streams.flatMap fun stream =>
        stream.flatMap Token.leaves).contains l = true → IsLeaf l := by
    intro l hl
    obtain ⟨stream, hstream, t, ht, hl⟩ := (hmem l).mp hl
    exact isLeaf_of_mem_leaves ((hsound stream hstream).2 t ht) l hl
  refine (truth_predicates hatoms op hne fun stream hstream =>
    ⟨(hsound stream hstream).1, fun t ht => ?_⟩).2
  exact isReadBack_of_isSound hatoms ((hsound stream hstream).2 t ht)
    (fun l hl => (hmem l).mpr ⟨stream, hstream, t, ht, hl⟩)
      (hfilters stream hstream t ht)

/-- `:not(:empty)`. -/
def notEmpty : Token :=
  .pseudoClass "not" (some (.selectors [[.pseudoClass "empty" none]]))

/-- `:not([rel], :not(:empty))`. -/
def neitherRelNorNotEmpty : Token :=
  .pseudoClass "not"
    (some (.selectors [[.attr "rel" .present none], [notEmpty]]))

/-- The streams of `[lang!=en]:not([rel], :not(:empty))` and of `[rel]`. -/
def nestedNegation : List Stream :=
  [[.attr "lang" .differs (some "en"), neitherRelNorNotEmpty],
    [.attr "rel" .present none]]

private theorem filters_nestedNegation :
    filters (.attr "lang" .differs (some "en")) =
      .ok ["not(@lang) or @lang != 'en'"] ∧
      filters (.attr "rel" .present none) = .ok ["@rel"] ∧
      filters (.pseudoClass "empty" none) =
        .ok ["not(*) and not(string-length())"] := by
  refine ⟨?_, ?_, ?_⟩
  · rw [filters]
    rfl
  · rw [filters]
    rfl
  · rw [filters]
    rfl

private theorem streamsExpression_nestedNegation :
    streamsExpression .or nestedNegation = .ok
      ("((not(@lang) or @lang != 'en') and (not(@rel or (not(not(*) and not(string-length())))))) or @rel" : Text) := by
  obtain ⟨hlang, hrel, hempty⟩ := filters_nestedNegation
  have hinner : filters notEmpty =
      .ok ["not(not(*) and not(string-length()))"] := by
    rw [filters_not rfl]
    show (streamsFilters _ >>= _) = _
    rw [streamsFilters, streamFilters, hempty, streamFilters, streamsFilters]
    rfl
  have houter : filters neitherRelNorNotEmpty =
      .ok ["not(@rel or (not(not(*) and not(string-length()))))"] := by
    rw [filters_not rfl]
    show (streamsFilters _ >>= _) = _
    rw [streamsFilters, streamFilters, hrel, streamFilters, streamsFilters,
      streamFilters, hinner, streamFilters, streamsFilters]
    rfl
  rw [streamsExpression, nestedNegation, streamsFilters, streamFilters, hlang,
    streamFilters, houter, streamFilters, streamsFilters, streamFilters, hrel,
    streamFilters, streamsFilters]
  rfl

/-- The predicate of a negation inside of a negation, beside another
alternative. -/
theorem truth_nestedNegation :
    streamsExpression .or nestedNegation = .ok
      ("((not(@lang) or @lang != 'en') and (not(@rel or (not(not(*) and not(string-length())))))) or @rel" : Text) ∧
      ∀ v,
        truth (fun t => (nestedNegation.flatMap fun stream =>
            stream.flatMap Token.leaves).contains t) v
          "((not(@lang) or @lang != 'en') and (not(@rel or (not(not(*) and not(string-length())))))) or @rel" =
        (v "not(@lang) or @lang != 'en'" &&
          !(v "@rel" || !v "not(*) and not(string-length())") || v "@rel") := by
  refine ⟨streamsExpression_nestedNegation, fun v => ?_⟩
  have hown : ∀ {t : Token} {f : Text}, t.pseudo? ≠ some .not →
      filters t = .ok [f] → t.truth v = v f := by
    intro t f hnot h
    rw [Token.truth, Token.fold_own _ _ hnot, fragments_of_filters h,
      List.all_cons, List.all_nil, Bool.and_true]
  obtain ⟨hlang, hrel, hempty⟩ := filters_nestedNegation
  have hlang := hown (by decide) hlang
  have hrel := hown (by decide) hrel
  have hempty := hown (by decide) hempty
  have hinner : notEmpty.truth v = !v "not(*) and not(string-length())" := by
    rw [Token.truth_not (t := notEmpty) rfl rfl, List.any_cons, List.any_nil,
      List.all_cons, List.all_nil, hempty, Bool.and_true, Bool.or_false]
  have houter : neitherRelNorNotEmpty.truth v =
      !(v "@rel" || !v "not(*) and not(string-length())") := by
    rw [Token.truth_not (t := neitherRelNorNotEmpty) rfl rfl, List.any_cons,
      List.any_cons, List.any_nil, List.all_cons, List.all_nil, List.all_cons,
      List.all_nil, hrel, hinner, Bool.and_true, Bool.and_true,
      Bool.or_false]
  rw [truth_streamsExpression .or (by decide) (by decide)
    streamsExpression_nestedNegation v]
  show ((Token.truth v _ && (Token.truth v _ && true)) ||
      (Token.truth v _ && true || false)) = _
  rw [hlang, houter, hrel, Bool.and_true, Bool.and_true, Bool.or_false]

end XPath

end SelectorPath
