import SelectorPath.Selector.Parser
import SelectorPath.XPath.Letters
import SelectorPath.XPath.Position
import SelectorPath.XPath.Predicate

/-!
# Filters

A token other than a combinator is a condition on an element; `filters` gives it
as fragments of an XPath predicate, all of which must hold. The filters of
`:not` hold those of its selectors, and `:any` reads its argument as a selector
again, so the functions of this module call each other. They end because every
call lowers the weight of what is compiled.

## Main results

* `argumentText_length`: the argument of a token is shorter than the token
  weighs.
-/

namespace SelectorPath.XPath

/-! ## Elements and attributes -/

/-- The condition on the name of an element, without regard to letter case. -/
def tagFilter (name : Text) : Expr :=
  let letters := Letters.ofText name
  .binary .equal (.translate .elementName (.single letters.lower)
    (.single letters.upper)) (.single (Text.upper name))

/-- The conditions on an attribute. -/
def attributeFilters (name : Text) (value : Text) : AttributeTest → List Expr
  | .present => [.attr name]
  | .hasWord =>
    [.attr name,
      .contains (.concat (.single " ") (.normalizeSpace (.attr name))
        (.single " ")) (.single (" " ++ value ++ " "))]
  | .contains => [.attr name, .contains (.attr name) (.single value)]
  | .startsWith => [.attr name, .startsWith (.attr name) (.single value)]
  | .endsWith => [.attr name, (Expr.attr name).endsWith '\'' value]
  | .hyphenated =>
    [.attr name,
      .group (.binary .or (.binary .equal (.attr name) (.single value))
        (.startsWith (.attr name) (.single (value ++ "-"))))]
  | .differs =>
    [.binary .or (.not (.attr name))
    (.binary .unequal (.attr name) (.single value))]
  | .equals => [.binary .equal (.attr name) (.single value)]

/-! ## Text -/

/-- The quote and the body of the text that is looked for: quotes around it are
kept as the quotes of the literal, and white space is collapsed. -/
def searchLiteral (search : Text) : Char × Text :=
  match search with
  | [] => ('"', [])
  | q :: rest =>
    if (q = '\'' ∨ q = '"') ∧
      rest.getLast? = some q then (q, Text.collapse rest.dropLast)
    else ('"', Text.collapse search)

/-- The condition on the text of an element. Without regard to letter case the
letters of `search` are folded in the element's text, and `search` itself is
written in small letters. -/
def textFilter (relation : TextRelation) (caseSensitive : Bool)
    (search : Text) : Expr :=
  let letters := Letters.ofText search
  let own : Expr :=
    if caseSensitive || letters.lower.isEmpty then .ownText
    else .translate .ownText (.single letters.upper) (.single letters.lower)
  let (quote, body) :=
    searchLiteral (if caseSensitive then search else Text.lower search)
  match relation with
  | .equals => .binary .equal own (.literal quote body)
  | .contains => .contains own (.literal quote body)
  | .startsWith => .startsWith own (.literal quote body)
  | .endsWith => own.endsWith quote body

/-! ## Tokens -/

/-- The text argument that a pseudo-class needs, trimmed. -/
def argumentText (t : Token) : Except SelectorError Text :=
  match t.argumentText? with
  | none => .error (.missingArgument t.label)
  | some a =>
    if (Text.trim a).isEmpty then .error (.missingArgument t.label)
    else .ok (Text.trim a)

/-- The selector argument that a pseudo-class needs. -/
def argumentStreams (t : Token) : Except SelectorError (List Stream) :=
  match t.argument with
  | some (.selectors streams) => .ok streams
  | _ => .error (.missingArgument t.label)

/-- The argument of a text test is shorter than its token is heavy. -/
theorem argumentText_length {t : Token} {a : Text}
    (h : argumentText t = .ok a) :
    a.length < t.weight := by
  unfold argumentText Token.argumentText? at h
  rw [Token.weight_eq]
  cases harg : t.argument with
  | none => simp [harg] at h
  | some arg =>
    cases arg with
    | selectors streams => simp [harg] at h
    | text b =>
      have htrim := Text.length_trimBy_le Text.isBlank b
      simp only [harg] at h
      split at h
      · simp at h
      · simp only [Except.ok.injEq] at h
        subst h
        simp only [weightArgument?, weightArgument, Text.trim]
        omega

/-- The streams in a token weigh less than the token. -/
theorem argumentStreams_weight {t : Token} {streams : List Stream}
    (h : argumentStreams t = .ok streams) : weightAll streams < t.weight := by
  unfold argumentStreams at h
  rw [Token.weight_eq]
  split at h
  · rename_i streams' harg
    simp only [Except.ok.injEq] at h
    subst h
    simp only [harg, weightArgument?, weightArgument]
    omega
  · simp at h

/-- Whether a token is a condition on an element. -/
def isCondition (t : Token) : Bool :=
  match t.kind with
  | .tag | .attr | .pseudoClass => true
  | _ => false

mutual

/-- The fragments that must all hold for a token to match an element. -/
def filters (t : Token) : Except SelectorError (List Text) :=
  match t.kind with
  | .tag => .ok [(tagFilter t.label).render]
  | .attr =>
    match t.test with
    | some test =>
      .ok ((attributeFilters t.label (t.value.getD []) test).map Expr.render)
    | none => .error (.missingTest t.label)
  | .pseudoClass =>
    match t.pseudo? with
    | none | some .root | some .comment => .error (.unsupportedPseudo t.label)
    | some .not =>
      match _h : argumentStreams t with
      | .error e => .error e
      | .ok streams => do
        let alternatives ← streamsFilters streams
        .ok ["not(" ++ flatten .or alternatives ++ ")"]
    | some .any =>
      match _h : argumentText t with
      | .error e => .error e
      | .ok a => do
        let predicate ← subExpression a
        .ok [predicate]
    | some .empty =>
      .ok [(Expr.binary .and (.not .children) (.not .ownLength)).render]
    | some .childless =>
      .ok [(Expr.binary .and (.not .children)
        (.not (.stringLength .ownText))).render]
    | some .firstChild | some .firstOfType =>
      .ok [(Expr.binary .equal .position (.number "1")).render]
    | some .lastChild | some .lastOfType =>
      .ok [(Expr.binary .equal .position .last).render]
    | some .onlyChild => .ok [(Expr.binary .equal .last (.number "1")).render]
    | some .nthChild | some .nthOfType => do
      let formula ← argumentText t
      let condition ← positionTest formula
      .ok [condition]
    | some (.text relation caseSensitive) => do
      let search ← argumentText t
      .ok [(textFilter relation caseSensitive search).render]
  | kind => .error (.unsupportedKind kind)
termination_by (t.weight, 0, 0)
decreasing_by
  · exact Prod.Lex.left _ _ (argumentStreams_weight _h)
  · exact Prod.Lex.left _ _ (argumentText_length _h)

/-- The filters of all tokens of a stream. -/
def streamFilters : List Token → Except SelectorError (List Text)
  | [] => .ok []
  | token :: tokens => do
    let first ← filters token
    let others ← streamFilters tokens
    .ok (first ++ others)
termination_by stream => (weightStream stream, 1, 0)
decreasing_by
  all_goals
    have hw := token.weight_eq
    simp only [weightStream, Prod.lex_def]
    omega

/-- One predicate for each stream. -/
def streamsFilters : List (List Token) → Except SelectorError (List Text)
  | [] => .ok []
  | stream :: streams => do
    let first ← streamFilters stream
    let others ← streamsFilters streams
    .ok (flatten .and first :: others)
termination_by streams => (weightAll streams, 2, streams.length)
decreasing_by
  · simp only [weightAll, Prod.lex_def]
    omega
  · simp only [weightAll, Prod.lex_def, List.length_cons, true_and]
    omega

/-- The predicate of a selector list: the conditions of an alternative must all
hold, for at least one alternative. Combinators and node tests that name no
element say nothing. -/
def subExpression (selector : Text) : Except SelectorError Text :=
  match _h : Selector.parse selector with
  | .error e => .error (.malformed e)
  | .ok streams => do
    let alternatives ← streamsFilters
      ((unaliasAll streams).map (List.filter isCondition))
    .ok (flatten .or alternatives)
termination_by (selector.length, 3, 0)
decreasing_by
  have hparse := Selector.parse_weight _h
  have hfilter := weightAll_map_filter_le isCondition (unaliasAll streams)
  rw [weightAll_unaliasAll] at hfilter
  simp only [Prod.lex_def]
  omega

end

/-- The predicate of streams that are joined by a connective. -/
def streamsExpression (op : Connective) (streams : List Stream) :
    Except SelectorError Text := do
  let predicates ← streamsFilters streams
  .ok (flatten op predicates)

end SelectorPath.XPath
