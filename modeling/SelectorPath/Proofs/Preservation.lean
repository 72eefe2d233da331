import SelectorPath.Proofs.CoreSelector
import SelectorPath.Proofs.Selection

/-!
# Paths of core selectors

The path of a core selector reaches the elements that the selector matches. A
compound becomes one step, whose tests say what the compound asks for
(`Compound.tests`); behind each combinator the step leads from the nodes that
the combinator may come from. The path then follows the selector from left to
right.

Two facts about the tests carry the proof. A position counts among all children,
because a step with a position has the node test `*` (`Compound.nodeName`). And
`+` compares names without regard to case, which in a document without capitals
is equality.

## Main results

* `extension_compound`: the step that a compound is written as.
* `mem_select_compound`: the nodes it leads to.
* `select_locationPath`: the nodes of the path of a core selector.
-/

namespace SelectorPath.Core

open SelectorPath.XPath

/-! ## Tests of a compound -/

/-- The expression of a position. -/
def Position.expr : Position → Expr
  | first => isFirst
  | last => isLast
  | only => isOnly

/-- The expression of a condition. -/
def Condition.expr : Condition → Expr
  | present name => .attr name.text
  | equals name value => .binary .equal (.attr name.text) (.single value.text)
  | position p => p.expr

/-- The tests of conditions behind a type selector of the given name, if there
is one. -/
def conditionTests (name : Option Text) (conditions : List Condition) :
    List Expr :=
  conditions.flatMap fun x =>
    (if x.isPosition then (name.map nameIs).toList else []) ++ [x.expr]

/-- A condition is made into its expression. -/
theorem filters_token (x : Condition) :
    filters x.token = .ok [x.expr.render] := by
  rw [filters]
  cases x with
  | present name => rfl
  | equals name value => rfl
  | position p => cases p <;> rfl

theorem conditional_token (context : Option Text) (x : Condition) :
    conditional context x.token = true := by
  cases x with
  | present name => rfl
  | equals name value => rfl
  | position p => cases p <;> rfl

private theorem isChildPosition_token (x : Condition) :
    x.token.pseudo?.any PseudoClass.isChildPosition = x.isPosition := by
  cases x with
  | present name => rfl
  | equals name value => rfl
  | position p => cases p <;> rfl

private theorem compoundTests_tokens (name : Option Text)
    (conditions : List Condition) :
    compoundTests name (conditions.map Condition.token) =
      .ok ((conditionTests name conditions).map Expr.render) := by
  induction conditions with
  | nil => rfl
  | cons x rest ih =>
    rw [List.map_cons, compoundTests, filters_token, ih]
    cases name with
    | none => simp [bind, Except.bind, conditionTests]
    | some name =>
      cases hx : x.isPosition with
      | false =>
        simp [bind, Except.bind, conditionTests, isChildPosition_token, hx]
      | true =>
        simp [bind, Except.bind, conditionTests, isChildPosition_token, hx]
        rfl

private theorem positionTests_tokens (conditions : List Condition) :
    positionTests (conditions.map Condition.token) = 0 ↔
      conditions.all (fun x => !x.isPosition) = true := by
  induction conditions with
  | nil => simp [positionTests]
  | cons x rest ih =>
    have hbegins := beginsStep_conditional (conditional_token none x)
    rw [List.map_cons, positionTests, hbegins, isChildPosition_token]
    cases hx : x.isPosition <;> simp [hx, ih]

theorem isFragment_expr (x : Condition) : x.expr.isFragment = true := by
  cases x with
  | present name =>
    have hquote : '\'' ∉ ([] : Text) := List.not_mem_nil
    have hfilters := isFragment_attributeFilters .present name.isName hquote
    exact hfilters _ (List.mem_singleton.mpr rfl)
  | equals name value =>
    have hfilters :=
      isFragment_attributeFilters .equals name.isName value.quoteless
    exact hfilters _ (List.mem_singleton.mpr rfl)
  | position p =>
    obtain ⟨hfirst, hlast, honly⟩ := isFragment_position
    cases p with
    | first => exact hfirst
    | last => exact hlast
    | only => exact honly

private theorem isFragment_conditionTests {name : Option Text}
    (hname : name.all XPath.isName = true) (conditions : List Condition) :
    ∀ t ∈ conditionTests name conditions, t.isFragment = true := by
  intro t ht
  simp only [conditionTests, List.mem_flatMap, List.mem_append,
    List.mem_singleton] at ht
  obtain ⟨x, -, hname' | rfl⟩ := ht
  · cases name with
    | none => simp at hname'
    | some name =>
      have ht : t = nameIs name := by
        cases hx : x.isPosition <;> simp [hx] at hname'
        exact hname'
      rw [ht]
      exact isFragment_nameIs hname
  · exact isFragment_expr x

/-! ## Steps of a compound -/

/-- The name of the type selector of a compound. -/
def Compound.name? (c : Compound) : Option Text :=
  match c.lead with
  | .tag name => some name.text
  | _ => none

/-- The name in the node test of the step of a compound: none where a position
counts among all children, and none behind `+`. -/
def Compound.nodeName (c : Compound) (k : Combinator) : Option Text :=
  match k with
  | .adjacent => none
  | .sibling => c.name?
  | .descendant | .child => if c.isPositionless then c.name? else none

/-- The tests of the step of a compound. -/
def Compound.tests (c : Compound) (k : Combinator) : List Expr :=
  match k with
  | .adjacent =>
    (c.name?.map tagFilter).toList ++ isFirst ::
      conditionTests c.name? c.conditions
  | _ => conditionTests c.name? c.conditions

/-- How the step of a compound is tied to the one in front of it. -/
def link : Combinator → Link
  | .descendant => .descendant
  | .child => .child
  | .sibling | .adjacent => .sibling

private theorem Compound.isName_name? (c : Compound) :
    c.name?.all XPath.isName = true := by
  unfold Compound.name?
  split
  · rename_i name _
    exact name.isName
  · rfl

private theorem isName_nodeName (c : Compound) (k : Combinator) :
    (c.nodeName k).all XPath.isName = true := by
  have hname := c.isName_name?
  cases k with
  | adjacent => rfl
  | sibling => exact hname
  | _ =>
    by_cases hpos : c.isPositionless = true <;>
      simp [Compound.nodeName, hpos, hname]

theorem isFragment_tests (c : Compound) (k : Combinator) :
    ∀ t ∈ c.tests k, t.isFragment = true := by
  have hconditions := isFragment_conditionTests c.isName_name? c.conditions
  cases k with
  | adjacent =>
    intro t ht
    simp only [Compound.tests, List.mem_append, List.mem_cons] at ht
    rcases ht with htag | rfl | ht
    · cases hname : c.name? with
      | none => simp [hname] at htag
      | some name =>
        have ht : t = tagFilter name := by simpa [hname] using htag
        have hisName := c.isName_name?
        rw [hname] at hisName
        rw [ht]
        exact isFragment_tagFilter hisName
    · exact isFragment_position.1
    · exact hconditions t ht
  | _ => exact hconditions

/-- The tests that a compound begins with are those behind a combinator. -/
theorem tests_render (c : Compound) (k : Combinator) :
    leadTests k c.name? ++ (conditionTests c.name? c.conditions).map
      Expr.render =
      (c.tests k).map Expr.render := by
  cases k with
  | adjacent =>
    have hfirst : firstTest = isFirst.render := rfl
    cases hname : c.name? <;> simp [leadTests, Compound.tests, hfirst, hname]
  | _ => rfl

/-- The node test of a compound with a type selector, as it is written. -/
theorem text_tag {c : Compound} {name : Identifier} (hlead : c.lead = .tag name)
    (k : Combinator) (hpos : k.isSibling = true → c.isPositionless = true) :
    axisText k ++ (widenedBy name.text
      (positionTests (c.conditions.map Condition.token))
        (leadPiece k (some name.text))).render =
      (link k).text ++ elementTest (c.nodeName k) := by
  have hname : c.name? = some name.text := by
    rw [Compound.name?, hlead]
  have hzero : c.isPositionless = true ↔
      positionTests (c.conditions.map Condition.token) = 0 :=
        (positionTests_tokens _).symm
  -- A step down the tree loses its name to the predicate exactly where a
  -- position counts.
  have hdown : (widenedBy name.text
      (positionTests (c.conditions.map Condition.token))
      (.test name.text)).render =
        elementTest (if c.isPositionless then some name.text else none) := by
    rw [widenedBy_test]
    by_cases hp : c.isPositionless = true
    · rw [if_pos (hzero.mp hp), if_pos hp]
      rfl
    · rw [if_neg fun h => hp (hzero.mpr h), if_neg hp]
      rfl
  cases k with
  | descendant =>
    show axisText .descendant ++ (widenedBy _ _ (.test name.text)).render = _
    rw [hdown, Compound.nodeName, hname]
    rfl
  | child =>
    show axisText .child ++ (widenedBy _ _ (.test name.text)).render = _
    rw [hdown, Compound.nodeName, hname]
    rfl
  | sibling =>
    rw [hzero.mp (hpos rfl), Compound.nodeName, hname]
    rfl
  | adjacent =>
    rw [hzero.mp (hpos rfl)]
    rfl

/-- The node test of a compound without a type selector, as it is written. -/
theorem text_untyped {c : Compound} (hname : c.name? = none) (k : Combinator) :
    axisText k ++ (leadPiece k none).render =
      (link k).text ++ elementTest (c.nodeName k) := by
  have hnode : c.nodeName k = none := by
    cases k <;> simp [Compound.nodeName, hname]
  rw [hnode]
  cases k <;> rfl

/-- The step of a compound, as it is written behind a combinator. -/
theorem extension_compound (c : Compound) (k : Combinator)
    (hpos : k.isSibling = true → c.isPositionless = true) {es : List Expr}
    (hes : Predicated (c.tests k) es) :
    extension k c.tokens = .ok ((link k).stepText (c.nodeName k) es) := by
  have hcond : ∀ context, ∀ t ∈ c.conditions.map Condition.token,
      conditional context t = true := by
    intro context t ht
    obtain ⟨x, -, rfl⟩ := List.mem_map.mp ht
    exact conditional_token context x
  have htests := compoundTests_tokens c.name? c.conditions
  rw [Link.stepText, hes.text, ← tests_render]
  cases hlead : c.lead with
  | tag name =>
    have hname : c.name? = some name.text := by
      rw [Compound.name?, hlead]
    rw [hname] at htests
    rw [Compound.tokens, hlead, ← text_tag hlead k hpos, hname]
    show extension k (.tag name.text :: c.conditions.map Condition.token) = _
    rw [extension_tag k name.text (hcond _), htests]
    simp only [Except.map, List.append_assoc]
  | universal =>
    have hname : c.name? = none := by
      rw [Compound.name?, hlead]
    rw [hname] at htests
    rw [Compound.tokens, hlead, ← text_untyped hname k, hname]
    show extension k (.universal :: c.conditions.map Condition.token) = _
    rw [extension_universal k (hcond _), htests]
    simp only [Except.map, List.append_assoc]
  | none =>
    have hname : c.name? = none := by
      rw [Compound.name?, hlead]
    have hne : c.conditions.map Condition.token ≠ [] := by
      have hconditions := c.nonempty
      simpa [hlead, Lead.isNone] using hconditions
    rw [hname] at htests
    rw [Compound.tokens, hlead, ← text_untyped hname k, hname]
    show extension k (c.conditions.map Condition.token) = _
    rw [extension_conditions k hne (hcond _), htests]
    simp only [Except.map, List.append_assoc]

/-! ## Nodes of a compound -/

/-- Whether the names of all elements of a document are without capitals. -/
def HasSmallNames (doc : Document) : Prop :=
  ∀ n e, doc.find? n = some e → e.name.isSmall = true

private theorem hasSmallNames_iff {doc : Document} :
    HasSmallNames doc ↔ ∀ n ∈ doc.nodes, ∀ e ∈ doc.find? n,
      e.name.isSmall = true := by
  constructor
  · intro h n _ e he
    exact h n e he
  · intro h n e he
    exact h n (Document.mem_nodes_iff.mpr (by simp [he])) e he

instance (doc : Document) : Decidable (HasSmallNames doc) :=
  decidable_of_iff _ hasSmallNames_iff.symm

/-- The expression of a condition holds where the condition accepts. -/
theorem truth_expr {doc : Document} {n : Node} {e : Element}
    (he : doc.find? n = some e) (x : Condition) (index count : Nat) :
    x.expr.truth (context doc n (index + 1) count) =
      x.accepts e index count := by
  cases x with
  | present name =>
    rw [Condition.expr, truth_attr]
    simp [context, he, Condition.accepts]
  | equals name value =>
    rw [Condition.expr, truth_attr_equals]
    simp [context, he, Condition.accepts]
  | position p =>
    cases p with
    | first =>
      show isFirst.truth _ = _
      rw [truth_isFirst]
      simp [context, Condition.accepts]
    | last =>
      show isLast.truth _ = _
      rw [truth_isLast]
      rfl
    | only =>
      show isOnly.truth _ = _
      rw [truth_isOnly]
      rfl

/-- The tests of conditions are true where the conditions hold, and where the
element has the name that a position asks for. -/
theorem forall_conditionTests {doc : Document} {n : Node} {e : Element}
    (he : doc.find? n = some e) (name : Option Text)
    (conditions : List Condition) (index count : Nat) :
    (∀ t ∈ conditionTests name conditions,
      t.truth (context doc n (index + 1) count) = true) ↔
      conditions.all (Condition.accepts e index count) = true ∧
        (conditions.any Condition.isPosition = true →
          ∀ t ∈ name, e.name = t) := by
  have hname : (context doc n (index + 1) count).name = e.name := by
    simp [context, he]
  induction conditions with
  | nil => simp [conditionTests]
  | cons x rest ih =>
    have hcons : conditionTests name (x :: rest) =
        (if x.isPosition then (name.map nameIs).toList else []) ++
          x.expr :: conditionTests name rest := by
      simp [conditionTests]
    simp only [hcons, List.forall_mem_append, List.forall_mem_cons, ih,
      truth_expr he, List.all_cons, List.any_cons, Bool.and_eq_true,
      Bool.or_eq_true]
    cases hx : x.isPosition with
    | false => simp [and_assoc]
    | true =>
      cases name with
      | none => simp
      | some name =>
        simp only [if_true, Option.map_some, Option.toList_some,
          List.mem_singleton, forall_eq, truth_nameIs, hname, beq_iff_eq,
          Option.mem_some_iff, forall_eq', true_or, true_imp_iff]
        constructor
        · rintro ⟨heq, hfirst, hrest, -⟩
          exact ⟨⟨hfirst, hrest⟩, heq⟩
        · rintro ⟨⟨hfirst, hrest⟩, heq⟩
          exact ⟨heq, hfirst, hrest, fun _ => heq⟩

private theorem isLocal_conditionTests {conditions : List Condition}
    (name : Option Text) (h : conditions.all (fun x => !x.isPosition) = true) :
    ∀ t ∈ conditionTests name conditions, t.isLocal = true := by
  intro t ht
  simp only [conditionTests, List.mem_flatMap, List.mem_append,
    List.mem_singleton] at ht
  obtain ⟨x, hx, ht⟩ := ht
  have hposition : x.isPosition = false := by
    have hall := List.all_eq_true.mp h x hx
    simpa using hall
  simp only [hposition, Bool.false_eq_true, if_false, List.not_mem_nil,
    false_or] at ht
  subst ht
  cases x with
  | present name => rfl
  | equals name value => rfl
  | position p => simp [Condition.isPosition] at hposition

/-- What it takes for a compound to accept a node. -/
theorem Compound.accepts_iff {doc : Document} {c : Compound} {i : Nat}
    {parent : Node} :
    c.accepts doc (i :: parent) = true ↔
      ∃ e, doc.find? (i :: parent) = some e ∧ (∀ t ∈ c.name?, e.name = t) ∧
        c.conditions.all (Condition.accepts e i (doc.childCount parent)) =
          true := by
  have hlead : ∀ e, c.lead.accepts e = true ↔ ∀ t ∈ c.name?, e.name = t := by
    intro e
    unfold Compound.name?
    cases c.lead <;> simp [Lead.accepts]
  rw [Compound.accepts, Option.any_eq_true]
  simp only [Bool.and_eq_true, hlead]

/-- A node test for elements accepts the elements of its name. -/
theorem accepts_ofName? {doc : Document} {i : Nat} {parent : Node} {e : Element}
    (he : doc.find? (i :: parent) = some e) (name : Option Text) :
    (NodeTest.ofName? name).accepts doc (i :: parent) = true ↔
      ∀ t ∈ name, e.name = t := by
  cases name with
  | none => simp [NodeTest.ofName?, NodeTest.accepts]
  | some name => simp [NodeTest.ofName?, NodeTest.accepts, he]

/-- Without positions, a compound accepts what its node test and its tests do,
in any place. -/
theorem accepts_iff_local {doc : Document} {c : Compound} {i : Nat}
    {parent : Node} {e : Element} (he : doc.find? (i :: parent) = some e)
    (hpos : c.isPositionless = true) :
    c.accepts doc (i :: parent) = true ↔
      (NodeTest.ofName? c.name?).accepts doc (i :: parent) = true ∧
        ∀ t ∈ conditionTests c.name? c.conditions,
          t.truth (context doc (i :: parent) (i + 1) (doc.childCount parent)) =
            true := by
  have hnone : c.conditions.any Condition.isPosition = false := by
    rw [List.any_eq_false]
    intro x hx
    have hall := List.all_eq_true.mp hpos x hx
    simpa using hall
  rw [Compound.accepts_iff, accepts_ofName? he, forall_conditionTests he, hnone]
  simp [he]

/-- Down the tree, the step of a compound leads to the children that the
compound accepts. -/
theorem mem_child_compound {doc : Document} {c : Compound} {k : Combinator}
    {es : List Expr} (hk : k.isSibling = false)
    (hes : Predicated (c.tests k) es) {n parent : Node} :
    n ∈ (⟨.child, .ofName? (c.nodeName k), es⟩ : Step).select doc parent ↔
      ∃ i, n = i :: parent ∧ c.accepts doc n = true := by
  have htests : c.tests k = conditionTests c.name? c.conditions := by
    cases k <;> first | rfl | simp [Combinator.isSibling] at hk
  have hnode : c.nodeName k = if c.isPositionless then c.name? else none := by
    cases k <;> first | rfl | simp [Combinator.isSibling] at hk
  rw [htests] at hes
  by_cases hpos : c.isPositionless = true
  · -- The tests ask for no place, so the node test may leave children out.
    rw [hnode, if_pos hpos]
    have hlocal := isLocal_conditionTests c.name? hpos
    constructor
    · intro hn
      have hmem := ((mem_step_local hes hlocal 0 0).mp hn).1
      obtain ⟨i, rfl, hsome⟩ := Document.mem_childNodes_iff.mp hmem
      obtain ⟨e, he⟩ := Option.isSome_iff_exists.mp hsome
      have hlocal :=
        (mem_step_local hes hlocal (i + 1) (doc.childCount parent)).mp hn
      exact ⟨i, rfl, (accepts_iff_local he hpos).mpr hlocal.2⟩
    · rintro ⟨i, rfl, haccepts⟩
      obtain ⟨e, he, -⟩ := Compound.accepts_iff.mp haccepts
      apply (mem_step_local hes hlocal (i + 1) (doc.childCount parent)).mpr
      refine ⟨Document.mem_childNodes_iff.mpr ⟨i, rfl, by simp [he]⟩, ?_⟩
      exact (accepts_iff_local he hpos).mp haccepts
  · -- All children are reached, and the tests ask for the name.
    have hany : c.conditions.any Condition.isPosition = true := by
      simpa [Compound.isPositionless] using hpos
    rw [hnode, if_neg hpos]
    show n ∈ (⟨.child, .anyElement, es⟩ : Step).select doc parent ↔ _
    rw [mem_child_any hes]
    constructor
    · rintro ⟨i, rfl, hi, htruth⟩
      obtain ⟨e, he⟩ :=
        Option.isSome_iff_exists.mp (Document.isSome_find?_cons.mpr hi)
      rw [forall_conditionTests he] at htruth
      exact ⟨i, rfl, Compound.accepts_iff.mpr ⟨e, he, htruth.2 hany, htruth.1⟩⟩
    · rintro ⟨i, rfl, haccepts⟩
      obtain ⟨e, he, hname, hconditions⟩ := Compound.accepts_iff.mp haccepts
      refine ⟨i, rfl, Document.isSome_find?_cons.mp (by simp [he]), ?_⟩
      rw [forall_conditionTests he]
      exact ⟨hconditions, fun _ => hname⟩

/-- Behind `~`, the step of a compound leads to the following siblings that the
compound accepts. -/
theorem mem_sibling_compound {doc : Document} {c : Compound} {es : List Expr}
    (hpos : c.isPositionless = true) (hes : Predicated (c.tests .sibling) es)
    {n parent : Node} {j : Nat} :
    n ∈ (⟨.followingSibling, .ofName? (c.nodeName .sibling), es⟩ : Step).select
      doc (j :: parent) ↔
      ∃ i, n = i :: parent ∧ j < i ∧ c.accepts doc n = true := by
  have haxis : ∀ m, m ∈ Axis.followingSibling.nodes doc (j :: parent) ↔
      ∃ i, m = i :: parent ∧ j < i ∧ (doc.find? m).isSome := by
    intro m
    simp only [Axis.nodes, List.mem_iff_getElem?, List.getElem?_drop,
      getElem?_childNodes]
    constructor
    · rintro ⟨i, rfl, hi⟩
      exact ⟨j + 1 + i, rfl, by omega, Document.isSome_find?_cons.mpr hi⟩
    · rintro ⟨i, rfl, hj, hsome⟩
      refine ⟨i - (j + 1), ?_, ?_⟩
      · rw [show j + 1 + (i - (j + 1)) = i by omega]
      · have hi := Document.isSome_find?_cons.mp hsome
        omega
  have hlocal := isLocal_conditionTests c.name? hpos
  constructor
  · intro hn
    have hmem := ((mem_step_local hes hlocal 0 0).mp hn).1
    obtain ⟨i, rfl, hj, hsome⟩ := (haxis n).mp hmem
    obtain ⟨e, he⟩ := Option.isSome_iff_exists.mp hsome
    have hlocal :=
      (mem_step_local hes hlocal (i + 1) (doc.childCount parent)).mp hn
    exact ⟨i, rfl, hj, (accepts_iff_local he hpos).mpr hlocal.2⟩
  · rintro ⟨i, rfl, hj, haccepts⟩
    obtain ⟨e, he, -⟩ := Compound.accepts_iff.mp haccepts
    apply (mem_step_local hes hlocal (i + 1) (doc.childCount parent)).mpr
    refine ⟨(haxis _).mpr ⟨i, rfl, hj, by simp [he]⟩, ?_⟩
    exact (accepts_iff_local he hpos).mp haccepts

/-- In a document without capitals, the filter of a type selector asks for its
name. -/
theorem truth_tagFilter_small {doc : Document} (hdoc : HasSmallNames doc)
    {n : Node} {e : Element} (he : doc.find? n = some e) (name : Identifier)
    (position size : Nat) :
    (tagFilter name.text).truth (context doc n position size) = true ↔
      e.name = name.text := by
  have hname : (context doc n position size).name = e.name := by
    simp [context, he]
  rw [truth_tagFilter _ (isAscii_of_isName name.isName), hname]
  constructor
  · intro heq
    exact Text.map_toUpper_injective (hdoc n e he) name.isSmall heq
  · rintro heq
    rw [heq]

/-- Behind `+`, the step of a compound leads to the next sibling, if the
compound accepts it. -/
theorem mem_adjacent_compound {doc : Document} (hdoc : HasSmallNames doc)
    {c : Compound} {es : List Expr} (hpos : c.isPositionless = true)
    (hes : Predicated (c.tests .adjacent) es) {n parent : Node} {j : Nat} :
    n ∈ (⟨.followingSibling, .ofName? (c.nodeName .adjacent), es⟩ : Step).select
      doc (j :: parent) ↔
      n = (j + 1) :: parent ∧ c.accepts doc n = true := by
  have hlocal := isLocal_conditionTests c.name? hpos
  have htag : ∀ {e i size}, doc.find? (i :: parent) = some e →
      ((∀ t ∈ (c.name?.map tagFilter).toList,
          t.truth (context doc (i :: parent) 1 size) = true) ↔
        (NodeTest.ofName? c.name?).accepts doc (i :: parent) = true) := by
    intro e i size he
    rw [accepts_ofName? he]
    unfold Compound.name?
    cases c.lead with
    | tag name => simpa using truth_tagFilter_small hdoc he name 1 size
    | _ => simp
  show n ∈ (⟨.followingSibling, .anyElement, es⟩ : Step).select doc
      (j :: parent) ↔ _
  rw [mem_sibling_any hes]
  -- The position among the following siblings is one for the next sibling only.
  have htests : ∀ {i size position}, (∀ t ∈ c.tests .adjacent,
      t.truth (context doc (i :: parent) position size) = true) ↔
        (∀ t ∈ (c.name?.map tagFilter).toList,
          t.truth (context doc (i :: parent) position size) = true) ∧
            position = 1 ∧
        ∀ t ∈ conditionTests c.name? c.conditions,
          t.truth (context doc (i :: parent) (i + 1) (doc.childCount parent)) =
            true := by
    intro i size position
    rw [Compound.tests, List.forall_mem_append, List.forall_mem_cons,
      truth_isFirst, beq_iff_eq]
    refine and_congr_right fun _ => and_congr_right fun _ => ?_
    constructor
    · intro h t ht
      rw [← h t ht]
      exact truth_of_isLocal (hlocal t ht) doc _ _ _ _ _
    · intro h t ht
      rw [← h t ht]
      exact truth_of_isLocal (hlocal t ht) doc _ _ _ _ _
  constructor
  · rintro ⟨i, rfl, hi, htruth⟩
    obtain ⟨hname, hfirst, hconditions⟩ := htests.mp htruth
    have hzero : i = 0 := by omega
    subst hzero
    obtain ⟨e, he⟩ :=
      Option.isSome_iff_exists.mp (Document.isSome_find?_cons.mpr hi)
    refine ⟨rfl, (accepts_iff_local he hpos).mpr ⟨(htag he).mp hname,
      hconditions⟩⟩
  · rintro ⟨rfl, haccepts⟩
    obtain ⟨e, he, -⟩ := Compound.accepts_iff.mp haccepts
    obtain ⟨htest, hconditions⟩ := (accepts_iff_local he hpos).mp haccepts
    refine ⟨0, rfl, Document.isSome_find?_cons.mp (by simp [he]),
      htests.mpr ⟨?_, rfl, hconditions⟩⟩
    exact (htag he).mpr htest

/-- A step down leads to accepted nodes below those of the path. -/
theorem mem_select_compound_descendant {doc : Document} {c : Compound}
    {es : List Expr} (hes : Predicated (c.tests .descendant) es)
    {path : List Step} {n : Node} :
    n ∈
      select doc (path ++
      Link.descendant.steps (.ofName? (c.nodeName .descendant)) es) ↔
      c.accepts doc n = true ∧ ∃ m ∈ origins .descendant n,
        m ∈ select doc path := by
  simp only [mem_select_descendant, mem_child_compound rfl hes]
  constructor
  · rintro ⟨m, hm, parent, hsuffix, -, i, rfl, haccepts⟩
    exact ⟨haccepts, m, mem_origins_descendant.mpr hsuffix, hm⟩
  · rintro ⟨haccepts, m, horigin, hm⟩
    cases n with
    | nil => simp [Compound.accepts] at haccepts
    | cons i parent =>
      obtain ⟨e, he, -⟩ := Compound.accepts_iff.mp haccepts
      have hbelow : (doc.find? ([i] ++ parent)).isSome := by simp [he]
      have hparent := Document.isSome_find?_of_append hbelow
      exact ⟨m, hm, parent, mem_origins_descendant.mp horigin, hparent, i, rfl,
        haccepts⟩

/-- A step to the children leads to accepted children. -/
theorem mem_select_compound_child {doc : Document} {c : Compound}
    {es : List Expr} (hes : Predicated (c.tests .child) es) {path : List Step}
    {n : Node} :
    n ∈ select doc
        (path ++ Link.child.steps (.ofName? (c.nodeName .child)) es) ↔
      c.accepts doc n = true ∧ ∃ m ∈ origins .child n, m ∈ select doc path := by
  simp only [mem_select_child, mem_child_compound rfl hes]
  constructor
  · rintro ⟨m, hm, i, rfl, haccepts⟩
    exact ⟨haccepts, m, List.mem_singleton.mpr rfl, hm⟩
  · rintro ⟨haccepts, m, horigin, hm⟩
    cases n with
    | nil => simp [Compound.accepts] at haccepts
    | cons i parent =>
      have heq : m = parent := by simpa [origins] using horigin
      subst heq
      exact ⟨m, hm, i, rfl, haccepts⟩

/-- A step to following siblings leads to accepted ones; positions would be
counted from the sibling in front. -/
theorem mem_select_compound_sibling {doc : Document} {c : Compound}
    {es : List Expr} (hpos : c.isPositionless = true)
    (hes : Predicated (c.tests .sibling) es) {path : List Step} {n : Node} :
    n ∈
      select doc (path ++
      Link.sibling.steps (.ofName? (c.nodeName .sibling)) es) ↔
      c.accepts doc n = true ∧ ∃ m ∈ origins .sibling n,
        m ∈ select doc path := by
  rw [mem_select_sibling]
  constructor
  · rintro ⟨m, hm, hn⟩
    cases m with
    | nil =>
      have hnone :=
        ((mem_step_local hes (isLocal_conditionTests _ hpos) 0 0).mp hn).1
      simp [Axis.nodes] at hnone
    | cons j parent =>
      obtain ⟨i, rfl, hj, haccepts⟩ := (mem_sibling_compound hpos hes).mp hn
      exact ⟨haccepts, j :: parent, by simpa [origins] using hj, hm⟩
  · rintro ⟨haccepts, m, horigin, hm⟩
    cases n with
    | nil => simp [Compound.accepts] at haccepts
    | cons i parent =>
      obtain ⟨j, hj, rfl⟩ : ∃ j, j < i ∧ j :: parent = m := by
        simpa [origins] using horigin
      exact ⟨j :: parent, hm,
        (mem_sibling_compound hpos hes).mpr ⟨i, rfl, hj, haccepts⟩⟩

/-- The step to the next sibling leads to it where it is accepted. -/
theorem mem_select_compound_adjacent {doc : Document} (hdoc : HasSmallNames doc)
    {c : Compound} {es : List Expr} (hpos : c.isPositionless = true)
    (hes : Predicated (c.tests .adjacent) es) {path : List Step} {n : Node} :
    n ∈
      select doc (path ++
      Link.sibling.steps (.ofName? (c.nodeName .adjacent)) es) ↔
      c.accepts doc n = true ∧ ∃ m ∈ origins .adjacent n,
        m ∈ select doc path := by
  rw [mem_select_sibling]
  constructor
  · rintro ⟨m, hm, hn⟩
    cases m with
    | nil =>
      have hkeeps := (hes.keeps doc [] n).mp hn
      simp at hkeeps
    | cons j parent =>
      obtain ⟨rfl, haccepts⟩ := (mem_adjacent_compound hdoc hpos hes).mp hn
      exact ⟨haccepts, j :: parent, List.mem_singleton.mpr rfl, hm⟩
  · rintro ⟨haccepts, m, horigin, hm⟩
    match n, horigin with
    | (j + 1) :: parent, horigin =>
      have heq : m = j :: parent := by simpa [origins] using horigin
      subst heq
      exact ⟨_, hm, (mem_adjacent_compound hdoc hpos hes).mpr ⟨rfl, haccepts⟩⟩
    | 0 :: parent, horigin => simp [origins] at horigin
    | [], horigin => simp [origins] at horigin

/-- Behind any combinator, the step of a compound leads from the nodes that the
combinator may come from to those that the compound accepts. -/
theorem mem_select_compound {doc : Document} (hdoc : HasSmallNames doc)
    {c : Compound} {k : Combinator} {es : List Expr}
    (hpos : k.isSibling = true → c.isPositionless = true)
    (hes : Predicated (c.tests k) es) {path : List Step} {n : Node} :
    n ∈ select doc (path ++ (link k).steps (.ofName? (c.nodeName k)) es) ↔
      c.accepts doc n = true ∧ ∃ m ∈ origins k n, m ∈ select doc path := by
  cases k with
  | descendant => exact mem_select_compound_descendant hes
  | child => exact mem_select_compound_child hes
  | sibling => exact mem_select_compound_sibling (hpos rfl) hes
  | adjacent => exact mem_select_compound_adjacent hdoc (hpos rfl) hes

/-! ## Selectors -/

private theorem isJoined_compound (c : Compound) :
    isJoined c.tokens = true := by
  have hcondition : ∀ x : Condition, x.token.kind ≠ .root ∧
      x.token.kind.isCombinator = false := by
    intro x
    cases x <;>
        exact ⟨by simp [Condition.token, Token.attr, Token.pseudoClass], rfl⟩
  apply isJoined_of_simple
  · have hnonempty := c.nonempty
    cases hlead : c.lead <;>
        simp_all [Compound.tokens, Lead.tokens, Lead.isNone]
  · intro t ht
    rcases List.mem_append.mp ht with ht | ht
    · cases hlead : c.lead with
      | none => simp [hlead, Lead.tokens] at ht
      | universal =>
        have heq : t = .universal := by simpa [hlead, Lead.tokens] using ht
        rw [heq]
        exact ⟨by decide, rfl⟩
      | tag name =>
        have heq : t = .tag name.text := by simpa [hlead, Lead.tokens] using ht
        rw [heq]
        exact ⟨by simp [Token.tag], rfl⟩
    · obtain ⟨x, -, rfl⟩ := List.mem_map.mp ht
      exact hcondition x

private theorem isJoined_tokens (s : Selector) : isJoined s.tokens = true := by
  have happend : ∀ (front back : Stream) (k : Combinator) (afterAxis : Bool),
      joinsFrom afterAxis front = true → isJoined back = true →
        joinsFrom afterAxis (front ++ .combinator k :: back) = true := by
    intro front back k
    induction front with
    | nil =>
      intro afterAxis hfront hback
      have hfree : afterAxis = false := by simpa [joinsFrom] using hfront
      have hcomb : (Token.combinator k).kind.isCombinator = true := rfl
      rw [hfree, List.nil_append, joinsFrom, hcomb,
        show joinsFrom true back = true from hback]
      rfl
    | cons t rest ih =>
      intro afterAxis hfront hback
      simp only [joinsFrom, Bool.and_eq_true] at hfront
      simp only [List.cons_append, joinsFrom, Bool.and_eq_true]
      exact ⟨hfront.1, ih _ hfront.2 hback⟩
  induction s with
  | compound c => exact isJoined_compound c
  | join left k c _ ih =>
    exact happend left.tokens c.tokens k true ih (isJoined_compound c)

private theorem startsWithPseudo_compound (c : Compound) :
    startsWithPseudo .root c.tokens = false := by
  unfold Compound.tokens
  cases c.lead with
  | universal => rfl
  | tag name => rfl
  | none =>
    cases c.conditions with
    | nil => rfl
    | cons x rest =>
      cases x with
      | present name => rfl
      | equals name value => rfl
      | position p => cases p <;> rfl

/-- The path of a selector reaches what the selector matches. -/
theorem readsPath_selector (s : Selector) :
    ∃ out path, locationPath s.tokens = .ok out ∧ ReadsPath out path ∧
      ∀ doc, HasSmallNames doc → ∀ n, n ∈ select doc path ↔
        s.accepts doc n = true := by
  induction s with
  | compound c =>
    have hdown : Combinator.descendant.isSibling = true →
        c.isPositionless = true := by
      simp [Combinator.isSibling]
    obtain ⟨es, hes⟩ := exists_predicated (isFragment_tests c .descendant)
    refine ⟨Link.descendant.stepText (c.nodeName .descendant) es,
      Link.descendant.steps (.ofName? (c.nodeName .descendant)) es, ?_, ?_, ?_⟩
    · rw [Selector.tokens, locationPath_eq_extension (isJoined_compound c)
        (startsWithPseudo_compound c)]
      exact extension_compound c .descendant hdown hes
    · exact readsPath_step .descendant (isName_nodeName c .descendant)
        hes.readable
    · intro doc hdoc n
      show n ∈ select doc ([] ++ (link .descendant).steps _ es) ↔
          c.accepts doc n = true
      rw [mem_select_compound hdoc hdown hes]
      constructor
      · exact fun h => h.1
      · intro haccepts
        refine ⟨haccepts, [], ?_, List.mem_singleton.mpr rfl⟩
        cases n with
        | nil => simp [Compound.accepts] at haccepts
        | cons i parent => exact mem_origins_descendant.mpr (List.nil_suffix ..)
  | join left k c hpos ih =>
    obtain ⟨out, path, hout, hreads, hselect⟩ := ih
    obtain ⟨es, hes⟩ := exists_predicated (isFragment_tests c k)
    refine ⟨out ++ (link k).stepText (c.nodeName k) es,
      path ++ (link k).steps (.ofName? (c.nodeName k)) es, ?_, ?_, ?_⟩
    · rw [Selector.tokens,
        locationPath_join_iff (isJoined_tokens left) (isJoined_compound c)]
      exact ⟨out, _, hout, extension_compound c k hpos hes, rfl⟩
    · exact hreads.append_step (link k) (isName_nodeName c k) hes.readable
    · intro doc hdoc n
      rw [mem_select_compound hdoc hpos hes, Selector.accepts, Bool.and_eq_true,
        List.any_eq_true]
      simp only [hselect doc hdoc]

/-- A core selector has a path, its text is that of a location path, and in
every document without capitals in its element names that path reaches exactly
the elements which the selector matches. -/
theorem select_locationPath (s : Selector) :
    ∃ out path, locationPath s.tokens = .ok out ∧ readPath out = some path ∧
      ∀ doc, HasSmallNames doc → ∀ n, n ∈ select doc path ↔
        s.accepts doc n = true := by
  obtain ⟨out, path, hout, hreads, hselect⟩ := readsPath_selector s
  exact ⟨out, path, hout, readPath_of_readsPath hreads, hselect⟩

/-- An element with three children, the first and the last of one name. -/
def family : Document :=
  ⟨.mk "a" [] [.mk "b" [] [], .mk "c" [] [], .mk "b" [] []]⟩

/-- The selector `a > b:first-child + c`. -/
def besideFirst : Selector :=
  .join
    (.join (.compound ⟨.tag ⟨"a", by decide, by decide⟩, [], by decide⟩) .child
      ⟨.tag ⟨"b", by decide, by decide⟩, [.position .first], by decide⟩
        (by decide))
    .adjacent ⟨.tag ⟨"c", by decide, by decide⟩, [], by decide⟩ (by decide)

/-- Its path reaches the child in the middle and not the first one. -/
theorem select_locationPath_besideFirst :
    HasSmallNames family ∧ ∃ out path,
      locationPath besideFirst.tokens = .ok out ∧
      readPath out = some path ∧ [1, 0] ∈ select family path ∧
        [0, 0] ∉ select family path := by
  have hfamily : HasSmallNames family := by decide
  obtain ⟨out, path, hout, hpath, hselect⟩ := select_locationPath besideFirst
  refine ⟨hfamily, out, path, hout, hpath, ?_, ?_⟩
  · rw [hselect family hfamily]
    decide
  · rw [hselect family hfamily]
    decide

end SelectorPath.Core
