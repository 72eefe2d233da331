import SelectorPath.Proofs.Positions
import SelectorPath.Proofs.Selection

/-!
# Negated child positions

`div:first-child` counts among all siblings, and its step is widened to `*` for
that. Under `:not` the same pseudo-class is only a filter: the step keeps its
name, so `div:not(:first-child)` counts among the `div` elements. This module
says what both select, for compounds of a type selector and attribute tests, and
so in which documents the negation is the complement.

A position formula is one with ASCII digits here, because XPath reads no others.

## Main results

* `mem_select_counted`: the position among all siblings decides for a child
  position.
* `mem_select_negated`: the position among the siblings of the same name decides
  for a negated one.
* `select_not_childTest`: the negation is the complement exactly where both
  positions agree.
-/

namespace SelectorPath

/-! ## Places among siblings -/

namespace Document

open XPath (NodeTest)

/-- The place of a node among its siblings, counted from one. -/
def position : Node → Nat
  | [] => 0
  | i :: _ => i + 1

/-- The number of siblings of a node, with itself. -/
def siblingCount (doc : Document) : Node → Nat
  | [] => 0
  | _ :: parent => doc.childCount parent

/-- The place of a node among its siblings of the given name. -/
def typePosition (doc : Document) (name : Text) : Node → Nat
  | [] => 0
  | i :: parent =>
    ((doc.childNodes parent).take i).countP
      ((NodeTest.named name).accepts doc) + 1

/-- The number of siblings of the given name. -/
def typeCount (doc : Document) (name : Text) : Node → Nat
  | [] => 0
  | _ :: parent =>
    (doc.childNodes parent).countP ((NodeTest.named name).accepts doc)

end Document

namespace XPath

/-! ## Compounds and child positions -/

/-- A test of an attribute that XPath can express. -/
structure AttributeCondition where
  name : Text
  test : AttributeTest
  value : Option Text
  isName : XPath.isName name = true
  quoteless : '\'' ∉ value.getD []

/-- A type selector with attribute tests behind it. -/
structure TypedCompound where
  name : Text
  attributes : List AttributeCondition
  isName : XPath.isName name = true

/-- A pseudo-class for the place among all siblings. -/
inductive ChildTest where
  | first
  | last
  | only
  /-- A formula, as it is written in the argument. -/
  | nth (argument : Text) (formula : Formula)
    (accepted : Formula.ofTrimmed? (Text.trim argument) = some formula)
    (isNumeric : formula.isNumeric = true)

def AttributeCondition.token (a : AttributeCondition) : Token :=
  .attr a.name a.test a.value

def TypedCompound.conditions (c : TypedCompound) : Stream :=
  c.attributes.map AttributeCondition.token

def TypedCompound.tokens (c : TypedCompound) : Stream :=
  .tag c.name :: c.conditions

namespace ChildTest

def token : ChildTest → Token
  | first => .pseudoClass "first-child" none
  | last => .pseudoClass "last-child" none
  | only => .pseudoClass "only-child" none
  | nth argument _ _ _ => .pseudoClass "nth-child" (some (.text argument))

/-- The pseudo-class `:not` around a child position. -/
def negation (p : ChildTest) : Token :=
  .pseudoClass "not" (some (.selectors [[p.token]]))

/-- Whether a place among `count` elements is the one asked for. -/
def accepts (position count : Nat) : ChildTest → Bool
  | first => position == 1
  | last => position == count
  | only => count == 1
  | nth _ formula _ _ => formula.accepts position

/-- The condition that a child position is written as. -/
def expr : ChildTest → Expr
  | first => isFirst
  | last => isLast
  | only => isOnly
  | nth _ formula _ _ => formula.condition

/-- The condition of a child position looks at the place and the number of
siblings only. -/
theorem truth_expr (p : ChildTest) (c : Context) :
    p.expr.truth c = p.accepts c.position c.size := by
  cases p with
  | first => exact truth_isFirst c
  | last => exact truth_isLast c
  | only => exact truth_isOnly c
  | nth argument formula accepted isNumeric =>
    exact Formula.truth_condition isNumeric c

/-- The condition of a child position can be read back from its text. -/
theorem isFragment_expr (p : ChildTest) : p.expr.isFragment = true := by
  obtain ⟨hfirst, hlast, honly⟩ := isFragment_position
  cases p with
  | first => exact hfirst
  | last => exact hlast
  | only => exact honly
  | nth argument formula accepted isNumeric =>
    exact Formula.isFragment_condition isNumeric

private theorem isFragment_not {e : Expr} (h : e.isFragment = true) :
    (Expr.not e).isFragment = true := by
  simp only [Expr.isFragment, Bool.and_eq_true] at h
  exact isFragment_of_level h.1.1 rfl rfl

/-! ## Filters -/

private theorem pseudo?_token (p : ChildTest) :
    p.token.pseudo?.any PseudoClass.isChildPosition = true := by
  cases p <;> rfl

/-- A child position is a condition of its compound. -/
theorem conditional_token (context : Option Text) (p : ChildTest) :
    conditional context p.token = true := by
  cases p <;> rfl

private theorem conditional_negation (context : Option Text) (p : ChildTest) :
    conditional context p.negation = true := rfl

/-- A child position is made into its condition. -/
theorem filters_token (p : ChildTest) :
    filters p.token = .ok [p.expr.render] := by
  cases p with
  | first =>
    rw [filters]
    rfl
  | last =>
    rw [filters]
    rfl
  | only =>
    rw [filters]
    rfl
  | nth argument formula accepted isNumeric =>
    have hne : (Text.trim argument).isEmpty = false := by
      cases htrim : Text.trim argument with
      | nil =>
        have hnone : Formula.ofTrimmed? [] = none := by decide
        rw [htrim, hnone] at accepted
        exact absurd accepted (by simp)
      | cons c rest => rfl
    have hargument : argumentText
        (nth argument formula accepted isNumeric).token =
        .ok (Text.trim argument) := by
      show (if (Text.trim argument).isEmpty then _ else _) = _
      rw [hne]
      rfl
    have htest : positionTest (Text.trim argument) =
        .ok formula.condition.render := by
      rw [positionTest, Text.trim_trim, accepted]
    rw [filters]
    show (argumentText _ >>= fun a => positionTest a >>= fun condition =>
        .ok [condition]) = _
    rw [hargument]
    show (positionTest (Text.trim argument) >>= fun condition =>
        .ok [condition]) = _
    rw [htest]
    rfl

/-- Alone, a fragment is the predicate. -/
theorem flatten_single (op : Connective) {fragment : Text} (h : fragment ≠ []) :
    flatten op [fragment] = fragment := by
  have hfilter : [fragment].filter (fun f => !f.isEmpty) = [fragment] := by
    simp [h]
  rw [flatten, hfilter]
  show Text.join _ [fragment].eraseDups = fragment
  rw [List.eraseDups_cons]
  exact List.intercalate_singleton

private theorem filters_negation (p : ChildTest) :
    filters p.negation = .ok [(Expr.not p.expr).render] := by
  have hne : p.expr.render ≠ [] := by
    have hfragment := p.isFragment_expr
    simp only [Expr.isFragment, Bool.and_eq_true] at hfragment
    exact render_ne_nil hfragment.1.1
  have hstream : streamFilters [p.token] = .ok [p.expr.render] := by
    rw [streamFilters, p.filters_token, streamFilters]
    rfl
  have hstreams : streamsFilters [[p.token]] = .ok [p.expr.render] := by
    rw [streamsFilters, hstream, streamsFilters]
    show Except.ok [flatten .and [p.expr.render]] = _
    rw [flatten_single .and hne]
  rw [filters]
  show (streamsFilters [[p.token]] >>= fun alternatives =>
    .ok ["not(" ++ flatten .or alternatives ++ ")"]) = _
  rw [hstreams]
  show Except.ok ["not(" ++ flatten .or [p.expr.render] ++ ")"] = _
  rw [flatten_single .or hne]
  rfl

end ChildTest

/-- Whether a stream is written as the path. -/
def HasPath (stream : Stream) (path : List Step) : Prop :=
  ∃ out, locationPath stream = .ok out ∧ readPath out = some path

/-- An attribute test is a condition of its compound. -/
theorem AttributeCondition.conditional_token (context : Option Text)
    (a : AttributeCondition) :
    conditional context a.token = true := rfl

/-- The tests of the attributes of a compound. -/
def TypedCompound.tests (c : TypedCompound) : List Expr :=
  c.attributes.flatMap fun a => attributeFilters a.name (a.value.getD []) a.test

namespace TypedCompound

/-- The conditions of a compound can be read back from their texts. -/
theorem isFragment_tests (c : TypedCompound) :
    ∀ t ∈ c.tests, t.isFragment = true := by
  intro t ht
  obtain ⟨a, -, ht⟩ := List.mem_flatMap.mp ht
  exact isFragment_attributeFilters a.test a.isName a.quoteless t ht

private theorem isLocal_tests (c : TypedCompound) :
    ∀ t ∈ c.tests, t.isLocal = true := by
  intro t ht
  obtain ⟨a, -, ht⟩ := List.mem_flatMap.mp ht
  exact isLocal_attributeFilters _ _ a.test t ht

private theorem positionTests_conditions (c : TypedCompound) (rest : Stream) :
    positionTests (c.conditions ++ rest) = positionTests rest := by
  unfold conditions
  induction c.attributes with
  | nil => rfl
  | cons a as ih =>
    show 0 + positionTests (as.map AttributeCondition.token ++ rest) = _
    rw [ih, Nat.zero_add]

private theorem compoundTests_conditions (c : TypedCompound) {rest : Stream}
    {tests : List Expr}
    (h : compoundTests (some c.name) rest = .ok (tests.map Expr.render)) :
    compoundTests (some c.name) (c.conditions ++ rest) =
      .ok ((c.tests ++ tests).map Expr.render) := by
  unfold conditions TypedCompound.tests
  induction c.attributes with
  | nil => exact h
  | cons a as ih =>
    have hfilters : filters a.token =
        .ok ((attributeFilters a.name (a.value.getD []) a.test).map
          Expr.render) := by
      rw [filters]
      rfl
    rw [List.map_cons, List.cons_append, compoundTests, hfilters, ih,
      List.flatMap_cons]
    simp only [List.map_append, List.append_assoc]
    rfl

/-- A compound is written as one step, whose node test is the name unless a
position counts. -/
theorem exists_path (c : TypedCompound) {rest : Stream} {tests : List Expr}
    (hrest : ∀ t ∈ rest, conditional (some c.name) t = true)
    (htests : compoundTests (some c.name) rest = .ok (tests.map Expr.render))
    (hfragment : ∀ t ∈ tests, t.isFragment = true) :
    ∃ es, Predicated (c.tests ++ tests) es ∧
      HasPath (c.tokens ++ rest) (Link.descendant.steps
        (.ofName? (if positionTests rest = 0 then some c.name else none))
          es) := by
  have hall : ∀ t ∈ c.tests ++ tests, t.isFragment = true :=
    List.forall_mem_append.mpr ⟨c.isFragment_tests, hfragment⟩
  obtain ⟨es, hes⟩ := exists_predicated hall
  have hcond : ∀ t ∈ c.conditions ++ rest,
      conditional (some c.name) t = true := by
    intro t ht
    rcases List.mem_append.mp ht with ht | ht
    · obtain ⟨a, -, rfl⟩ := List.mem_map.mp ht
      exact a.conditional_token _
    · exact hrest t ht
  have hname : (if positionTests rest = 0 then some c.name
      else none).all XPath.isName = true := by
    split
    · exact c.isName
    · rfl
  refine ⟨es, hes, _, ?_,
    readPath_of_readsPath (readsPath_step .descendant hname hes.readable)⟩
  show locationPath (.tag c.name :: (c.conditions ++ rest)) = _
  rw [locationPath_eq_extension (isJoined_conditional c.name hcond) rfl,
    extension_tag .descendant c.name hcond, c.compoundTests_conditions htests,
      c.positionTests_conditions, Link.stepText, hes.text]
  show Except.ok (axisText .descendant ++
      ((widenedBy c.name (positionTests rest)
    (.test c.name)).render ++ predicateText ([] ++ _))) = _
  rw [widenedBy_test, List.nil_append]
  split
  · simp only [List.append_assoc]
    rfl
  · simp only [List.append_assoc]
    rfl

/-- Whether a compound accepts a node; the attribute tests ask for no place. -/
def Accepts (c : TypedCompound) (doc : Document) (n : Node) : Prop :=
  (NodeTest.named c.name).accepts doc n = true ∧
    ∀ t ∈ c.tests, t.truth (context doc n 0 0) = true

/-- A compound accepts an element by its name and its conditions, whatever its
place is. -/
theorem accepts_iff {c : TypedCompound} {doc : Document} {n : Node}
    (position size : Nat) :
    c.Accepts doc n ↔ (NodeTest.named c.name).accepts doc n = true ∧
      ∀ t ∈ c.tests, t.truth (context doc n position size) = true := by
  have htruth : ∀ t ∈ c.tests,
      t.truth (context doc n 0 0) = t.truth (context doc n position size) :=
    fun t ht => truth_of_isLocal (c.isLocal_tests t ht) doc n 0 0 position size
  unfold Accepts
  constructor
  · rintro ⟨hname, htests⟩
    exact ⟨hname, fun t ht => htruth t ht ▸ htests t ht⟩
  · rintro ⟨hname, htests⟩
    exact ⟨hname, fun t ht => (htruth t ht).symm ▸ htests t ht⟩

end TypedCompound

/-! ## What is selected -/

private theorem accepts_named_iff {doc : Document} {name : Text} {i : Nat}
    {parent : Node} {e : Element} (he : doc.find? (i :: parent) = some e) :
    (NodeTest.named name).accepts doc (i :: parent) = true ↔ e.name = name := by
  simp [NodeTest.accepts, he]

/-- From the top, a step is taken from every node inside the document. -/
theorem mem_select_top {doc : Document} {test : NodeTest} {es : List Expr}
    {n : Node} :
    n ∈ select doc (Link.descendant.steps test es) ↔
      ∃ parent, (doc.find? parent).isSome ∧
        n ∈ (⟨.child, test, es⟩ : Step).select doc parent := by
  show n ∈ select doc ([] ++ Link.descendant.steps test es) ↔ _
  rw [mem_select_descendant]
  constructor
  · rintro ⟨m, -, parent, -, hparent, hn⟩
    exact ⟨parent, hparent, hn⟩
  · rintro ⟨parent, hparent, hn⟩
    exact ⟨[], List.mem_singleton.mpr rfl, parent, List.nil_suffix ..,
      hparent, hn⟩

/-- An element of a filtered list comes behind those kept in front of it. -/
theorem getElem?_filter_iff {α : Type} {q : α → Bool} {l : List α} {k : Nat}
    {a : α} :
    (l.filter q)[k]? = some a ↔
      ∃ i, l[i]? = some a ∧ q a = true ∧ (l.take i).countP q = k := by
  induction l generalizing k with
  | nil => simp
  | cons b rest ih =>
    rw [← Nat.or_exists_add_one]
    simp only [List.getElem?_cons_zero, List.getElem?_cons_succ, List.take_zero,
      List.countP_nil, List.take_succ_cons, List.countP_cons, Option.some.injEq]
    cases hb : q b with
    | false =>
      rw [List.filter_cons_of_neg (by simp [hb]), ih]
      simp only [Bool.false_eq_true, if_false, Nat.add_zero]
      constructor
      · exact .inr
      · rintro (⟨rfl, hq, -⟩ | h)
        · rw [hb] at hq
          exact absurd hq (by decide)
        · exact h
    | true =>
      rw [List.filter_cons_of_pos hb]
      cases k with
      | zero =>
        simp only [List.getElem?_cons_zero, Option.some.injEq, if_true,
          Nat.add_one_ne_zero, and_false, exists_false, or_false, and_true]
        constructor
        · rintro rfl
          exact ⟨rfl, hb⟩
        · exact fun h => h.1
      | succ k =>
        rw [List.getElem?_cons_succ, ih]
        simp

/-- A node that the compound accepts is a child of a node inside the
document. -/
theorem TypedCompound.Accepts.find? {c : TypedCompound} {doc : Document}
    {n : Node} (h : c.Accepts doc n) :
    ∃ i parent e, n = i :: parent ∧ doc.find? n = some e ∧
      (doc.find? parent).isSome := by
  have hname := h.1
  cases n with
  | nil => simp [NodeTest.accepts] at hname
  | cons i parent =>
    simp only [NodeTest.accepts, Bool.and_eq_true, Option.any_eq_true] at hname
    obtain ⟨e, he, -⟩ := hname.2
    have hbelow : (doc.find? ([i] ++ parent)).isSome := by simp [he]
    exact ⟨i, parent, e, rfl, he, Document.isSome_find?_of_append hbelow⟩

private theorem mem_select_plain {c : TypedCompound} {es : List Expr}
    (hes : Predicated c.tests es) {doc : Document} {n : Node} :
    n ∈ select doc (Link.descendant.steps (.named c.name) es) ↔
      c.Accepts doc n := by
  rw [mem_select_top]
  constructor
  · rintro ⟨parent, -, hn⟩
    exact ((mem_step_local hes c.isLocal_tests 0 0).mp hn).2
  · intro haccepts
    obtain ⟨i, parent, e, rfl, he, hparent⟩ := haccepts.find?
    refine ⟨parent, hparent,
      (mem_step_local hes c.isLocal_tests 0 0).mpr ⟨?_, haccepts⟩⟩
    exact Document.mem_childNodes_iff.mpr ⟨i, rfl, by simp [he]⟩

/-- The position among all siblings decides for a child position. -/
theorem mem_select_counted {c : TypedCompound} {p : ChildTest} {es : List Expr}
    (hes : Predicated (c.tests ++ [nameIs c.name, p.expr]) es) {doc : Document}
    {n : Node} :
    n ∈ select doc (Link.descendant.steps .anyElement es) ↔
      c.Accepts doc n ∧
        p.accepts (Document.position n) (doc.siblingCount n) = true := by
  have htests : ∀ {i parent e}, doc.find? (i :: parent) = some e →
      ((∀ t ∈ c.tests ++ [nameIs c.name, p.expr],
          t.truth (context doc (i :: parent) (i + 1) (doc.childCount parent)) =
            true) ↔
        c.Accepts doc (i :: parent) ∧
          p.accepts (i + 1) (doc.childCount parent) = true) := by
    intro i parent e he
    have hname : (context doc (i :: parent) (i + 1)
        (doc.childCount parent)).name = e.name := by
      simp [context, he]
    rw [TypedCompound.accepts_iff (i + 1) (doc.childCount parent),
      accepts_named_iff he, List.forall_mem_append, List.forall_mem_cons,
      List.forall_mem_singleton, truth_nameIs, hname,
      ChildTest.truth_expr, beq_iff_eq]
    constructor
    · rintro ⟨hlocal, heq, hplace⟩
      exact ⟨⟨heq, hlocal⟩, hplace⟩
    · rintro ⟨⟨heq, hlocal⟩, hplace⟩
      exact ⟨hlocal, heq, hplace⟩
  rw [mem_select_top]
  simp only [mem_child_any hes]
  constructor
  · rintro ⟨parent, -, i, rfl, hi, htruth⟩
    obtain ⟨e, he⟩ :=
      Option.isSome_iff_exists.mp (Document.isSome_find?_cons.mpr hi)
    exact (htests he).mp htruth
  · rintro ⟨haccepts, hplace⟩
    obtain ⟨i, parent, e, rfl, he, hparent⟩ := haccepts.find?
    refine ⟨parent, hparent, i, rfl,
      Document.isSome_find?_cons.mp (by simp [he]), ?_⟩
    exact (htests he).mpr ⟨haccepts, hplace⟩

/-- The position among the siblings of the same name decides for a negated child
position. -/
theorem mem_select_negated {c : TypedCompound} {p : ChildTest} {es : List Expr}
    (hes : Predicated (c.tests ++ [.not p.expr]) es) {doc : Document}
    {n : Node} :
    n ∈ select doc (Link.descendant.steps (.named c.name) es) ↔
      c.Accepts doc n ∧
        p.accepts (doc.typePosition c.name n) (doc.typeCount c.name n) =
          false := by
  have hnot : ∀ context, (Expr.not p.expr).truth context = true ↔
      p.accepts context.position context.size = false := by
    intro context
    show (!p.expr.truth context) = true ↔ _
    rw [ChildTest.truth_expr, Bool.not_eq_true']
  have hstep : ∀ parent,
      n ∈ (⟨.child, .named c.name, es⟩ : Step).select doc parent ↔
      ∃ i, n = i :: parent ∧ i < doc.childCount parent ∧ c.Accepts doc n ∧
        p.accepts (doc.typePosition c.name n) (doc.typeCount c.name n) =
          false := by
    intro parent
    show n ∈ es.foldl (keep doc) ((doc.childNodes parent).filter _) ↔ _
    rw [hes.keeps, ← List.countP_eq_length_filter]
    simp only [getElem?_filter_iff, getElem?_childNodes, List.forall_mem_append,
      List.forall_mem_singleton, hnot]
    constructor
    · rintro ⟨k, ⟨i, ⟨rfl, hi⟩, hname, rfl⟩, htests, hplace⟩
      exact ⟨i, rfl, hi, (TypedCompound.accepts_iff _ _).mpr ⟨hname, htests⟩,
        hplace⟩
    · rintro ⟨i, rfl, hi, haccepts, hplace⟩
      obtain ⟨hname, htests⟩ :=
        (TypedCompound.accepts_iff (doc.typePosition c.name (i :: parent))
        (doc.typeCount c.name (i :: parent))).mp haccepts
      exact ⟨_, ⟨i, ⟨rfl, hi⟩, hname, rfl⟩, htests, hplace⟩
  rw [mem_select_top]
  simp only [hstep]
  constructor
  · rintro ⟨parent, -, i, rfl, -, haccepts, hplace⟩
    exact ⟨haccepts, hplace⟩
  · rintro ⟨haccepts, hplace⟩
    obtain ⟨i, parent, e, rfl, he, hparent⟩ := haccepts.find?
    exact ⟨parent, hparent, i, rfl,
      Document.isSome_find?_cons.mp (by simp [he]), haccepts, hplace⟩

/-! ## The complement -/

/-- A compound, the compound with a child position and the compound with its
negation all have paths. The negation selects what the compound selects and the
child position does not exactly in those documents where, for every element that
the compound selects, the place among its siblings of the same name gives the
same answer as the place among all its siblings. -/
theorem select_not_childTest (c : TypedCompound) (p : ChildTest) :
    ∃ plain counted negated, HasPath c.tokens plain ∧
      HasPath (c.tokens ++ [p.token]) counted ∧
      HasPath (c.tokens ++ [p.negation]) negated ∧
      ∀ doc,
        (∀ n, n ∈ select doc counted ↔ n ∈ select doc plain ∧
          p.accepts (Document.position n) (doc.siblingCount n) = true) ∧
        (∀ n, n ∈ select doc negated ↔ n ∈ select doc plain ∧
          p.accepts (doc.typePosition c.name n) (doc.typeCount c.name n) =
            false) ∧
        ((∀ n, n ∈ select doc negated ↔
          n ∈ select doc plain ∧ n ∉ select doc counted) ↔
          ∀ n ∈ select doc plain,
            p.accepts (doc.typePosition c.name n) (doc.typeCount c.name n) =
              p.accepts (Document.position n) (doc.siblingCount n)) := by
  have hcounted : compoundTests (some c.name) [p.token] =
      .ok ([nameIs c.name, p.expr].map Expr.render) := by
    rw [compoundTests, p.filters_token, compoundTests]
    simp only [bind, Except.bind, p.pseudo?_token, if_true]
    rfl
  have hnegated : compoundTests (some c.name) [p.negation] =
      .ok ([Expr.not p.expr].map Expr.render) := by
    rw [compoundTests, p.filters_negation, compoundTests]
    rfl
  have hnone : compoundTests (some c.name) [] =
      .ok (([] : List Expr).map Expr.render) := rfl
  have hone : positionTests [p.token] ≠ 0 := by
    cases p <;> exact Nat.one_ne_zero
  obtain ⟨es, hes, hplain⟩ :=
    c.exists_path (List.forall_mem_nil _) hnone (List.forall_mem_nil _)
  rw [List.append_nil] at hes hplain
  obtain ⟨es₁, hes₁, hpath₁⟩ := c.exists_path
    (List.forall_mem_singleton.mpr (p.conditional_token _)) hcounted
    (List.forall_mem_cons.mpr ⟨isFragment_nameIs c.isName,
      List.forall_mem_singleton.mpr p.isFragment_expr⟩)
  obtain ⟨es₂, hes₂, hpath₂⟩ := c.exists_path
    (List.forall_mem_singleton.mpr (p.conditional_negation _)) hnegated
    (List.forall_mem_singleton.mpr (ChildTest.isFragment_not p.isFragment_expr))
  rw [if_neg hone] at hpath₁
  refine ⟨_, _, _, hplain, hpath₁, hpath₂, ?_⟩
  intro doc
  have hselect : ∀ n,
      n ∈ select doc (Link.descendant.steps (.named c.name) es) ↔
      c.Accepts doc n := fun n => mem_select_plain hes
  have hselect₁ : ∀ n, n ∈ select doc (Link.descendant.steps .anyElement es₁) ↔
      c.Accepts doc n ∧
        p.accepts (Document.position n) (doc.siblingCount n) = true :=
    fun n => mem_select_counted hes₁
  have hselect₂ : ∀ n,
      n ∈ select doc (Link.descendant.steps (.named c.name) es₂) ↔
      c.Accepts doc n ∧ p.accepts (doc.typePosition c.name n)
        (doc.typeCount c.name n) = false :=
    fun n => mem_select_negated hes₂
  show (∀ n, n ∈ select doc (Link.descendant.steps .anyElement es₁) ↔
      n ∈ select doc (Link.descendant.steps (.named c.name) es) ∧ _) ∧
    (∀ n, n ∈ select doc (Link.descendant.steps (.named c.name) es₂) ↔
      n ∈ select doc (Link.descendant.steps (.named c.name) es) ∧ _) ∧
    ((∀ n, n ∈ select doc (Link.descendant.steps (.named c.name) es₂) ↔
      n ∈ select doc (Link.descendant.steps (.named c.name) es) ∧
        n ∉ select doc (Link.descendant.steps .anyElement es₁)) ↔
      ∀ n ∈ select doc (Link.descendant.steps (.named c.name) es), _)
  refine ⟨fun n => ?_, fun n => ?_, ?_⟩
  · rw [hselect₁, hselect]
  · rw [hselect₂, hselect]
  · simp only [hselect, hselect₁, hselect₂]
    refine forall_congr' fun n => ?_
    by_cases hn : c.Accepts doc n
    · cases p.accepts (doc.typePosition c.name n) (doc.typeCount c.name n) <;>
        cases p.accepts (Document.position n) (doc.siblingCount n) <;> simp [hn]
    · simp [hn]

/-- A root element whose only `div` has another element in front of it. -/
def lateDiv : Document :=
  ⟨.mk "r" [] [.mk "a" [] [], .mk "div" [] []]⟩

/-- There, that `div` is not a first child, and yet `div:not(:first-child)` does
not select it. -/
theorem select_not_childTest_lateDiv :
    ∃ plain counted negated, HasPath [.tag "div"] plain ∧
      HasPath [.tag "div", .pseudoClass "first-child" none] counted ∧
      HasPath [.tag "div",
        .pseudoClass "not"
          (some (.selectors [[.pseudoClass "first-child" none]]))] negated ∧
      [1, 0] ∈ select lateDiv plain ∧ [1, 0] ∉ select lateDiv counted ∧
      [1, 0] ∉ select lateDiv negated := by
  obtain ⟨plain, counted, negated, hplain, hcounted, hnegated, hselect⟩ :=
    select_not_childTest ⟨"div", [], by decide⟩ .first
  obtain ⟨hfirst, hnot, -⟩ := hselect lateDiv
  have hdiv : [1, 0] ∈ select lateDiv plain := by
    obtain ⟨out, hout, hread⟩ := hplain
    have hpath : locationPath [.tag "div"] = .ok "//div" := rfl
    have hsteps : readPath "//div" =
        some [descend, ⟨.child, .named "div", []⟩] := rfl
    have heq : out = "//div" := Except.ok.inj (hout.symm.trans hpath)
    rw [heq, hsteps] at hread
    rw [← Option.some.inj hread]
    decide
  refine ⟨plain, counted, negated, hplain, hcounted, hnegated, hdiv, ?_, ?_⟩
  · rw [hfirst]
    exact fun h => absurd h.2 (by decide)
  · rw [hnot]
    exact fun h => absurd h.2 (by decide)

end XPath

end SelectorPath
