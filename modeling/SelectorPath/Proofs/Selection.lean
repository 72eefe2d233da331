import SelectorPath.Proofs.Compounds
import SelectorPath.Proofs.Conditions
import SelectorPath.Proofs.PathReading

/-!
# Where a written step leads

The tests of a step are fragments, which its predicate joins. This module ties
the text of such a step to its meaning: the text is read as a step
(`Predicated.text`, `Predicated.readable`), and that step keeps the nodes at
which every test is true (`Predicated.keeps`).

## Main results

* `exists_predicated`: fragments make a predicate, or none where there are none.
* `mem_select_descendant`, `mem_select_child`, `mem_select_sibling`: the nodes
  of a path with a further step, from the nodes that lead there.
-/

namespace SelectorPath.XPath

/-! ## Predicates -/

/-- The predicates that stand for tests which must all be true. -/
structure Predicated (tests : List Expr) (es : List Expr) : Prop where
  /-- They are written as the tests are. -/
  text : bracketed es = predicateText (tests.map Expr.render)
  /-- They can be read. -/
  readable : ∀ e ∈ es, e.isReadable = true
  /-- They keep the nodes at which all tests are true. -/
  keeps : ∀ (doc : Document) (nodes : List Node) (n : Node),
    n ∈ es.foldl (keep doc) nodes ↔
      ∃ i, nodes[i]? = some n ∧ ∀ t ∈ tests,
        t.truth (context doc n (i + 1) nodes.length) = true

/-- Tests that can be read back have a predicate. -/
theorem exists_predicated {tests : List Expr}
    (h : ∀ t ∈ tests, t.isFragment = true) :
    ∃ es, Predicated tests es := by
  by_cases hne : tests = []
  · subst hne
    refine ⟨[], rfl, by simp, ?_⟩
    intro doc nodes n
    simp [List.mem_iff_getElem?]
  · obtain ⟨e, hreadable, htest, hrender, htruth⟩ := flatten_render .and hne h
    refine ⟨[e], ?_, by simpa using hreadable, ?_⟩
    · have hnonempty :
          (flatten .and (tests.map Expr.render)).isEmpty = false := by
        rw [← hrender]
        simpa using render_ne_nil hreadable
      rw [predicateText_eq hnonempty, ← hrender]
      exact List.append_nil _
    · intro doc nodes n
      show n ∈ keep doc nodes e ↔ _
      rw [mem_keep_iff]
      simp only [holds_of_isTest _ htest, htruth, Connective.join, List.all_map,
        List.all_eq_true]
      exact Iff.rfl

/-! ## Axes -/

/-- The children of an element by their number. -/
theorem getElem?_childNodes {doc : Document} {parent n : Node} {i : Nat} :
    (doc.childNodes parent)[i]? = some n ↔
      n = i :: parent ∧ i < doc.childCount parent := by
  simp only [Document.childNodes, List.getElem?_map, Option.map_eq_some_iff]
  constructor
  · rintro ⟨j, hj, rfl⟩
    obtain ⟨hlt, rfl⟩ := List.getElem?_eq_some_iff.mp hj
    simpa using hlt
  · rintro ⟨rfl, hlt⟩
    exact ⟨i, by simp [hlt], rfl⟩

/-- All nodes that an axis other than `descendant-or-self` leads to are
elements. -/
theorem filter_anyElement {doc : Document} {parent : Node} {nodes : List Node}
    (h : ∀ n ∈ nodes, n ∈ doc.childNodes parent) :
    nodes.filter (NodeTest.anyElement.accepts doc) = nodes := by
  apply List.filter_eq_self.mpr
  intro n hn
  obtain ⟨i, rfl, -⟩ := Document.mem_childNodes_iff.mp (h n hn)
  rfl

private theorem mem_descendantOrSelf_iff {doc : Document} {m n : Node} :
    n ∈ Axis.descendantOrSelf.nodes doc m ↔ m <:+ n ∧ (doc.find? n).isSome := by
  simp [Axis.nodes, Document.mem_nodes_iff, and_comm]

/-- The tests of a step that lead to children, all of which are elements: a
child is seen in its place among all children. -/
theorem mem_child_any {tests es : List Expr} (h : Predicated tests es)
    {doc : Document} {parent n : Node} :
    n ∈ (⟨.child, .anyElement, es⟩ : Step).select doc parent ↔
      ∃ i, n = i :: parent ∧ i < doc.childCount parent ∧
        ∀ t ∈ tests, t.truth (context doc n (i + 1) (doc.childCount parent)) =
          true := by
  have hnodes : (doc.childNodes parent).filter
      (NodeTest.anyElement.accepts doc) =
      doc.childNodes parent := filter_anyElement fun n hn => hn
  have hlen : (doc.childNodes parent).length = doc.childCount parent := by
    simp [Document.childNodes]
  show n ∈ es.foldl (keep doc) ((doc.childNodes parent).filter _) ↔ _
  rw [hnodes, h.keeps, hlen]
  simp only [getElem?_childNodes, and_assoc]

/-- The tests of a step to following siblings: a sibling is seen in its place
behind the origin. -/
theorem mem_sibling_any {tests es : List Expr} (h : Predicated tests es)
    {doc : Document} {parent n : Node} {j : Nat} :
    n ∈ (⟨.followingSibling, .anyElement, es⟩ : Step).select doc (j :: parent) ↔
      ∃ i, n = (j + 1 + i) :: parent ∧ j + 1 + i < doc.childCount parent ∧
        ∀ t ∈ tests,
          t.truth (context doc n (i + 1) (doc.childCount parent - (j + 1))) =
            true := by
  have hnodes : ((doc.childNodes parent).drop (j + 1)).filter
      (NodeTest.anyElement.accepts doc) =
      (doc.childNodes parent).drop (j + 1) :=
        filter_anyElement fun n hn => List.mem_of_mem_drop hn
  have hlen : ((doc.childNodes parent).drop (j + 1)).length =
      doc.childCount parent - (j + 1) := by
    simp [Document.childNodes]
  show n ∈ es.foldl (keep doc)
      (((doc.childNodes parent).drop (j + 1)).filter _) ↔ _
  rw [hnodes, h.keeps, hlen]
  simp only [List.getElem?_drop, getElem?_childNodes, and_assoc]

/-- The truth of tests that ask for no place. -/
theorem truth_of_isLocal {t : Expr} (h : t.isLocal = true) (doc : Document)
    (n : Node) (position size position' size' : Nat) :
    t.truth (context doc n position size) =
      t.truth (context doc n position' size') := by
  have hvalue :=
    value_of_isLocal h (context doc n position' size') position size
  show (t.value (context doc n position size)).toBool = _
  exact congrArg Value.toBool hvalue

/-- Tests that ask for no place hold of a node wherever a step meets it. -/
theorem mem_step_local {tests es : List Expr} (h : Predicated tests es)
    (hlocal : ∀ t ∈ tests, t.isLocal = true) {doc : Document} {axis : Axis}
    {test : NodeTest} {m n : Node} (position size : Nat) :
    n ∈ (⟨axis, test, es⟩ : Step).select doc m ↔
      n ∈ axis.nodes doc m ∧ test.accepts doc n = true ∧
        ∀ t ∈ tests, t.truth (context doc n position size) = true := by
  show n ∈ es.foldl (keep doc) ((axis.nodes doc m).filter (test.accepts doc)) ↔
      _
  rw [h.keeps]
  constructor
  · rintro ⟨i, hi, htests⟩
    have hmem := List.mem_filter.mp (List.mem_iff_getElem?.mpr ⟨i, hi⟩)
    refine ⟨hmem.1, hmem.2, fun t ht => ?_⟩
    rw [← htests t ht]
    exact truth_of_isLocal (hlocal t ht) doc n _ _ _ _
  · rintro ⟨haxis, haccepts, htests⟩
    obtain ⟨i, hi⟩ :=
      List.mem_iff_getElem?.mp (List.mem_filter.mpr ⟨haxis, haccepts⟩)
    refine ⟨i, hi, fun t ht => ?_⟩
    rw [← htests t ht]
    exact truth_of_isLocal (hlocal t ht) doc n _ _ _ _

/-! ## Paths -/

/-- A step to the children. -/
theorem mem_select_child {doc : Document} {path : List Step} {test : NodeTest}
    {es : List Expr} {n : Node} :
    n ∈ select doc (path ++ Link.child.steps test es) ↔
      ∃ m ∈ select doc path, n ∈ (⟨.child, test, es⟩ : Step).select doc m :=
  mem_select_concat

/-- A step to the later siblings. -/
theorem mem_select_sibling {doc : Document} {path : List Step} {test : NodeTest}
    {es : List Expr} {n : Node} :
    n ∈ select doc (path ++ Link.sibling.steps test es) ↔
      ∃ m ∈ select doc path,
        n ∈ (⟨.followingSibling, test, es⟩ : Step).select doc m :=
  mem_select_concat

/-- A step to everything below. -/
theorem mem_select_descendant {doc : Document} {path : List Step}
    {test : NodeTest} {es : List Expr} {n : Node} :
    n ∈ select doc (path ++ Link.descendant.steps test es) ↔
      ∃ m ∈ select doc path, ∃ parent, m <:+ parent ∧
        (doc.find? parent).isSome ∧
        n ∈ (⟨.child, test, es⟩ : Step).select doc parent := by
  have hsteps : path ++ Link.descendant.steps test es =
      (path ++ [descend]) ++ [⟨.child, test, es⟩] := by
    simp [Link.steps]
  have hdescend : ∀ m parent, parent ∈ descend.select doc m ↔
      m <:+ parent ∧ (doc.find? parent).isSome := by
    intro m parent
    rw [← mem_descendantOrSelf_iff]
    show parent ∈ (Axis.descendantOrSelf.nodes doc m).filter (fun _ => true) ↔ _
    simp
  rw [hsteps, mem_select_concat]
  simp only [mem_select_concat, hdescend]
  constructor
  · rintro ⟨parent, ⟨m, hm, hsuffix, hfind⟩, hn⟩
    exact ⟨m, hm, parent, hsuffix, hfind, hn⟩
  · rintro ⟨m, hm, parent, hsuffix, hfind, hn⟩
    exact ⟨parent, ⟨m, hm, hsuffix, hfind⟩, hn⟩

end SelectorPath.XPath
