import Mathlib
import SelectorPath.Compiler
import SelectorPath.Proofs.ArgumentSpans

/-!
# Depth of calls

Reading a selector list goes on behind each item and reads nested lists;
compiling a token compiles the streams in it, or reads its text as a selector
and compiles what was read. Here the calls are made explicit: `Calls.next` is
the body of each function with its calls handed in, and `within n` lets calls be
nested `n` deep and no deeper. A function that did not end on some input would
have no answer there at any depth.

All of them do end, and at a depth that grows with the input as a straight line:
the answer is there once the depth is above the length of a text that is read,
or above three times the weight of what is compiled, and it stays the same from
there on.

## Main results

* `Calls.Answers.next`: what the calls answer within a depth, the bodies answer
  one deeper.
* `within_answers`: the depths that are enough.
* `recursion_wellFounded`: arguments get shorter, reading moves on, and every
  call ends.
-/

namespace SelectorPath

open SelectorPath.Text (skipBlank)
open SelectorPath.Selector SelectorPath.XPath

/-! ## Answers -/

/-- The answer of a call that has come to its end. -/
def answer {ε α : Type} (x : Except ε α) : ExceptT ε Option α :=
  ExceptT.mk (some x)

private theorem answer_bind {ε α β : Type} {x : Except ε α}
    {f : α → ExceptT ε Option β} {g : α → Except ε β}
    (h : ∀ a, x = .ok a → f a = answer (g a)) :
    answer x >>= f = answer (x >>= g) := by
  cases x with
  | error e => rfl
  | ok a => exact h a rfl

private theorem adapt_answer {ε ε' α : Type} (f : ε → ε') (x : Except ε α) :
    ExceptT.adapt f (answer x) = answer (x.mapError f) := by
  cases x <;> rfl

/-! ## Calls -/

/-- The functions that call each other, with `none` for a call that is nested
too deep. -/
structure Calls where
  read : Ending → Text → ExceptT Fault Option (Stream × List Stream)
  parse : Text → ExceptT ParseError Option (List Stream)
  filters : Token → ExceptT SelectorError Option (List Text)
  streams : List Stream → ExceptT SelectorError Option (List Text)
  expression : Connective → List Stream → ExceptT SelectorError Option Text
  selector : Text → ExceptT SelectorError Option Text
  compile : Registry → Text → ExceptT SelectorError Option Text

namespace Calls

/-- No call has an answer. -/
def unanswered : Calls where
  read _ _ := ExceptT.mk none
  parse _ := ExceptT.mk none
  filters _ := ExceptT.mk none
  streams _ := ExceptT.mk none
  expression _ _ := ExceptT.mk none
  selector _ := ExceptT.mk none
  compile _ _ := ExceptT.mk none

variable (calls : Calls)

/-- The rest of a selector list. -/
def readNext (ending : Ending) :
    Text → ExceptT Fault Option (Stream × List Stream)
  | [] =>
    match ending.endProblem? with
    | some problem => throw ⟨0, problem⟩
    | none => return ([], [])
  | c :: rest =>
    match readItem c rest with
    | .error fault => throw fault
    | .ok (.blank, left) => calls.read ending left
    | .ok (.comma, left) =>
      match ending.endProblem? with
      | some problem => throw ⟨rest.length + 1, problem⟩
      | none => do
        let r ← calls.read .nothing left
        return ([], r.1 :: r.2)
    | .ok (.combinator k place, left) =>
      match ending.combinatorProblem? k with
      | some problem => throw ⟨place, problem⟩
      | none => do
        let r ← calls.read (.combinator k) left
        return (.combinator k :: r.1, r.2)
    | .ok (.token token, left) => do
      let r ← calls.read .simple left
      return (token :: r.1, r.2)
    | .ok (.nested name inner behind, left) => do
      let s ← ExceptT.adapt (·.followedBy behind)
        (calls.read .nothing (skipBlank inner))
      let r ← calls.read .simple left
      return (.pseudoClass name (some (.selectors (s.1 :: s.2))) :: r.1, r.2)

/-- The streams of a selector list. -/
def parseNext (t : Text) : ExceptT ParseError Option (List Stream) := do
  let r ← ExceptT.adapt (fun fault => ⟨t.length - fault.left, fault.problem⟩)
    (calls.read .nothing (skipBlank t))
  return r.1 :: r.2

/-- The fragments of a token. -/
def filtersNext (t : Token) : ExceptT SelectorError Option (List Text) :=
  match t.kind with
  | .tag => return [(tagFilter t.label).render]
  | .attr =>
    match t.test with
    | some test =>
      return (attributeFilters t.label (t.value.getD []) test).map Expr.render
    | none => throw (.missingTest t.label)
  | .pseudoClass =>
    match t.pseudo? with
    | none | some .root | some .comment => throw (.unsupportedPseudo t.label)
    | some .not => do
      let inner ← answer (argumentStreams t)
      let alternatives ← calls.streams inner
      return ["not(" ++ flatten .or alternatives ++ ")"]
    | some .any => do
      let a ← answer (argumentText t)
      let predicate ← calls.selector a
      return [predicate]
    | some .empty =>
      return [(Expr.binary .and (.not .children) (.not .ownLength)).render]
    | some .childless =>
      return [(Expr.binary .and (.not .children)
        (.not (.stringLength .ownText))).render]
    | some .firstChild | some .firstOfType =>
      return [(Expr.binary .equal .position (.number "1")).render]
    | some .lastChild | some .lastOfType =>
      return [(Expr.binary .equal .position .last).render]
    | some .onlyChild =>
      return [(Expr.binary .equal .last (.number "1")).render]
    | some .nthChild | some .nthOfType => do
      let formula ← answer (argumentText t)
      let condition ← answer (positionTest formula)
      return [condition]
    | some (.text relation caseSensitive) => do
      let search ← answer (argumentText t)
      return [(textFilter relation caseSensitive search).render]
  | kind => throw (.unsupportedKind kind)

/-- The fragments of a stream: a call for each token. -/
def streamNext : Stream → ExceptT SelectorError Option (List Text)
  | [] => return []
  | token :: tokens => do
    let first ← calls.filters token
    let others ← streamNext tokens
    return first ++ others

/-- One predicate for each stream. -/
def streamsNext : List Stream → ExceptT SelectorError Option (List Text)
  | [] => return []
  | stream :: streams => do
    let first ← calls.streamNext stream
    let others ← streamsNext streams
    return flatten .and first :: others

/-- The predicate of streams. -/
def expressionNext (op : Connective) (streams : List Stream) :
    ExceptT SelectorError Option Text := do
  let predicates ← calls.streams streams
  return flatten op predicates

/-- The predicate of a selector list that is still to be read. -/
def selectorNext (selector : Text) : ExceptT SelectorError Option Text := do
  let streams ← ExceptT.adapt .malformed (calls.parse selector)
  let alternatives ← calls.streams
    ((unaliasAll streams).map (List.filter isCondition))
  return flatten .or alternatives

/-- The predicate of a selector list with custom pseudo-classes. -/
def compileNext (registry : Registry) (selector : Text) :
    ExceptT SelectorError Option Text := do
  let expanded ← answer (registry.expand selector)
  calls.selector expanded

/-- The functions one call deeper. -/
def next : Calls where
  read := calls.readNext
  parse := calls.parseNext
  filters := calls.filtersNext
  streams := calls.streamsNext
  expression := calls.expressionNext
  selector := calls.selectorNext
  compile := calls.compileNext

/-- What the functions answer when calls are nested no deeper than `depth`. -/
structure Answers (depth : Nat) : Prop where
  read : ∀ ending ahead, ahead.length < depth →
    calls.read ending ahead = answer (parseFrom ending ahead)
  parse : ∀ t, t.length + 1 < depth → calls.parse t = answer (Selector.parse t)
  filters : ∀ t, 3 * t.weight < depth →
    calls.filters t = answer (XPath.filters t)
  streams : ∀ streams, 3 * weightAll streams + 1 < depth →
    calls.streams streams = answer (streamsFilters streams)
  expression : ∀ op streams, 3 * weightAll streams + 2 < depth →
    calls.expression op streams = answer (streamsExpression op streams)
  selector : ∀ selector, 3 * selector.length + 2 < depth →
    calls.selector selector = answer (XPath.subExpression selector)
  compile : ∀ registry selector, 0 < depth →
    (∀ expanded, registry.expand selector = .ok expanded →
      3 * expanded.length + 3 < depth) →
      calls.compile registry selector = answer (subExpression registry selector)

end Calls

/-- The functions with calls nested no deeper than the given depth. -/
def within : Nat → Calls
  | 0 => .unanswered
  | depth + 1 => (within depth).next

namespace Calls

variable {calls : Calls} {depth : Nat}

/-! ## One call deeper -/

private theorem Answers.readNext (h : calls.Answers depth) (ending : Ending)
    {ahead : Text} (hlength : ahead.length ≤ depth) :
    calls.readNext ending ahead = answer (parseFrom ending ahead) := by
  cases ahead with
  | nil =>
    unfold Calls.readNext parseFrom
    cases ending.endProblem? <;> rfl
  | cons c rest =>
    rw [List.length_cons] at hlength
    rw [Calls.readNext, parseFrom]
    cases hitem : readItem c rest with
    | error fault => rfl
    | ok r =>
      obtain ⟨item, left⟩ := r
      have hleft : left.length < depth := by
        have hle := (readItem_suffix hitem).length_le
        omega
      cases item with
      | blank => exact h.read ending left hleft
      | comma =>
        cases ending.endProblem? with
        | some problem => rfl
        | none =>
          simp only [h.read _ left hleft]
          exact answer_bind fun r _ => rfl
      | combinator k place =>
        cases hplace : ending.combinatorProblem? k with
        | some problem => simp only [hplace]; rfl
        | none =>
          simp only [hplace, h.read _ left hleft]
          exact answer_bind fun r _ => rfl
      | token t =>
        simp only [h.read _ left hleft]
        exact answer_bind fun r _ => rfl
      | nested name inner behind =>
        have hinner : (skipBlank inner).length < depth := by
          have hspan := (encloses_of_readItem hitem).length_le
          have hskip := Text.length_skipBlank_le inner
          rw [List.length_cons] at hspan
          omega
        simp only [h.read _ _ hinner, h.read _ left hleft, adapt_answer]
        cases parseFrom .nothing (skipBlank inner) with
        | error fault => rfl
        | ok s => exact answer_bind fun r _ => rfl

private theorem Answers.parseNext (h : calls.Answers depth) {t : Text}
    (hlength : t.length < depth) :
    calls.parseNext t = answer (Selector.parse t) := by
  have hskip := Text.length_skipBlank_le t
  rw [Calls.parseNext, h.read _ _ (by omega), adapt_answer, Selector.parse]
  cases parseFrom .nothing (skipBlank t) with
  | error fault => rfl
  | ok r => rfl

private theorem Answers.filtersNext (h : calls.Answers depth) {t : Token}
    (hweight : 3 * t.weight ≤ depth) :
    calls.filtersNext t = answer (XPath.filters t) := by
  rw [Calls.filtersNext, XPath.filters]
  cases t.kind with
  | tag => rfl
  | attr =>
    cases t.test with
    | none => rfl
    | some test => rfl
  | pseudoClass =>
    cases t.pseudo? with
    | none => rfl
    | some pseudo =>
      cases pseudo with
      | not =>
        simp only
        cases hargument : argumentStreams t with
        | error e => rfl
        | ok streams =>
          have hlt := argumentStreams_weight hargument
          show (calls.streams streams >>= _) =
              answer (streamsFilters streams >>= _)
          rw [h.streams streams (by omega)]
          exact answer_bind fun alternatives _ => rfl
      | any =>
        simp only
        cases hargument : argumentText t with
        | error e => rfl
        | ok a =>
          have hlt := argumentText_length hargument
          show (calls.selector a >>= _) = answer (XPath.subExpression a >>= _)
          rw [h.selector a (by omega)]
          exact answer_bind fun predicate _ => rfl
      | nthChild =>
        exact answer_bind fun formula _ => answer_bind fun condition _ => rfl
      | nthOfType =>
        exact answer_bind fun formula _ => answer_bind fun condition _ => rfl
      | text relation caseSensitive => exact answer_bind fun search _ => rfl
      | root => rfl
      | comment => rfl
      | empty => rfl
      | childless => rfl
      | firstChild => rfl
      | firstOfType => rfl
      | lastChild => rfl
      | lastOfType => rfl
      | onlyChild => rfl
  | universal => rfl
  | pseudoElement => rfl
  | combinator c => rfl
  | root => rfl

private theorem Answers.streamNext (h : calls.Answers depth) {stream : Stream}
    (hweight : 3 * weightStream stream < depth) :
    calls.streamNext stream = answer (streamFilters stream) := by
  induction stream with
  | nil =>
    rw [streamFilters]
    rfl
  | cons token tokens ih =>
    rw [weightStream] at hweight
    rw [Calls.streamNext, streamFilters, h.filters token (by omega),
      ih (by omega)]
    exact answer_bind fun first _ => answer_bind fun others _ => rfl

private theorem Answers.streamsNext (h : calls.Answers depth)
    {streams : List Stream} (hweight : 3 * weightAll streams < depth) :
    calls.streamsNext streams = answer (streamsFilters streams) := by
  induction streams with
  | nil =>
    rw [streamsFilters]
    rfl
  | cons stream streams ih =>
    rw [weightAll] at hweight
    rw [Calls.streamsNext, streamsFilters, h.streamNext (by omega),
      ih (by omega)]
    exact answer_bind fun first _ => answer_bind fun others _ => rfl

private theorem Answers.expressionNext (h : calls.Answers depth)
    (op : Connective) {streams : List Stream}
    (hweight : 3 * weightAll streams + 1 < depth) :
    calls.expressionNext op streams =
      answer (streamsExpression op streams) := by
  rw [Calls.expressionNext, streamsExpression, h.streams streams hweight]
  exact answer_bind fun predicates _ => rfl

private theorem Answers.selectorNext (h : calls.Answers depth) {selector : Text}
    (hlength : 3 * selector.length + 1 < depth) :
    calls.selectorNext selector = answer (XPath.subExpression selector) := by
  rw [Calls.selectorNext, h.parse selector (by omega), adapt_answer,
    XPath.subExpression]
  cases hparse : Selector.parse selector with
  | error e => rfl
  | ok streams =>
    have hweight : weightAll
        ((unaliasAll streams).map (List.filter isCondition)) ≤
        selector.length := by
      have hfilter := weightAll_map_filter_le isCondition (unaliasAll streams)
      rw [weightAll_unaliasAll] at hfilter
      exact hfilter.trans (parse_weight hparse)
    show (calls.streams _ >>= _) = answer (streamsFilters _ >>= _)
    rw [h.streams _ (by omega)]
    exact answer_bind fun alternatives _ => rfl

private theorem Answers.compileNext (h : calls.Answers depth)
    {registry : Registry} {selector : Text}
    (hlength : ∀ expanded, registry.expand selector = .ok expanded →
      3 * expanded.length + 2 < depth) :
    calls.compileNext registry selector =
      answer (subExpression registry selector) := by
  rw [Calls.compileNext, subExpression]
  exact answer_bind fun expanded hexpanded =>
    h.selector expanded (hlength expanded hexpanded)

/-- What the calls answer within a depth, the functions answer one deeper. -/
theorem Answers.next (h : calls.Answers depth) :
    calls.next.Answers (depth + 1) where
  read ending _ hlength := h.readNext ending (by omega)
  parse _ hlength := h.parseNext (by omega)
  filters _ hweight := h.filtersNext (by omega)
  streams _ hweight := h.streamsNext (by omega)
  expression op _ hweight := h.expressionNext op (by omega)
  selector _ hlength := h.selectorNext (by omega)
  compile _ _ _ hlength := h.compileNext fun expanded hexpanded => by
    have hlt := hlength expanded hexpanded
    omega

end Calls

/-! ## Every depth -/

/-- Every call is answered once the depth is above what its input weighs. -/
theorem within_answers (depth : Nat) : (within depth).Answers depth := by
  induction depth with
  | zero =>
    -- No input weighs less than nothing.
    constructor
    all_goals intros; omega
  | succ depth ih => exact ih.next

/-- Arguments get shorter at every depth, reading an item takes at least its
first character, and all calls of reading and compiling come to their end. -/
theorem recursion_wellFounded :
    (∀ (s : Text) (streams : List Stream), Selector.parse s = .ok streams →
      ∀ t : Token, t.Inside streams →
      (∀ a, t.argument = some (.text a) → a.length + 4 ≤ s.length) ∧
      ∀ inner, t.argument = some (.selectors inner) →
        ∃ u, s.Encloses u ∧ u.length + 4 ≤ s.length ∧
          Selector.parse u = .ok inner) ∧
    (∀ c rest item left, readItem c rest = .ok (item, left) →
      left <:+ rest ∧ left.length < (c :: rest).length) ∧
    ∀ depth, (within depth).Answers depth := by
  refine ⟨fun s streams hparse t ht => ?_, fun c rest item left hitem => ?_,
    within_answers⟩
  · cases argumentFrom_of_inside hparse ht with
    | none hargument => simp [hargument]
    | text hargument hspan =>
      rw [hargument]
      refine ⟨?_, ?_⟩
      · rintro a ⟨⟩
        exact hspan.length_le
      · rintro inner ⟨⟩
    | selectors hargument hspan hread =>
      rw [hargument]
      refine ⟨?_, ?_⟩
      · rintro a ⟨⟩
      · rintro inner ⟨⟩
        exact ⟨_, hspan, hspan.length_le, hread⟩
  · have hsuffix := readItem_suffix hitem
    refine ⟨hsuffix, ?_⟩
    rw [List.length_cons]
    exact Nat.lt_succ_of_le hsuffix.length_le

/-- A text argument inside a nested selector list. -/
theorem recursion_wellFounded_anyInNot :
    Selector.parse ":not(:any(p))" =
      .ok
        [[.pseudoClass "not"
        (some (.selectors [[.pseudoClass "any" (some (.text "p"))]]))]] ∧
    ("p" : Text).length + 4 ≤ (":not(:any(p))" : Text).length ∧
    (∃ u, Text.Encloses ":not(:any(p))" u ∧
      u.length + 4 ≤ (":not(:any(p))" : Text).length ∧
      Selector.parse u = .ok [[.pseudoClass "any" (some (.text "p"))]]) ∧
    ([] : Text) <:+ "any(p)" ∧
    (within 42).selector ":not(:any(p))" =
      answer (XPath.subExpression ":not(:any(p))") := by
  have hany : readItem ':' "any(p)" =
      .ok (.token (.pseudoClass "any" (some (.text "p"))), []) := by
    have hname : takeName "any(p)" = ("any".toList, "(p)".toList) := by cbv
    have hraw : takeArgument "p)" = (.ok "p".toList, []) := by cbv
    have hkind : takesSelectors (pseudoName "any(p)") = false := by
      rw [pseudoName, hname]
      decide
    have hread := @ReadsPseudo.text false "any(p)" "p)" "p" [] (by decide)
      (by rw [hname]; rfl) hraw (.inr hkind)
    rw [pseudoName, hname] at hread
    exact readItem_eq_ok_iff.mpr (.pseudo hread)
  have hnot : readItem ':' "not(:any(p))" =
      .ok (.nested "not" ":any(p)" 1, []) := by
    cbv
  have hend : parseFrom .simple [] = .ok ([], []) := by
    rw [parseFrom]
    rfl
  have hinner : parseFrom .nothing (skipBlank ":any(p)") =
      .ok ([.pseudoClass "any" (some (.text "p"))], []) := by
    show parseFrom .nothing (':' :: "any(p)".toList) = _
    rw [parseFrom_of_adds hany .token, hend]
    rfl
  have hparse : Selector.parse ":not(:any(p))" =
      .ok
        [[.pseudoClass "not"
        (some (.selectors [[.pseudoClass "any" (some (.text "p"))]]))]] := by
    refine parse_eq_ok_iff.mpr ⟨(_, []), ?_, rfl⟩
    show parseFrom .nothing (':' :: "not(:any(p))".toList) = _
    rw [parseFrom_of_adds hnot (.nested hinner), hend]
    rfl
  obtain ⟨harguments, hitems, hcalls⟩ := recursion_wellFounded
  have hinside := harguments _ _ hparse
  refine ⟨hparse, ?_, ?_, (hitems _ _ _ _ hany).1,
    (hcalls 42).selector _ (by decide)⟩
  · exact (hinside _ (.deeper List.mem_cons_self List.mem_cons_self rfl
      (.here List.mem_cons_self List.mem_cons_self))).1 _ rfl
  · exact (hinside _ (.here List.mem_cons_self List.mem_cons_self)).2 _ rfl

end SelectorPath
