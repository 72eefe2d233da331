import Mathlib
import SelectorPath.Proofs.Complement
import SelectorPath.Proofs.ForwardPass
import SelectorPath.Proofs.NestedPredicates

/-!
# Steps of compounds with a type selector

A compound of a type selector and conditions becomes one step. Its node test is
the name, and its predicate joins the filters of the conditions in their order.
A child position counts among all siblings, so it makes the node test `*` and
puts a test of the name in front of its own filter.

The node test belongs to the whole step, though. Beside a child position a
`*-of-type` pseudo-class counts among all siblings too, and
`p:first-of-type:last-child` asks for a `p` that is an only child.

## Main results

* `compoundTests_eq_ok_iff`: the tests of a compound, from the fragments of its
  tokens.
* `locationPath_typed`: the path of one compound.
* `locationPath_typed_step`: the step of a compound anywhere in a stream, and
  what its predicate counts.
-/

namespace SelectorPath.XPath

/-! ## Conditions behind a type selector -/

/-- Whether a token is an attribute test or a pseudo-class other than
`:comment`. -/
def isQualifier (t : Token) : Bool :=
  (t.kind == .attr || t.kind == .pseudoClass) && t.pseudo? != some .comment

/-- Whether a token counts among all siblings. -/
def countsAll (t : Token) : Bool :=
  t.pseudo?.any PseudoClass.isChildPosition

/-- The tests of a compound with a type selector: the fragments of its tokens in
order, with a test of the name in front of those that count among all
siblings. -/
def typedTests (name : Text) (tokens : Stream) : List Text :=
  tokens.flatMap fun t =>
    (if countsAll t then ["name() = '" ++ name ++ "'"] else []) ++ fragments t

private theorem conditional_of_isQualifier {t : Token}
    (h : isQualifier t = true) (name : Text) :
    conditional (some name) t = true := by
  simp only [isQualifier, Bool.and_eq_true, Bool.or_eq_true, beq_iff_eq,
    bne_iff_ne] at h
  obtain ⟨hkind, hcomment⟩ := h
  rcases hkind with hkind | hkind <;>
    simp [conditional, Draft.beginsStep, hkind, hcomment, Kind.isCombinator,
      Kind.isNodeTest]

private theorem nameTest_eq_text (name : Text) :
    nameTest name = "name() = '" ++ name ++ "'" := rfl

private theorem compoundTests_cons (name : Text) (t : Token) (rest : Stream) :
    compoundTests (some name) (t :: rest) = (do
      let first ← filters t
      let others ← compoundTests (some name) rest
      .ok ((if countsAll t then [nameTest name] else []) ++ first ++
        others)) := by
  rw [compoundTests, countsAll]
  cases t.pseudo?.any PseudoClass.isChildPosition <;> rfl

/-- A compound has tests exactly if all its tokens have filters. -/
theorem compoundTests_eq_ok_iff {name : Text} {tokens : Stream}
    {tests : List Text} :
    compoundTests (some name) tokens = .ok tests ↔
      (∀ t ∈ tokens, filters t = .ok (fragments t)) ∧ typedTests name tokens =
        tests := by
  induction tokens generalizing tests with
  | nil =>
    exact ⟨fun h => ⟨List.forall_mem_nil _, Except.ok.inj h⟩,
      fun h => congrArg Except.ok h.2⟩
  | cons t rest ih =>
    rw [compoundTests_cons, bind_eq_ok_iff, List.forall_mem_cons, typedTests,
      List.flatMap_cons, ← nameTest_eq_text]
    constructor
    · rintro ⟨first, hfirst, h⟩
      obtain ⟨others, hothers, h⟩ := bind_eq_ok_iff.mp h
      obtain ⟨hrest, rfl⟩ := ih.mp hothers
      rw [fragments_of_filters hfirst]
      exact ⟨⟨hfirst, hrest⟩, Except.ok.inj h⟩
    · rintro ⟨⟨hfirst, hrest⟩, rfl⟩
      exact ⟨_, hfirst, bind_eq_ok_iff.mpr ⟨_, ih.mpr ⟨hrest, rfl⟩, rfl⟩⟩

/-- A node test is widened by the tokens that count among all siblings. -/
theorem positionTests_eq_zero_iff {tokens : Stream}
    (h : ∀ t ∈ tokens, isQualifier t = true) :
    positionTests tokens = 0 ↔ tokens.any countsAll = false := by
  induction tokens with
  | nil => simp [positionTests]
  | cons t rest ih =>
    rw [List.forall_mem_cons] at h
    have hbegins := beginsStep_conditional (conditional_of_isQualifier h.1 [])
    rw [positionTests_cons rest hbegins, List.any_cons, Bool.or_eq_false_iff,
      ← ih h.2, countsAll]
    cases t.pseudo?.any PseudoClass.isChildPosition <;> simp

/-- The name in the node test of a compound: none where a token counts among all
siblings. -/
def typedNode (name : Text) (tokens : Stream) : Option Text :=
  if tokens.any countsAll then none else some name

private theorem render_typedNode (name : Text) {tokens : Stream}
    (h : ∀ t ∈ tokens, isQualifier t = true) :
    (widenedBy name (positionTests tokens) (.test name)).render =
      elementTest (typedNode name tokens) := by
  have hzero := positionTests_eq_zero_iff h
  rw [widenedBy_test, typedNode]
  cases hany : tokens.any countsAll with
  | false =>
    rw [if_pos (hzero.mpr hany)]
    rfl
  | true =>
    rw [if_neg (by simp [hzero, hany])]
    rfl

/-- A condition in brackets; an empty one is not written. -/
def inBrackets (condition : Text) : Text :=
  if condition = [] then [] else "[" ++ condition ++ "]"

private theorem predicateText_eq_inBrackets (tests : List Text) :
    predicateText tests = inBrackets (flatten .and tests) := by
  rw [inBrackets]
  split
  · rename_i h
    rw [predicateText, Draft.predicate, h]
    rfl
  · rename_i h
    exact predicateText_eq (by simpa using h)

/-! ## One compound -/

private theorem locationPath_typed_eq_ok_iff (name : Text) {tokens : Stream}
    {out : Text} (h : ∀ t ∈ tokens, isQualifier t = true) :
    locationPath (.tag name :: tokens) = .ok out ↔
      (∀ t ∈ tokens, filters t = .ok (fragments t)) ∧
        "//" ++ elementTest (typedNode name tokens) ++
          predicateText (typedTests name tokens) = out := by
  have hcond : ∀ t ∈ tokens, conditional (some name) t = true := fun t ht =>
    conditional_of_isQualifier (h t ht) name
  rw [locationPath_eq_extension (isJoined_conditional name hcond) rfl,
    extension_tag .descendant name hcond, map_eq_ok_iff]
  have haxis : axisText .descendant = "//" := by decide
  show (∃ tests, _ ∧
      axisText .descendant ++
      ((widenedBy name (positionTests tokens) (.test name)).render
    ++ predicateText ([] ++ tests)) = out) ↔ _
  simp only [haxis, render_typedNode name h, List.nil_append, List.append_assoc,
    compoundTests_eq_ok_iff]
  constructor
  · rintro ⟨tests, ⟨hfilters, rfl⟩, rfl⟩
    exact ⟨hfilters, rfl⟩
  · rintro ⟨hfilters, rfl⟩
    exact ⟨_, ⟨hfilters, rfl⟩, rfl⟩

/-- The path of a type selector with conditions. -/
theorem locationPath_typed (name : Text) {tokens : Stream}
    (h : ∀ t ∈ tokens, isQualifier t = true) :
    ((∀ t ∈ tokens, ∃ fs, filters t = .ok fs) →
      locationPath (.tag name :: tokens) =
        .ok ("//" ++ elementTest (typedNode name tokens) ++
          inBrackets (flatten .and (typedTests name tokens)))) ∧
    ((∃ t ∈ tokens, ∃ e, filters t = .error e) →
      ∃ e, locationPath (.tag name :: tokens) = .error e) := by
  refine ⟨fun hfilters => ?_, ?_⟩
  · rw [locationPath_typed_eq_ok_iff name h, ← predicateText_eq_inBrackets]
    refine ⟨fun t ht => ?_, rfl⟩
    obtain ⟨fs, hfs⟩ := hfilters t ht
    rw [fragments_of_filters hfs, hfs]
  · rintro ⟨t, ht, e, he⟩
    cases hpath : locationPath (.tag name :: tokens) with
    | error e => exact ⟨e, rfl⟩
    | ok out =>
      have hfilters := ((locationPath_typed_eq_ok_iff name h).mp hpath).1 t ht
      rw [he] at hfilters
      cases hfilters

/-- The conditions of an element with an attribute that is the first of its type
and the last child. -/
def lastOfAll : Stream :=
  [.attr "a" .present none, .pseudoClass "first-of-type" none,
    .pseudoClass "last-child" none]

private theorem compoundTests_lastOfAll :
    compoundTests (some "p") lastOfAll =
      .ok [("@a" : Text), "position() = 1", "name() = 'p'",
        "position() = last()"] := by
  have hattr : filters (.attr "a" .present none) = .ok [("@a" : Text)] := by
    rw [filters]
    rfl
  have hfirst : filters (.pseudoClass "first-of-type" none) =
      .ok [("position() = 1" : Text)] := by
    rw [filters]
    rfl
  have hlast : filters (.pseudoClass "last-child" none) =
      .ok [("position() = last()" : Text)] := by
    rw [filters]
    rfl
  rw [lastOfAll, compoundTests_cons, compoundTests_cons, compoundTests_cons,
    hattr, hfirst, hlast]
  rfl

/-- A compound with both families of positions. -/
theorem locationPath_typed_lastOfAll :
    (∀ t ∈ lastOfAll, isQualifier t = true) ∧
      (∀ t ∈ lastOfAll, ∃ fs, filters t = .ok fs) ∧
    locationPath (.tag "p" :: lastOfAll) =
      .ok
        "//*[@a and (position() = 1) and (name() = 'p') and (position() = last())]" := by
  have hqualifiers : ∀ t ∈ lastOfAll, isQualifier t = true := by decide
  obtain ⟨hfilters, htests⟩ :=
    compoundTests_eq_ok_iff.mp compoundTests_lastOfAll
  have hsome : ∀ t ∈ lastOfAll, ∃ fs, filters t = .ok fs :=
    fun t ht => ⟨_, hfilters t ht⟩
  refine ⟨hqualifiers, hsome, ?_⟩
  rw [(locationPath_typed "p" hqualifiers).1 hsome, htests]
  decide

/-! ## A compound in a stream -/

/-- What a stream writes by itself. -/
def writtenAlone (stream : Stream) : Except SelectorError Text :=
  (({} : Draft).advanceAll none (place stream).tokens).map Draft.render

/-- Whether a compound behind the tokens begins a step down the tree: it is the
first, or a descendant or child combinator stands in front of it. -/
def opensBelow (front : Stream) : Bool :=
  front.getLast?.all (·.kind.isDownwardAxis)

private theorem lastKind_concat (previous : Option Kind) (front : Stream)
    (t : Token) :
    Draft.lastKind previous (front ++ [t]) = some t.kind := by
  induction front generalizing previous with
  | nil => rfl
  | cons first rest ih => exact ih _

private theorem lastKind_of_forall_not {previous : Option Kind}
    {stream : Stream} (hprevious : previous.any Kind.isCombinator = false)
    (h : ∀ t ∈ stream, t.kind.isCombinator = false) :
    (Draft.lastKind previous stream).any Kind.isCombinator = false := by
  induction stream generalizing previous with
  | nil => exact hprevious
  | cons t rest ih =>
    rw [List.forall_mem_cons] at h
    exact ih h.1 h.2

/-- A combinator down the tree leaves a draft with no tests, which ends with its
axis. -/
theorem advance_downward {d d' : Draft} {previous : Option Kind} {p : Placed}
    {c : Combinator} (hkind : p.token.kind = .combinator c)
    (hdown : c.isSibling = false) (h : d.advance previous p = .ok d') :
    ∃ base, d' = ({} : Draft).onto (axisPieces c ++ base) := by
  have hwritten : Draft.isWritten previous p = false := by
    simp [Draft.isWritten, hkind, Kind.isNodeTest]
  rw [Draft.advance_eq, hwritten] at h
  simp only [Bool.false_eq_true, if_false, Draft.write, hkind,
    Except.ok.injEq] at h
  refine ⟨(d.enter previous p).commit.pieces, ?_⟩
  rw [← h]
  cases c with
  | descendant => simp [axisPieces, Draft.commit_eq, Draft.onto, Draft.push]
  | child => simp [axisPieces, Draft.commit_eq, Draft.onto, Draft.push]
  | _ => cases hdown

/-- The tokens in front of a compound that begins a step down the tree, seen
from the top. -/
theorem exists_downward_of_opensBelow {front : Stream}
    (h : opensBelow front = true) :
    ∃ before t c, fromTop front = before ++ [t] ∧ t.kind = .combinator c ∧
      c.isSibling = false := by
  rcases List.eq_nil_or_concat' front with rfl | ⟨before, t, rfl⟩
  · exact ⟨[], .combinator .descendant, .descendant, rfl, rfl, rfl⟩
  · rw [opensBelow, List.getLast?_concat, Option.all_some] at h
    obtain ⟨c, hkind⟩ : ∃ c, t.kind = .combinator c := by
      cases hkind : t.kind with
      | combinator c => exact ⟨c, rfl⟩
      | _ =>
        rw [hkind] at h
        cases h
    have hdown : c.isSibling = false := by simpa [hkind] using h
    by_cases hbefore : before = []
    · subst hbefore
      have hroot : t.pseudo? ≠ some .root := by simp [Token.pseudo?, hkind]
      exact ⟨[.combinator .descendant], t, c, if_neg hroot, hkind, hdown⟩
    · exact ⟨fromTop before, t, c, fromTop_append hbefore [t], hkind, hdown⟩

private theorem fromTop_typed (front : Stream) (name : Text) (rest : Stream) :
    fromTop (front ++ .tag name :: rest) =
      fromTop front ++ .tag name :: rest := by
  cases front with
  | nil => rfl
  | cons t front => exact fromTop_append (List.cons_ne_nil t front) _

/-- Behind a compound, a stream is written as it is alone. -/
theorem render_advanceAll_behind {back : Stream} {d d' : Draft}
    {previous : Option Kind}
    (hprevious : previous.any Kind.isCombinator = false)
    (hback : back.head?.all (·.kind.isCombinator) = true)
    (hroot : ∀ t ∈ back, t.kind ≠ .root) (htyped : (place back).untyped? = none)
    (h : d.advanceAll previous (place back).tokens = .ok d') :
    ∃ after, writtenAlone back = .ok after ∧ d'.render = d.render ++ after := by
  cases back with
  | nil =>
    cases h
    exact ⟨[], rfl, (List.append_nil _).symm⟩
  | cons t rest =>
    obtain ⟨c, hkind⟩ := Kind.eq_combinator hback
    have hplace : place (t :: rest) = .cons ⟨t, none⟩ (place rest) := by
      rw [place, placeFrom, hkind]
      rfl
    have hstep : ∀ {d : Draft} {previous : Option Kind},
        previous.any Kind.isCombinator = false →
        d.advance previous ⟨t, none⟩ =
          .ok (({} : Draft).onto (axisPieces c ++ d.commit.pieces)) := by
      intro d previous hprevious
      rw [Draft.advance_plain hprevious]
      cases c <;> simp [Draft.write, hkind, axisPieces, Draft.commit_eq,
          Draft.onto, Draft.push]
    have hrun : ∀ {d : Draft} {previous : Option Kind},
        previous.any Kind.isCombinator = false →
        d.advanceAll previous (place (t :: rest)).tokens =
          (({} : Draft).advanceAll (some (.combinator c))
            (place rest).tokens).map
            (·.onto (axisPieces c ++ d.commit.pieces)) := by
      intro d previous hprevious
      rw [hplace] at htyped ⊢
      rw [Placement.cons, Draft.advanceAll, hstep hprevious,
        ← advanceAll_behind _
        (fun t ht => hroot t (List.mem_cons_of_mem _ ht)) htyped, hkind]
      rfl
    rw [hrun hprevious, map_eq_ok_iff] at h
    obtain ⟨d'', hd, rfl⟩ := h
    refine ⟨axisText c ++ d''.render, ?_, ?_⟩
    · rw [writtenAlone, hrun rfl, hd]
      show Except.ok _ = Except.ok _
      rw [render_behind]
      rfl
    · rw [render_behind, ← Draft.render_eq_text]

/-- The step of a compound with a type selector, behind a combinator down the
tree. -/
theorem advanceAll_typed_downward (name : Text) {tokens : Stream}
    {c : Combinator} {d : Draft} (h : ∀ t ∈ tokens, isQualifier t = true)
    (hdown : c.isSibling = false)
    (hrun : ({} : Draft).advanceAll (some (.combinator c))
      (place (.tag name :: tokens)).tokens = .ok d) :
    (∀ t ∈ tokens, filters t = .ok (fragments t)) ∧
      d.render = elementTest (typedNode name tokens) ++
        inBrackets (flatten .and (typedTests name tokens)) := by
  have hcond : ∀ t ∈ tokens, conditional (some name) t = true := fun t ht =>
    conditional_of_isQualifier (h t ht) name
  rw [advanceAll_tag c name hcond, map_eq_ok_iff] at hrun
  obtain ⟨tests, htests, rfl⟩ := hrun
  obtain ⟨hfilters, rfl⟩ := compoundTests_eq_ok_iff.mp htests
  have hlead : leadPiece c (some name) = .test name ∧
      leadTests c (some name) = [] := by
    cases c with
    | descendant => exact ⟨rfl, rfl⟩
    | child => exact ⟨rfl, rfl⟩
    | _ => cases hdown
  refine ⟨hfilters, ?_⟩
  rw [render_single, hlead.1, hlead.2, List.nil_append, render_typedNode name h,
    predicateText_eq_inBrackets]

/-- In front of a compound that begins a step down the tree, the draft has no
tests and ends with an axis. -/
theorem advanceAll_opensBelow {front : Stream} {d : Draft}
    (h : opensBelow front = true)
    (hrun : ({} : Draft).advanceAll none (place (fromTop front)).tokens =
      .ok d) :
    ∃ c base, c.isSibling = false ∧ Draft.lastKind none (fromTop front) =
      some (.combinator c) ∧
      d = ({} : Draft).onto (axisPieces c ++ base) := by
  obtain ⟨before, t, c, htop, hkind, hdown⟩ := exists_downward_of_opensBelow h
  have htokens : (place (fromTop front)).tokens.map Placed.token =
      before ++ [t] := by
    rw [place, map_token_placeFrom, htop]
  obtain ⟨placed, last, hplaced, -, hlast⟩ := List.map_eq_append_iff.mp htokens
  obtain ⟨p, rest, rfl, hp, hrest⟩ := List.map_eq_cons_iff.mp hlast
  rw [List.map_eq_nil_iff.mp hrest] at hplaced
  rw [hplaced, Draft.advanceAll_append] at hrun
  obtain ⟨d', -, hstep⟩ := bind_eq_ok_iff.mp hrun
  obtain ⟨d'', hstep, hend⟩ := bind_eq_ok_iff.mp hstep
  cases hend
  obtain ⟨base, rfl⟩ := advance_downward (hp ▸ hkind) hdown hstep
  exact ⟨c, base, hdown, by rw [htop, lastKind_concat, hkind], rfl⟩

/-- The path of a stream, cut in front of a type selector that begins a step
down the tree. -/
theorem locationPath_cut {front rest : Stream} {name out : Text}
    (hfront : opensBelow front = true) (hroot : ∀ t ∈ rest, t.kind ≠ .root)
    (hout : locationPath (front ++ .tag name :: rest) = .ok out) :
    ∃ before c d, locationPath front = .ok before ∧ c.isSibling = false ∧
      (place (.tag name :: rest)).untyped? = none ∧
      ({} : Draft).advanceAll (some (.combinator c))
        (place (.tag name :: rest)).tokens = .ok d ∧
      out = before ++ d.render := by
  obtain ⟨htyped, d, hrun, rfl⟩ := locationPath_eq_ok_iff.mp hout
  rw [fromTop_typed] at htyped hrun
  have hfrontTyped : (place (fromTop front)).untyped? = none := by
    cases huntyped : (place (fromTop front)).untyped? with
    | none => rfl
    | some pseudo =>
      rw [place, untyped?_append_of_some _ huntyped] at htyped
      cases htyped
  -- A combinator stands in front, so the forward pass starts anew.
  have hcut : compoundType (fromTop front) = none := by
    obtain ⟨before, t, c, htop, hkind, -⟩ :=
      exists_downward_of_opensBelow hfront
    rw [htop, compoundType_concat, Token.passOn, hkind]
    rfl
  rw [place_append hfrontTyped (.inl hcut)] at htyped hrun
  have hmap : (place (fromTop front)).tokens.map Placed.token = fromTop front :=
    map_token_placeFrom none _
  rw [Draft.advanceAll_append, hmap] at hrun
  obtain ⟨d₀, hd₀, hrun⟩ := bind_eq_ok_iff.mp hrun
  obtain ⟨c, base, hdown, hlast, rfl⟩ := advanceAll_opensBelow hfront hd₀
  have hrootless : ∀ t ∈ Token.tag name :: rest, t.kind ≠ .root :=
    List.forall_mem_cons.mpr ⟨by simp [Token.tag], hroot⟩
  rw [hlast, advanceAll_behind base hrootless htyped, map_eq_ok_iff] at hrun
  obtain ⟨d₁, hd₁, rfl⟩ := hrun
  refine ⟨_, c, d₁, locationPath_eq_ok_iff.mpr ⟨hfrontTyped, _, hd₀, rfl⟩,
    hdown, htyped, hd₁, ?_⟩
  have hempty : ({} : Draft).render = [] := by decide
  rw [Draft.render_onto, Draft.render_onto, hempty, List.append_nil]

/-- The step of a compound with a type selector in the path of a stream: between
the path of what stands in front of the compound and what is written behind
it. -/
theorem locationPath_around {front tokens back : Stream} {name out : Text}
    (hfront : opensBelow front = true)
    (htokens : ∀ t ∈ tokens, isQualifier t = true)
    (hback : back.head?.all (·.kind.isCombinator) = true)
    (hroot : ∀ t ∈ back, t.kind ≠ .root)
    (hout : locationPath (front ++ .tag name :: (tokens ++ back)) = .ok out) :
    ∃ before after, locationPath front = .ok before ∧
      writtenAlone back = .ok after ∧
      (∀ t ∈ tokens, filters t = .ok (fragments t)) ∧
      out = before ++ (elementTest (typedNode name tokens) ++
        inBrackets (flatten .and (typedTests name tokens)) ++ after) := by
  have hcond : ∀ t ∈ tokens, conditional (some name) t = true := fun t ht =>
    conditional_of_isQualifier (htokens t ht) name
  have hrootless : ∀ t ∈ tokens ++ back, t.kind ≠ .root :=
    List.forall_mem_append.mpr ⟨fun t ht => ne_root_conditional (hcond t ht),
      hroot⟩
  obtain ⟨before, c, d, hbefore, hdown, htyped, hrun, rfl⟩ :=
    locationPath_cut hfront hrootless hout
  have htokensTyped : (place (.tag name :: tokens)).untyped? = none := by
    show (placeFrom (some name) tokens).untyped? = none
    exact untyped?_conditional hcond
  have hplace : place (.tag name :: (tokens ++ back)) =
      ⟨(place (.tag name :: tokens)).tokens ++ (place back).tokens,
        (place back).untyped?⟩ :=
    place_append htokensTyped (.inr hback)
  have hmap : (place (.tag name :: tokens)).tokens.map Placed.token =
      .tag name :: tokens :=
    map_token_placeFrom none _
  rw [hplace] at htyped hrun
  rw [Draft.advanceAll_append, hmap] at hrun
  obtain ⟨d₀, hd₀, hrun⟩ := bind_eq_ok_iff.mp hrun
  have hlast : (Draft.lastKind (some .tag) tokens).any Kind.isCombinator =
      false :=
    lastKind_of_forall_not rfl fun t ht => isCombinator_conditional (hcond t ht)
  obtain ⟨hfilters, hrender⟩ := advanceAll_typed_downward name htokens hdown hd₀
  obtain ⟨after, hafter, hd⟩ :=
    render_advanceAll_behind hlast hback hroot htyped hrun
  exact ⟨before, after, hbefore, hafter, hfilters, by rw [hd, hrender]⟩

/-! ## What a predicate counts -/

/-- Whether the predicate of a step to children with the given node test sees an
element of the given name in its place among the siblings of that name. -/
def CountsType (node : Option Text) (name : Text) : Prop :=
  ∀ (doc : Document) (e : Expr) (i : Nat) (parent : Node),
    (NodeTest.named name).accepts doc (i :: parent) = true →
    (i :: parent ∈ (⟨.child, .ofName? node, [e]⟩ : Step).select doc parent ↔
      e.holds (context doc (i :: parent) (doc.typePosition name (i :: parent))
        (doc.typeCount name (i :: parent))) = true)

private theorem lt_childCount_of_accepts {doc : Document} {name : Text}
    {i : Nat} {parent : Node}
    (h : (NodeTest.named name).accepts doc (i :: parent) = true) :
    i < doc.childCount parent := by
  simp only [NodeTest.accepts, Bool.and_eq_true, Option.any_eq_true] at h
  obtain ⟨-, e, he, -⟩ := h
  exact Document.isSome_find?_cons.mp (by simp [he])

/-- In a step to children of one name, a predicate sees a child in its place
among those. -/
theorem countsType_named (name : Text) : CountsType (some name) name := by
  intro doc e i parent haccepts
  show i :: parent ∈ keep doc ((doc.childNodes parent).filter _) e ↔ _
  rw [mem_keep_iff, ← List.countP_eq_length_filter]
  simp only [getElem?_filter_iff, getElem?_childNodes]
  constructor
  · rintro ⟨k, ⟨j, ⟨heq, -⟩, -, rfl⟩, hholds⟩
    cases heq
    exact hholds
  · intro hholds
    exact ⟨_, ⟨i, ⟨rfl, lt_childCount_of_accepts haccepts⟩, haccepts, rfl⟩,
      hholds⟩

/-- In a step to all children, a predicate sees a child in its place among
all. -/
theorem mem_child_step_any {doc : Document} {i : Nat} {parent : Node} (e : Expr)
    (h : i < doc.childCount parent) :
    i :: parent ∈ (⟨.child, .anyElement, [e]⟩ : Step).select doc parent ↔
      e.holds (context doc (i :: parent) (i + 1) (doc.childCount parent)) =
        true := by
  have hall : (doc.childNodes parent).filter (NodeTest.anyElement.accepts doc) =
      doc.childNodes parent :=
    filter_anyElement fun n hn => hn
  have hcount : (doc.childNodes parent).length = doc.childCount parent := by
    simp [Document.childNodes]
  show i :: parent ∈ keep doc ((doc.childNodes parent).filter _) e ↔ _
  rw [mem_keep_iff, hall, hcount]
  simp only [getElem?_childNodes]
  constructor
  · rintro ⟨j, ⟨heq, -⟩, hholds⟩
    cases heq
    exact hholds
  · intro hholds
    exact ⟨i, ⟨rfl, h⟩, hholds⟩

/-- A root element whose second child is the first one of the given name. -/
def lateChild (name : Text) : Document :=
  ⟨.mk "r" [] [.mk (name ++ "x") [] [], .mk name [] []]⟩

private theorem accepts_lateChild (name : Text) :
    (NodeTest.named name).accepts (lateChild name) [1, 0] = true ∧
      (NodeTest.named name).accepts (lateChild name) [0, 0] = false := by
  refine ⟨beq_self_eq_true name, ?_⟩
  show (name ++ "x" == name) = false
  simp

private theorem typePosition_lateChild (name : Text) :
    (lateChild name).typePosition name [1, 0] = 1 := by
  show [[0, 0]].countP ((NodeTest.named name).accepts (lateChild name)) + 1 = 1
  rw [List.countP_singleton, (accepts_lateChild name).2]
  rfl

/-- There a step to all children loses the first child of its name. -/
theorem not_countsType_any (name : Text) : ¬CountsType none name := by
  intro h
  have hseen := h (lateChild name) isFirst 1 [0] (accepts_lateChild name).1
  rw [typePosition_lateChild] at hseen
  have hmem := hseen.mpr (truth_isFirst _)
  rw [NodeTest.ofName?, mem_child_step_any isFirst (Nat.lt_succ_self 1)] at hmem
  have hsecond : (2 == 1) = true := (truth_isFirst _).symm.trans hmem
  exact absurd hsecond (by decide)

/-- A compound of a type selector and conditions, at the start of a stream or
behind a descendant or child combinator, is written as one step, whatever stands
around it. The node test of that step is the name, and its predicate counts
among the siblings of that name, exactly if no condition counts among all
siblings. A `*-of-type` pseudo-class beside a child position therefore counts
among all siblings. No selector reads as a token of kind `root`; it would throw
away the step. -/
theorem locationPath_typed_step {front tokens back : Stream} {name out : Text}
    (hfront : opensBelow front = true)
    (htokens : ∀ t ∈ tokens, isQualifier t = true)
    (hback : back.head?.all (·.kind.isCombinator) = true)
    (hroot : ∀ t ∈ back, t.kind ≠ .root)
    (hout : locationPath (front ++ .tag name :: (tokens ++ back)) = .ok out) :
    (∃ before after, locationPath front = .ok before ∧
      writtenAlone back = .ok after ∧
      out = before ++ (elementTest (typedNode name tokens) ++
        inBrackets (flatten .and (typedTests name tokens)) ++ after)) ∧
    (elementTest (typedNode name tokens) = name ∧
      elementTest (typedNode name tokens) ≠ "*" ↔
      tokens.any countsAll = false ∧ name ≠ "*") ∧
    (isName name = true → (CountsType (typedNode name tokens) name ↔
      tokens.any countsAll = false)) := by
  obtain ⟨before, after, hbefore, hafter, -, hout⟩ :=
    locationPath_around hfront htokens hback hroot hout
  refine ⟨⟨before, after, hbefore, hafter, hout⟩, ?_, fun _ => ?_⟩
  · rw [typedNode]
    cases tokens.any countsAll with
    | false => simp [elementTest]
    | true => simp [elementTest]
  · rw [typedNode]
    cases tokens.any countsAll with
    | false => exact iff_of_true (countsType_named name) rfl
    | true => exact iff_of_false (not_countsType_any name) (by decide)

private theorem locationPath_lastOfAll :
    locationPath ([.tag "r", .combinator .child] ++ .tag "p" ::
        (lastOfAll ++ [.combinator .descendant, .tag "b"])) =
      .ok
        "//r/*[@a and (position() = 1) and (name() = 'p') and (position() = last())]//b" := by
  have hcond : ∀ t ∈ lastOfAll, conditional (some "p") t = true := by decide
  have hstep : extension .child (.tag "p" :: lastOfAll) =
      .ok
        "/*[@a and (position() = 1) and (name() = 'p') and (position() = last())]" := by
    rw [extension_tag .child "p" hcond, compoundTests_lastOfAll]
    decide
  have hfront : locationPath ([.tag "r"] ++ .combinator .child ::
      (.tag "p" :: lastOfAll)) = _ :=
    (locationPath_join_iff (by decide) (by decide)).mpr ⟨"//r", _, rfl,
      hstep, rfl⟩
  exact (locationPath_join_iff (c := .descendant) (B := [.tag "b"]) (by decide)
    (by decide)).mpr ⟨_, "//b", hfront, rfl, by decide⟩

/-- In `r > p[a]:first-of-type:last-child b` the first of its type is counted
among all siblings. -/
theorem locationPath_typed_step_lastOfAll :
    opensBelow [.tag "r", .combinator .child] = true ∧ isName "p" = true ∧
    (∀ t ∈ lastOfAll, isQualifier t = true) ∧
    (∃ before after, locationPath [.tag "r", .combinator .child] = .ok before ∧
      writtenAlone [.combinator .descendant, .tag "b"] = .ok after ∧
      "//r/*[@a and (position() = 1) and (name() = 'p') and (position() = last())]//b" =
        before ++ ("*" ++
          inBrackets (flatten .and (typedTests "p" lastOfAll)) ++ after)) ∧
    ¬CountsType (typedNode "p" lastOfAll) "p" := by
  have hqualifiers : ∀ t ∈ lastOfAll, isQualifier t = true := by decide
  have hname : isName "p" = true := by decide
  obtain ⟨hstep, -, hcounts⟩ :=
    @locationPath_typed_step [.tag "r", .combinator .child] _ _ _ _ rfl
      hqualifiers rfl (by decide) locationPath_lastOfAll
  refine ⟨rfl, hname, hqualifiers, hstep, fun h => ?_⟩
  exact absurd ((hcounts hname).mp h) (by decide)

end SelectorPath.XPath
