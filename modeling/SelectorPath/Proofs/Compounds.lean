import SelectorPath.Proofs.Combinators

/-!
# The step of a compound

A compound, that is a node test and conditions on it, is written as one step:
the conditions add their filters to the predicate, and a child-position test
behind a type selector makes the node test `*` and asks for the name in the
predicate instead.

## Main results

* `advanceAll_typed`, `advanceAll_untyped`: what conditions add to the step at
  the end.
* `advanceAll_tag`, `extension_tag`: the step of a compound with a type
  selector, behind each combinator.
* `extension_universal`, `extension_conditions`: the step of a compound without
  one.
-/

namespace SelectorPath.XPath

/-! ## Conditions behind a node test -/

/-- Whether a token is a condition on the step at the end: it begins no step,
and needs no type that is not there. -/
def conditional (context : Option Text) (t : Token) : Bool :=
  !Draft.beginsStep t && t.kind != .root && !(t.needsType && context.isNone)

/-- The tests that a compound asks for, `context` being the name of its type
selector: the filters of its conditions, with the name in front of those that
count among all siblings. -/
def compoundTests (context : Option Text) :
    Stream → Except SelectorError (List Text)
  | [] => .ok []
  | t :: rest => do
    let first ← filters t
    let others ← compoundTests context rest
    match context with
    | some name =>
      if t.pseudo?.any PseudoClass.isChildPosition then
        .ok (nameTest name :: first ++ others)
      else .ok (first ++ others)
    | none => .ok (first ++ others)

/-- The predicate that tests are written as. -/
def predicateText (tests : List Text) : Text :=
  Draft.text (Draft.predicate tests)

/-- A predicate that says something stands in brackets. -/
theorem predicateText_eq {tests : List Text}
    (h : (flatten .and tests).isEmpty = false) :
    predicateText tests = "[" ++ flatten .and tests ++ "]" := by
  rw [predicateText, Draft.predicate, if_neg (by simp [h])]
  exact List.append_nil _

/-- A draft of one piece is the piece with its predicate. -/
theorem render_single (piece : Piece) (tests : List Text) :
    (⟨[piece], tests⟩ : Draft).render =
      piece.render ++ predicateText tests := by
  rw [Draft.render_eq_text, Draft.commit_eq, Draft.text_append, predicateText]
  simp [Draft.text]

private theorem placeFrom_conditional {context : Option Text} {t : Token}
    (rest : Stream) (h : conditional context t = true) :
    placeFrom context (t :: rest) =
      .cons ⟨t, context⟩ (placeFrom context rest) := by
  simp only [conditional, Draft.beginsStep, Bool.and_eq_true, Bool.not_eq_true',
    Bool.or_eq_false_iff] at h
  obtain ⟨⟨⟨⟨hcomb, hnode⟩, -⟩, -⟩, htype⟩ := h
  rw [placeFrom]
  split
  · rename_i hk
    simp [hk, Kind.isNodeTest] at hnode
  · rename_i hk
    simp [hk, Kind.isCombinator] at hcomb
  · rw [htype]
    rfl

/-- Conditions ask for no type that is missing. -/
theorem untyped?_conditional {context : Option Text} {stream : Stream}
    (h : ∀ t ∈ stream, conditional context t = true) :
    (placeFrom context stream).untyped? = none := by
  induction stream with
  | nil => rfl
  | cons t rest ih =>
    rw [placeFrom_conditional rest (h t (List.mem_cons_self ..))]
    exact ih fun t ht => h t (List.mem_cons_of_mem _ ht)

/-- A condition begins no step. -/
theorem beginsStep_conditional {context : Option Text} {t : Token}
    (h : conditional context t = true) :
    Draft.beginsStep t = false := by
  simp only [conditional, Bool.and_eq_true, Bool.not_eq_true'] at h
  exact h.1.1

theorem ne_root_conditional {context : Option Text} {t : Token}
    (h : conditional context t = true) :
    t.kind ≠ .root := by
  simp only [conditional, Bool.and_eq_true, bne_iff_ne] at h
  exact h.1.2

private theorem advance_conditional {context : Option Text} {t : Token}
    {previous : Option Kind} (hprev : previous.any Kind.isCombinator = false)
    (h : conditional context t = true) (d : Draft) :
    d.advance previous ⟨t, context⟩ =
      (filters t).map (d.restrict ⟨t, context⟩) := by
  rw [Draft.advance_plain hprev]
  exact Draft.write_condition (beginsStep_conditional h) (ne_root_conditional h)
    d false

theorem isCombinator_conditional {context : Option Text} {t : Token}
    (h : conditional context t = true) :
    (some t.kind).any Kind.isCombinator = false := by
  simp only [conditional, Draft.beginsStep, Bool.and_eq_true, Bool.not_eq_true',
    Bool.or_eq_false_iff] at h
  exact h.1.1.1.1

/-- A type selector with conditions is joined. -/
theorem isJoined_conditional (name : Text) {context : Option Text}
    {stream : Stream} (h : ∀ t ∈ stream, conditional context t = true) :
    isJoined (.tag name :: stream) = true := by
  apply isJoined_of_simple (List.cons_ne_nil _ _)
  intro t ht
  rcases List.mem_cons.mp ht with rfl | ht
  · exact ⟨by simp [Token.tag], rfl⟩
  · exact ⟨ne_root_conditional (h t ht), isCombinator_conditional (h t ht)⟩

/-- Without a type selector, conditions only add their tests. -/
theorem advanceAll_untyped {stream : Stream} {previous : Option Kind}
    (hprev : previous.any Kind.isCombinator = false)
    (h : ∀ t ∈ stream, conditional none t = true) (pieces : List Piece)
    (tests : List Text) :
    (⟨pieces, tests⟩ : Draft).advanceAll previous
      (placeFrom none stream).tokens =
      (compoundTests none stream).map fun added =>
        ⟨pieces, tests ++ added⟩ := by
  induction stream generalizing previous tests with
  | nil => simp [placeFrom, Draft.advanceAll, compoundTests, Except.map]
  | cons t rest ih =>
    have ht := h t (List.mem_cons_self ..)
    rw [placeFrom_conditional rest ht, Placement.cons, Draft.advanceAll,
      advance_conditional hprev ht, compoundTests]
    cases filters t with
    | error e => rfl
    | ok first =>
      have hrestrict : (⟨pieces, tests⟩ : Draft).restrict ⟨t, none⟩ first =
          ⟨pieces, tests ++ first⟩ := rfl
      have hrest := ih (isCombinator_conditional ht)
        (fun t ht => h t (List.mem_cons_of_mem _ ht)) (tests ++ first)
      simp only [Except.map, bind, Except.bind, hrestrict] at hrest ⊢
      rw [hrest]
      cases compoundTests none rest with
      | error e => rfl
      | ok others => simp

/-- Behind a type selector, conditions add their tests, and those that count
among all siblings widen the node test. -/
theorem advanceAll_typed (name : Text) {stream : Stream}
    {previous : Option Kind} (hprev : previous.any Kind.isCombinator = false)
    (h : ∀ t ∈ stream, conditional (some name) t = true) (piece : Piece)
    (tests : List Text)
    (hwide : ∀ n, Draft.isWide (widenedBy name (n + 1) piece) = true) :
    (⟨[piece], tests⟩ : Draft).advanceAll previous
      (placeFrom (some name) stream).tokens =
      (compoundTests (some name) stream).map fun added =>
        ⟨[widenedBy name (positionTests stream) piece], tests ++ added⟩ := by
  induction stream generalizing previous tests piece with
  | nil =>
    simp [placeFrom, Draft.advanceAll, compoundTests, Except.map, positionTests,
      widenedBy]
  | cons t rest ih =>
    have ht := h t (List.mem_cons_self ..)
    have hbegins := beginsStep_conditional ht
    rw [placeFrom_conditional rest ht, Placement.cons, Draft.advanceAll,
      advance_conditional hprev ht, compoundTests]
    cases filters t with
    | error e => rfl
    | ok first =>
      have hrest := ih (isCombinator_conditional ht) fun t ht =>
        h t (List.mem_cons_of_mem _ ht)
      cases hpos : t.pseudo?.any PseudoClass.isChildPosition with
      | false =>
        have hcount : positionTests (t :: rest) = positionTests rest := by
          simp [positionTests_cons rest hbegins, hpos]
        have hrest := hrest piece (tests ++ first) hwide
        simp only [Except.map, bind, Except.bind, restrict_other hpos, hcount]
          at hrest ⊢
        rw [hrest]
        cases compoundTests (some name) rest with
        | error e => rfl
        | ok others => simp
      | true =>
        have hcount : positionTests (t :: rest) = positionTests rest + 1 := by
          simp [positionTests_cons rest hbegins, hpos]
        have hrest := hrest (Draft.widened name piece)
          (tests ++ nameTest name :: first) fun n => hwide (n + 1)
        simp only [Except.map, bind, Except.bind,
          restrict_position hpos (hwide 0), hcount] at hrest ⊢
        rw [hrest]
        cases compoundTests (some name) rest with
        | error e => rfl
        | ok others => simp [widenedBy]

/-! ## Compounds -/

/-- The step that a compound begins behind a combinator, from the name of its
type selector. -/
def leadPiece (c : Combinator) (name : Option Text) : Piece :=
  match c with
  | .descendant | .child => .test (name.getD "*")
  | .sibling => .sibling (name.getD "*")
  | .adjacent => .sibling "*"

/-- The tests that a compound begins with behind a combinator. -/
def leadTests (c : Combinator) (name : Option Text) : List Text :=
  match c with
  | .adjacent =>
    (name.map fun name => (tagFilter name).render).toList ++ [firstTest]
  | _ => []

private theorem lead_tag (c : Combinator) (name : Text) :
    ({} : Draft).lead c (.tag name) =
      ⟨[leadPiece c (some name)], leadTests c (some name)⟩ := by
  cases c <;> rfl

private theorem lead_other (c : Combinator) {t : Token} (h : t.kind ≠ .tag) :
    ({} : Draft).lead c t = ⟨[leadPiece c none], leadTests c none⟩ := by
  cases c <;>
    simp [Draft.lead, Draft.leadingTest, h, leadPiece, leadTests, Draft.push,
      Draft.require]

private theorem isWide_widenedBy_lead (c : Combinator) (name : Text) (n : Nat) :
    Draft.isWide (widenedBy name (n + 1) (leadPiece c (some name))) = true := by
  cases c with
  | descendant => exact isWide_widenedBy_test name n
  | child => exact isWide_widenedBy_test name n
  | sibling => exact isWide_widenedBy_sibling name n
  | adjacent =>
    show Draft.isWide (widenedBy name (n + 1) (.sibling "*")) = true
    by_cases hname : name = siblingText ++ "*"
    · rw [widenedBy, widened_sibling_star, if_pos hname, widenedBy_star]
      exact isWide_test_star
    · rw [widenedBy_sibling_star hname]
      exact isWide_sibling_star

/-- What a stream writes, from the draft that its run ends with. -/
theorem extension_of_run {α : Type} {c : Combinator} {stream : Stream}
    {result : Except SelectorError α} {draft : α → Draft}
    (htyped : (place stream).untyped? = none)
    (hrun : ({} : Draft).advanceAll (some (.combinator c))
      (place stream).tokens = result.map draft) :
    extension c stream = result.map fun r =>
      axisText c ++ (draft r).render := by
  unfold extension
  rw [htyped]
  show (({} : Draft).advanceAll (some (.combinator c)) (place stream).tokens
      >>= _) = _
  rw [hrun]
  cases result with
  | error e => rfl
  | ok r => rfl

/-- The draft of a compound with a type selector, behind a combinator. -/
theorem advanceAll_tag (c : Combinator) (name : Text) {stream : Stream}
    (h : ∀ t ∈ stream, conditional (some name) t = true) :
    ({} : Draft).advanceAll (some (.combinator c))
      (place (.tag name :: stream)).tokens =
      (compoundTests (some name) stream).map fun added =>
        ⟨[widenedBy name (positionTests stream) (leadPiece c (some name))],
          leadTests c (some name) ++ added⟩ := by
  have hlead : ({} : Draft).advance (some (.combinator c)) ⟨.tag name, none⟩ =
      .ok ⟨[leadPiece c (some name)], leadTests c (some name)⟩ := by
    rw [Draft.advance_lead_nodeTest c rfl rfl, lead_tag]
  show (({} : Draft).advance (some (.combinator c)) ⟨.tag name, none⟩ >>=
    fun d => d.advanceAll (some .tag) (placeFrom (some name) stream).tokens) = _
  rw [hlead]
  exact advanceAll_typed name rfl h _ _ (isWide_widenedBy_lead c name)

/-- The step of a compound with a type selector. -/
theorem extension_tag (c : Combinator) (name : Text) {stream : Stream}
    (h : ∀ t ∈ stream, conditional (some name) t = true) :
    extension c (.tag name :: stream) =
      (compoundTests (some name) stream).map fun added =>
        axisText c ++
          ((widenedBy name (positionTests stream)
          (leadPiece c (some name))).render
          ++ predicateText (leadTests c (some name) ++ added)) := by
  have htyped : (place (.tag name :: stream)).untyped? = none := by
    show (placeFrom (some name) stream).untyped? = none
    exact untyped?_conditional h
  rw [extension_of_run htyped (advanceAll_tag c name h)]
  simp only [render_single]

/-- The step of a compound that starts with `*`. -/
theorem extension_universal (c : Combinator) {stream : Stream}
    (h : ∀ t ∈ stream, conditional none t = true) :
    extension c (.universal :: stream) =
      (compoundTests none stream).map fun added =>
        axisText c ++ ((leadPiece c none).render ++
          predicateText (leadTests c none ++ added)) := by
  have htyped : (place (.universal :: stream)).untyped? = none := by
    show (placeFrom none stream).untyped? = none
    exact untyped?_conditional h
  have hlead : ({} : Draft).advance (some (.combinator c)) ⟨.universal, none⟩ =
      .ok ⟨[leadPiece c none], leadTests c none⟩ := by
    rw [Draft.advance_lead_nodeTest c rfl rfl, lead_other c (by decide)]
  have hrun : ({} : Draft).advanceAll (some (.combinator c))
      (place (.universal :: stream)).tokens =
      (compoundTests none stream).map fun added =>
        ⟨[leadPiece c none], leadTests c none ++ added⟩ := by
    show (({} : Draft).advance (some (.combinator c)) ⟨.universal, none⟩ >>=
      fun d =>
        d.advanceAll (some .universal) (placeFrom none stream).tokens) = _
    rw [hlead]
    exact advanceAll_untyped rfl h _ _
  rw [extension_of_run htyped hrun]
  simp only [render_single]

/-- The step of a compound of conditions only. -/
theorem extension_conditions (c : Combinator) {stream : Stream}
    (hne : stream ≠ []) (h : ∀ t ∈ stream, conditional none t = true) :
    extension c stream =
      (compoundTests none stream).map fun added =>
        axisText c ++ ((leadPiece c none).render ++
          predicateText (leadTests c none ++ added)) := by
  cases stream with
  | nil => exact absurd rfl hne
  | cons t rest =>
    have ht := h t (List.mem_cons_self ..)
    have hrest : ∀ t ∈ rest, conditional none t = true :=
      fun t ht => h t (List.mem_cons_of_mem _ ht)
    have htag : t.kind ≠ .tag := by
      intro hk
      simp [conditional, Draft.beginsStep, hk, Kind.isNodeTest] at ht
    have hlead : ({} : Draft).advance (some (.combinator c)) ⟨t, none⟩ =
        (filters t).map fun first =>
          ⟨[leadPiece c none], leadTests c none ++ first⟩ := by
      rw [Draft.advance_lead_condition {} c (beginsStep_conditional ht)
        (ne_root_conditional ht), lead_other c htag]
      rfl
    have hrun : ({} : Draft).advanceAll (some (.combinator c))
        (place (t :: rest)).tokens =
        (compoundTests none (t :: rest)).map fun added =>
          ⟨[leadPiece c none], leadTests c none ++ added⟩ := by
      rw [place, placeFrom_conditional rest ht, Placement.cons,
        Draft.advanceAll, hlead, compoundTests]
      cases filters t with
      | error e => rfl
      | ok first =>
        have hcond := advanceAll_untyped (isCombinator_conditional ht) hrest
          [leadPiece c none] (leadTests c none ++ first)
        simp only [Except.map, bind, Except.bind] at hcond ⊢
        rw [hcond]
        cases compoundTests none rest with
        | error e => rfl
        | ok others => simp
    rw [extension_of_run (untyped?_conditional h) hrun]
    simp only [render_single]

end SelectorPath.XPath
