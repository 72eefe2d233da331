import SelectorPath.Proofs.StepOrder

/-!
# Node tests of a run

The run over a stream keeps its draft in order up to node tests out of place:
texts inside pieces are closed, steps are begun before they are tested, and no
two names meet. Whether all pieces fit is decided token by token. A type
selector or `*` fits at the start of its compound only, and `:comment` fits
anywhere but directly behind `~` or `+`, which have written a node test already.

## Main results

* `nodeTestsLead`: the streams whose node tests are in their places.
* `Draft.Stands.advance`: what one step of a run keeps, and when it fits.
* `Draft.Stands.advanceAll`: the same for a run.
-/

namespace SelectorPath

theorem Kind.eq_combinator {kind : Kind} (h : kind.isCombinator = true) :
    ∃ c, kind = .combinator c := by
  cases kind with
  | combinator c => exact ⟨c, rfl⟩
  | _ => exact absurd h (by decide)

namespace XPath

/-! ## Drafts in order -/

private theorem Piece.isAxis_of_isTested {piece : Piece}
    (h : piece.isTested = true) : piece.isAxis = false := by
  cases piece with
  | descendant => exact absurd h (by decide)
  | child => exact absurd h (by decide)
  | _ => rfl

/-- A draft that ends with `piece` and is in order; `fitting` tells whether all
its pieces fit. -/
structure Draft.Stands (d : Draft) (piece : Piece) (fitting : Bool) : Prop where
  head : d.pieces.head? = some piece
  sound : ∀ p ∈ d.pieces, p.isSound = true
  closed : ∀ t ∈ d.tests, isClosed t = true ∧ t ≠ []
  admitted : linked Piece.admits d.pieces = true
  fitting : linked Piece.fits d.pieces = fitting

namespace Draft.Stands

variable {d : Draft} {piece : Piece} {fitting : Bool}

/-- The piece that a draft stands at is its last. -/
theorem pieces_eq (h : d.Stands piece fitting) :
    d.pieces = piece :: d.pieces.tail := by
  have hhead := h.head
  cases hp : d.pieces with
  | nil => simp [hp] at hhead
  | cons first rest =>
    rw [hp] at hhead
    cases hhead
    rfl

/-- A piece that is admitted can be pushed, and it has to fit. -/
theorem push {next : Piece} (h : d.Stands piece fitting)
    (hsound : next.isSound = true) (hadmits : piece.admits next = true) :
    (d.push next).Stands next (piece.fits next && fitting) where
  head := rfl
  sound := List.forall_mem_cons.mpr ⟨hsound, h.sound⟩
  closed := h.closed
  admitted := by
    have hlinked := h.admitted
    rw [h.pieces_eq] at hlinked
    show linked Piece.admits (next :: d.pieces) = true
    rw [h.pieces_eq, linked, hadmits, hlinked]
    rfl
  fitting := by
    have hlinked := h.fitting
    rw [h.pieces_eq] at hlinked
    show linked Piece.fits (next :: d.pieces) = _
    rw [h.pieces_eq, linked, hlinked]

/-- A piece that fits may be written. -/
theorem push_fits {next : Piece} (h : d.Stands piece fitting)
    (hsound : next.isSound = true) (hfits : piece.fits next = true) :
    (d.push next).Stands next fitting := by
  have hadmits : piece.admits next = true := by
    cases next with
    | test name =>
      have haxis : piece.isAxis = true := hfits
      rw [Piece.admits, haxis, Bool.true_or]
    | comment condition =>
      have haxis : piece.isAxis = true := hfits
      rw [Piece.admits, haxis, Bool.true_or]
    | _ => exact hfits
  have hpush := h.push hsound hadmits
  rwa [hfits, Bool.true_and] at hpush

/-- Closed tests may be added where a draft stands. -/
theorem require {tests : List Text} (h : d.Stands piece fitting)
    (htests : ∀ t ∈ tests, isClosed t = true ∧ t ≠ []) :
    (d.require tests).Stands piece fitting :=
  { h with closed := List.forall_mem_append.mpr ⟨h.closed, htests⟩ }

/-- The predicate of a step is written behind its node test. Only a step without
tests then ends with a name. -/
theorem commit (h : d.Stands piece fitting) (htested : piece.isTested = true) :
    ∃ last, d.commit.Stands last fitting ∧ last.isAxis = false ∧
      (last.endsNamed = true → d.tests = [] ∧ piece.endsNamed = true) := by
  have haxis := Piece.isAxis_of_isTested htested
  by_cases htests : d.tests = []
  · rw [commit_of_tests_nil htests]
    exact ⟨piece, h, haxis, fun hnamed => ⟨htests, hnamed⟩⟩
  · obtain ⟨t, ht⟩ := List.exists_mem_of_ne_nil _ htests
    have hne : flatten .and d.tests ≠ [] :=
      flatten_ne_nil .and ht (h.closed t ht).2
    have hclosed := isClosed_flatten .and fun t ht => (h.closed t ht).1
    have hcommit : d.commit =
        ({ d with tests := [] } : Draft).push
        (.predicate (flatten .and d.tests)) := by
      rw [commit_eq, predicate, if_neg (by simpa using hne)]
      rfl
    rw [hcommit]
    have hopen : ({ d with tests := [] } : Draft).Stands piece fitting :=
      { h with closed := List.forall_mem_nil _ }
    refine ⟨_, hopen.push_fits ?_ htested, rfl, by rintro ⟨⟩⟩
    simp [Piece.isSound, hne, hclosed]

end Draft.Stands

/-! ## Widening -/

/-- A plain name is the text of a node test or of no piece that ends a step. -/
theorem eq_test_of_render {name : Text} {piece : Piece}
    (hplain : name.isPlain = true) (hsound : piece.isSound = true)
    (htested : piece.isTested = true) (h : piece.render = name) :
    piece = .test name := by
  cases piece with
  | test n => rw [← h, render_test]
  | root =>
    exact absurd (h ▸ by decide)
      (not_mem_of_isPlain hplain (c := '/') (by decide))
  | sibling n =>
    have hslash : '/' ∈ name := h ▸ List.mem_append_left _ (by decide)
    exact absurd hslash (not_mem_of_isPlain hplain (by decide))
  | comment condition =>
    have hcondition : condition = [] := List.isEmpty_iff.mp hsound
    rw [hcondition] at h
    exact absurd (h ▸ by decide)
      (not_mem_of_isPlain hplain (c := '(') (by decide))
  | _ => exact absurd htested (by simp [Piece.isTested])

/-- The text of a step to siblings is that of no other piece that ends a
step. -/
theorem eq_sibling_of_render {name : Text} {piece : Piece}
    (hsound : piece.isSound = true) (htested : piece.isTested = true)
    (h : piece.render = (Piece.sibling name).render) :
    piece = .sibling name := by
  have hslash : '/' ∈ (Piece.sibling name).render :=
    List.mem_append_left _ (by decide)
  have hletter : 'f' ∈ (Piece.sibling name).render :=
    List.mem_append_left _ (by decide)
  cases piece with
  | sibling n =>
    rw [render_sibling, render_sibling, List.append_cancel_left_eq] at h
    rw [h]
  | root => exact absurd (h ▸ hletter) (by decide)
  | test n =>
    rw [render_test] at h
    rcases isTestName_iff.mp hsound with hstar | ⟨-, hplain⟩
    · exact absurd (hstar ▸ h) (star_ne_siblingText_append name)
    · exact absurd (h ▸ hslash) (not_mem_of_isPlain hplain (by decide))
  | comment condition =>
    have hcondition : condition = [] := List.isEmpty_iff.mp hsound
    rw [hcondition] at h
    exact absurd (h ▸ hslash) (by decide)
  | _ => exact absurd htested (by simp [Piece.isTested])

namespace Draft.Stands

variable {d : Draft} {piece : Piece} {fitting : Bool}

/-- The node test at the end may be exchanged for the one for all elements. -/
theorem exchange {star : Piece} (h : d.Stands piece fitting)
    (hstar : (∃ n, piece = .test n) ∧ star = .test "*" ∨
      (∃ n, piece = .sibling n) ∧ star = .sibling "*") :
    ({ d with pieces := star :: d.pieces.tail } : Draft).Stands star
      fitting := by
  have hadmitted := h.admitted
  have hfitting := h.fitting
  have hsound := h.sound
  rw [h.pieces_eq] at hadmitted hfitting hsound
  generalize d.pieces.tail = rest at hadmitted hfitting hsound ⊢
  have hrest := (List.forall_mem_cons.mp hsound).2
  -- Only the piece in front tells whether a node test fits, and `*` may stand
  -- behind any piece.
  rcases hstar with ⟨⟨n, rfl⟩, rfl⟩ | ⟨⟨n, rfl⟩, rfl⟩
  · refine ⟨rfl, List.forall_mem_cons.mpr ⟨by decide, hrest⟩, h.closed, ?_, ?_⟩
    · cases rest with
      | nil => exact hadmitted
      | cons previous rest =>
        rw [linked, Bool.and_eq_true] at hadmitted
        show (Piece.admits previous (.test "*") &&
            linked Piece.admits (previous :: rest)) = true
        have hnamed : (Piece.test "*").startsNamed = false := by decide
        rw [hadmitted.2, Piece.admits, hnamed, Bool.and_false, Bool.not_false,
          Bool.or_true]
        rfl
    · cases rest <;> exact hfitting
  · refine ⟨rfl, List.forall_mem_cons.mpr ⟨by decide, hrest⟩, h.closed, ?_, ?_⟩
    · cases rest <;> exact hadmitted
    · cases rest <;> exact hfitting

/-- Widening the node test of a step keeps a draft in order. -/
theorem widen {name : Text} (h : d.Stands piece fitting)
    (htested : piece.isTested = true) (hplain : name.isPlain = true) :
    ∃ wide, (d.widen name).1.Stands wide fitting ∧ wide.isTested = true := by
  have hsound : piece.isSound = true :=
    h.sound piece (h.pieces_eq ▸ List.mem_cons_self ..)
  have hwiden : (d.widen name).1 =
      { d with pieces := widened name piece :: d.pieces.tail } := by
    rw [Draft.widen, h.pieces_eq]
    rfl
  rw [hwiden]
  by_cases htest : piece.render = name
  · have hpiece := eq_test_of_render hplain hsound htested htest
    rw [widened, if_pos htest]
    exact ⟨_, h.exchange (.inl ⟨⟨name, hpiece⟩, rfl⟩), rfl⟩
  · by_cases hsibling : piece.render = (Piece.sibling name).render
    · have hpiece := eq_sibling_of_render hsound htested hsibling
      rw [widened, if_neg htest, if_pos hsibling]
      exact ⟨_, h.exchange (.inr ⟨⟨name, hpiece⟩, rfl⟩), rfl⟩
    · rw [widened, if_neg htest, if_neg hsibling, ← h.pieces_eq]
      exact ⟨piece, h, htested⟩

/-! ## Steps and conditions -/

/-- The first token of a compound begins a step; only a type selector begins it
with a name. -/
theorem lead {c : Combinator} {t : Token} (h : d.Stands piece fitting)
    (haxis : piece.isAxis = !c.isSibling)
    (hname : isTestName (leadingTest t) = true)
    (hclosed : t.kind = .tag → AreClosed [(tagFilter t.label).render]) :
    ∃ first, (d.lead c t).Stands first fitting ∧ first.isTested = true ∧
      (t.kind ≠ .tag → first.endsNamed = false) := by
  have hstar : t.kind ≠ .tag → leadingTest t = "*" := fun hk => if_neg hk
  have hunnamed : t.kind ≠ .tag → (leadingTest t != ("*" : Text)) = false := by
    intro hk
    rw [hstar hk]
    rfl
  cases c with
  | descendant => exact ⟨_, h.push_fits hname haxis, rfl, hunnamed⟩
  | child => exact ⟨_, h.push_fits hname haxis, rfl, hunnamed⟩
  | sibling =>
    have hfits : piece.fits (.sibling (leadingTest t)) = true := by
      rw [Piece.fits, haxis]
      rfl
    exact ⟨_, h.push_fits hname hfits, rfl, hunnamed⟩
  | adjacent =>
    have hfits : piece.fits (.sibling "*") = true := by
      rw [Piece.fits, haxis]
      rfl
    refine ⟨_, (h.push_fits (by decide) hfits).require ?_, rfl, fun _ => rfl⟩
    have hfirst : ∀ f ∈ [firstTest], isClosed f = true ∧ f ≠ [] := by decide
    rw [List.forall_mem_append]
    by_cases hk : t.kind = .tag
    · rw [if_pos hk]
      exact ⟨(hclosed hk).2, hfirst⟩
    · rw [if_neg hk]
      exact ⟨List.forall_mem_nil _, hfirst⟩

/-- A condition is added to the step at the end. -/
theorem restrict {p : Placed} {tests : List Text} (h : d.Stands piece fitting)
    (htested : piece.isTested = true)
    (hcontext : (p.context.getD []).isPlain = true) (htests : AreClosed tests) :
    ∃ last, (d.restrict p tests).Stands last fitting ∧ last.isTested = true ∧
      (d.restrict p tests).tests ≠ [] := by
  by_cases hwidens : widens p = true
  · obtain ⟨wide, hwide, hwideTested⟩ := h.widen htested hcontext
    have hname : AreClosed [nameTest (p.context.getD [])] :=
      areClosed_expr (isSealed_pair rfl
        (isSealed_single (not_mem_of_isPlain hcontext (by decide)))) rfl
    have hadded : AreClosed (if (d.widen (p.context.getD [])).2 then
        nameTest (p.context.getD []) :: tests
        else tests) := by
      split
      · refine ⟨List.cons_ne_nil _ _, List.forall_mem_cons.mpr ⟨?_, htests.2⟩⟩
        exact hname.2 _ (List.mem_singleton_self _)
      · exact htests
    rw [Draft.restrict, if_pos hwidens]
    exact ⟨wide, hwide.require hadded.2, hwideTested,
      List.append_ne_nil_of_right_ne_nil _ hadded.1⟩
  · rw [Draft.restrict, if_neg hwidens]
    exact ⟨piece, h.require htests.2, htested,
      List.append_ne_nil_of_right_ne_nil _ htests.1⟩

end Draft.Stands

/-! ## Node tests in their place -/

/-- Whether the node test that a token writes behind one of the given kind, if
it writes one, is the first of its step. -/
def leads (previous : Kind) (t : Token) : Bool :=
  if t.kind.isNodeTest then previous.isCombinator
  else if t.pseudo? = some .comment then !previous.isSiblingAxis
  else true

/-- Whether the last piece of a draft is one that a token of the given kind
leaves. -/
def Rests (previous : Kind) (tests : List Text) (piece : Piece) : Prop :=
  match previous with
  | .combinator c => tests = [] ∧ piece.isAxis = !c.isSibling
  | kind =>
    piece.isTested = true ∧ (kind ≠ .tag → tests = [] → piece.endsNamed = false)

private theorem rests_iff {kind : Kind} (h : kind.isCombinator = false)
    (tests : List Text) (piece : Piece) :
    Rests kind tests piece ↔
      piece.isTested = true ∧
        (kind ≠ .tag → tests = [] → piece.endsNamed = false) := by
  cases kind with
  | combinator c => exact absurd h (by simp [Kind.isCombinator])
  | _ => exact Iff.rfl

/-- What is known of a token behind one of the given kind. -/
structure Follows (previous : Kind) (p : Placed) : Prop where
  rootless : p.token.kind ≠ .root
  joined : previous.isCombinator = true → p.token.kind.isCombinator = false
  apart : previous = .tag → p.token.kind ≠ .tag
  named : p.token.kind = .tag → p.token.label ≠ []
  plain : p.token.isPlain = true
  context : (p.context.getD []).isPlain = true

namespace Follows

variable {previous : Kind} {p : Placed}

theorem isTestName (h : Follows previous p) :
    isTestName (Draft.leadingTest p.token) = true := by
  rw [isTestName_iff, Draft.leadingTest]
  by_cases hk : p.token.kind = .tag
  · rw [if_pos hk]
    exact .inr ⟨h.named hk, Token.isPlain_label hk h.plain⟩
  · rw [if_neg hk]
    exact .inl rfl

/-- A plain `:comment` has no condition. -/
theorem argumentText (h : Follows previous p)
    (hcomment : p.token.pseudo? = some .comment) :
    p.token.argumentText?.getD [] = [] := by
  have hplain := h.plain
  rw [Token.isPlain_pseudo hcomment] at hplain
  have hnone : p.token.argument = none := Option.isNone_iff_eq_none.mp hplain
  rw [Token.argumentText?, hnone]
  rfl

private theorem areClosed (h : Follows previous p) (hk : p.token.kind = .tag) :
    AreClosed [(tagFilter p.token.label).render] :=
  closed_filters p.token h.plain (Draft.filters_of_tag hk)

end Follows

namespace Draft.Stands

variable {d d' : Draft} {piece : Piece} {fitting : Bool} {previous : Kind}
    {p : Placed}

/-- A combinator ends the step and begins the next one. -/
theorem advance_combinator {c : Combinator} (h : d.Stands piece fitting)
    (htested : piece.isTested = true)
    (hprevious : previous.isCombinator = false)
    (hk : p.token.kind = .combinator c)
    (ha : d.advance (some previous) p = .ok d') :
    ∃ last, d'.Stands last fitting ∧ Rests p.token.kind d'.tests last := by
  obtain ⟨last, hlast, haxis, -⟩ := h.commit htested
  have htests : d.commit.tests = [] := by rw [commit_eq]
  have hfits : last.fits .descendant = true ∧ last.fits .child = true := by
    simp [Piece.fits, haxis]
  have hany : (some previous).any Kind.isCombinator = false := hprevious
  rw [advance_plain hany, write, hk] at ha
  rw [hk]
  cases c with
  | descendant =>
    cases ha
    exact ⟨_, hlast.push_fits rfl hfits.1, htests, rfl⟩
  | child =>
    cases ha
    exact ⟨_, hlast.push_fits rfl hfits.2, htests, rfl⟩
  | sibling =>
    cases ha
    exact ⟨_, hlast, htests, haxis⟩
  | adjacent =>
    cases ha
    exact ⟨_, hlast, htests, haxis⟩

/-- A node test fits behind a combinator only. -/
theorem advance_nodeTest (h : d.Stands piece fitting)
    (hrests : Rests previous d.tests piece) (hfollows : Follows previous p)
    (hnode : p.token.kind.isNodeTest = true)
    (ha : d.advance (some previous) p = .ok d') :
    ∃ last, d'.Stands last (previous.isCombinator && fitting) ∧
      Rests p.token.kind d'.tests last := by
  have hsimple : p.token.kind.isCombinator = false := by
    cases hk : p.token.kind with
    | combinator c => simp [hk, Kind.isNodeTest] at hnode
    | _ => rfl
  have hname := hfollows.isTestName
  cases hprevious : previous.isCombinator with
  | true =>
    obtain ⟨c, rfl⟩ := Kind.eq_combinator hprevious
    obtain ⟨htests, haxis⟩ := hrests
    rw [advance_lead_nodeTest c hnode htests] at ha
    cases ha
    obtain ⟨first, hfirst, htested, hunnamed⟩ :=
      h.lead haxis hname hfollows.areClosed
    exact ⟨first, hfirst,
      (rests_iff hsimple _ _).mpr ⟨htested, fun hk _ => hunnamed hk⟩⟩
  | false =>
    obtain ⟨htested, hunnamed⟩ := (rests_iff hprevious _ _).mp hrests
    have hany : (some previous).any Kind.isCombinator = false := hprevious
    rw [advance_plain_nodeTest hany _ hnode] at ha
    cases ha
    obtain ⟨last, hlast, haxis, hends⟩ := h.commit htested
    have hnames : (last.endsNamed &&
        (Piece.test (leadingTest p.token)).startsNamed) = false := by
      by_cases hk : p.token.kind = .tag
      · -- The name in front of it would be that of another type selector.
        have hlast : last.endsNamed ≠ true := by
          intro hnamed
          obtain ⟨htests, hpiece⟩ := hends hnamed
          rw [hunnamed (fun hprevious => hfollows.apart hprevious hk) htests]
            at hpiece
          exact absurd hpiece (by decide)
        rw [eq_false_of_ne_true hlast, Bool.false_and]
      · have hstar : leadingTest p.token = "*" := if_neg hk
        rw [hstar]
        exact Bool.and_false _
    have hadmits : last.admits (.test (leadingTest p.token)) = true := by
      rw [Piece.admits, hnames, haxis]
      rfl
    have hfits : last.fits (.test (leadingTest p.token)) = false := haxis
    have hpush : (d.commit.push (.test (leadingTest p.token))).Stands _ _ :=
      hlast.push hname hadmits
    rw [hfits] at hpush
    refine ⟨_, hpush, (rests_iff hsimple _ _).mpr ⟨rfl, fun hk _ => ?_⟩⟩
    have hstar : leadingTest p.token = "*" := if_neg hk
    rw [hstar]
    rfl

/-- `:comment` fits unless a step to siblings, with its node test, stands
directly in front of it. -/
theorem advance_comment (h : d.Stands piece fitting)
    (hrests : Rests previous d.tests piece) (hfollows : Follows previous p)
    (hcomment : p.token.pseudo? = some .comment)
    (ha : d.advance (some previous) p = .ok d') :
    ∃ last, d'.Stands last (!previous.isSiblingAxis && fitting) ∧
      Rests p.token.kind d'.tests last := by
  have hk := kind_of_pseudo? hcomment
  have hargument := hfollows.argumentText hcomment
  have hrest : ∀ tests, Rests p.token.kind tests (.comment []) := by
    intro tests
    rw [hk]
    exact ⟨rfl, fun _ _ => rfl⟩
  cases hprevious : previous.isCombinator with
  | true =>
    obtain ⟨c, rfl⟩ := Kind.eq_combinator hprevious
    obtain ⟨htests, haxis⟩ := hrests
    rw [advance_lead_comment d c hcomment, hargument] at ha
    show ∃ last, d'.Stands last (!c.isSibling && fitting) ∧ _
    cases hc : c.isSibling with
    | true =>
      rw [hc] at ha
      cases ha
      obtain ⟨first, hfirst, htested, hunnamed⟩ :=
        h.lead haxis hfollows.isTestName hfollows.areClosed
      have hfits : first.fits (.comment []) = false :=
        Piece.isAxis_of_isTested htested
      have hadmits : first.admits (.comment []) = true := by
        have hnamed : first.endsNamed = false := hunnamed (by rw [hk]; decide)
        rw [Piece.admits, hnamed]
        exact Bool.or_true _
      have hpush : ((d.lead c p.token).push (.comment [])).Stands _ _ :=
        hfirst.push rfl hadmits
      rw [hfits] at hpush
      exact ⟨_, hpush, hrest _⟩
    | false =>
      rw [hc] at ha haxis
      cases ha
      exact ⟨_, h.push_fits rfl haxis, hrest _⟩
  | false =>
    have hany : (some previous).any Kind.isCombinator = false := hprevious
    have hdown : previous.isSiblingAxis = false := by
      cases previous with
      | combinator c => exact absurd hprevious (by simp [Kind.isCombinator])
      | _ => rfl
    obtain ⟨htested, -⟩ := (rests_iff hprevious _ _).mp hrests
    rw [advance_plain_comment hany _ hcomment, hargument] at ha
    cases ha
    obtain ⟨last, hlast, haxis, -⟩ := h.commit htested
    have hfits : last.fits .child = true := by
      simp [Piece.fits, haxis]
    rw [hdown]
    exact ⟨_, (hlast.push_fits rfl hfits).push_fits rfl rfl, hrest _⟩

/-- A condition always fits. -/
theorem advance_condition (h : d.Stands piece fitting)
    (hrests : Rests previous d.tests piece) (hfollows : Follows previous p)
    (hbegins : beginsStep p.token = false)
    (ha : d.advance (some previous) p = .ok d') :
    ∃ last, d'.Stands last fitting ∧ Rests p.token.kind d'.tests last := by
  have hsimple : p.token.kind.isCombinator = false := by
    simp only [beginsStep, Bool.or_eq_false_iff] at hbegins
    exact hbegins.1.1
  -- The step that the condition is on: the one at the end, or the one that it
  -- begins.
  have hstep : ∃ (e : Draft) (first : Piece), e.Stands first fitting ∧
      first.isTested = true ∧
      (filters p.token).map (e.restrict p) = .ok d' := by
    cases hprevious : previous.isCombinator with
    | true =>
      obtain ⟨c, rfl⟩ := Kind.eq_combinator hprevious
      obtain ⟨htests, haxis⟩ := hrests
      rw [advance_lead_condition d c hbegins hfollows.rootless] at ha
      obtain ⟨first, hfirst, htested, -⟩ :=
        h.lead haxis hfollows.isTestName hfollows.areClosed
      exact ⟨_, first, hfirst, htested, ha⟩
    | false =>
      have hany : (some previous).any Kind.isCombinator = false := hprevious
      obtain ⟨htested, -⟩ := (rests_iff hprevious _ _).mp hrests
      rw [advance_plain hany, write_condition hbegins hfollows.rootless] at ha
      exact ⟨d, piece, h, htested, ha⟩
  obtain ⟨e, first, he, htested, hmap⟩ := hstep
  obtain ⟨tests, hfilters, rfl⟩ := map_eq_ok_iff.mp hmap
  have hclosed := closed_filters p.token hfollows.plain hfilters
  obtain ⟨last, hlast, hlastTested, hne⟩ :=
    he.restrict htested hfollows.context hclosed
  refine ⟨last, hlast,
    (rests_iff hsimple _ _).mpr ⟨hlastTested, fun _ hnil => absurd hnil hne⟩⟩

/-- A step of a run keeps a draft in order, and its pieces fit as long as the
token leads. -/
theorem advance (h : d.Stands piece fitting)
    (hrests : Rests previous d.tests piece) (hfollows : Follows previous p)
    (ha : d.advance (some previous) p = .ok d') :
    ∃ last, d'.Stands last (leads previous p.token && fitting) ∧
      Rests p.token.kind d'.tests last := by
  by_cases hnode : p.token.kind.isNodeTest = true
  · rw [leads, if_pos hnode]
    exact h.advance_nodeTest hrests hfollows hnode ha
  · by_cases hcomment : p.token.pseudo? = some .comment
    · rw [leads, if_neg hnode, if_pos hcomment]
      exact h.advance_comment hrests hfollows hcomment ha
    · rw [leads, if_neg hnode, if_neg hcomment, Bool.true_and]
      cases hc : p.token.kind.isCombinator with
      | true =>
        obtain ⟨c, hk⟩ := Kind.eq_combinator hc
        have hprevious : previous.isCombinator = false := by
          cases hp : previous.isCombinator with
          | false => rfl
          | true => exact hc.symm.trans (hfollows.joined hp)
        exact h.advance_combinator ((rests_iff hprevious _ _).mp hrests).1
          hprevious hk ha
      | false =>
        have hbegins : beginsStep p.token = false := by
          simp [beginsStep, hcomment, hnode, hc]
        exact h.advance_condition hrests hfollows hbegins ha

end Draft.Stands

/-! ## Runs -/

/-- Whether every node test of a stream behind a token of the given kind is the
first of its step. -/
def leadsFrom (previous : Kind) : Stream → Bool
  | [] => true
  | token :: rest => leads previous token && leadsFrom token.kind rest

/-- Whether every node test of a stream is the first of its step: a type
selector or `*` begins its compound, and `:comment` does not stand directly
behind `~` or `+`. -/
def nodeTestsLead (stream : Stream) : Bool :=
  leadsFrom (.combinator .descendant) stream

/-- What is known of a stream behind a token of the given kind, `current` being
the element name seen in the compound so far. -/
structure Continues (previous : Kind) (current : Option Text)
    (stream : Stream) : Prop where
  joined : joinsFrom previous.isCombinator stream = true
  apart : tagsApart stream = true
  head : previous = .tag → stream.head?.all (fun t => t.kind != .tag) = true
  named : ∀ t ∈ stream, t.kind = .tag → t.label ≠ []
  plain : ∀ t ∈ stream, t.isPlain = true
  context : (current.getD []).isPlain = true
  typed : (placeFrom current stream).untyped? = none

/-- The first token of a stream, and the stream behind it. -/
theorem Continues.cons {previous : Kind} {current : Option Text} {token : Token}
    {rest : Stream} (h : Continues previous current (token :: rest)) :
    ∃ context next,
      (placeFrom current (token :: rest)).tokens =
        ⟨token, context⟩ :: (placeFrom next rest).tokens ∧
        Follows previous ⟨token, context⟩ ∧ Continues token.kind next rest := by
  have hplain := h.plain token (List.mem_cons_self ..)
  obtain ⟨hapart, hhead⟩ := tagsApart_tail h.apart
  have hjoined := h.joined
  simp only [joinsFrom, Bool.and_eq_true, bne_iff_ne, Bool.not_eq_true',
    Bool.and_eq_false_iff] at hjoined
  have hfollows : ∀ context : Option Text, (context.getD []).isPlain = true →
      Follows previous ⟨token, context⟩ := by
    intro context hcontext
    refine ⟨hjoined.1.1, fun hp => ?_, fun hp => ?_,
      h.named token (List.mem_cons_self ..), hplain, hcontext⟩
    · exact hjoined.1.2.resolve_left (by simp [hp])
    · simpa using h.head hp
  have hcontinues : ∀ next : Option Text, (next.getD []).isPlain = true →
      (placeFrom next rest).untyped? = none →
        Continues token.kind next rest := by
    intro next hnext htyped
    exact ⟨hjoined.2, hapart, hhead,
      fun t ht => h.named t (List.mem_cons_of_mem _ ht),
      fun t ht => h.plain t (List.mem_cons_of_mem _ ht), hnext, htyped⟩
  have htyped := h.typed
  rw [placeFrom] at htyped ⊢
  split at htyped
  · rename_i hk
    exact ⟨none, token.name, rfl, hfollows _ rfl,
      hcontinues _ (Token.isPlain_label hk hplain) htyped⟩
  · exact ⟨none, none, rfl, hfollows _ rfl, hcontinues _ rfl htyped⟩
  · split at htyped
    · simp at htyped
    · rename_i htype
      rw [if_neg htype]
      exact ⟨current, current, rfl, hfollows _ h.context,
        hcontinues _ h.context htyped⟩

namespace Draft.Stands

/-- A run keeps a draft in order, and its pieces fit as long as every node test
leads. -/
theorem advanceAll {d d' : Draft} {piece : Piece} {fitting : Bool}
    {previous : Kind} {current : Option Text} {stream : Stream}
    (h : d.Stands piece fitting) (hrests : Rests previous d.tests piece)
    (hstream : Continues previous current stream)
    (ha : d.advanceAll (some previous) (placeFrom current stream).tokens =
      .ok d') :
    ∃ last, d'.Stands last (leadsFrom previous stream && fitting) ∧
      last.isTested = true := by
  induction stream generalizing d piece fitting previous current with
  | nil =>
    cases ha
    have hprevious : previous.isCombinator = false := by
      simpa [joinsFrom] using hstream.joined
    exact ⟨piece, h, ((rests_iff hprevious _ _).mp hrests).1⟩
  | cons token rest ih =>
    obtain ⟨context, next, htokens, hfollows, hrest⟩ := hstream.cons
    rw [htokens, Draft.advanceAll] at ha
    obtain ⟨e, hstep, ha⟩ := bind_eq_ok_iff.mp ha
    obtain ⟨last, hlast, hlastRests⟩ := h.advance hrests hfollows hstep
    obtain ⟨final, hfinal, htested⟩ := ih hlast hlastRests hrest ha
    refine ⟨final, ?_, htested⟩
    rwa [leadsFrom, Bool.and_assoc, Bool.and_left_comm]

end Draft.Stands

end XPath

end SelectorPath
