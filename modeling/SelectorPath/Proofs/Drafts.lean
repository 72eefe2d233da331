import SelectorPath.XPath.Location

/-!
# Writing behind a draft

A location path is written from left to right, but one operation looks back: a
child-position test widens the node test of the step at the end. What is written
behind some pieces must not reach into them, so this module says how far a run
of `Draft.advanceAll` looks back.

`Draft.onto` puts pieces in front of a draft. A run commutes with it as long as
a token with a type context finds a piece of its own run to widen, and the
forward pass sees to that: it hands out a context only behind a type selector,
which has written its node test, and takes it back at the next combinator.

## Main results

* `Draft.advanceAll_onto`: a run leaves the pieces in front of it alone.
* `Draft.render_onto`: its text stands behind the text of these pieces.
* `Draft.advanceAll_ok_iff`: whether a run succeeds depends on its tokens, not
  on the draft.
* `placeFrom_cons`, `placeFrom_append_of_typed`, `placeFrom_append_of_untyped`:
  the forward pass, step by step and over a longer stream.
* `Draft.advanceAll_append`, `placeFrom_append`: a run is cut at a combinator.
-/

namespace SelectorPath

/-! ## Computations that may fail -/

/-- A computation in two parts succeeds when both do. -/
theorem bind_eq_ok_iff {ε α β : Type} {x : Except ε α} {f : α → Except ε β}
    {b : β} :
    (x >>= f) = .ok b ↔ ∃ a, x = .ok a ∧ f a = .ok b := by
  cases x with
  | error e => simp [bind, Except.bind]
  | ok a => simp [bind, Except.bind]

theorem map_eq_ok_iff {ε α β : Type} {x : Except ε α} {f : α → β} {b : β} :
    x.map f = .ok b ↔ ∃ a, x = .ok a ∧ f a = b := by
  cases x with
  | error e => simp [Except.map]
  | ok a => simp [Except.map]

/-- Another wording of the error changes no success. -/
theorem mapError_eq_ok_iff {ε ε' α : Type} {x : Except ε α} {f : ε → ε'}
    {a : α} :
    x.mapError f = .ok a ↔ x = .ok a := by
  cases x with
  | error e =>
    constructor
    · rintro ⟨⟩
    · rintro ⟨⟩
  | ok b =>
    constructor
    · rintro ⟨⟩
      rfl
    · rintro ⟨⟩
      rfl

theorem kind_of_pseudo? {t : Token} {pseudo : PseudoClass}
    (h : t.pseudo? = some pseudo) :
    t.kind = .pseudoClass := by
  unfold Token.pseudo? at h
  split at h
  · assumption
  · simp at h

/-! ## The forward pass -/

/-- What a token is given of the type of its compound: type selectors and
combinators take nothing. -/
def Token.given (type : Option Text) (t : Token) : Option Text :=
  if t.kind == .tag || t.kind.isCombinator then none else type

/-- What the pass carries behind a token. -/
def Token.passOn (current : Option Text) (t : Token) : Option Text :=
  if t.kind == .tag then t.name else if t.kind.isCombinator then none
  else current

/-- Only a pseudo-class asks for a type. -/
theorem needsType_of_kind {t : Token} (h : t.kind ≠ .pseudoClass) :
    t.needsType = false := by
  simp [Token.needsType, h]

/-- One step of the pass. -/
theorem placeFrom_cons (current : Option Text) (t : Token) (rest : Stream) :
    placeFrom current (t :: rest) =
      if t.needsType && current.isNone then
        ⟨(t :: rest).map fun t => ⟨t, none⟩, some t.label⟩
      else .cons ⟨t, t.given current⟩ (placeFrom (t.passOn current) rest) := by
  cases hkind : t.kind with
  | tag =>
    rw [placeFrom, needsType_of_kind (by simp [hkind])]
    simp [hkind, Token.given, Token.passOn]
  | combinator c =>
    rw [placeFrom, needsType_of_kind (by simp [hkind])]
    simp [hkind, Token.given, Token.passOn, Kind.isCombinator]
  | _ =>
    rw [placeFrom]
    simp [hkind, Token.given, Token.passOn, Kind.isCombinator]

/-- The forward pass keeps the tokens and their order. -/
theorem map_token_placeFrom (current : Option Text) (stream : Stream) :
    (placeFrom current stream).tokens.map Placed.token = stream := by
  induction stream generalizing current with
  | nil => rfl
  | cons token rest ih =>
    rw [placeFrom_cons]
    split
    · simp [Function.comp_def]
    · simp [Placement.cons, ih]

/-- A stream is placed behind another one with what the pass carries there. -/
theorem placeFrom_append_of_typed {current : Option Text} {front : Stream}
    (back : Stream) (h : (placeFrom current front).untyped? = none) :
    placeFrom current (front ++ back) =
      ⟨(placeFrom current front).tokens ++
        (placeFrom (front.foldl Token.passOn current) back).tokens,
        (placeFrom (front.foldl Token.passOn current) back).untyped?⟩ := by
  induction front generalizing current with
  | nil => rfl
  | cons t rest ih =>
    rw [placeFrom_cons] at h
    rw [List.cons_append, placeFrom_cons, placeFrom_cons, List.foldl_cons]
    split at h
    · cases h
    · rename_i htyped
      rw [if_neg htyped, if_neg htyped, ih h]
      rfl

/-- Behind the token that the pass stops at, nothing is given any more. -/
theorem placeFrom_append_of_untyped {current : Option Text} {front : Stream}
    {name : Text} (back : Stream)
    (h : (placeFrom current front).untyped? = some name) :
    placeFrom current (front ++ back) =
      ⟨(placeFrom current front).tokens ++ back.map fun t => ⟨t, none⟩,
        some name⟩ := by
  induction front generalizing current with
  | nil => cases h
  | cons t rest ih =>
    rw [placeFrom_cons] at h
    rw [List.cons_append, placeFrom_cons, placeFrom_cons]
    split at h
    · rename_i huntyped
      cases h
      rw [if_pos huntyped, if_pos huntyped, List.map_cons, List.map_cons,
        List.map_append, List.cons_append]
    · rename_i htyped
      rw [if_neg htyped, if_neg htyped, ih h]
      rfl

/-- A stream is placed up to a combinator as if nothing followed, and behind it
as if nothing stood in front. -/
theorem placeFrom_append {current : Option Text} {front : Stream}
    (c : Combinator) (back : Stream)
    (h : (placeFrom current front).untyped? = none) :
    placeFrom current (front ++ .combinator c :: back) =
      ⟨(placeFrom current front).tokens ++ ⟨.combinator c, none⟩ ::
        (place back).tokens, (place back).untyped?⟩ := by
  rw [placeFrom_append_of_typed _ h]
  rfl

/-- The forward pass stops in front of a combinator whatever follows it. -/
theorem untyped?_append_of_some {current : Option Text} {front : Stream}
    {pseudo : Text} (back : Stream)
    (h : (placeFrom current front).untyped? = some pseudo) :
    (placeFrom current (front ++ back)).untyped? = some pseudo := by
  rw [placeFrom_append_of_untyped back h]

namespace XPath

namespace Draft

/-! ## Pieces in front of a draft -/

/-- The predicate that tests are written as, if they say anything. -/
def predicate (tests : List Text) : List Piece :=
  if (flatten .and tests).isEmpty then [] else [.predicate (flatten .and tests)]

/-- Committing a draft puts its predicate behind its pieces. -/
theorem commit_eq (d : Draft) :
    d.commit = ⟨predicate d.tests ++ d.pieces, []⟩ := by
  by_cases h : (flatten .and d.tests).isEmpty = true
  · simp [commit, predicate, h]
  · simp [commit, predicate, h]

/-- The draft with the pieces `base`, latest first, in front of its own. -/
def onto (d : Draft) (base : List Piece) : Draft :=
  { d with pieces := d.pieces ++ base }

@[simp] theorem push_onto (d : Draft) (base : List Piece) (piece : Piece) :
    (d.onto base).push piece = (d.push piece).onto base := rfl

@[simp] theorem require_onto (d : Draft) (base : List Piece)
    (tests : List Text) :
    (d.onto base).require tests = (d.require tests).onto base := rfl

/-- Committing a draft does not look at what lies below it. -/
@[simp] theorem commit_onto (d : Draft) (base : List Piece) :
    (d.onto base).commit = d.commit.onto base := by
  simp [commit_eq, onto]

private theorem foldl_push_onto (d : Draft) (base pieces : List Piece) :
    pieces.foldl push (d.onto base) = (pieces.foldl push d).onto base := by
  induction pieces generalizing d with
  | nil => rfl
  | cons piece pieces ih => exact ih (d.push piece)

/-- Widening looks at the latest piece only. -/
theorem widen_onto {d : Draft} (h : d.pieces ≠ []) (base : List Piece)
    (name : Text) :
    (d.onto base).widen name =
      ((d.widen name).1.onto base, (d.widen name).2) := by
  obtain ⟨pieces, tests⟩ := d
  cases pieces with
  | nil => exact absurd rfl h
  | cons piece pieces => rfl

/-- The text of pieces, latest first. -/
def text (pieces : List Piece) : Text :=
  (pieces.reverse.map Piece.render).flatten

/-- Pieces one behind the other are written one behind the other. -/
theorem text_append (back front : List Piece) :
    text (back ++ front) = text front ++ text back := by
  simp [text]

theorem render_eq_text (d : Draft) : d.render = text d.commit.pieces := rfl

/-- A draft is written behind the pieces in front of it. -/
theorem render_onto (d : Draft) (base : List Piece) :
    (d.onto base).render = text base ++ d.render := by
  rw [render_eq_text, commit_onto, onto, text_append, render_eq_text]

/-! ## One step of a run -/

/-- What a token adds to a draft because of the combinator in front of it: the
step to siblings, or the node test for all elements where it has none of its
own. -/
def enter (d : Draft) (previous : Option Kind) (p : Placed) : Draft :=
  match previous with
  | some (.combinator .adjacent) =>
    if p.token.kind.isSiblingAxis then d
    else (d.push (.sibling "*")).require
      ((if p.token.kind = .tag then [(tagFilter p.token.label).render]
        else []) ++ [firstTest])
  | some (.combinator .sibling) =>
    if p.token.kind.isSiblingAxis then d
    else d.push (.sibling (if p.token.kind = .tag then p.token.label else "*"))
  | some (.combinator _) =>
    if p.token.kind.isNodeTest || p.token.pseudo? == some .comment then d
    else d.push (.test "*")
  | _ => d

/-- Whether the step to siblings in front of a token has written the token
already. -/
def isWritten (previous : Option Kind) (p : Placed) : Bool :=
  previous.any Kind.isSiblingAxis && p.token.kind.isNodeTest

/-- A type selector is made into the condition on its name. -/
theorem filters_of_tag {t : Token} (h : t.kind = .tag) :
    filters t = .ok [(tagFilter t.label).render] := by
  rw [filters]
  simp [h]

private theorem isNodeTest_of_isSiblingAxis {k : Kind}
    (h : k.isSiblingAxis = true) :
    k.isNodeTest = false := by
  cases k with
  | combinator c => rfl
  | _ => simp [Kind.isSiblingAxis] at h

@[simp] theorem isDownwardAxis_combinator (c : Combinator) :
    (Kind.combinator c).isDownwardAxis = !c.isSibling := rfl

@[simp] theorem isSiblingAxis_combinator (c : Combinator) :
    (Kind.combinator c).isSiblingAxis = c.isSibling := rfl

/-- A step of the run: the token is led in, and written unless that has written
it. -/
theorem advance_eq (d : Draft) (previous : Option Kind) (p : Placed) :
    d.advance previous p =
      if isWritten previous p then .ok (d.enter previous p)
      else (d.enter previous p).write (previous.any Kind.isCombinator) p := by
  cases hs : p.token.kind.isSiblingAxis with
  | true =>
    -- A combinator to siblings takes nothing from the one in front of it.
    have hn := isNodeTest_of_isSiblingAxis hs
    cases previous with
    | none => simp [advance, enter, isWritten, hs]
    | some kind =>
      cases kind with
      | combinator c =>
        cases c <;> simp [advance, enter, isWritten, hs, hn,
            Combinator.isSibling]
      | _ => simp [advance, enter, isWritten, hs, hn, Kind.isDownwardAxis]
  | false =>
    cases previous with
    | none => simp [advance, enter, isWritten, hs]
    | some kind =>
      cases kind with
      | combinator c =>
        cases c with
        | adjacent =>
          by_cases htag : p.token.kind = .tag
          · simp [advance, enter, isWritten, htag, Kind.isSiblingAxis,
              Kind.isNodeTest, Combinator.isSibling, filters_of_tag htag, bind,
              Except.bind]
          · simp [advance, enter, isWritten, hs, htag, Combinator.isSibling,
              bind, Except.bind]
        | sibling => simp [advance, enter, isWritten, hs, Combinator.isSibling]
        | _ =>
          cases hn : p.token.kind.isNodeTest <;>
            simp [advance, enter, isWritten, hs, hn, Combinator.isSibling]
      | _ =>
        simp only [advance, enter, isWritten, hs]
        rfl

/-- Behind a simple selector or at the start, a token is just written. -/
theorem advance_plain {previous : Option Kind}
    (h : previous.any Kind.isCombinator = false) (d : Draft) (p : Placed) :
    d.advance previous p = d.write false p := by
  have hw : isWritten previous p = false := by
    cases previous with
    | none => rfl
    | some kind =>
      cases kind with
      | combinator c => simp [Kind.isCombinator] at h
      | _ => rfl
  have he : d.enter previous p = d := by
    cases previous with
    | none => rfl
    | some kind =>
      cases kind with
      | combinator c => simp [Kind.isCombinator] at h
      | _ => rfl
  rw [advance_eq, hw, he, h]
  rfl

/-- Whether a token begins a step of its own. -/
def beginsStep (t : Token) : Bool :=
  t.kind.isCombinator || t.kind.isNodeTest || t.pseudo? == some .comment

/-- Whether writing a token widens the step at the end. -/
def widens (p : Placed) : Bool :=
  p.context.isSome && p.token.pseudo?.any PseudoClass.isChildPosition

/-- The draft with a condition on the step at its end, `tests` being the filters
of the token. -/
def restrict (d : Draft) (p : Placed) (tests : List Text) : Draft :=
  if widens p then
    let (d, wide) := d.widen (p.context.getD [])
    d.require (if wide then nameTest (p.context.getD []) :: tests else tests)
  else d.require tests

/-- A token that begins no step is a condition on the step at the end. -/
theorem write_condition {p : Placed} (hbegins : beginsStep p.token = false)
    (hroot : p.token.kind ≠ .root) (d : Draft) (afterAxis : Bool) :
    d.write afterAxis p = (filters p.token).map (d.restrict p) := by
  simp only [beginsStep, Bool.or_eq_false_iff, beq_eq_false_iff_ne] at hbegins
  obtain ⟨⟨hcomb, hnode⟩, hcomment⟩ := hbegins
  unfold write
  split
  · contradiction
  · rename_i hk
    simp [hk, Kind.isCombinator] at hcomb
  · rename_i hk
    simp [hk, Kind.isNodeTest] at hnode
  · rename_i hk
    simp [hk, Kind.isNodeTest] at hnode
  · split
    · contradiction
    · rename_i pseudo _ hpseudo
      cases hf : filters p.token with
      | error e => rfl
      | ok tests =>
        simp only [bind, Except.bind, Except.map, restrict, widens, hpseudo,
          Option.any_some]
        cases hc : p.context with
        | none => rfl
        | some name => cases hpos : pseudo.isChildPosition <;> simp
    · rename_i hpseudo
      cases hf : filters p.token with
      | error e => rfl
      | ok tests =>
        simp [bind, Except.bind, Except.map, restrict, widens, hpseudo]

/-! ## The first token of a compound -/

/-- The node test that a token begins a compound with. -/
def leadingTest (t : Token) : Text :=
  if t.kind = .tag then t.label else "*"

/-- The draft with the step that the first token of a compound begins behind a
combinator. -/
def lead (d : Draft) (c : Combinator) (t : Token) : Draft :=
  match c with
  | .descendant | .child => d.push (.test (leadingTest t))
  | .sibling => d.push (.sibling (leadingTest t))
  | .adjacent =>
    (d.push (.sibling "*")).require
      ((if t.kind = .tag then [(tagFilter t.label).render] else []) ++
        [firstTest])

private theorem predicate_nil : predicate [] = [] := by decide

theorem commit_of_tests_nil {d : Draft} (h : d.tests = []) : d.commit = d := by
  rw [commit_eq, h, predicate_nil]
  cases d
  simp_all

/-- A node test at the start of a compound is the step. -/
theorem advance_lead_nodeTest {d : Draft} {p : Placed} (c : Combinator)
    (hnode : p.token.kind.isNodeTest = true) (htests : d.tests = []) :
    d.advance (some (.combinator c)) p = .ok (d.lead c p.token) := by
  have haxis : p.token.kind.isSiblingAxis = false := by
    cases hs : p.token.kind.isSiblingAxis with
    | false => rfl
    | true => simp [isNodeTest_of_isSiblingAxis hs] at hnode
  rw [advance_eq]
  cases hk : p.token.kind with
  | tag =>
    rw [hk] at hnode haxis
    cases c <;>
      simp [isWritten, enter, lead, leadingTest, hk, hnode, haxis, write,
        commit_of_tests_nil htests, Combinator.isSibling]
  | universal =>
    rw [hk] at hnode haxis
    cases c <;>
      simp [isWritten, enter, lead, leadingTest, hk, hnode, haxis, write,
        commit_of_tests_nil htests, Combinator.isSibling]
  | _ => simp [hk, Kind.isNodeTest] at hnode

/-- A condition at the start of a compound is one on the step to all
elements. -/
theorem advance_lead_condition {p : Placed} (d : Draft) (c : Combinator)
    (hbegins : beginsStep p.token = false) (hroot : p.token.kind ≠ .root) :
    d.advance (some (.combinator c)) p =
      (filters p.token).map ((d.lead c p.token).restrict p) := by
  have hsplit := hbegins
  simp only [beginsStep, Bool.or_eq_false_iff, beq_eq_false_iff_ne] at hsplit
  obtain ⟨⟨hcomb, hnode⟩, hcomment⟩ := hsplit
  have haxis : p.token.kind.isSiblingAxis = false := by
    cases hk : p.token.kind with
    | combinator c => simp [hk, Kind.isCombinator] at hcomb
    | _ => rfl
  have htag : p.token.kind ≠ .tag := by
    intro hk
    simp [hk, Kind.isNodeTest] at hnode
  have henter : d.enter (some (.combinator c)) p = d.lead c p.token := by
    cases c <;> simp [enter, lead, leadingTest, haxis, hnode, hcomment, htag]
  rw [advance_eq, henter]
  have hwritten : isWritten (some (.combinator c)) p = false := by
    simp [isWritten, hnode]
  rw [hwritten]
  exact write_condition hbegins hroot _ _

/-- `:comment` at the start of a compound finds a step down, or the step to
siblings with its node test. -/
theorem advance_lead_comment {p : Placed} (d : Draft) (c : Combinator)
    (hcomment : p.token.pseudo? = some .comment) :
    d.advance (some (.combinator c)) p =
      .ok ((if c.isSibling then d.lead c p.token else d).push
        (.comment (p.token.argumentText?.getD []))) := by
  have hk := kind_of_pseudo? hcomment
  have hwritten : isWritten (some (.combinator c)) p = false := by
    rw [isWritten, hk]
    exact Bool.and_false _
  rw [advance_eq, hwritten]
  cases c <;>
    simp [enter, lead, leadingTest, write, hk, hcomment, Kind.isSiblingAxis,
      Kind.isNodeTest, Kind.isCombinator, Combinator.isSibling]

/-- `:comment` behind a simple selector steps down to comments among the
children. -/
theorem advance_plain_comment {previous : Option Kind} {p : Placed}
    (h : previous.any Kind.isCombinator = false) (d : Draft)
    (hcomment : p.token.pseudo? = some .comment) :
    d.advance previous p =
      .ok ((d.commit.push .child).push
        (.comment (p.token.argumentText?.getD []))) := by
  rw [advance_plain h, write, kind_of_pseudo? hcomment, hcomment]
  rfl

/-- Behind a simple selector, a node test is written as it is. -/
theorem advance_plain_nodeTest {previous : Option Kind} {p : Placed}
    (h : previous.any Kind.isCombinator = false) (d : Draft)
    (hnode : p.token.kind.isNodeTest = true) :
    d.advance previous p =
      .ok (d.commit.push (.test (leadingTest p.token))) := by
  rw [advance_plain h]
  cases hk : p.token.kind with
  | tag => simp only [write, hk, leadingTest, if_true]
  | universal => simp [write, hk, leadingTest]
  | _ => simp [hk, Kind.isNodeTest] at hnode

/-! ## Runs behind other pieces -/

/-- Writing a token leaves the pieces in front of a draft alone: it widens its
own last piece, or widens nothing. -/
theorem write_onto {d : Draft} {p : Placed} (base : List Piece)
    (afterAxis : Bool) (hroot : p.token.kind ≠ .root)
    (h : d.pieces ≠ [] ∨ widens p = false) :
    (d.onto base).write afterAxis p =
      (d.write afterAxis p).map (·.onto base) := by
  unfold write
  split
  · contradiction
  · simp [foldl_push_onto, Except.map]
  · simp [Except.map]
  · simp [Except.map]
  · split
    · cases afterAxis <;> simp [Except.map]
    · rename_i pseudo _ hpseudo
      cases hf : filters p.token with
      | error e => rfl
      | ok tests =>
        simp only [bind, Except.bind]
        cases hc : p.context with
        | none => rfl
        | some name =>
          cases hpos : pseudo.isChildPosition with
          | false => rfl
          | true =>
            have hd : d.pieces ≠ [] :=
              h.resolve_right (by simp [widens, hc, hpseudo, hpos])
            simp only [widen_onto hd]
            rfl
    · cases hf : filters p.token with
      | error e => rfl
      | ok tests => rfl

/-- Entering a token does not look at what lies below the draft. -/
@[simp] theorem enter_onto (d : Draft) (base : List Piece)
    (previous : Option Kind) (p : Placed) :
    (d.onto base).enter previous p = (d.enter previous p).onto base := by
  unfold enter
  split
  · split <;> rfl
  · split <;> rfl
  · split <;> rfl
  · rfl

private theorem enter_pieces_ne_nil {d : Draft} (h : d.pieces ≠ [])
    (previous : Option Kind) (p : Placed) :
    (d.enter previous p).pieces ≠ [] := by
  unfold enter
  split
  · split <;> simp [h, push, require]
  · split <;> simp [h, push]
  · split <;> simp [h, push]
  · exact h

/-- A step of the run leaves the pieces in front of the draft alone. -/
theorem advance_onto {d : Draft} {p : Placed} (base : List Piece)
    (previous : Option Kind) (hroot : p.token.kind ≠ .root)
    (h : d.pieces ≠ [] ∨ widens p = false) :
    (d.onto base).advance previous p =
      (d.advance previous p).map (·.onto base) := by
  rw [advance_eq, advance_eq, enter_onto]
  split
  · rfl
  · apply write_onto base _ hroot
    exact h.imp_left fun hd => enter_pieces_ne_nil hd previous p

private theorem commit_pieces_ne_nil {d : Draft} (h : d.pieces ≠ []) :
    d.commit.pieces ≠ [] := by
  simp [commit_eq, h]

private theorem foldl_push_pieces_ne_nil {d : Draft} (h : d.pieces ≠ [])
    (pieces : List Piece) :
    (pieces.foldl push d).pieces ≠ [] := by
  induction pieces generalizing d with
  | nil => exact h
  | cons piece pieces ih => exact ih (by simp [push])

/-- A draft with pieces keeps some when a token is written. -/
theorem write_pieces_ne_nil {d d' : Draft} {afterAxis : Bool} {p : Placed}
    (h : d.pieces ≠ []) (hw : d.write afterAxis p = .ok d') :
    d'.pieces ≠ [] := by
  unfold write at hw
  split at hw
  · cases hw
    simp
  · cases hw
    exact foldl_push_pieces_ne_nil (commit_pieces_ne_nil h) _
  · cases hw
    simp [push]
  · cases hw
    simp [push]
  · split at hw
    · cases hw
      simp [push]
    · obtain ⟨tests, -, hw⟩ := bind_eq_ok_iff.mp hw
      split at hw
      · split at hw
        · cases hw
          obtain ⟨pieces, pending⟩ := d
          cases pieces with
          | nil => exact absurd rfl h
          | cons piece pieces => simp [require]
        · cases hw
          exact h
      · cases hw
        exact h
    · obtain ⟨tests, -, hw⟩ := bind_eq_ok_iff.mp hw
      cases hw
      exact h

private theorem advance_pieces_ne_nil {d d' : Draft} {previous : Option Kind}
    {p : Placed} (h : d.pieces ≠ []) (ha : d.advance previous p = .ok d') :
    d'.pieces ≠ [] := by
  have he := enter_pieces_ne_nil h previous p
  rw [advance_eq] at ha
  split at ha
  · cases ha
    exact he
  · exact write_pieces_ne_nil he ha

/-- A token that begins a step and is no combinator writes a piece. -/
theorem advance_step_pieces_ne_nil {d d' : Draft} {previous : Option Kind}
    {p : Placed}
    (h : p.token.kind.isNodeTest = true ∨ p.token.pseudo? = some .comment)
    (ha : d.advance previous p = .ok d') : d'.pieces ≠ [] := by
  rw [advance_eq] at ha
  split at ha
  · rename_i hw
    cases ha
    simp only [isWritten, Bool.and_eq_true, Option.any_eq_true] at hw
    obtain ⟨⟨kind, rfl, hk⟩, hnode⟩ := hw
    have haxis : p.token.kind.isSiblingAxis = false := by
      cases hs : p.token.kind.isSiblingAxis with
      | false => rfl
      | true => simp [isNodeTest_of_isSiblingAxis hs] at hnode
    cases kind with
    | combinator c =>
      cases c with
      | sibling => simp [enter, haxis, push]
      | adjacent => simp [enter, haxis, push, require]
      | _ => simp [Combinator.isSibling] at hk
    | _ => simp [Kind.isSiblingAxis] at hk
  · rcases h with hnode | hcomment
    · cases hk : p.token.kind with
      | tag =>
        simp only [write, hk] at ha
        cases ha
        simp [push]
      | universal =>
        simp only [write, hk] at ha
        cases ha
        simp [push]
      | _ => simp [hk, Kind.isNodeTest] at hnode
    · have hk := kind_of_pseudo? hcomment
      simp only [write, hk, hcomment] at ha
      cases ha
      simp [push]

private theorem widens_of_beginsStep {p : Placed}
    (h : beginsStep p.token = true) : widens p = false := by
  cases hp : p.token.pseudo? with
  | none => simp [widens, hp]
  | some pseudo =>
    have hk := kind_of_pseudo? hp
    simp only [beginsStep, hk, hp, Kind.isCombinator, Kind.isNodeTest,
      Bool.or_self, Bool.false_or, beq_iff_eq, Option.some.injEq] at h
    simp [widens, hp, h, PseudoClass.isChildPosition]

/-- The run over a stream leaves the pieces in front of it alone, if it has
pieces of its own, or no context, or begins with a step. -/
theorem advanceAll_onto {current : Option Text} {stream : Stream} {d : Draft}
    (base : List Piece) (previous : Option Kind)
    (hroot : ∀ t ∈ stream, t.kind ≠ .root)
    (htyped : (placeFrom current stream).untyped? = none)
    (h : d.pieces ≠ [] ∨ current = none ∨ stream.head?.any beginsStep = true) :
    (d.onto base).advanceAll previous (placeFrom current stream).tokens =
      (d.advanceAll previous (placeFrom current stream).tokens).map
        (·.onto base) := by
  induction stream generalizing current d previous with
  | nil => rfl
  | cons token rest ih =>
    have hrest : ∀ t ∈ rest, t.kind ≠ .root :=
      fun t ht => hroot t (List.mem_cons_of_mem _ ht)
    have htoken : token.kind ≠ .root := hroot token (List.mem_cons_self ..)
    -- The run behind the first token, once it is known what that token leaves.
    have hstep : ∀ (context current' : Option Text),
        d.pieces ≠ [] ∨ widens ⟨token, context⟩ = false →
        (placeFrom current' rest).untyped? = none →
        (∀ d', d.advance previous ⟨token, context⟩ = .ok d' → d'.pieces ≠ [] ∨
          current' = none) →
        (d.onto base).advanceAll previous
          (⟨token, context⟩ :: (placeFrom current' rest).tokens) =
          (d.advanceAll previous
            (⟨token, context⟩ :: (placeFrom current' rest).tokens)).map
            (·.onto base) := by
      intro context current' hc ht hnext
      rw [advanceAll, advanceAll, advance_onto base previous htoken hc]
      cases ha : d.advance previous ⟨token, context⟩ with
      | error e => rfl
      | ok d' => exact ih _ hrest ht ((hnext d' ha).imp_right .inl)
    rw [placeFrom] at htyped ⊢
    split at htyped
    · rename_i htag
      apply hstep none token.name (.inr rfl) htyped
      intro d' ha
      exact .inl (advance_step_pieces_ne_nil
        (.inl (by simp [htag, Kind.isNodeTest])) ha)
    · apply hstep none none (.inr rfl) htyped
      intro d' ha
      exact .inr rfl
    · rename_i _ hcomb
      split at htyped
      · simp at htyped
      · rename_i htype
        rw [if_neg htype]
        rcases h with hd | rfl | hbegins
        · apply hstep current current (.inl hd) htyped
          intro d' ha
          exact .inl (advance_pieces_ne_nil hd ha)
        · apply hstep none none (.inr rfl) htyped
          intro d' ha
          exact .inr rfl
        · have hbegins : beginsStep token = true := by simpa using hbegins
          apply hstep current current
            (.inr (widens_of_beginsStep hbegins)) htyped
          intro d' ha
          refine .inl (advance_step_pieces_ne_nil ?_ ha)
          simp only [beginsStep, Bool.or_eq_true, beq_iff_eq] at hbegins
          rcases hbegins with (hk | hnode) | hcomment
          · cases hkind : token.kind with
            | combinator c => exact absurd hkind (hcomb c)
            | _ => simp [hkind, Kind.isCombinator] at hk
          · exact .inl hnode
          · exact .inr hcomment

/-! ## Runs over longer streams -/

/-- The kind of the token that a run stands behind after a stream. -/
def lastKind (previous : Option Kind) : Stream → Option Kind
  | [] => previous
  | token :: rest => lastKind (some token.kind) rest

/-- A run over two lists is a run over the first and then one over the
second. -/
theorem advanceAll_append (d : Draft) (previous : Option Kind)
    (front back : List Placed) :
    d.advanceAll previous (front ++ back) =
      d.advanceAll previous front >>= fun d' =>
        d'.advanceAll (lastKind previous (front.map Placed.token)) back := by
  induction front generalizing d previous with
  | nil => rfl
  | cons p front ih =>
    rw [List.cons_append, advanceAll, advanceAll]
    cases ha : d.advance previous p with
    | error e => rfl
    | ok d' => exact ih d' _

/-- Whether a token can be written: it is part of the path itself, or its
filters can be made. -/
def isWritable (t : Token) : Prop :=
  match t.kind with
  | .root | .combinator _ | .universal | .tag => True
  | _ => t.pseudo? = some .comment ∨ ∃ tests, filters t = .ok tests

private theorem write_ok_iff (d : Draft) (afterAxis : Bool) (p : Placed) :
    (∃ d', d.write afterAxis p = .ok d') ↔ isWritable p.token := by
  cases hk : p.token.kind with
  | root => simp [write, isWritable, hk]
  | combinator c => simp [write, isWritable, hk]
  | universal => simp [write, isWritable, hk]
  | tag => simp [write, isWritable, hk]
  | _ =>
    simp only [write, isWritable, hk]
    split
    · simp [*]
    · rename_i pseudo hpseudo hp
      cases hf : filters p.token with
      | error e => simpa [bind, Except.bind, hp] using hpseudo
      | ok tests =>
        cases p.context with
        | none => simp [bind, Except.bind]
        | some name => cases pseudo.isChildPosition <;> simp [bind, Except.bind]
    · rename_i hp
      cases hf : filters p.token with
      | error e => simp [bind, Except.bind, hp]
      | ok tests => simp [bind, Except.bind]

private theorem advance_ok_iff (d : Draft) (previous : Option Kind)
    (p : Placed) :
    (∃ d', d.advance previous p = .ok d') ↔ isWritable p.token := by
  rw [advance_eq]
  split
  · rename_i hw
    simp only [isWritten, Bool.and_eq_true] at hw
    cases hk : p.token.kind with
    | tag => simp [isWritable, hk]
    | universal => simp [isWritable, hk]
    | _ => simp [hk, Kind.isNodeTest] at hw
  · exact write_ok_iff _ _ p

/-- Whether a run succeeds depends on its tokens alone. -/
theorem advanceAll_ok_iff (d : Draft) (previous : Option Kind)
    (placed : List Placed) :
    (∃ d', d.advanceAll previous placed = .ok d') ↔
      ∀ p ∈ placed, isWritable p.token := by
  induction placed generalizing d previous with
  | nil => simp [advanceAll]
  | cons p placed ih =>
    have hp := advance_ok_iff d previous p
    rw [advanceAll, List.forall_mem_cons, ← hp]
    cases ha : d.advance previous p with
    | error e => simp [bind, Except.bind]
    | ok d' =>
      have hrest := ih d' (some p.token.kind)
      simpa [bind, Except.bind] using hrest

end Draft

end XPath

end SelectorPath
