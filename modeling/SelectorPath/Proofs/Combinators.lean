import SelectorPath.Proofs.Drafts

/-!
# Location paths across a combinator

Two streams joined by a combinator are compiled as if each stood alone: the path
of the first comes first, and what follows depends on the combinator and the
second stream only. Behind a combinator down the tree this is the path of the
second stream with another beginning, and behind `~` too, except for one name.

That name is the text of the step to siblings itself. A child-position test
finds the node test that it widens by comparing texts, so on its second turn it
takes the step `/following-sibling::*` for a node test named like that, and the
step is lost (`losesAxis`).

## Main results

* `locationPath_join_iff`: the path of a joined stream is the path of the first
  and an extension.
* `locationPath_eq_extension`, `extension_child`, `extension_sibling`: the
  extension behind a combinator, from the path of the second stream alone.
* `locationPath_join`: when a joined stream has a path, and which.
-/

namespace SelectorPath

/-! ## Streams as they are read -/

/-- Whether a stream can go on behind a combinator, where `afterAxis` is set, or
else behind a simple selector: it holds no two combinators in a row, does not
end with one, and holds no root token, which only `XPath.fromTop` makes. -/
def joinsFrom (afterAxis : Bool) : Stream → Bool
  | [] => !afterAxis
  | token :: rest =>
    token.kind != .root && !(afterAxis && token.kind.isCombinator)
      && joinsFrom token.kind.isCombinator rest

/-- Whether a stream has the shape of an alternative that was read: not empty,
without a combinator at either end, and without two in a row. -/
def isJoined (stream : Stream) : Bool :=
  joinsFrom true stream

private theorem joinsFrom_of_simple {stream : Stream} {afterAxis : Bool}
    (h : ∀ t ∈ stream, t.kind ≠ .root ∧ t.kind.isCombinator = false)
    (hne : afterAxis = true → stream ≠ []) :
    joinsFrom afterAxis stream = true := by
  induction stream generalizing afterAxis with
  | nil =>
    cases afterAxis with
    | true => exact absurd rfl (hne rfl)
    | false => rfl
  | cons t rest ih =>
    obtain ⟨hroot, hcomb⟩ := h t (List.mem_cons_self ..)
    have hrest : joinsFrom false rest = true :=
      ih (fun t ht => h t (List.mem_cons_of_mem _ ht)) (by rintro ⟨⟩)
    simp [joinsFrom, hroot, hcomb, hrest]

/-- Without combinators, a stream has the shape of an alternative unless it is
empty. -/
theorem isJoined_of_simple {stream : Stream} (hne : stream ≠ [])
    (h : ∀ t ∈ stream, t.kind ≠ .root ∧ t.kind.isCombinator = false) :
    isJoined stream = true :=
  joinsFrom_of_simple h fun _ => hne

private theorem joinsFrom_rootless {afterAxis : Bool} {stream : Stream}
    (h : joinsFrom afterAxis stream = true) : ∀ t ∈ stream, t.kind ≠ .root := by
  induction stream generalizing afterAxis with
  | nil => simp
  | cons token rest ih =>
    simp only [joinsFrom, Bool.and_eq_true, bne_iff_ne] at h
    intro t ht
    rcases List.mem_cons.mp ht with rfl | ht
    · exact h.1.1
    · exact ih h.2 t ht

/-- A stream that is joined starts with a token that is no combinator. -/
theorem isJoined_cons {stream : Stream} (h : isJoined stream = true) :
    ∃ token rest, stream = token :: rest ∧ token.kind.isCombinator = false := by
  cases stream with
  | nil => simp [isJoined, joinsFrom] at h
  | cons token rest =>
    refine ⟨token, rest, rfl, ?_⟩
    cases hc : token.kind.isCombinator with
    | false => rfl
    | true => simp [isJoined, joinsFrom, hc] at h

namespace XPath

/-- Behind a stream that was read, a run stands behind a simple selector. -/
theorem lastKind_joinsFrom {afterAxis : Bool} {stream : Stream}
    {previous : Option Kind} (h : joinsFrom afterAxis stream = true)
    (hp : previous.any Kind.isCombinator = afterAxis) :
    (Draft.lastKind previous stream).any Kind.isCombinator = false := by
  induction stream generalizing afterAxis previous with
  | nil =>
    rw [Draft.lastKind, hp]
    simpa [joinsFrom] using h
  | cons token rest ih =>
    simp only [joinsFrom, Bool.and_eq_true] at h
    exact ih h.2 rfl

/-! ## The extension of a path -/

/-- The text of the step that a combinator begins by itself. -/
def axisText (c : Combinator) : Text :=
  Draft.text (axisPieces c)

/-- What a stream writes behind a combinator. -/
def extension (c : Combinator) (stream : Stream) : Except SelectorError Text :=
  match (place stream).untyped? with
  | some pseudo => .error (.missingType pseudo)
  | none => do
    let draft ← ({} : Draft).advanceAll (some (.combinator c))
      (place stream).tokens
    .ok (axisText c ++ draft.render)

/-- The path of a stream, with its parts named. -/
theorem locationPath_eq_ok_iff {stream : Stream} {out : Text} :
    locationPath stream = .ok out ↔
      (place (fromTop stream)).untyped? = none ∧
        ∃ d, ({} : Draft).advanceAll none (place (fromTop stream)).tokens =
          .ok d ∧ d.render = out := by
  unfold locationPath
  cases h : (place (fromTop stream)).untyped? with
  | some pseudo => simp [h]
  | none => simp [h, bind_eq_ok_iff]

private theorem extension_eq_ok_iff {c : Combinator} {stream : Stream}
    {out : Text} :
    extension c stream = .ok out ↔
      (place stream).untyped? = none ∧
        ∃ d, ({} : Draft).advanceAll (some (.combinator c))
          (place stream).tokens = .ok d ∧
          axisText c ++ d.render = out := by
  unfold extension
  cases h : (place stream).untyped? with
  | some pseudo => simp
  | none => simp [bind_eq_ok_iff]

/-- Behind a simple selector, a combinator ends the step and begins the next
one. -/
theorem advance_combinator {previous : Option Kind} (d : Draft) (c : Combinator)
    (h : previous.any Kind.isCombinator = false) :
    d.advance previous ⟨.combinator c, none⟩ =
      .ok (({} : Draft).onto (axisPieces c ++ d.commit.pieces)) := by
  rw [Draft.advance_plain h]
  cases c <;> simp [Draft.write, Token.combinator, axisPieces, Draft.commit_eq,
      Draft.onto, Draft.push]

/-- Only the first token of a stream decides how it starts from the top. -/
theorem fromTop_append {front : Stream} (h : front ≠ []) (back : Stream) :
    fromTop (front ++ back) = fromTop front ++ back := by
  cases front with
  | nil => exact absurd rfl h
  | cons token rest =>
    rw [List.cons_append, fromTop, fromTop]
    split <;> rfl

/-- From the top of the document, a run over a stream that was read stands
behind a simple selector. -/
theorem lastKind_fromTop {stream : Stream} (h : isJoined stream = true) :
    (Draft.lastKind none (fromTop stream)).any Kind.isCombinator = false := by
  obtain ⟨token, rest, rfl, hc⟩ := isJoined_cons h
  rw [fromTop]
  split
  · have hrest : joinsFrom false rest = true := by
      simp only [isJoined, joinsFrom, hc, Bool.and_eq_true] at h
      exact h.2
    show (Draft.lastKind (some .root) rest).any Kind.isCombinator = false
    exact lastKind_joinsFrom hrest rfl
  · show (Draft.lastKind (some (.combinator .descendant)) (token :: rest)).any
        Kind.isCombinator = false
    exact lastKind_joinsFrom h rfl

/-- The run behind a combinator, from what it writes by itself. -/
theorem advanceAll_behind {c : Combinator} {stream : Stream} (base : List Piece)
    (hroot : ∀ t ∈ stream, t.kind ≠ .root)
    (htyped : (place stream).untyped? = none) :
    (({} : Draft).onto (axisPieces c ++ base)).advanceAll (some (.combinator c))
      (place stream).tokens =
      (({} : Draft).advanceAll (some (.combinator c)) (place stream).tokens).map
        (·.onto (axisPieces c ++ base)) :=
  Draft.advanceAll_onto _ _ hroot htyped (.inr (.inl rfl))

/-- What stands behind a combinator is written behind its axis. -/
theorem render_behind (c : Combinator) (base : List Piece) (d : Draft) :
    (d.onto (axisPieces c ++ base)).render =
      Draft.text base ++ (axisText c ++ d.render) := by
  rw [Draft.render_onto, Draft.text_append, List.append_assoc, axisText]

/-- The path of two streams joined by a combinator is the path of the first, and
behind it what the second writes behind the combinator. -/
theorem locationPath_join_iff {A B : Stream} {c : Combinator} {out : Text}
    (hA : isJoined A = true) (hB : isJoined B = true) :
    locationPath (A ++ .combinator c :: B) = .ok out ↔
      ∃ a b, locationPath A = .ok a ∧ extension c B = .ok b ∧ a ++ b = out := by
  have hne : A ≠ [] := by
    obtain ⟨token, rest, rfl, -⟩ := isJoined_cons hA
    simp
  rw [locationPath_eq_ok_iff, fromTop_append hne]
  cases htyped : (place (fromTop A)).untyped? with
  | some pseudo =>
    have happ : (place (fromTop A ++ .combinator c :: B)).untyped? =
        some pseudo :=
      untyped?_append_of_some _ htyped
    simp [happ, locationPath_eq_ok_iff, htyped]
  | none =>
    have happ : place (fromTop A ++ .combinator c :: B) = _ :=
      placeFrom_append c B htyped
    have hlast := lastKind_fromTop hA
    rw [happ, Draft.advanceAll_append, map_token_placeFrom]
    simp only [locationPath_eq_ok_iff, extension_eq_ok_iff, htyped, true_and]
    change ((place B).untyped? = none ∧ ∃ d, _ ∧ _) ↔ _
    cases hrun : ({} : Draft).advanceAll none (place (fromTop A)).tokens with
    | error e =>
      have hrun' : ({} : Draft).advanceAll none
          (placeFrom none (fromTop A)).tokens = .error e := hrun
      simp [hrun', bind, Except.bind]
    | ok dA =>
      have hrun' : ({} : Draft).advanceAll none
          (placeFrom none (fromTop A)).tokens = .ok dA := hrun
      simp only [hrun', bind, Except.bind, Draft.advanceAll,
        advance_combinator dA c hlast]
      constructor
      · rintro ⟨hB', d, hd, rfl⟩
        have hroot := joinsFrom_rootless hB
        change (({} : Draft).onto _).advanceAll (some (.combinator c)) _ =
          _ at hd
        rw [advanceAll_behind _ hroot hB', map_eq_ok_iff] at hd
        obtain ⟨dB, hdB, rfl⟩ := hd
        refine ⟨dA.render, axisText c ++ dB.render, ⟨dA, rfl, rfl⟩,
          ⟨hB', dB, hdB, rfl⟩, ?_⟩
        rw [render_behind, ← Draft.render_eq_text]
      · rintro ⟨a, b, ⟨dA', hdA, rfl⟩, ⟨hB', dB, hdB, rfl⟩, rfl⟩
        cases hdA
        have hroot := joinsFrom_rootless hB
        refine ⟨hB', dB.onto (axisPieces c ++ dA.commit.pieces), ?_, ?_⟩
        · change (({} : Draft).onto _).advanceAll (some (.combinator c)) _ = _
          rw [advanceAll_behind _ hroot hB', hdB]
          rfl
        · rw [render_behind, ← Draft.render_eq_text]

/-! ## Behind a combinator down the tree -/

/-- Whether the first token of a stream is the given pseudo-class. -/
def startsWithPseudo (pseudo : PseudoClass) : Stream → Bool
  | [] => false
  | token :: _ => token.pseudo? == some pseudo

/-- A stream that does not start at the root is looked for among all
descendants. -/
theorem locationPath_eq_extension {stream : Stream} {out : Text}
    (h : isJoined stream = true)
    (hroot : startsWithPseudo .root stream = false) :
    locationPath stream = .ok out ↔ extension .descendant stream = .ok out := by
  have htop : fromTop stream = .combinator .descendant :: stream := by
    obtain ⟨token, rest, rfl, -⟩ := isJoined_cons h
    have hne : token.pseudo? ≠ some .root := by
      simpa [startsWithPseudo] using hroot
    simp [fromTop, hne]
  have hplace : place (fromTop stream) =
      .cons ⟨.combinator .descendant, none⟩ (place stream) := by
    rw [htop]
    rfl
  rw [locationPath_eq_ok_iff, extension_eq_ok_iff, hplace]
  apply and_congr_right
  intro htyped
  have hstart : ({} : Draft).advance none ⟨.combinator .descendant, none⟩ =
      .ok (({} : Draft).onto (axisPieces .descendant ++ [])) := rfl
  have hrun : ({} : Draft).advanceAll none
      (Placement.cons ⟨.combinator .descendant, none⟩ (place stream)).tokens =
      (({} : Draft).advanceAll (some (.combinator .descendant))
        (place stream).tokens).map (·.onto (axisPieces .descendant ++ [])) := by
    rw [← advanceAll_behind [] (joinsFrom_rootless h) htyped, Placement.cons,
      Draft.advanceAll, hstart]
    rfl
  simp only [hrun, map_eq_ok_iff]
  constructor
  · rintro ⟨-, ⟨d, hd, rfl⟩, rfl⟩
    exact ⟨d, hd, (render_behind .descendant [] d).symm⟩
  · rintro ⟨d, hd, rfl⟩
    exact ⟨_, ⟨d, hd, rfl⟩, render_behind .descendant [] d⟩

/-- Only the first token of a stream looks at what stands in front of it, and to
it the two combinators down the tree are alike. -/
theorem extension_child {stream : Stream} {out : Text} :
    extension .child stream = .ok out ↔
      ∃ rest, extension .descendant stream = .ok ('/' :: '/' :: rest) ∧
        out = '/' :: rest := by
  have hfirst : ∀ (d : Draft) (p : Placed),
      d.advance (some (.combinator .child)) p =
        d.advance (some (.combinator .descendant)) p := by
    intro d p
    rw [Draft.advance_eq, Draft.advance_eq]
    rfl
  have hrun : ({} : Draft).advanceAll (some (.combinator .child))
      (place stream).tokens =
      ({} : Draft).advanceAll (some (.combinator .descendant))
        (place stream).tokens := by
    cases (place stream).tokens with
    | nil => rfl
    | cons p placed => rw [Draft.advanceAll, Draft.advanceAll, hfirst]
  have hchild : axisText .child = ['/'] := by decide
  have hdescendant : axisText .descendant = ['/', '/'] := by decide
  simp only [extension_eq_ok_iff, hrun, hchild, hdescendant]
  constructor
  · rintro ⟨htyped, d, hd, rfl⟩
    exact ⟨d.render, ⟨htyped, d, hd, rfl⟩, rfl⟩
  · rintro ⟨rest, ⟨htyped, d, hd, hrest⟩, rfl⟩
    refine ⟨htyped, d, hd, ?_⟩
    simpa using hrest

/-! ## Behind a combinator to following siblings -/

/-- The text of the step to following siblings, in front of its node test. -/
def siblingText : Text :=
  "/following-sibling::"

/-- The number of child-position tests in front of the next step. -/
def positionTests : Stream → Nat
  | [] => 0
  | token :: rest =>
    if Draft.beginsStep token then 0
    else (if token.pseudo?.any PseudoClass.isChildPosition then 1 else 0) +
      positionTests rest

/-- Whether the step to siblings in front of the stream is lost: the stream
starts with a type selector that is named like that step, and two tests of its
compound widen it. -/
def losesAxis : Stream → Bool
  | [] => false
  | token :: rest =>
    token.kind == .tag && token.name == some (siblingText ++ "*") &&
      2 ≤ positionTests rest

/-- The node test of a step after a number of tests have widened it. -/
def widenedBy (name : Text) : Nat → Piece → Piece
  | 0, piece => piece
  | n + 1, piece => widenedBy name n (Draft.widened name piece)

/-- A test that is no child position is added to the predicate as it is. -/
theorem restrict_other {token : Token} {context : Option Text}
    (h : token.pseudo?.any PseudoClass.isChildPosition = false)
    (pieces : List Piece) (tests added : List Text) :
    (⟨pieces, tests⟩ : Draft).restrict ⟨token, context⟩ added =
      ⟨pieces, tests ++ added⟩ := by
  simp [Draft.restrict, Draft.widens, h, Draft.require]

/-- A child-position test behind a type selector widens the step and asks for
the name. -/
theorem restrict_position {token : Token} {name : Text} {piece : Piece}
    (h : token.pseudo?.any PseudoClass.isChildPosition = true)
    (hwide : Draft.isWide (Draft.widened name piece) = true)
    (tests added : List Text) :
    (⟨[piece], tests⟩ : Draft).restrict ⟨token, some name⟩ added =
      ⟨[Draft.widened name piece], tests ++ nameTest name :: added⟩ := by
  simp [Draft.restrict, Draft.widens, h, Draft.require, Draft.widen, hwide]

/-- A token inside a step counts among the position tests if it is one. -/
theorem positionTests_cons {token : Token} (rest : Stream)
    (h : Draft.beginsStep token = false) :
    positionTests (token :: rest) =
      positionTests rest + if token.pseudo?.any PseudoClass.isChildPosition then
        1 else 0 := by
  rw [positionTests, h, Nat.add_comm]
  rfl

/-- While no further step begins, a run changes the draft's only piece in a
known way and depends on it in no other. -/
theorem advanceAll_open_step (name : Text) {stream : Stream} (tests : List Text)
    {previous : Option Kind} (hprev : previous.any Kind.isCombinator = false)
    (hroot : ∀ t ∈ stream, t.kind ≠ .root)
    (htyped : (placeFrom (some name) stream).untyped? = none) :
    ∃ result : Except SelectorError Draft, ∀ piece : Piece,
      (∀ n, Draft.isWide (widenedBy name (n + 1) piece) = true) →
      (⟨[piece], tests⟩ : Draft).advanceAll previous
        (placeFrom (some name) stream).tokens =
        result.map (·.onto [widenedBy name (positionTests stream) piece]) := by
  induction stream generalizing tests previous with
  | nil => exact ⟨.ok ⟨[], tests⟩, fun piece _ => rfl⟩
  | cons token rest ih =>
    have hrest : ∀ t ∈ rest, t.kind ≠ .root :=
      fun t ht => hroot t (List.mem_cons_of_mem _ ht)
    have htoken : token.kind ≠ .root := hroot token (List.mem_cons_self ..)
    cases hbegins : Draft.beginsStep token with
    | true =>
      -- Nothing in front of the new step is looked at any more.
      refine ⟨(⟨[], tests⟩ : Draft).advanceAll previous
        (placeFrom (some name) (token :: rest)).tokens, fun piece _ => ?_⟩
      rw [positionTests, if_pos hbegins]
      show ((⟨[], tests⟩ : Draft).onto [piece]).advanceAll previous _ = _
      exact Draft.advanceAll_onto [piece] previous hroot htyped
        (.inr (.inr (by simpa using hbegins)))
    | false =>
      have hcomb : token.kind.isCombinator = false := by
        simp only [Draft.beginsStep, Bool.or_eq_false_iff] at hbegins
        exact hbegins.1.1
      have hplace : placeFrom (some name) (token :: rest) =
          .cons ⟨token, some name⟩ (placeFrom (some name) rest) := by
        rw [placeFrom]
        split
        · rename_i hk
          simp [Draft.beginsStep, hk, Kind.isNodeTest] at hbegins
        · rename_i hk
          simp [hk, Kind.isCombinator] at hcomb
        · simp
      have hwrite : ∀ d : Draft, d.advance previous ⟨token, some name⟩ =
          (filters token).map (d.restrict ⟨token, some name⟩) := by
        intro d
        rw [Draft.advance_plain hprev]
        exact Draft.write_condition hbegins htoken d false
      have htyped' : (placeFrom (some name) rest).untyped? = none := by
        rw [hplace] at htyped
        exact htyped
      simp only [hplace, Placement.cons, Draft.advanceAll, hwrite]
      cases hf : filters token with
      | error e => exact ⟨.error e, fun piece _ => rfl⟩
      | ok added =>
        cases hpos : token.pseudo?.any PseudoClass.isChildPosition with
        | false =>
          have hkind : (some token.kind).any Kind.isCombinator = false := hcomb
          obtain ⟨result, hresult⟩ := ih (tests ++ added) hkind hrest htyped'
          refine ⟨result, fun piece hwide => ?_⟩
          have hcount : positionTests (token :: rest) = positionTests rest := by
            simp [positionTests_cons rest hbegins, hpos]
          simp only [Except.map, bind, Except.bind, restrict_other hpos, hcount]
          exact hresult piece hwide
        | true =>
          have hkind : (some token.kind).any Kind.isCombinator = false := hcomb
          obtain ⟨result, hresult⟩ :=
            ih (tests ++ nameTest name :: added) hkind hrest htyped'
          refine ⟨result, fun piece hwide => ?_⟩
          have hcount : positionTests (token :: rest) =
              positionTests rest + 1 := by
            simp [positionTests_cons rest hbegins, hpos]
          simp only [Except.map, bind, Except.bind,
            restrict_position hpos (hwide 0), hcount]
          exact hresult (Draft.widened name piece) fun n => hwide (n + 1)

/-! ### The node test of the first step -/

theorem render_test (name : Text) : (Piece.test name).render = name := rfl

theorem render_sibling (name : Text) :
    (Piece.sibling name).render = siblingText ++ name := rfl

private theorem siblingText_append_ne (name : Text) :
    siblingText ++ name ≠ name := by
  intro h
  have hlen := congrArg List.length h
  rw [List.length_append] at hlen
  have hpos : 0 < siblingText.length := by decide
  omega

/-- A star alone is no step among siblings. -/
theorem star_ne_siblingText_append (name : Text) :
    ("*" : Text) ≠ siblingText ++ name := by
  have hhead : siblingText = '/' :: "following-sibling::".toList := by decide
  rw [hhead]
  intro h
  exact absurd (List.cons.inj h).1 (by decide)

private theorem widened_test (name : Text) :
    Draft.widened name (.test name) = .test "*" := by
  rw [Draft.widened, render_test, if_pos rfl]

private theorem widened_star (name : Text) :
    Draft.widened name (.test "*") = .test "*" := by
  rw [Draft.widened, render_test, render_sibling]
  split
  · rfl
  · rw [if_neg (star_ne_siblingText_append name)]

private theorem widened_sibling (name : Text) :
    Draft.widened name (.sibling name) = .sibling "*" := by
  rw [Draft.widened, render_sibling, if_neg (siblingText_append_ne name),
    if_pos rfl]

/-- The step to all siblings stays what it is, unless the name is its own
text. -/
theorem widened_sibling_star (name : Text) :
    Draft.widened name (.sibling "*") =
      if name = siblingText ++ "*" then .test "*" else .sibling "*" := by
  rw [Draft.widened, render_sibling, render_sibling]
  by_cases hname : name = siblingText ++ "*"
  · rw [if_pos hname.symm, if_pos hname]
  · rw [if_neg (Ne.symm hname), if_neg hname]
    split <;> rfl

theorem widenedBy_star (name : Text) (n : Nat) :
    widenedBy name n (.test "*") = .test "*" := by
  induction n with
  | zero => rfl
  | succ n ih => rw [widenedBy, widened_star, ih]

theorem widenedBy_sibling_star {name : Text} (h : name ≠ siblingText ++ "*")
    (n : Nat) :
    widenedBy name n (.sibling "*") = .sibling "*" := by
  induction n with
  | zero => rfl
  | succ n ih => rw [widenedBy, widened_sibling_star, if_neg h, ih]

/-- The node test of a step down the tree: it stays while no test widens it. -/
theorem widenedBy_test (name : Text) (n : Nat) :
    widenedBy name n (.test name) = if n = 0 then .test name
      else .test "*" := by
  cases n with
  | zero => rfl
  | succ n =>
    rw [widenedBy, widened_test, widenedBy_star, if_neg (Nat.succ_ne_zero n)]

/-- The node test of a step to siblings: the second test takes the step for a
node test, if the name is the text of that step. -/
theorem widenedBy_sibling (name : Text) (n : Nat) :
    widenedBy name n (.sibling name) =
      if n = 0 then .sibling name
      else if name = siblingText ++ "*" ∧ 2 ≤ n then .test "*"
        else .sibling "*" := by
  cases n with
  | zero => rfl
  | succ n =>
    rw [widenedBy, widened_sibling, if_neg (Nat.succ_ne_zero n)]
    by_cases hname : name = siblingText ++ "*"
    · cases n with
      | zero => simp [widenedBy]
      | succ n =>
        rw [widenedBy, widened_sibling_star, if_pos hname, widenedBy_star,
          if_pos ⟨hname, by omega⟩]
    · rw [widenedBy_sibling_star hname, if_neg fun h => hname h.1]

theorem isWide_test_star : Draft.isWide (.test "*") = true := by decide

theorem isWide_sibling_star : Draft.isWide (.sibling "*") = true := by decide

theorem isWide_widenedBy_test (name : Text) (n : Nat) :
    Draft.isWide (widenedBy name (n + 1) (.test name)) = true := by
  rw [widenedBy_test, if_neg (Nat.succ_ne_zero n)]
  exact isWide_test_star

theorem isWide_widenedBy_sibling (name : Text) (n : Nat) :
    Draft.isWide (widenedBy name (n + 1) (.sibling name)) = true := by
  rw [widenedBy_sibling, if_neg (Nat.succ_ne_zero n)]
  split
  · exact isWide_test_star
  · exact isWide_sibling_star

/-- The two node tests differ by the text of the step to siblings, unless that
is lost. -/
theorem render_widenedBy {token : Token} {name : Text}
    (htag : token.kind = .tag) (hname : token.name = some name)
    (rest : Stream) :
    (widenedBy name (positionTests rest) (.sibling name)).render =
      (if losesAxis (token :: rest) then [] else siblingText)
        ++ (widenedBy name (positionTests rest) (.test name)).render := by
  have hloses : losesAxis (token :: rest) = true ↔
      name = siblingText ++ "*" ∧ 2 ≤ positionTests rest := by
    simp [losesAxis, htag, hname]
  rw [widenedBy_sibling, widenedBy_test]
  by_cases hzero : positionTests rest = 0
  · have hkeep : ¬losesAxis (token :: rest) = true := by
      rw [hloses]
      omega
    rw [if_pos hzero, if_pos hzero, if_neg hkeep]
    rfl
  · rw [if_neg hzero, if_neg hzero]
    by_cases hlost : name = siblingText ++ "*" ∧ 2 ≤ positionTests rest
    · rw [if_pos hlost, if_pos (hloses.mpr hlost)]
      rfl
    · rw [if_neg hlost, if_neg fun h => hlost (hloses.mp h)]
      rfl

/-- The forward pass over the first token of a compound that gives the others no
context. -/
theorem place_cons_untyped {token : Token} {rest : Stream}
    (hcomb : token.kind.isCombinator = false)
    (hnamed : ¬(token.kind = .tag ∧ token.name.isSome))
    (htyped : (place (token :: rest)).untyped? = none) :
    place (token :: rest) = .cons ⟨token, none⟩ (place rest) := by
  rw [place, placeFrom] at htyped ⊢
  split at htyped
  · rename_i htag
    have hname : token.name = none := by
      cases hname : token.name with
      | none => rfl
      | some name => exact absurd ⟨htag, by simp [hname]⟩ hnamed
    rw [hname]
    rfl
  · rename_i hk
    simp [hk, Kind.isCombinator] at hcomb
  · split at htyped
    · simp at htyped
    · rename_i htype
      rw [if_neg htype]
      rfl

/-- Behind a combinator down the tree and behind `~`, the first token of a
compound leaves drafts that differ only in the step it begins. -/
theorem advance_first {token : Token} (hroot : token.kind ≠ .root)
    (hcomb : token.kind.isCombinator = false)
    (hcomment : token.pseudo? ≠ some .comment) :
    ∃ first : Except SelectorError Draft,
      (token.kind.isNodeTest = true → first = .ok {}) ∧
      ({} : Draft).advance (some (.combinator .descendant)) ⟨token, none⟩ =
        first.map (·.onto [.test (Draft.leadingTest token)]) ∧
      ({} : Draft).advance (some (.combinator .sibling)) ⟨token, none⟩ =
        first.map (·.onto [.sibling (Draft.leadingTest token)]) := by
  cases hnode : token.kind.isNodeTest with
  | true =>
    refine ⟨.ok {}, fun _ => rfl, ?_, ?_⟩
    · exact Draft.advance_lead_nodeTest .descendant hnode rfl
    · exact Draft.advance_lead_nodeTest .sibling hnode rfl
  | false =>
    have hbegins : Draft.beginsStep token = false := by
      simp [Draft.beginsStep, hcomb, hnode, hcomment]
    refine ⟨(filters token).map fun tests => ⟨[], tests⟩, by simp, ?_, ?_⟩
    · rw [Draft.advance_lead_condition {} .descendant hbegins hroot]
      cases filters token <;> rfl
    · rw [Draft.advance_lead_condition {} .sibling hbegins hroot]
      cases filters token <;> rfl

/-- The runs behind a combinator down the tree and behind `~` differ in the
first step only, and there by the text of the step to siblings, unless that is
lost. -/
theorem advanceAll_first_step {stream : Stream} (h : isJoined stream = true)
    (hcomment : startsWithPseudo .comment stream = false)
    (htyped : (place stream).untyped? = none) :
    ∃ (result : Except SelectorError Draft) (down side : Piece),
      side.render = (if losesAxis stream then [] else siblingText) ++
        down.render ∧
      ({} : Draft).advanceAll (some (.combinator .descendant))
        (place stream).tokens =
        result.map (·.onto [down]) ∧
      ({} : Draft).advanceAll (some (.combinator .sibling))
        (place stream).tokens =
        result.map (·.onto [side]) := by
  obtain ⟨token, rest, rfl, hcomb⟩ := isJoined_cons h
  have hroots := joinsFrom_rootless h
  have hroot : token.kind ≠ .root := hroots token (List.mem_cons_self ..)
  have hrest : ∀ t ∈ rest, t.kind ≠ .root :=
    fun t ht => hroots t (List.mem_cons_of_mem _ ht)
  have hnotComment : token.pseudo? ≠ some .comment := by
    simpa [startsWithPseudo] using hcomment
  obtain ⟨first, hfirst, hdown, hside⟩ := advance_first hroot hcomb hnotComment
  by_cases hnamed : token.kind = .tag ∧ token.name.isSome
  · -- The context of the compound is the name of its node test, and tests may
    -- widen it.
    obtain ⟨htag, hsome⟩ := hnamed
    obtain ⟨name, hname⟩ := Option.isSome_iff_exists.mp hsome
    have hplace : place (token :: rest) =
        .cons ⟨token, none⟩ (placeFrom (some name) rest) := by
      rw [place, placeFrom]
      simp [htag, hname]
    rw [hplace] at htyped ⊢
    have hkind : (some token.kind).any Kind.isCombinator = false := hcomb
    obtain ⟨result, hresult⟩ := advanceAll_open_step name [] hkind hrest htyped
    have hlabel : Draft.leadingTest token = name := by
      simp [Draft.leadingTest, htag, Token.label, hname]
    have hnode : token.kind.isNodeTest = true := by simp [htag, Kind.isNodeTest]
    refine ⟨result, widenedBy name (positionTests rest) (.test name),
      widenedBy name (positionTests rest) (.sibling name), ?_, ?_, ?_⟩
    · exact render_widenedBy htag hname rest
    · rw [Placement.cons, Draft.advanceAll, hdown, hfirst hnode, hlabel]
      exact hresult (.test name) (isWide_widenedBy_test name)
    · rw [Placement.cons, Draft.advanceAll, hside, hfirst hnode, hlabel]
      exact hresult (.sibling name) (isWide_widenedBy_sibling name)
  · -- Without a context, nothing in front of the next step is looked at.
    have hloses : losesAxis (token :: rest) = false := by
      cases hl : losesAxis (token :: rest) with
      | false => rfl
      | true =>
        simp only [losesAxis, Bool.and_eq_true, beq_iff_eq] at hl
        exact absurd ⟨hl.1.1, by simp [hl.1.2]⟩ hnamed
    have hplace : place (token :: rest) = .cons ⟨token, none⟩ (place rest) :=
      place_cons_untyped hcomb hnamed htyped
    rw [hplace] at htyped ⊢
    cases first with
    | error e =>
      refine ⟨.error e, .test (Draft.leadingTest token),
        .sibling (Draft.leadingTest token), ?_, ?_, ?_⟩
      · simp [hloses, render_test, render_sibling]
      · rw [Placement.cons, Draft.advanceAll, hdown]
        rfl
      · rw [Placement.cons, Draft.advanceAll, hside]
        rfl
    | ok d =>
      refine ⟨d.advanceAll (some token.kind) (place rest).tokens,
        .test (Draft.leadingTest token), .sibling (Draft.leadingTest token), ?_,
        ?_, ?_⟩
      · simp [hloses, render_test, render_sibling]
      · rw [Placement.cons, Draft.advanceAll, hdown]
        exact Draft.advanceAll_onto _ _ hrest htyped (.inr (.inl rfl))
      · rw [Placement.cons, Draft.advanceAll, hside]
        exact Draft.advanceAll_onto _ _ hrest htyped (.inr (.inl rfl))

/-- Behind `~` stands the path of the stream alone, with the step to siblings in
place of the step down the tree, unless that step is lost. -/
theorem extension_sibling {stream : Stream} {out : Text}
    (h : isJoined stream = true)
    (hcomment : startsWithPseudo .comment stream = false) :
    extension .sibling stream = .ok out ↔
      ∃ rest, extension .descendant stream = .ok ('/' :: '/' :: rest) ∧
        out = (if losesAxis stream then [] else siblingText) ++ rest := by
  simp only [extension_eq_ok_iff]
  have hsibling : axisText .sibling = [] := by decide
  have hdescendant : axisText .descendant = ['/', '/'] := by decide
  rw [hsibling, hdescendant]
  constructor
  · rintro ⟨htyped, d, hd, rfl⟩
    obtain ⟨result, down, side, hrender, hdown, hside⟩ :=
      advanceAll_first_step h hcomment htyped
    rw [hside, map_eq_ok_iff] at hd
    obtain ⟨d, rfl, rfl⟩ := hd
    refine ⟨down.render ++ d.render, ⟨htyped, d.onto [down], hdown, ?_⟩, ?_⟩
    · simp [Draft.render_onto, Draft.text]
    · simp [Draft.render_onto, Draft.text, hrender]
  · rintro ⟨rest, ⟨htyped, d, hd, hrest⟩, rfl⟩
    obtain ⟨result, down, side, hrender, hdown, hside⟩ :=
      advanceAll_first_step h hcomment htyped
    rw [hdown, map_eq_ok_iff] at hd
    obtain ⟨d, rfl, rfl⟩ := hd
    refine ⟨htyped, d.onto [side], hside, ?_⟩
    have hrest : rest = down.render ++ d.render := by
      simpa [Draft.render_onto, Draft.text, eq_comm] using hrest
    simp [Draft.render_onto, Draft.text, hrender, hrest]

/-! ## Joined streams -/

/-- Whether a stream can be written behind a combinator depends on its tokens
alone. -/
theorem extension_ok_iff (c : Combinator) (stream : Stream) :
    (∃ out, extension c stream = .ok out) ↔
      (place stream).untyped? = none ∧ ∀ t ∈ stream, Draft.isWritable t := by
  have htokens : (∀ p ∈ (place stream).tokens, Draft.isWritable p.token) ↔
      ∀ t ∈ stream, Draft.isWritable t := by
    conv => rhs; rw [← map_token_placeFrom none stream]
    simp [place]
  rw [← htokens, ← Draft.advanceAll_ok_iff {} (some (.combinator c))]
  simp only [extension_eq_ok_iff]
  constructor
  · rintro ⟨out, htyped, d, hd, -⟩
    exact ⟨htyped, d, hd⟩
  · rintro ⟨htyped, d, hd⟩
    exact ⟨_, htyped, d, hd, rfl⟩

/-- Paths across a combinator. A joined stream has a path exactly when both
parts have one. What stands behind the path of the first part depends on the
combinator and the second part only; behind a combinator down the tree, and
behind `~` in front of an element, it is the path of the second part with
another beginning. -/
theorem locationPath_join {A B : Stream} (hA : isJoined A = true)
    (hB : isJoined B = true) (hroot : startsWithPseudo .root B = false) :
    (∀ c, (∃ out, locationPath (A ++ .combinator c :: B) = .ok out) ↔
      (∃ a, locationPath A = .ok a) ∧ ∃ b, locationPath B = .ok b) ∧
    (∀ c, ∃ added, ∀ A' a b, isJoined A' = true → locationPath A' = .ok a →
      locationPath B = .ok b → locationPath (A' ++ .combinator c :: B) =
      .ok (a ++ added)) ∧
    ∀ a b, locationPath A = .ok a → locationPath B = .ok b →
      ∃ rest, b = "//" ++ rest ∧
        locationPath (A ++ .combinator .descendant :: B) =
          .ok (a ++ "//" ++ rest) ∧
        locationPath (A ++ .combinator .child :: B) = .ok (a ++ "/" ++ rest) ∧
        (startsWithPseudo .comment B = false →
          locationPath (A ++ .combinator .sibling :: B) =
            .ok (a ++ (if losesAxis B then [] else "/following-sibling::") ++
              rest)) := by
  have hext : ∀ c, (∃ out, extension c B = .ok out) ↔
      ∃ b, locationPath B = .ok b := by
    intro c
    simp only [locationPath_eq_extension hB hroot, extension_ok_iff]
  refine ⟨?_, ?_, ?_⟩
  · intro c
    rw [← hext c]
    simp only [locationPath_join_iff hA hB]
    constructor
    · rintro ⟨out, a, b, ha, hb, -⟩
      exact ⟨⟨a, ha⟩, b, hb⟩
    · rintro ⟨⟨a, ha⟩, b, hb⟩
      exact ⟨a ++ b, a, b, ha, hb, rfl⟩
  · intro c
    by_cases hok : ∃ out, extension c B = .ok out
    · obtain ⟨added, hadded⟩ := hok
      refine ⟨added, fun A' a b hA' ha _ => ?_⟩
      exact (locationPath_join_iff hA' hB).mpr ⟨a, added, ha, hadded, rfl⟩
    · refine ⟨[], fun A' a b _ _ hb => ?_⟩
      exact absurd ((hext c).mpr ⟨b, hb⟩) hok
  · intro a b ha hb
    rw [locationPath_eq_extension hB hroot] at hb
    obtain ⟨rest, hrest⟩ : ∃ rest, b = '/' :: '/' :: rest := by
      obtain ⟨-, d, -, rfl⟩ := extension_eq_ok_iff.mp hb
      exact ⟨d.render, rfl⟩
    rw [hrest] at hb
    refine ⟨rest, hrest, ?_, ?_, fun hcomment => ?_⟩
    · exact (locationPath_join_iff hA hB).mpr ⟨a, _, ha, hb, by simp⟩
    · refine (locationPath_join_iff hA hB).mpr ⟨a, '/' :: rest, ha, ?_, by simp⟩
      exact extension_child.mpr ⟨rest, hb, rfl⟩
    · refine (locationPath_join_iff hA hB).mpr ⟨a, _, ha, ?_,
        (List.append_assoc ..).symm⟩
      exact (extension_sibling hB hcomment).mpr ⟨rest, hb, rfl⟩

/-- A stream in front of which the step to siblings is lost. -/
def widenedTwice : Stream :=
  [.tag "/following-sibling::*", .pseudoClass "first-child" none,
    .pseudoClass "last-child" none]

example : losesAxis widenedTwice = true := by decide

/-- Behind `a ~`, that stream is written straight behind the path of `a`,
without a step. -/
theorem locationPath_join_widenedTwice :
    ∃ rest, locationPath widenedTwice = .ok ("//" ++ rest) ∧
      locationPath ([.tag "a"] ++ .combinator .sibling :: widenedTwice) =
        .ok ("//a" ++ rest) := by
  have hfirst : filters (.pseudoClass "first-child" none) =
      .ok ["position() = 1"] := by
    rw [filters]
    rfl
  have hlast : filters (.pseudoClass "last-child" none) =
      .ok ["position() = last()"] := by
    rw [filters]
    rfl
  have hwritable : ∀ t ∈ widenedTwice, Draft.isWritable t := by
    intro t ht
    simp only [widenedTwice, List.mem_cons, List.not_mem_nil, or_false] at ht
    rcases ht with rfl | rfl | rfl
    · exact trivial
    · exact .inr ⟨_, hfirst⟩
    · exact .inr ⟨_, hlast⟩
  obtain ⟨b, hb⟩ :=
    (extension_ok_iff .descendant widenedTwice).mpr ⟨rfl, hwritable⟩
  have hb : locationPath widenedTwice = .ok b :=
    (locationPath_eq_extension (by decide) (by decide)).mpr hb
  have hA : isJoined [.tag "a"] = true := by decide
  have hB : isJoined widenedTwice = true := by decide
  obtain ⟨rest, rfl, -, -, hsibling⟩ :=
    (locationPath_join hA hB (by decide)).2.2 "//a" b rfl hb
  exact ⟨rest, hb, hsibling (by decide)⟩

end XPath

end SelectorPath
