import SelectorPath.Selector.Item

/-!
# Reading a selector list

A selector list is read into one stream of tokens per alternative. An
alternative may not be empty, nor start or end with a combinator, nor hold two
combinators in a row. Where the argument of a pseudo-class is a selector list it
is read the same way, and a fault inside it is reported at its place in the
whole text.

## Main results

* `parse_weight`: the streams of a text weigh no more than the text is long.
-/

namespace SelectorPath.Selector

open SelectorPath.Text (skipBlank)

/-- What the alternative read so far ends with. -/
inductive Ending where
  | nothing
  | simple
  | combinator (c : Combinator)
deriving DecidableEq, Repr

/-- Why the alternative cannot end here. -/
def Ending.endProblem? : Ending → Option Problem
  | nothing => some .emptySelector
  | simple => none
  | combinator c => some (.endsWith c)

/-- Why the combinator cannot stand here. -/
def Ending.combinatorProblem? (c : Combinator) : Ending → Option Problem
  | nothing => some (.startsWith c)
  | simple => none
  | combinator last => some (.follows c last)

/-- The fault seen from a text in which `more` characters follow. -/
def Fault.followedBy (fault : Fault) (more : Nat) : Fault :=
  { fault with left := fault.left + more }

/-- The rest of the alternative that is being read, which ends with `ending` so
far, and the alternatives behind it. -/
def parseFrom (ending : Ending) : Text → Except Fault (Stream × List Stream)
  | [] =>
    match ending.endProblem? with
    | some problem => .error ⟨0, problem⟩
    | none => .ok ([], [])
  | c :: rest =>
    match _h : readItem c rest with
    | .error fault => .error fault
    | .ok (.blank, left) => parseFrom ending left
    | .ok (.comma, left) =>
      match ending.endProblem? with
      | some problem => .error ⟨rest.length + 1, problem⟩
      | none => do
        let (stream, streams) ← parseFrom .nothing left
        .ok ([], stream :: streams)
    | .ok (.combinator k place, left) =>
      match ending.combinatorProblem? k with
      | some problem => .error ⟨place, problem⟩
      | none => do
        let (stream, streams) ← parseFrom (.combinator k) left
        .ok (.combinator k :: stream, streams)
    | .ok (.token token, left) => do
      let (stream, streams) ← parseFrom .simple left
      .ok (token :: stream, streams)
    | .ok (.nested name inner behind, left) =>
      match parseFrom .nothing (skipBlank inner) with
      | .error fault => .error (fault.followedBy behind)
      | .ok (first, others) => do
        let (stream, streams) ← parseFrom .simple left
        .ok (.pseudoClass name (some (.selectors (first :: others))) :: stream,
          streams)
termination_by ahead => ahead.length
decreasing_by
  all_goals
    have hw := readItem_weight _h
    simp only [List.length_cons]
  · omega
  · omega
  · omega
  · omega
  · have hskip := Text.length_skipBlank_le inner
    simp only [Item.weight] at hw
    omega
  · omega

/-- The streams of a selector list, one for each alternative. -/
def parse (t : Text) : Except ParseError (List Stream) :=
  match parseFrom .nothing (skipBlank t) with
  | .ok (stream, streams) => .ok (stream :: streams)
  | .error fault => .error ⟨t.length - fault.left, fault.problem⟩

/-! ## Weight -/

private theorem parseFrom_weight {ending : Ending} {ahead : Text}
    {stream : Stream} {streams : List Stream}
    (h : parseFrom ending ahead = .ok (stream, streams)) :
    weightStream stream + weightAll streams ≤ ahead.length := by
  fun_induction parseFrom ending ahead generalizing stream streams with
  | case1 => simp at h
  | case2 =>
    simp only [Except.ok.injEq, Prod.mk.injEq] at h
    obtain ⟨rfl, rfl⟩ := h
    simp [weightStream, weightAll]
  | case3 => simp at h
  | case4 ending c rest left hitem ih =>
    have hw := readItem_weight hitem
    have hi := ih h
    simp only [List.length_cons]
    omega
  | case5 => simp at h
  | case6 ending c rest left hitem hend ih =>
    have hw := readItem_weight hitem
    cases hrec : parseFrom .nothing left with
    | error fault => simp [hrec, bind, Except.bind] at h
    | ok r =>
      have hi := ih hrec
      simp only [hrec, bind, Except.bind, Except.ok.injEq, Prod.mk.injEq] at h
      obtain ⟨rfl, rfl⟩ := h
      simp only [weightStream, weightAll, List.length_cons]
      omega
  | case7 => simp at h
  | case8 ending c rest k place left hitem hprob ih =>
    have hw := readItem_weight hitem
    cases hrec : parseFrom (.combinator k) left with
    | error fault => simp [hrec, bind, Except.bind] at h
    | ok r =>
      have hi := ih hrec
      simp only [hrec, bind, Except.bind, Except.ok.injEq, Prod.mk.injEq] at h
      obtain ⟨rfl, rfl⟩ := h
      simp only [weightStream, Token.combinator, Token.weight, weightArgument?,
        Item.weight, List.length_cons] at hw ⊢
      omega
  | case9 ending c rest token left hitem ih =>
    have hw := readItem_weight hitem
    cases hrec : parseFrom .simple left with
    | error fault => simp [hrec, bind, Except.bind] at h
    | ok r =>
      have hi := ih hrec
      simp only [hrec, bind, Except.bind, Except.ok.injEq, Prod.mk.injEq] at h
      obtain ⟨rfl, rfl⟩ := h
      simp only [weightStream, Item.weight, List.length_cons] at hw ⊢
      omega
  | case10 => simp at h
  | case11 ending c rest name inner behind left hitem first others hinner
    ihInner ih =>
    have hw := readItem_weight hitem
    have hskip := Text.length_skipBlank_le inner
    have hi := ihInner hinner
    cases hrec : parseFrom .simple left with
    | error fault => simp [hrec, bind, Except.bind] at h
    | ok r =>
      have hr := ih hrec
      simp only [hrec, bind, Except.bind, Except.ok.injEq, Prod.mk.injEq] at h
      obtain ⟨rfl, rfl⟩ := h
      simp only [weightStream, Token.pseudoClass, Token.weight, weightArgument?,
        weightArgument, weightAll, Item.weight, List.length_cons] at hw ⊢
      omega

/-- The tokens of a selector weigh no more than its text is long. -/
theorem parse_weight {t : Text} {streams : List Stream}
    (h : parse t = .ok streams) :
    weightAll streams ≤ t.length := by
  have hskip := Text.length_skipBlank_le t
  unfold parse at h
  split at h
  · rename_i stream streams' hfrom
    have hw := parseFrom_weight hfrom
    simp only [Except.ok.injEq] at h
    subst h
    simp only [weightAll]
    omega
  · simp at h

end SelectorPath.Selector
