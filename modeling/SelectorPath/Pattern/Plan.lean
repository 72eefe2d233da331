import SelectorPath.Pattern.Node

/-!
# How a pattern is matched

A pattern as a whole is matched by backtracking: alternatives are tried in
order, a repetition prefers many turns, or few where it is lazy, and the first
way to succeed counts. A look ahead can be taken up again with another way
through it, as every other part can.

Within this search some regular parts are units, which are matched in one go and
not taken up again: the parts of fixed width with which a sequence starts and
those with which it ends, and every regular part behind which nothing follows
before the end of the pattern or of the look around it.

Matching is written with continuations: `Plan.run` finds a way through a part
after which the continuation succeeds.
-/

namespace SelectorPath.Pattern

/-- How a part of a pattern is matched. -/
inductive Plan where
  /-- A regular part that is matched in one go. -/
  | unit (body : Regular)
  | seq (parts : List Plan)
  | alt (branches : List Plan)
  | times (isLazy : Bool) (least : Nat) (most : Option Nat) (body : Plan)
  | group (index : Nat) (body : Plan)
  | again (index : Nat) (ignoreCase : Bool)
  | ahead (isNegative : Bool) (body : Plan)
  /-- A look at the `width` characters behind. -/
  | behind (isNegative : Bool) (width : Nat) (body : Plan)
  | commit (body : Plan)
  | place (condition : Condition)

/-! ## Planning -/

/-- A part of a sequence, looked at in each way that matters. -/
structure Piece where
  regular : Option Regular
  isFixed : Bool
  plan : Plan

/-- Whether a part of a sequence can belong to a unit wherever it stands. -/
def Piece.isSolid (p : Piece) : Bool :=
  p.isFixed && p.regular.isSome

/-- The unit of the pieces, if there are any. -/
def unitOf (pieces : List Piece) : List Plan :=
  if pieces.isEmpty then [] else [.unit (.seq (pieces.filterMap (·.regular)))]

/-- The plan of a sequence: a unit of the solid pieces in front, the pieces in
between, and a unit of those at the end, which need not be solid where nothing
follows. -/
def planOfPieces (isLast : Bool) (pieces : List Piece) : List Plan :=
  let rest := pieces.dropWhile Piece.isSolid
  let ending := (rest.reverse.takeWhile fun p =>
    p.regular.isSome && (isLast || p.isFixed)).reverse
  let middle := rest.take (rest.length - ending.length)
  unitOf (pieces.takeWhile Piece.isSolid) ++ middle.map (·.plan) ++
    unitOf ending

/-- A unit where nothing follows a regular part, otherwise the plan. -/
def planWhole (isLast : Bool) (regular : Option Regular) (plan : Plan) : Plan :=
  match isLast, regular with
  | true, some r => .unit r
  | _, _ => plan

mutual
/-- The plan of a part; `isLast` tells that nothing follows it. -/
def Node.plan (references : List Nat) (isLast : Bool) : Node → Plan
  | .empty => .unit .empty
  | .one accepts => .unit (.one accepts)
  | .seq parts =>
    planWhole isLast ((Node.seq parts).regular? references)
      (.seq (planOfPieces isLast (piecesOf references parts)))
  | .alt branches =>
    planWhole isLast ((Node.alt branches).regular? references)
      (.alt (planEach references isLast branches))
  | .times isLazy least most body =>
    planWhole isLast ((Node.times isLazy least most body).regular? references)
      (.times isLazy least most
        (body.plan references (isLast && least == 0 && most == some 1)))
  | .group index body =>
    planWhole isLast ((Node.group index body).regular? references)
      (.group index (body.plan references isLast))
  | .again index ignoreCase => .again index ignoreCase
  | .ahead isNegative body => .ahead isNegative (body.plan references true)
  | .behind isNegative body =>
    .behind isNegative body.minWidth (body.plan references true)
  | .commit body => .commit (body.plan references true)
  | .place condition => .place condition

/-- The plans of branches. -/
def planEach (references : List Nat) (isLast : Bool) : List Node → List Plan
  | [] => []
  | branch :: rest =>
    branch.plan references isLast :: planEach references isLast rest

/-- The pieces of a sequence. -/
def piecesOf (references : List Nat) : List Node → List Piece
  | [] => []
  | part :: rest =>
    { regular := part.regular? references, isFixed := part.isFixed,
      plan := part.plan references false } :: piecesOf references rest
end

mutual
/-- Whether the bounds of every count in a unit are in order. -/
def Plan.isSound : Plan → Bool
  | .unit body => body.isSound
  | .seq parts => allPlansSound parts
  | .alt branches => allPlansSound branches
  | .times _ _ _ body => body.isSound
  | .group _ body => body.isSound
  | .ahead _ body => body.isSound
  | .behind _ _ body => body.isSound
  | .commit body => body.isSound
  | _ => true

/-- Whether the bounds of every count in the units of plans are in order. -/
def allPlansSound : List Plan → Bool
  | [] => true
  | part :: rest => part.isSound && allPlansSound rest
end

/-! ## Turns -/

/-- What has to succeed after a part of a pattern. -/
abbrev Continuation := Place → Option Place

/-- A way through a part of a pattern. -/
abbrev Attempt := Place → Continuation → Option Place

/-- Exactly `n` turns. -/
def exactly (turn : Attempt) : Nat → Attempt
  | 0, p, next => next p
  | n + 1, p, next => turn p fun q => exactly turn n q next

/-- At most `n` turns. -/
def atMost (isLazy : Bool) (turn : Attempt) : Nat → Attempt
  | 0, p, next => next p
  | n + 1, p, next =>
    if isLazy then
      (next p).orElse fun _ => turn p fun q => atMost isLazy turn n q next
    else (turn p fun q => atMost isLazy turn n q next).orElse fun _ => next p

/-- Any number of turns. A turn that takes no character is the last. -/
def anyNumber (isLazy : Bool) (turn : Attempt) (p : Place)
    (next : Continuation) : Option Place :=
  let more := fun (_ : Unit) => turn p fun q =>
    if _h : q.ahead.length < p.ahead.length then anyNumber isLazy turn q next
    else next q
  if isLazy then (next p).orElse more else (more ()).orElse fun _ => next p
termination_by p.ahead.length

/-- From `least` to `most` turns; `most` counts where it is less. -/
def between (isLazy : Bool) (least : Nat) (most : Option Nat) (turn : Attempt) :
    Attempt :=
  fun p next =>
    match most with
    | some most =>
      exactly turn (min least most) p fun q =>
        atMost isLazy turn (most - least) q next
    | none => exactly turn least p fun q => anyNumber isLazy turn q next

/-! ## Matching -/

mutual
/-- The first way through a part after which `next` succeeds. -/
def Plan.run : Plan → Attempt
  | .unit body, p, next => (body.match? p).bind next
  | .seq parts, p, next => runPlans parts p next
  | .alt branches, p, next => runFirstPlan branches p next
  | .times isLazy least most body, p, next =>
    between isLazy least most body.run p next
  | .group index body, p, next =>
    body.run (p.enter index) fun q => next (q.leave index)
  | .again index ignoreCase, p, next => do
    let kept ← p.group? index
    let n ← repeated? ignoreCase kept p.ahead
    next (p.advance n)
  | .ahead false body, p, next => body.run p fun q => next (p.withGroupsOf q)
  | .ahead true body, p, next =>
    if (body.run p some).isSome then none else next p
  | .behind false width body, p, next => do
    let start ← p.back? width
    body.run start fun q => next (p.withGroupsOf q)
  | .behind true width body, p, next =>
    if ((p.back? width).bind fun start => body.run start some).isSome then none
    else next p
  | .commit body, p, next => (body.run p some).bind next
  | .place condition, p, next =>
    if condition.holds p.behind p.ahead then next p else none

/-- The first way through parts one after another. -/
def runPlans : List Plan → Attempt
  | [], p, next => next p
  | part :: rest, p, next => part.run p fun q => runPlans rest q next

/-- The first way through one of the branches. -/
def runFirstPlan : List Plan → Attempt
  | [], _, _ => none
  | branch :: rest, p, next =>
    (branch.run p next).orElse fun _ => runFirstPlan rest p next
end

end SelectorPath.Pattern
