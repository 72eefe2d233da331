import SelectorPath.Pattern.Place
import Std.Data.HashSet

/-!
# Regular parts

A part of a pattern without references, without a look around and without word
boundaries is regular. It is matched in one go: the first way through it counts,
alternatives in order, repetitions with many turns first, or few where they are
lazy.

No point of the part is tried twice at one place of the text: a second try could
only fail like the first, or run in a circle. So matching ends, in a time
bounded by the number of points and the length of the text. In a repetition
whose body may be empty, a turn that takes nothing comes back to a point that
has been tried; it is given up and the repetition ends in front of it, unless it
is the first turn. The points are told apart by their addresses, and each copy
of a body that is repeated a fixed number of times has addresses of its own.
-/

namespace SelectorPath.Pattern

/-- A regular part of a pattern. -/
inductive Regular where
  | empty
  /-- One character that is accepted. -/
  | one (accepts : Char → Bool)
  | seq (parts : List Regular)
  | alt (branches : List Regular)
  /-- From `least` to `most` turns, without bound where `most` is missing. -/
  | times (isLazy : Bool) (least : Nat) (most : Option Nat) (body : Regular)
  /-- A part whose text is kept under a number. -/
  | group (index : Nat) (body : Regular)
  | place (condition : Condition)

/-! ## Properties -/

mutual
/-- The groups in a part. -/
def Regular.groups : Regular → List Nat
  | .seq parts => groupsOfAll parts
  | .alt branches => groupsOfAll branches
  | .times _ _ _ body => body.groups
  | .group index body => index :: body.groups
  | _ => []

/-- The groups in parts. -/
def groupsOfAll : List Regular → List Nat
  | [] => []
  | part :: rest => part.groups ++ groupsOfAll rest
end

mutual
/-- Whether a part may be matched without taking a character. -/
def Regular.mayBeEmpty : Regular → Bool
  | .one _ => false
  | .seq parts => allMayBeEmpty parts
  | .alt branches => someMayBeEmpty branches
  | .times _ least _ body => least == 0 || body.mayBeEmpty
  | .group _ body => body.mayBeEmpty
  | _ => true

/-- Whether each of the parts may be empty. -/
def allMayBeEmpty : List Regular → Bool
  | [] => true
  | part :: rest => part.mayBeEmpty && allMayBeEmpty rest

/-- Whether one of the parts may be empty. -/
def someMayBeEmpty : List Regular → Bool
  | [] => false
  | part :: rest => part.mayBeEmpty || someMayBeEmpty rest
end

mutual
/-- Whether the bounds of every count are in order. -/
def Regular.isSound : Regular → Bool
  | .seq parts => allSound parts
  | .alt branches => allSound branches
  | .times _ least most body => most.all (least ≤ ·) && body.isSound
  | .group _ body => body.isSound
  | _ => true

/-- Whether the bounds of every count in the parts are in order. -/
def allSound : List Regular → Bool
  | [] => true
  | part :: rest => part.isSound && allSound rest
end

/-! ## Searching -/

/-- The address of a point of a part, innermost step first. -/
abbrev Address := List Nat

/-- The points that have been tried, each with the number of characters that lay
ahead there. -/
abbrev Tried := Std.HashSet (Address × Nat)

/-- A search for a place, which takes note of the points that it tries. -/
abbrev Search := StateM Tried (Option Place)

/-- What has to succeed after a part. -/
abbrev Goal := Place → Search

/-- A search for a way through a part, from a place to a goal. -/
abbrev Passage := Place → Goal → Search

/-- Go on from a point, unless that has been tried. -/
def visit (point : Address) : Passage := fun p next => do
  let tried ← get
  if tried.contains (point, p.ahead.length) then return none
  set (tried.insert (point, p.ahead.length))
  next p

/-- Try one search and, if it fails, another. -/
def orElseSearch (first second : Search) : Search := do
  match ← first with
  | some p => return some p
  | none => second

/-- Try to go on with more turns, or to stop. -/
def prefer (isLazy : Bool) (more stop : Search) : Search :=
  if isLazy then orElseSearch stop more else orElseSearch more stop

/-! ## Turns -/

/-- Exactly `n` turns, counted from `k`. -/
def exactTurns (turn : Nat → Passage) (k : Nat) : Nat → Passage
  | 0, p, next => next p
  | n + 1, p, next => turn k p fun q => exactTurns turn (k + 1) n q next

/-- At most `n` turns, counted from `k`; the points between them are below
`root`. -/
def optionalTurns (isLazy : Bool) (turn : Nat → Passage) (root : Address)
    (k : Nat) : Nat → Passage
  | 0, p, next => next p
  | n + 1, p, next =>
    visit (k :: 1 :: root) p fun p =>
      prefer isLazy
        (turn k p fun q => optionalTurns isLazy turn root (k + 1) n q next)
        (next p)

/-- Further turns. Each turn leads to `point`. -/
def furtherTurns (isLazy : Bool) (turn : Passage) (point : Address) (p : Place)
    (next : Goal) : Search :=
  prefer isLazy
    (turn p fun q => visit point q fun q =>
      if _h : q.ahead.length < p.ahead.length then
        furtherTurns isLazy turn point q next
      else next q)
    (next p)
termination_by p.ahead.length

/-- One turn and any number of further ones. -/
def someTurns (isLazy : Bool) (turn : Passage) (point : Address) :
    Passage := fun p next =>
  turn p fun q => visit point q fun q =>
    if q.ahead.length < p.ahead.length then
      furtherTurns isLazy turn point q next
    else next q

/-- From `least` to `most` turns of a body. A repetition that may have no turn
starts at a point of its own, which is the one that each turn leads to if no
turn can be empty. -/
def turns (isLazy : Bool) (least : Nat) (most : Option Nat) (mayBeEmpty : Bool)
    (turn : Nat → Passage) (root : Address) : Passage := fun p next =>
  match most, least with
  | some most, least =>
    exactTurns turn 0 least p fun q =>
      optionalTurns isLazy turn root least (most - least) q next
  | none, 0 =>
    visit (if mayBeEmpty then 0 :: 2 :: root else 2 :: root) p fun p =>
      furtherTurns isLazy (turn 0) (2 :: root) p next
  | none, before + 1 =>
    exactTurns turn 0 before p fun q =>
      someTurns isLazy (turn before) (2 :: root) q next

/-! ## Matching -/

mutual
/-- The first way through a part, at an address, after which the goal is
reached. -/
def Regular.run : Regular → Address → Passage
  | .empty, _, p, next => next p
  | .one accepts, _, p, next =>
    if p.ahead.head?.any accepts then next (p.advance 1) else pure none
  | .seq parts, root, p, next => runAll parts 0 root p next
  | .alt branches, root, p, next =>
    visit root p fun p => runFirst branches 0 root p next
  | .times isLazy least most body, root, p, next =>
    turns isLazy least most body.mayBeEmpty (fun k => body.run (k :: 0 :: root))
      root p next
  | .group index body, root, p, next =>
    visit (0 :: root) p fun p => body.run (1 :: root) (p.enter index) fun q =>
      visit (2 :: root) q fun q => next (q.leave index)
  | .place condition, root, p, next =>
    visit root p fun p =>
      if condition.holds p.behind p.ahead then next p else pure none

/-- The first way through parts one after another, the first of them with number
`k`. -/
def runAll : List Regular → Nat → Address → Passage
  | [], _, _, p, next => next p
  | part :: rest, k, root, p, next =>
    part.run (k :: root) p fun q => runAll rest (k + 1) root q next

/-- The first way through one of the branches, the first of them with number
`k`. -/
def runFirst : List Regular → Nat → Address → Passage
  | [], _, _, _, _ => pure none
  | branch :: rest, k, root, p, next =>
    orElseSearch (branch.run (k :: root) p next)
      (runFirst rest (k + 1) root p next)
end

/-- The place behind the first way through a part. Its groups are set anew: a
group that takes no part is forgotten. -/
def Regular.match? (r : Regular) (p : Place) : Option Place :=
  let search := r.run [] (p.forget r.groups) fun q => pure (some q)
  (search.run Std.HashSet.emptyWithCapacity).1

end SelectorPath.Pattern
