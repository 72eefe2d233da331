import SelectorPath.Pattern.Basic
import SelectorPath.Pattern.Lexeme

/-!
# Reading a pattern

The lexemes of a pattern are put together with a stack of open groups. Groups
are numbered in the order of their opening parentheses. Where two groups have
one name, the later one has it.

A setting that is changed inside a group lasts beyond its end, unless the group
is one that settings can be written for.
-/

namespace SelectorPath.Pattern

/-! ## Settings -/

/-- The settings that are on. -/
structure Mode where
  ignoreCase : Bool := false
  lines : Bool := false
  dotAll : Bool := false
  swapGreed : Bool := false
deriving DecidableEq, Repr

/-- Change a setting. -/
def Mode.change (m : Mode) : Flag × Bool → Mode
  | (.ignoreCase, on) => { m with ignoreCase := on }
  | (.lines, on) => { m with lines := on }
  | (.dotAll, on) => { m with dotAll := on }
  | (.swapGreed, on) => { m with swapGreed := on }

/-! ## Open groups -/

/-- What becomes of a group when it is closed. -/
inductive Closure where
  /-- The settings from before the group are on again. -/
  | plain (mode : Mode)
  | capture (index : Nat)
  | ahead (isNegative : Bool)
  | behind (isNegative : Bool)
  | commit
deriving DecidableEq, Repr

/-- A group that is open, or the whole pattern. -/
structure Frame where
  closure : Closure
  /-- The alternatives before the last bar, latest first. -/
  branches : List Node := []
  /-- The parts behind the last bar, latest first. -/
  parts : List Node := []
  /-- The part that a count would repeat. -/
  latest : Option Node := none

namespace Frame

/-- Add a part. One that is empty leaves no trace. -/
def push (f : Frame) (node : Node) : Frame :=
  match node with
  | .empty => { f with latest := some node }
  | _ => { f with parts := node :: f.parts, latest := some node }

/-- The parts behind the last bar as one node. -/
def branch (f : Frame) : Node :=
  match f.parts with
  | [] => .empty
  | [part] => part
  | parts => .seq parts.reverse

/-- Read a bar. -/
def bar (f : Frame) : Frame :=
  { f with branches := f.branch :: f.branches, parts := [], latest := none }

/-- The group as one node. -/
def node (f : Frame) : Node :=
  if f.branches.isEmpty then f.branch else .alt (f.branch :: f.branches).reverse

/-- The closed group. -/
def closed (f : Frame) : Except Fault Node :=
  match f.closure with
  | .plain _ => .ok f.node
  | .capture index => .ok (.group index f.node)
  | .ahead isNegative => .ok (.ahead isNegative f.node)
  | .behind isNegative =>
    if f.node.isFixed then .ok (.behind isNegative f.node)
    else .error .openWidth
  | .commit => .ok (.commit f.node)

/-- Repeat the latest part. -/
def count (f : Frame) (swapGreed : Bool) (count : Count) : Except Fault Frame :=
  match f.latest, f.parts with
  | some node, _ :: parts =>
    if node.isRepeatable then
      let repeated :=
        Node.times (count.isLazy != swapGreed) count.least count.most node
      let repeated := if count.isPossessive then .commit repeated else repeated
      .ok { f with parts := repeated :: parts, latest := none }
    else .error .nothingToRepeat
  | _, _ => .error .nothingToRepeat

end Frame

/-! ## Reading -/

/-- The state of reading. -/
structure Reading where
  frame : Frame
  /-- The groups around it, innermost first. -/
  outer : List Frame := []
  mode : Mode := {}
  groups : Nat := 0
  names : List (Text × Nat) := []
  /-- The groups that references go to. -/
  references : List Nat := []

/-- Parentheses can be nested less deep than this. -/
def maxDepth : Nat := 64

namespace Reading

/-- Add a part. -/
def push (r : Reading) (node : Node) : Reading :=
  { r with frame := r.frame.push node }

/-- Add a character of a set. -/
def pushSet (r : Reading) (set : CharSet) : Reading :=
  r.push (.one (set.has r.mode.ignoreCase))

/-- Open a group. -/
def enter (r : Reading) (closure : Closure) : Reading :=
  { r with frame := { closure }, outer := r.frame :: r.outer }

/-- Open a group with its settings, its number and its name. -/
def openGroup (r : Reading) : Opener → Reading
  | .plain settings =>
    { r.enter (.plain r.mode) with mode := settings.foldl Mode.change r.mode }
  | .ahead isNegative => r.enter (.ahead isNegative)
  | .behind isNegative => r.enter (.behind isNegative)
  | .commit => r.enter .commit
  | .capture name =>
    let index := r.groups + 1
    { r.enter (.capture index) with
      groups := index
      names := (name.toList.map fun n => (n, index)) ++ r.names }

/-- Close the innermost group. -/
def closeGroup (r : Reading) : Except Fault Reading :=
  match r.outer with
  | [] => .error .unopenedGroup
  | around :: outer => do
    let node ← r.frame.closed
    let mode := match r.frame.closure with
      | .plain mode => mode
      | _ => r.mode
    .ok { r with frame := around.push node, outer, mode }

/-- The group that a name in a reference means: one of this name, or the one of
this number. -/
def referred? (r : Reading) (name : Text) : Option Nat :=
  (r.names.lookup name).orElse fun _ => Text.natBelow? countBound name

/-- Add a reference to a group. -/
def refer (r : Reading) (name : Text) : Except Fault Reading :=
  match r.referred? name with
  | some index =>
    .ok { r.push (.again index r.mode.ignoreCase) with
      references := index :: r.references }
  | none => .error .unknownReference

/-- Whether one more group would be nested too deep. -/
def isFull (r : Reading) : Bool :=
  maxDepth ≤ r.outer.length + 1

/-- Read one lexeme. -/
def step (r : Reading) : Lexeme → Except Fault Reading
  | .one set => .ok (r.pushSet set)
  | .dot => .ok (r.pushSet (.such fun c => r.mode.dotAll || c != '\n'))
  | .caret =>
    .ok (r.push (.place (if r.mode.lines then .lineStart else .start)))
  | .dollar =>
    .ok (r.push (.place (if r.mode.lines then .lineEnd else .finish)))
  | .place condition => .ok (r.push (.place condition))
  | .opening opener =>
    if r.isFull then .error .tooDeep else .ok (r.openGroup opener)
  | .closing => r.closeGroup
  | .bar => .ok { r with frame := r.frame.bar }
  | .count count => do
    let frame ← r.frame.count r.mode.swapGreed count
    .ok { r with frame }
  | .again name => if r.isFull then .error .tooDeep else r.refer name
  | .settings settings =>
    if r.isFull then .error .tooDeep
    else .ok { r.push .empty with mode := settings.foldl Mode.change r.mode }

/-- Whether every reference goes to a group. -/
def refersToGroups (r : Reading) : Bool :=
  r.references.all fun index => 0 < index && index ≤ r.groups

/-- The pattern that has been read. -/
def finish (r : Reading) : Except Fault Pattern :=
  let plan := r.frame.node.plan r.references true
  if !r.outer.isEmpty then .error .unclosedGroup
  else if !r.refersToGroups then .error .unknownReference
  else if !plan.isSound then .error .reversedCount
  else .ok ⟨plan, r.groups, r.names⟩

end Reading

end SelectorPath.Pattern

namespace SelectorPath

/-- The pattern that a text writes. -/
def Pattern.ofText (t : Text) : Except Pattern.Fault Pattern := do
  let lexemes ← Pattern.lexemes false t
  let start : Pattern.Reading := { frame := { closure := .plain {} } }
  let reading ← lexemes.foldlM Pattern.Reading.step start
  reading.finish

end SelectorPath
