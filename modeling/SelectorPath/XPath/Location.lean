import SelectorPath.Token.Context
import SelectorPath.XPath.Filter

/-!
# Location paths

A stream becomes a location path, built token by token. The draft of a path
keeps the pieces written so far and the tests of the step at its end, which
become a predicate when the next step begins.

A child-position test counts among all siblings, while a step with a name counts
among the elements of that name. So such a test widens the node test of its step
to `*` and asks for the name in the predicate.
-/

namespace SelectorPath.XPath

/-! ## Drafts -/

/-- A piece of a location path. -/
inductive Piece where
  /-- The root element. -/
  | root
  /-- The step down to all descendants. -/
  | descendant
  /-- The step down to the children. -/
  | child
  /-- A node test. -/
  | test (name : Text)
  /-- The step to the following siblings, with a node test. -/
  | sibling (name : Text)
  /-- Comment nodes, with a condition as the author wrote it. -/
  | comment (condition : Text)
  /-- The condition on a step. -/
  | predicate (condition : Text)
deriving DecidableEq, Repr

/-- The piece in XPath syntax. -/
def Piece.render : Piece → Text
  | root => "/*"
  | descendant => "//"
  | child => "/"
  | test name => name
  | sibling name => "/following-sibling::" ++ name
  | comment [] => "comment()"
  | comment condition => "comment()[" ++ condition ++ "]"
  | predicate condition => "[" ++ condition ++ "]"

/-- A location path under construction. -/
structure Draft where
  /-- The pieces written so far, latest first. -/
  pieces : List Piece := []
  /-- The tests of the step at the end. -/
  tests : List Text := []
deriving DecidableEq, Repr

namespace Draft

/-- Write a piece. -/
def push (d : Draft) (piece : Piece) : Draft :=
  { d with pieces := piece :: d.pieces }

/-- Add tests to the step at the end. -/
def require (d : Draft) (tests : List Text) : Draft :=
  { d with tests := d.tests ++ tests }

/-- Write the predicate of the step at the end. -/
def commit (d : Draft) : Draft :=
  let condition := flatten .and d.tests
  if condition.isEmpty then { d with tests := [] }
  else { pieces := .predicate condition :: d.pieces, tests := [] }

/-- The path with the predicate of its last step. -/
def render (d : Draft) : Text :=
  (d.commit.pieces.reverse.map Piece.render).flatten

/-- The last piece with the node test `name` widened to `*`. -/
def widened (name : Text) (piece : Piece) : Piece :=
  if piece.render = name then .test "*"
  else if piece.render = (Piece.sibling name).render then .sibling "*"
  else piece

/-- Whether a piece ends with a node test for all elements. -/
def isWide (piece : Piece) : Bool :=
  piece.render == ("*" : Text) || ("::*" : Text).isSuffixOf piece.render

/-- The draft with its last step widened, and whether that step now reaches all
elements. -/
def widen (d : Draft) (name : Text) : Draft × Bool :=
  match d.pieces with
  | [] => (d, false)
  | piece :: pieces =>
    ({ d with pieces := widened name piece :: pieces },
      isWide (widened name piece))

end Draft

/-! ## Tokens -/

/-- The step that a combinator begins by itself; a step to siblings waits for
its node test. -/
def axisPieces : Combinator → List Piece
  | .descendant => [.descendant]
  | .child => [.child]
  | .sibling | .adjacent => []

/-- The condition that the element has the given name, exactly. -/
def nameTest (name : Text) : Text :=
  (Expr.binary .equal .elementName (.single name)).render

/-- The condition that the element is the first of those its step reaches. -/
def firstTest : Text :=
  (Expr.binary .equal .position (.number "1")).render

/-- Write a token, `afterAxis` telling whether a combinator stands in front of
it. -/
def Draft.write (d : Draft) (afterAxis : Bool) (p : Placed) :
    Except SelectorError Draft :=
  match p.token.kind with
  | .root => .ok { d with pieces := [.root] }
  | .combinator c => .ok ((axisPieces c).foldl Draft.push d.commit)
  | .universal => .ok (d.commit.push (.test "*"))
  | .tag => .ok (d.commit.push (.test p.token.label))
  | _ =>
    match p.token.pseudo? with
    | some .comment =>
      let d := if afterAxis then d else d.commit.push .child
      .ok (d.push (.comment (p.token.argumentText?.getD [])))
    | some pseudo => do
      let tests ← filters p.token
      match p.context with
      | some name =>
        if pseudo.isChildPosition then
          let (d, wide) := d.widen name
          .ok (d.require (if wide then nameTest name :: tests else tests))
        else .ok (d.require tests)
      | none => .ok (d.require tests)
    | none => do
      let tests ← filters p.token
      .ok (d.require tests)

/-- Write a token behind one of kind `previous`. -/
def Draft.advance (d : Draft) (previous : Option Kind) (p : Placed) :
    Except SelectorError Draft :=
  let kind := p.token.kind
  let afterAxis := previous.any Kind.isCombinator
  -- Behind a step down, a condition without a node test is one on all elements.
  let bare := previous.any Kind.isDownwardAxis && !kind.isNodeTest
    && p.token.pseudo? != some .comment
  let d := if bare then d.push (.test "*") else d
  match if kind.isSiblingAxis then none else previous with
  | some (.combinator .adjacent) => do
    let tests ← if kind = .tag then filters p.token else .ok []
    let d := (d.push (.sibling "*")).require (tests ++ [firstTest])
    if kind.isNodeTest then .ok d else d.write afterAxis p
  | some (.combinator .sibling) =>
    let d := d.push (.sibling (if kind = .tag then p.token.label else "*"))
    if kind.isNodeTest then .ok d else d.write afterAxis p
  | _ => d.write afterAxis p

/-- Write tokens one after the other. -/
def Draft.advanceAll (d : Draft) (previous : Option Kind) :
    List Placed → Except SelectorError Draft
  | [] => .ok d
  | p :: rest => do
    let d ← d.advance previous p
    d.advanceAll (some p.token.kind) rest

/-! ## Streams -/

/-- The stream from the top of the document: a leading `:root` is the root
element itself, any other stream is looked for among all descendants. -/
def fromTop : Stream → Stream
  | [] => [.combinator .descendant]
  | token :: rest =>
    if token.pseudo? = some .root then .root :: rest
    else .combinator .descendant :: token :: rest

/-- The location path of a stream. -/
def locationPath (stream : Stream) : Except SelectorError Text := do
  let placement := place (fromTop stream)
  match placement.untyped? with
  | some pseudo => .error (.missingType pseudo)
  | none =>
    let draft ← ({} : Draft).advanceAll none placement.tokens
    .ok draft.render

/-- The expression for several location paths: their union. -/
def union (paths : List Text) : Text :=
  if 1 < paths.length then "(" ++ Text.join "|" paths ++ ")" else paths.flatten

/-- The expression of a list of streams. -/
def streamsPath (streams : List Stream) : Except SelectorError Text := do
  let paths ← streams.mapM locationPath
  .ok (union paths)

end SelectorPath.XPath
