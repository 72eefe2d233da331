import SelectorPath.Custom.Registry
import SelectorPath.Text.Digit

/-!
# Templates

A template is a text with references: `$1`, `$2`, … for numbered texts, `$data`
for the raw argument, and a name in braces behind `$` for a named text. `$$`
writes a dollar sign, and so does a `$` that starts no reference. A template is
cut into pieces first and then rendered, so what a reference brings in is not
read again.
-/

namespace SelectorPath

/-- What a template refers to. -/
inductive Reference where
  | index (n : Nat)
  | named (name : Text)
  | data
deriving DecidableEq, Repr

/-- A piece of a template. -/
inductive TemplatePiece where
  | text (t : Text)
  | reference (r : Reference)
deriving DecidableEq, Repr

/-- A template, cut into pieces. -/
structure Template where
  pieces : List TemplatePiece
deriving DecidableEq, Repr

namespace Template

/-- References by number stay below this bound, two to the 64. -/
def indexBound : Nat :=
  0x10000000000000000

/-- The piece that digits behind a `$` write: a `$` alone where they write no
number below the bound. -/
def indexPiece (digits : Text) : TemplatePiece :=
  match Text.natBelow? indexBound digits with
  | some n => .reference (.index n)
  | none => .text "$"

/-- The digits behind a `$` as a piece, and what follows them. -/
def readIndex (ahead : Text) : TemplatePiece × Text :=
  (indexPiece (ahead.takeWhile Char.isDigit), ahead.dropWhile Char.isDigit)

/-- The piece behind a `$`, and what follows it. -/
def readPiece (ahead : Text) : TemplatePiece × Text :=
  match ahead with
  | '$' :: left => (.text "$", left)
  | '{' :: rest =>
    match Text.cutAt? '}' rest with
    | some (name, left) => (.reference (.named name), left)
    | none => readIndex ahead
  | _ =>
    match Text.after? "data" ahead with
    | some left => (.reference .data, left)
    | none => readIndex ahead

private theorem length_readPiece_le (ahead : Text) :
    (readPiece ahead).2.length ≤ ahead.length := by
  unfold readPiece
  split
  · simp
  · split
    · rename_i rest name left hcut
      have hle := Text.length_cutAt? hcut
      simp only [List.length_cons]
      omega
    · exact Text.length_dropWhile_le Char.isDigit _
  · split
    · rename_i left hafter
      have hle := Text.length_after? hafter
      simp only
      omega
    · exact Text.length_dropWhile_le Char.isDigit _

/-- The pieces of a text. -/
def readPieces : Text → List TemplatePiece
  | [] => []
  | c :: rest =>
    if c = '$' then (readPiece rest).1 :: readPieces (readPiece rest).2
    else .text [c] :: readPieces rest
termination_by t => t.length
decreasing_by
  · have hle := length_readPiece_le rest
    simp only [List.length_cons]
    omega
  · simp

/-- The template that a text writes. -/
def ofText (t : Text) : Template :=
  ⟨readPieces t⟩

/-- The text of a template; a reference that is not resolved says nothing. -/
def render (t : Template) (resolve : Reference → Option Text) : Text :=
  t.pieces.flatMap fun
    | .text t => t
    | .reference r => (resolve r).getD []

/-- The highest number referred to, but at least one. -/
def highestIndex (t : Template) : Nat :=
  t.pieces.foldl (fun highest piece =>
    match piece with
    | .reference (.index n) => max highest n
    | _ => highest) 1

/-- The numbers of a template count from one. -/
def fromOne {α : Type} (get : Nat → Option α) : Nat → Option α
  | 0 => none
  | n + 1 => get n

/-- The template filled with arguments. -/
def renderArguments (t : Template) (arguments : List Text) : Text :=
  t.render fun
    | .index n => fromOne (arguments[·]?) n
    | .data => some (Text.join ", " arguments)
    | .named _ => none

/-- The template filled with what a pattern has matched. -/
def renderMatch (t : Template) (argument : Option Text) (captures : Captures) :
    Text :=
  t.render fun
    | .index n => fromOne captures.group? n
    | .data => argument
    | .named name => captures.named? name

/-- The handler of a template under a key. -/
def handler (t : Template) (key : Text) (arity : Option Nat) : Handler :=
  if isPatternKey key then .onMatch t.renderMatch
  else .function (arity.getD t.highestIndex) t.renderArguments

end Template

end SelectorPath
