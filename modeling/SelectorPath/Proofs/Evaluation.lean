import SelectorPath.XPath.Expr
import SelectorPath.Proofs.Document

/-!
# Meaning of expressions and location paths

The XPath 1.0 meaning of the expressions that predicates are made of, and of
location paths over a document. Numbers are exact integers here, with `none` for
"not a number".

A step goes from one node to a list of nodes in document order, each predicate
in turn seeing a node with its place in the list and the length of the list. A
path goes from the document node, step by step; of the nodes that it reaches
only membership matters, so repetitions stay.

## Main results

* `mem_keep_iff`: which nodes a predicate keeps.
* `mem_select_concat`: the nodes of a path, from those of the path without its
  last step.
-/

namespace SelectorPath.XPath

/-! ## Values -/

/-- What an expression sees: the element it is evaluated at and the element's
place in the list of those that its step has reached. -/
structure Context where
  name : Text
  attribute? : Text → Option Text
  /-- The string-value of the element. -/
  text : Text
  /-- The string-values of its child elements. -/
  childTexts : List Text
  position : Nat
  size : Nat

/-- A value; a node-set is given by the string-values of its nodes. -/
inductive Value where
  | nodes (texts : List Text)
  | string (t : Text)
  | number (n : Option Int)
  | boolean (b : Bool)
deriving DecidableEq, Repr

/-- White space in XPath. -/
def isSpace (c : Char) : Bool :=
  c == ' ' || c == '\t' || c == '\n' || c == '\r'

/-- The words of a text with one space between neighbours. -/
def normalizeSpace (t : Text) : Text :=
  Text.join " " ((Text.splitBy isSpace t).filter fun w => !w.isEmpty)

/-- The number that decimal digits write. -/
def natural? (t : Text) : Option Nat :=
  if !t.isEmpty && t.all Char.isDigit then some (Text.toNat t) else none

/-- The number that a text writes, white space around it left aside. -/
def number? (t : Text) : Option Int :=
  match Text.trimBy isSpace t with
  | '-' :: digits => (natural? digits).map fun n => -Int.ofNat n
  | digits => (natural? digits).map Int.ofNat

namespace Value

/-- The value as a string; of a node-set, the string-value of its first node. -/
def toText : Value → Text
  | nodes texts => texts.headD []
  | string t => t
  | number (some n) => Text.ofInt n
  | number none => "NaN"
  | boolean true => "true"
  | boolean false => "false"

/-- The value as a number. -/
def toNumber : Value → Option Int
  | number n => n
  | boolean b => some (if b then 1 else 0)
  | v => number? v.toText

/-- The value as a truth value. -/
def toBool : Value → Bool
  | nodes texts => !texts.isEmpty
  | string t => !t.isEmpty
  | number n => n.any (· != 0)
  | boolean b => b

def isBoolean : Value → Bool
  | boolean _ => true
  | _ => false

def isNumber : Value → Bool
  | number _ => true
  | _ => false

/-- Whether two values, neither of them a node-set, are equal. -/
def same (l r : Value) : Bool :=
  if l.isBoolean || r.isBoolean then l.toBool == r.toBool
  else if l.isNumber || r.isNumber then l.toNumber.any fun n =>
    r.toNumber == some n
  else l.toText == r.toText

/-- The values that stand for a value in a comparison with `other`: a comparison
with a node-set holds if it holds for one of its nodes, except that a truth
value is compared with the whole set. -/
def members (other : Value) : Value → List Value
  | nodes texts =>
    if other.isBoolean then [boolean (!texts.isEmpty)] else texts.map string
  | v => [v]

/-- Whether a comparison of two values, neither of them a node-set, holds. -/
def related (op : Operator) (l r : Value) : Bool :=
  match op with
  | .equal => l.same r
  | .unequal => !l.same r
  | .atMost => l.toNumber.any fun m => r.toNumber.any fun n => m ≤ n
  | .atLeast => l.toNumber.any fun m => r.toNumber.any fun n => n ≤ m
  | _ => false

/-- Whether a comparison holds. -/
def compare (op : Operator) (l r : Value) : Bool :=
  (members r l).any fun a => (members l r).any fun b => a.related op b

end Value

/-- The value of an operator between two values. The remainder has the sign of
the dividend. -/
def Operator.apply (op : Operator) (l r : Value) : Value :=
  match op with
  | .and => .boolean (l.toBool && r.toBool)
  | .or => .boolean (l.toBool || r.toBool)
  | .modulo =>
    .number (l.toNumber.bind fun m => r.toNumber.bind fun n => if n =
      0 then none else some (m.tmod n))
  | op => .boolean (l.compare op r)

/-- Whether `part` stands somewhere in a text. -/
def occursIn (part : Text) : Text → Bool
  | [] => part.isEmpty
  | c :: rest => part.isPrefixOf (c :: rest) || occursIn part rest

/-- The text with each character of `source` replaced by the one of `target` in
the same place, or dropped where `target` has none there. The first occurrence
in `source` counts. -/
def translated (source target t : Text) : Text :=
  t.filterMap fun c =>
    match source.idxOf? c with
    | none => some c
    | some i => target[i]?

/-- The value of an expression. -/
def Expr.value (c : Context) : Expr → Value
  | attr name => .nodes (c.attribute? name).toList
  | children => .nodes c.childTexts
  | literal _ body => .string body
  | number numeral => .number (number? numeral)
  | elementName => .string c.name
  | position => .number (some c.position)
  | last => .number (some c.size)
  | ownText => .string (XPath.normalizeSpace c.text)
  | ownLength => .number (some c.text.length)
  | normalizeSpace e => .string (XPath.normalizeSpace (e.value c).toText)
  | stringLength e => .number (some (e.value c).toText.length)
  | not e => .boolean (!(e.value c).toBool)
  | contains e part =>
    .boolean (occursIn (part.value c).toText (e.value c).toText)
  | startsWith e part =>
    .boolean ((part.value c).toText.isPrefixOf (e.value c).toText)
  | substring e start =>
    .string (match (start.value c).toNumber with
      | some n => (e.value c).toText.drop (n - 1).toNat
      | none => [])
  | concat x y z =>
    .string ((x.value c).toText ++ (y.value c).toText ++ (z.value c).toText)
  | translate e source target =>
    .string (translated (source.value c).toText (target.value c).toText
      (e.value c).toText)
  | minus l r =>
    .number ((l.value c).toNumber.bind fun m =>
      (r.value c).toNumber.map fun n => m - n)
  | binary op l r => op.apply (l.value c) (r.value c)
  | group e => e.value c

/-- Whether a predicate keeps the element: a number asks for the element's
position. -/
def Expr.holds (c : Context) (e : Expr) : Bool :=
  match e.value c with
  | .number n => n == some (c.position : Int)
  | v => v.toBool

/-! ## Steps -/

/-- A direction in the document. -/
inductive Axis where
  | child
  | descendantOrSelf
  | followingSibling
deriving DecidableEq, Repr

/-- A test for the kind or the name of a node. -/
inductive NodeTest where
  | node
  | anyElement
  | named (name : Text)
deriving DecidableEq, Repr

/-- A step of a location path. -/
structure Step where
  axis : Axis
  test : NodeTest
  predicates : List Expr := []
deriving DecidableEq, Repr

/-- The nodes that an axis leads to, in document order. -/
def Axis.nodes (doc : Document) : Axis → Node → List Node
  | child, n => doc.childNodes n
  | descendantOrSelf, n => doc.nodes.filter fun m => n.isSuffixOf m
  | followingSibling, [] => []
  | followingSibling, i :: parent => (doc.childNodes parent).drop (i + 1)

/-- Whether a node passes the test. All nodes but the document node are
elements. -/
def NodeTest.accepts (doc : Document) : NodeTest → Node → Bool
  | node, _ => true
  | anyElement, n => !n.isEmpty
  | named name, n => !n.isEmpty && (doc.find? n).any fun e => e.name == name

/-- What an expression sees at a node in the given place of a list. The elements
hold no text. -/
def context (doc : Document) (n : Node) (position size : Nat) : Context :=
  let e := (doc.find? n).getD doc.top
  { name := e.name
    attribute? := e.attribute?
    text := []
    childTexts := e.children.map fun _ => []
    position
    size }

/-- The nodes of a list that a predicate keeps. -/
def keep (doc : Document) (nodes : List Node) (e : Expr) : List Node :=
  (nodes.zipIdx.filter fun (n, i) =>
    e.holds (context doc n (i + 1) nodes.length)).map Prod.fst

/-- The nodes that a step leads to from a node. -/
def Step.select (doc : Document) (s : Step) (n : Node) : List Node :=
  s.predicates.foldl (keep doc)
    ((s.axis.nodes doc n).filter (s.test.accepts doc))

/-- The nodes that a path leads to from the document node. -/
def select (doc : Document) (path : List Step) : List Node :=
  path.foldl (fun nodes s => nodes.flatMap (s.select doc)) [[]]

/-- A predicate sees a node with its place in the list, counted from one. -/
theorem mem_keep_iff {doc : Document} {nodes : List Node} {e : Expr}
    {n : Node} :
    n ∈ keep doc nodes e ↔
      ∃ i, nodes[i]? = some n ∧
        e.holds (context doc n (i + 1) nodes.length) = true := by
  simp only [keep, List.mem_map, List.mem_filter, Prod.exists,
    List.mem_zipIdx_iff_getElem?]
  constructor
  · rintro ⟨m, i, ⟨hi, hholds⟩, rfl⟩
    exact ⟨i, hi, hholds⟩
  · rintro ⟨i, hi, hholds⟩
    exact ⟨n, i, ⟨hi, hholds⟩, rfl⟩

/-- A path with one more step goes on from what the path selects. -/
theorem mem_select_concat {doc : Document} {path : List Step} {s : Step}
    {n : Node} :
    n ∈ select doc (path ++ [s]) ↔
      ∃ m ∈ select doc path, n ∈ s.select doc m := by
  simp [select]

end SelectorPath.XPath
