import SelectorPath.Pattern.Regular

/-!
# Patterns as they are written

The parts of a pattern in the order and the nesting in which they are written,
and the properties of a part on which the way it is matched depends: how many
characters it takes at least, whether it always takes the same number, and
whether it is regular.
-/

namespace SelectorPath.Pattern

/-- A part of a pattern. -/
inductive Node where
  | empty
  /-- One character that is accepted. -/
  | one (accepts : Char → Bool)
  | seq (parts : List Node)
  | alt (branches : List Node)
  /-- From `least` to `most` turns, without bound where `most` is missing. -/
  | times (isLazy : Bool) (least : Nat) (most : Option Nat) (body : Node)
  /-- A part whose text is kept under a number. -/
  | group (index : Nat) (body : Node)
  /-- The text kept under a number once more. -/
  | again (index : Nat) (ignoreCase : Bool)
  /-- A look at what lies ahead, or at what does not. -/
  | ahead (isNegative : Bool) (body : Node)
  /-- A look at what lies behind, or at what does not. -/
  | behind (isNegative : Bool) (body : Node)
  /-- A part whose first way through is not given up. -/
  | commit (body : Node)
  | place (condition : Condition)

/-- Whether a part can be repeated. -/
def Node.isRepeatable : Node → Bool
  | .empty => false
  | .ahead _ _ => false
  | .behind _ _ => false
  | .place _ => false
  | _ => true

/-! ## Width -/

mutual
/-- The number of characters that a part takes at least. -/
def Node.minWidth : Node → Nat
  | .one _ => 1
  | .seq parts => totalWidth parts
  | .alt branches => (leastWidth? branches).getD 0
  | .times _ least _ body => least * body.minWidth
  | .group _ body => body.minWidth
  | .commit body => body.minWidth
  | _ => 0

/-- The number of characters that parts take together at least. -/
def totalWidth : List Node → Nat
  | [] => 0
  | part :: rest => part.minWidth + totalWidth rest

/-- The number of characters that each of the branches takes at least. -/
def leastWidth? : List Node → Option Nat
  | [] => none
  | branch :: rest =>
    match leastWidth? rest with
    | none => some branch.minWidth
    | some width => some (min branch.minWidth width)
end

mutual
/-- Whether a part always takes the same number of characters. -/
def Node.isFixed : Node → Bool
  | .seq parts => allFixed parts
  | .alt branches =>
    allFixed branches && haveWidth ((leastWidth? branches).getD 0) branches
  | .times _ least most body => body.isFixed && most == some least
  | .group _ body => body.isFixed
  | .commit body => body.isFixed
  | .again _ _ => false
  | _ => true

/-- Whether each of the parts always takes the same number of characters. -/
def allFixed : List Node → Bool
  | [] => true
  | part :: rest => part.isFixed && allFixed rest

/-- Whether each of the parts takes at least `width` characters and no more than
that at least. -/
def haveWidth (width : Nat) : List Node → Bool
  | [] => true
  | part :: rest => part.minWidth == width && haveWidth width rest
end

/-! ## Regular parts -/

/-- Whether a condition can stand in a regular part. -/
def Condition.isRegular : Condition → Bool
  | start => true
  | finish => true
  | lineStart => true
  | lineEnd => true
  | _ => false

mutual
/-- The part as a regular part. A group is one only if no reference goes to
it. -/
def Node.regular? (references : List Nat) : Node → Option Regular
  | .empty => some .empty
  | .one accepts => some (.one accepts)
  | .seq parts => (allRegular? references parts).map .seq
  | .alt branches => (allRegular? references branches).map .alt
  | .times isLazy least most body =>
    (body.regular? references).map (.times isLazy least most)
  | .group index body =>
    if references.contains index then none
    else (body.regular? references).map (.group index)
  | .place condition =>
    if condition.isRegular then some (.place condition) else none
  | _ => none

/-- The parts as regular parts. -/
def allRegular? (references : List Nat) : List Node → Option (List Regular)
  | [] => some []
  | part :: rest => do
    let part ← part.regular? references
    let rest ← allRegular? references rest
    some (part :: rest)
end

end SelectorPath.Pattern
