import SelectorPath.Error
import SelectorPath.Text.Blank
import SelectorPath.Text.Digit
import SelectorPath.XPath.Expr

/-!
# Position formulas

The argument of `:nth-child` is a formula for positions: one position, or the
positions `a*n + b` for `n` from zero. Numbers stay numerals, so that they may
have any length.
-/

namespace SelectorPath.XPath

/-- A set of positions. -/
inductive Formula where
  /-- One position. -/
  | exactly (numeral : Text)
  /-- The positions `step*n + offset`, downwards where `reverse` is set. -/
  | progression (reverse : Bool) (step : Text) (offset : Option Text)
deriving DecidableEq, Repr

namespace Formula

/-- The step and offset of a progression, its sign already read. -/
def progression? (reverse : Bool) (t : Text) : Option Formula :=
  let step := t.takeWhile Text.isDecimalDigit
  match t.dropWhile Text.isDecimalDigit with
  | ['n'] => some (progression reverse step none)
  | 'n' :: '+' :: offset =>
    if !offset.isEmpty && offset.all Text.isDecimalDigit then
      some (progression reverse step (some offset))
    else none
  | _ => none

/-- The formula that a trimmed text writes. -/
def ofTrimmed? (t : Text) : Option Formula :=
  if t = "odd" then some (progression false "2" (some "1"))
  else if t = "even" then some (progression false "2" none)
  else if !t.isEmpty && t.all Char.isDigit then some (exactly t)
  else match t with
    | '-' :: rest => progression? true rest
    | '+' :: rest => progression? false rest
    | rest => progression? false rest

/-- The condition that an element's position is in the set. A step of zero asks
for a bound only, and so does an upward step of one. -/
def condition : Formula → Expr
  | exactly numeral => .binary .equal .position (.number numeral)
  | progression reverse step offset =>
    let place := match offset with
      | none => Expr.position
      | some b => .minus .position (.number b)
    let bound := .binary (if reverse then .atMost
      else .atLeast) place (.number "0")
    let step := step.dropWhile (· == '0')
    if step.isEmpty || (!reverse && step == ("1" : Text)) then bound
    else
      let divisor := if reverse then '-' :: step else step
      .binary .and bound
        (.binary .equal (.binary .modulo (.group place) (.number divisor))
          (.number "0"))

end Formula

/-- The condition written by the argument of a pseudo-class that counts. -/
def positionTest (t : Text) : Except SelectorError Text :=
  match Formula.ofTrimmed? (Text.trim t) with
  | some formula => .ok formula.condition.render
  | none => .error (.badPosition t)

end SelectorPath.XPath
