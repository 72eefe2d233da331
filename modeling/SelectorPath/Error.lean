import SelectorPath.Token.Basic

/-!
# Errors

Every way in which reading, expanding or compiling a selector can fail, as a
cause; the wording of each cause is in one function.
-/

namespace SelectorPath

/-! ## Selectors that cannot be read -/

/-- Why a quoted string cannot be read. -/
inductive StringFault where
  | unterminated
  | newline
deriving DecidableEq, Repr

/-- Why an argument in parentheses cannot be read. -/
inductive ArgumentFault where
  | openString
  | unbalanced
deriving DecidableEq, Repr

/-- Why a selector cannot be read. -/
inductive Problem where
  | emptySelector
  | startsWith (c : Combinator)
  | endsWith (c : Combinator)
  | follows (c : Combinator) (last : Combinator)
  | unexpected (c : Char)
  | missingId
  | missingClass
  | missingPseudo
  | missingAttribute
  | missingValue (name : Text)
  | missingEquals (c : Char)
  | unexpectedInAttribute (c : Char)
  | unclosedAttribute
  | expectedBracket (found : Char)
  | string (fault : StringFault)
  | argument (fault : ArgumentFault)
deriving DecidableEq, Repr

/-- The wording of a fault in a quoted string. -/
def StringFault.message : StringFault → Text
  | unterminated => "unterminated string"
  | newline => "newline in string"

/-- The wording of a fault in an argument. -/
def ArgumentFault.message : ArgumentFault → Text
  | openString => "unterminated string in argument"
  | unbalanced => "unbalanced parentheses"

/-- The wording of a problem. -/
def Problem.message : Problem → Text
  | emptySelector => "empty selector"
  | startsWith c => "selector cannot start with a " ++ c.name ++ " combinator"
  | endsWith c => "selector cannot end with a " ++ c.name ++ " combinator"
  | follows c last =>
    c.name ++ " combinator cannot follow a " ++ last.name ++ " combinator"
  | unexpected c => "unexpected character '" ++ [c] ++ "'"
  | missingId => "expected an id after '#'"
  | missingClass => "expected a class name after '.'"
  | missingPseudo => "expected a pseudo-class name"
  | missingAttribute => "expected an attribute name"
  | missingValue name => "expected a value for attribute '" ++ name ++ "'"
  | missingEquals c => "expected '=' after '" ++ [c] ++ "'"
  | unexpectedInAttribute c =>
    "unexpected '" ++ [c] ++ "' in attribute selector"
  | unclosedAttribute => "unterminated attribute selector"
  | expectedBracket found => "expected ']' but found '" ++ [found] ++ "'"
  | string fault => fault.message
  | argument fault => fault.message

/-- A problem and the number of code points in front of it. -/
structure ParseError where
  position : Nat
  problem : Problem
deriving DecidableEq, Repr

/-! ## All errors -/

/-- Why a selector has no result. -/
inductive SelectorError where
  | malformed (error : ParseError)
  | missingTest (name : Text)
  | unsupportedPseudo (name : Text)
  | unsupportedKind (kind : Kind)
  | badPosition (formula : Text)
  | missingType (pseudo : Text)
  | missingArgument (pseudo : Text)
  | badPatternKey (key : Text)
  | patternWithoutMatch (key : Text)
  | badPattern (pattern : Text) (cause : Text)
deriving DecidableEq, Repr

/-- The wording of an error. -/
def SelectorError.message : SelectorError → Text
  | malformed e =>
    "Invalid selector at offset " ++ Text.ofNat e.position ++ ": " ++
      e.problem.message
  | missingTest name =>
    "Unsupported attribute selector @" ++ name ++ " (action: none)."
  | unsupportedPseudo name => "Unsupported pseudo selector '" ++ name ++ "'."
  | unsupportedKind kind => "Unsupported token type '" ++ kind.name ++ "'."
  | badPosition formula => "Unrecognized nth-expression '" ++ formula ++ "'."
  | missingType pseudo =>
    "*-of-type pseudos require a tag context: ':" ++ pseudo
      ++ "' needs an explicit tag before it, e.g. 'div:" ++ pseudo ++ "'"
  | missingArgument pseudo =>
    "Pseudo selector ':" ++ pseudo ++ "' requires an argument."
  | badPatternKey key =>
    "Custom pseudo regexes must begin with [a-z] and not use anchors (^$): '" ++
      key ++ "'"
  | patternWithoutMatch key =>
    "Custom pseudo regexes must have a function handler: '" ++ key ++ "'"
  | badPattern pattern cause => "Regex error in '" ++ pattern ++ "': " ++ cause

end SelectorPath
