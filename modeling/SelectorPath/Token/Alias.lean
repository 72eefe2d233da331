import SelectorPath.Token.Basic

/-!
# Short names

Some pseudo-classes may be written under a short name. `Token.unalias` replaces
the short names of a token and, through the selector arguments of
pseudo-classes, of every token inside it.
-/

namespace SelectorPath

/-- The full name that a pseudo-class name stands for. -/
def PseudoClass.fullName (n : Text) : Text :=
  match ofAlias? n with
  | some p => p.name
  | none => n

mutual

/-- The token with short names replaced. -/
def Token.unalias : Token → Token
  | ⟨.pseudoClass, name, value, test, argument⟩ =>
    ⟨.pseudoClass, name.map PseudoClass.fullName, value, test,
      unaliasArgument? argument⟩
  | ⟨kind, name, value, test, argument⟩ => ⟨kind, name, value, test, argument⟩

/-- The argument, where there is one, with short names replaced. -/
def unaliasArgument? : Option (Argument Token) → Option (Argument Token)
  | none => none
  | some argument => some (unaliasArgument argument)

/-- The argument with short names replaced in its selectors. -/
def unaliasArgument : Argument Token → Argument Token
  | .text t => .text t
  | .selectors streams => .selectors (unaliasAll streams)

/-- The streams with short names replaced. -/
def unaliasAll : List (List Token) → List (List Token)
  | [] => []
  | stream :: streams => unaliasStream stream :: unaliasAll streams

/-- The stream with short names replaced. -/
def unaliasStream : List Token → List Token
  | [] => []
  | token :: tokens => token.unalias :: unaliasStream tokens

end

/-- Short names are replaced token by token. -/
theorem unaliasStream_eq_map (stream : Stream) :
    unaliasStream stream = stream.map Token.unalias := by
  induction stream with
  | nil => rfl
  | cons token tokens ih => simp [unaliasStream, ih]

/-- Short names are replaced stream by stream. -/
theorem unaliasAll_eq_map (streams : List Stream) :
    unaliasAll streams = streams.map unaliasStream := by
  induction streams with
  | nil => rfl
  | cons stream streams ih => simp [unaliasAll, ih]

end SelectorPath
