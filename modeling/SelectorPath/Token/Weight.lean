import SelectorPath.Token.Alias

/-!
# Weight of a token

The weight of a token counts the tokens inside it and the characters of its text
arguments. Compiling a token leads to tokens of smaller weight only, also where
a text argument is read as a selector again, and that is why the compiler ends.

## Main results

* `weightAll_unaliasAll`: replacing short names keeps the weight.
* `weightStream_filter_le`: leaving tokens out never adds weight.
-/

namespace SelectorPath

mutual

/-- One for the token itself and the weight of its argument. -/
def Token.weight : Token → Nat
  | ⟨_, _, _, _, argument⟩ => 1 + weightArgument? argument

/-- The weight of an argument, nothing where there is none. -/
def weightArgument? : Option (Argument Token) → Nat
  | none => 0
  | some argument => weightArgument argument

/-- The characters of a text, or the weight of the streams. -/
def weightArgument : Argument Token → Nat
  | .text t => t.length
  | .selectors streams => weightAll streams

/-- The weight of all streams together. -/
def weightAll : List (List Token) → Nat
  | [] => 0
  | stream :: streams => weightStream stream + weightAll streams

/-- The weight of all tokens of a stream together. -/
def weightStream : List Token → Nat
  | [] => 0
  | token :: tokens => token.weight + weightStream tokens

end

theorem Token.weight_eq (t : Token) :
    t.weight = 1 + weightArgument? t.argument := by
  cases t
  rfl

/-! ## Parts -/

private theorem Token.weight_le_weightStream {t : Token} {stream : Stream}
    (h : t ∈ stream) :
    t.weight ≤ weightStream stream := by
  induction stream with
  | nil => cases h
  | cons token tokens ih =>
    rw [weightStream]
    rcases List.mem_cons.mp h with rfl | h
    · omega
    · have hle := ih h
      omega

private theorem weightStream_le_weightAll {stream : Stream}
    {streams : List Stream} (h : stream ∈ streams) :
    weightStream stream ≤ weightAll streams := by
  induction streams with
  | nil => cases h
  | cons first streams ih =>
    rw [weightAll]
    rcases List.mem_cons.mp h with rfl | h
    · omega
    · have hle := ih h
      omega

/-- A token weighs no more than the streams that it stands in. -/
theorem Token.weight_le_weightAll {t : Token} {stream : Stream}
    {streams : List Stream} (htoken : t ∈ stream) (hstream : stream ∈ streams) :
    t.weight ≤ weightAll streams :=
  Nat.le_trans (weight_le_weightStream htoken)
    (weightStream_le_weightAll hstream)

/-! ## Short names -/

private theorem weightStream_unaliasStream {stream : Stream}
    (h : ∀ t ∈ stream, t.unalias.weight = t.weight) :
    weightStream (unaliasStream stream) = weightStream stream := by
  induction stream with
  | nil => rfl
  | cons token tokens ih =>
    rw [unaliasStream, weightStream, weightStream, h token List.mem_cons_self,
      ih fun t ht => h t (List.mem_cons_of_mem _ ht)]

private theorem weightAll_unaliasAll_of {streams : List Stream}
    (h : ∀ stream ∈ streams, ∀ t ∈ stream, t.unalias.weight = t.weight) :
    weightAll (unaliasAll streams) = weightAll streams := by
  induction streams with
  | nil => rfl
  | cons stream streams ih =>
    rw [unaliasAll, weightAll, weightAll,
      weightStream_unaliasStream (h stream List.mem_cons_self),
      ih fun s hs => h s (List.mem_cons_of_mem _ hs)]

/-- Replacing short names keeps the weight of a token. -/
theorem Token.weight_unalias (t : Token) : t.unalias.weight = t.weight := by
  obtain ⟨kind, _, _, _, argument⟩ := t
  cases kind with
  | pseudoClass =>
    cases argument with
    | none => rfl
    | some argument =>
      cases argument with
      | text t => rfl
      | selectors streams =>
        have h : ∀ stream ∈ streams, ∀ token ∈ stream,
            token.unalias.weight = token.weight :=
          fun stream hstream token htoken => token.weight_unalias
        simp only [unalias, unaliasArgument?, unaliasArgument, weight,
          weightArgument?, weightArgument, weightAll_unaliasAll_of h]
  | _ => rfl
termination_by t.weight
decreasing_by
  have hle := weight_le_weightAll htoken hstream
  simp only [weight, weightArgument?, weightArgument]
  omega

/-- Replacing short names keeps the weight of streams. -/
theorem weightAll_unaliasAll (streams : List Stream) :
    weightAll (unaliasAll streams) = weightAll streams :=
  weightAll_unaliasAll_of fun _ _ t _ => t.weight_unalias

/-! ## Leaving tokens out -/

/-- Leaving tokens out never adds weight. -/
theorem weightStream_filter_le (p : Token → Bool) (stream : Stream) :
    weightStream (stream.filter p) ≤ weightStream stream := by
  induction stream with
  | nil => simp [weightStream]
  | cons token tokens ih =>
    by_cases h : p token = true
    · simp only [List.filter_cons_of_pos h, weightStream]
      omega
    · simp only [List.filter_cons_of_neg h, weightStream]
      omega

/-- Leaving tokens out of streams never adds weight. -/
theorem weightAll_map_filter_le (p : Token → Bool) (streams : List Stream) :
    weightAll (streams.map (List.filter p)) ≤ weightAll streams := by
  induction streams with
  | nil => simp [weightAll]
  | cons stream streams ih =>
    have h := weightStream_filter_le p stream
    simp only [List.map_cons, weightAll]
    omega

end SelectorPath
