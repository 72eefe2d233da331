import SelectorPath.Text.Digit

/-!
# Quoted literals

While pseudo-classes are replaced in the text of a selector, its quoted literals
are masked: each is taken out into a table, and a numbered placeholder stands
for it. Restoring puts the literals back. Expansion looks for literals and
placeholders through its engine; what that comes to with the standard engine is
`Literal.capture` and `Literal.restore`.

## Main results

* `length_closeLiteral_lt`: a literal takes at least its closing quote.
-/

namespace SelectorPath

/-- A text cut into its quoted literals and the characters between them. -/
inductive Segment where
  | char (c : Char)
  | literal (t : Text)
deriving DecidableEq, Repr

namespace Literal

/-! ## Finding literals -/

/-- The rest of a literal behind its opening quote, and what follows it. A quote
behind a backslash belongs to the literal if another quote closes it, and closes
it otherwise. A literal stays on its line. -/
def closeLiteral (quote : Char) : Text → Option (Text × Text)
  | [] => none
  | '\\' :: c :: rest =>
    if c = quote then
      match closeLiteral quote rest with
      | some (body, left) => some ('\\' :: c :: body, left)
      | none => some (['\\', c], rest)
    else (closeLiteral quote (c :: rest)).map fun (body, left) =>
      ('\\' :: body, left)
  | c :: rest =>
    if c = quote then some ([c], rest)
    else if c = '\n' then none
    else (closeLiteral quote rest).map fun (body, left) => (c :: body, left)

/-- A literal takes at least its closing quote. -/
theorem length_closeLiteral_lt {quote : Char} {ahead body left : Text}
    (h : closeLiteral quote ahead = some (body, left)) :
    left.length < ahead.length := by
  fun_induction closeLiteral quote ahead generalizing body left with
  | case1 => simp at h
  | case2 rest body' left' hrec ih =>
    simp only [Option.some.injEq, Prod.mk.injEq] at h
    have hi := ih hrec
    simp only [List.length_cons, ← h.2]
    omega
  | case3 rest hrec ih =>
    simp only [Option.some.injEq, Prod.mk.injEq] at h
    simp only [List.length_cons, ← h.2]
    omega
  | case4 c rest hne ih =>
    simp only [Option.map_eq_some_iff, Prod.mk.injEq] at h
    obtain ⟨⟨body', left'⟩, hrec, _, rfl⟩ := h
    have hi := ih hrec
    simp only [List.length_cons] at hi ⊢
    omega
  | case5 =>
    simp only [Option.some.injEq, Prod.mk.injEq] at h
    simp [← h.2]
  | case6 => simp at h
  | case7 c rest _ _ _ ih =>
    simp only [Option.map_eq_some_iff, Prod.mk.injEq] at h
    obtain ⟨⟨body', left'⟩, hrec, _, rfl⟩ := h
    have hi := ih hrec
    simp only [List.length_cons]
    omega

/-- The text cut at its literals, from left to right. A quote that starts no
literal is an ordinary character. -/
def segments : Text → List Segment
  | [] => []
  | c :: rest =>
    if c = '"' ∨ c = '\'' then
      match _h : closeLiteral c rest with
      | some (body, left) => .literal (c :: body) :: segments left
      | none => .char c :: segments rest
    else .char c :: segments rest
termination_by t => t.length
decreasing_by
  · have hlt := length_closeLiteral_lt _h
    simp only [List.length_cons]
    omega
  · simp
  · simp

/-! ## Masking -/

/-- What stands for the literal with the given number. -/
def placeholder (index : Nat) : Text :=
  "__S" ++ Text.ofNat index ++ "__"

/-- The segments with placeholders for the literals, numbered from `index`
on. -/
def mask (index : Nat) : List Segment → Text
  | [] => []
  | .char c :: rest => c :: mask index rest
  | .literal _ :: rest => placeholder index ++ mask (index + 1) rest

/-- The literals among the segments. -/
def literals : List Segment → List Text
  | [] => []
  | .char _ :: rest => literals rest
  | .literal t :: rest => t :: literals rest

/-- The text with its literals masked, and the literals. -/
def capture (t : Text) : Text × List Text :=
  (mask 0 (segments t), literals (segments t))

/-! ## Restoring -/

/-- The number in a placeholder that lies ahead, as written, and what follows
the placeholder. -/
def placeholder? (ahead : Text) : Option (Text × Text) := do
  let rest ← Text.after? "__S" ahead
  let digits := rest.takeWhile Text.isDecimalDigit
  let left ← Text.after? "__" (rest.dropWhile Text.isDecimalDigit)
  if digits.isEmpty then none else some (digits, left)

/-- The literal with the number that is written by ASCII digits. -/
def numbered? (table : List Text) (digits : Text) : Option Text :=
  if digits.all Char.isDigit then table[Text.toNat digits]? else none

/-- A placeholder takes at least its marks. -/
theorem length_placeholder?_lt {ahead digits left : Text}
    (h : placeholder? ahead = some (digits, left)) :
    left.length < ahead.length := by
  unfold placeholder? at h
  simp only [Option.bind_eq_bind, Option.bind_eq_some_iff] at h
  obtain ⟨rest, h1, left', h2, h3⟩ := h
  split at h3
  · simp at h3
  · simp only [Option.some.injEq, Prod.mk.injEq] at h3
    have hdrop := Text.length_dropWhile_le Text.isDecimalDigit rest
    have h1 := Text.length_after? h1
    have h2 := Text.length_after? h2
    have hlen : ("__S" : Text).length = 3 := rfl
    rw [← h3.2]
    omega

/-- The text with the placeholders of known literals replaced by them. Any other
placeholder stays. -/
def restore (table : List Text) : Text → Text
  | [] => []
  | c :: rest =>
    match _h : placeholder? (c :: rest) with
    | some (digits, left) =>
      (numbered? table digits).getD ("__S" ++ digits ++ "__") ++
        restore table left
    | none => c :: restore table rest
termination_by t => t.length
decreasing_by
  · exact length_placeholder?_lt _h
  · simp

end Literal

end SelectorPath
