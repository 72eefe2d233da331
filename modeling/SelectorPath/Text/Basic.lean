/-!
# Texts

A text is the list of its code points, so that every length and every offset of
the library counts code points. This module holds the operations on texts that
know nothing about selectors: trimming, cutting at separators, removing a known
beginning or end, and the decimal numeral of a number.

## Main results

* `Text.length_trimBy_le`: trimming never makes a text longer.
* `Text.splitBy_ne_nil`: cutting a text gives at least one piece.
-/

namespace SelectorPath

/-- A text is its list of code points. -/
abbrev Text := List Char

/-- A string literal stands for the text of its code points. -/
instance : Coe String Text := ⟨String.toList⟩

namespace Text

/-! ## Trimming -/

/-- The text without the characters satisfying `p` at its end. -/
def trimEndBy (p : Char → Bool) (t : Text) : Text :=
  (t.reverse.dropWhile p).reverse

/-- The text without the characters satisfying `p` at its two ends. -/
def trimBy (p : Char → Bool) (t : Text) : Text :=
  trimEndBy p (t.dropWhile p)

theorem length_dropWhile_le (p : Char → Bool) (t : Text) :
    (t.dropWhile p).length ≤ t.length :=
  (List.dropWhile_sublist p).length_le

private theorem length_trimEndBy_le (p : Char → Bool) (t : Text) :
    (trimEndBy p t).length ≤ t.length := by
  have h := length_dropWhile_le p t.reverse
  simpa [trimEndBy] using h

/-- Trimming never makes a text longer. -/
theorem length_trimBy_le (p : Char → Bool) (t : Text) :
    (trimBy p t).length ≤ t.length :=
  Nat.le_trans (length_trimEndBy_le p _) (length_dropWhile_le p t)

/-! ## Cutting and joining -/

/-- The pieces between the characters satisfying `p`: `n` separators make `n +
1` pieces. -/
def splitBy (p : Char → Bool) : Text → List Text
  | [] => [[]]
  | c :: rest =>
    if p c then [] :: splitBy p rest
    else match splitBy p rest with
      | [] => [[c]]
      | piece :: pieces => (c :: piece) :: pieces

/-- Cutting a text gives at least one piece. -/
theorem splitBy_ne_nil (p : Char → Bool) (t : Text) : splitBy p t ≠ [] := by
  cases t with
  | nil => simp [splitBy]
  | cons c rest =>
    rw [splitBy]
    split
    · simp
    · split <;> simp

/-- The pieces one after the other with `sep` between neighbours. -/
def join (sep : Text) (pieces : List Text) : Text :=
  sep.intercalate pieces

/-- What follows `start` in a text that begins with it. -/
def after? : (start : Text) → Text → Option Text
  | [], t => some t
  | _ :: _, [] => none
  | s :: start, c :: rest => if s = c then after? start rest else none

/-- A beginning and what follows it add up. -/
theorem length_after? {start t rest : Text} (h : after? start t = some rest) :
    start.length + rest.length = t.length := by
  induction start generalizing t with
  | nil =>
    simp only [after?, Option.some.injEq] at h
    simp [h]
  | cons s start ih =>
    cases t with
    | nil => simp [after?] at h
    | cons c t =>
      simp only [after?] at h
      split at h
      · have hi := ih h
        simp only [List.length_cons]
        omega
      · simp at h

/-- The text cut at its first `c`, which belongs to neither half. -/
def cutAt? (c : Char) : Text → Option (Text × Text)
  | [] => none
  | d :: rest =>
    if d = c then some ([], rest)
    else (cutAt? c rest).map fun (left, right) => (d :: left, right)

/-- The two halves and the character between them add up. -/
theorem length_cutAt? {c : Char} {t left right : Text}
    (h : cutAt? c t = some (left, right)) :
    left.length + 1 + right.length = t.length := by
  induction t generalizing left with
  | nil => simp [cutAt?] at h
  | cons d rest ih =>
    rw [cutAt?] at h
    split at h
    · simp only [Option.some.injEq, Prod.mk.injEq] at h
      simp [← h.1, ← h.2, Nat.add_comm]
    · simp only [Option.map_eq_some_iff, Prod.mk.injEq] at h
      obtain ⟨⟨l, r⟩, hcut, rfl, rfl⟩ := h
      have hi := ih hcut
      simp only [List.length_cons] at hi ⊢
      omega

/-! ## Numerals -/

/-- The decimal numeral of a natural number. -/
def ofNat (n : Nat) : Text :=
  Nat.toDigits 10 n

/-- The decimal numeral of an integer, with a sign when it is negative. -/
def ofInt : Int → Text
  | .ofNat n => ofNat n
  | .negSucc n => '-' :: ofNat (n + 1)

/-- The number written by decimal digits; only used on digits. -/
def toNat (digits : Text) : Nat :=
  Nat.ofDigitChars 10 digits 0

/-! ## Letters of the ASCII range -/

/-- The text with its ASCII capitals made small. -/
def asciiLower (t : Text) : Text :=
  t.map Char.toLower

end Text

end SelectorPath
