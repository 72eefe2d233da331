import SelectorPath.Pattern.CharSet
import SelectorPath.Pattern.Fault
import SelectorPath.Text.Blank
import SelectorPath.Text.Digit
import SelectorPath.Text.Hex
import SelectorPath.Text.Word

/-!
# Escapes of a pattern

A backslash gives the character behind it another meaning: a named set, a
control character, a character given by its code point, or the character itself
where it would be a sign of the pattern.

## Main results

* `readEscaped_length`: an escape takes at least the character behind the
  backslash.
-/

namespace SelectorPath.Pattern

/-- What an escape stands for, inside and outside a class. -/
inductive Escaped where
  | char (c : Char)
  | set (set : CharSet)

/-- The set that a letter behind a backslash names. -/
def setOfEscape? (c : Char) : Option CharSet :=
  if c = 'd' then some (.such Text.isDecimalDigit)
  else if c = 'D' then some (.such fun x => !Text.isDecimalDigit x)
  else if c = 'w' then some (.such Text.isWordChar)
  else if c = 'W' then some (.such fun x => !Text.isWordChar x)
  else if c = 's' then some (.such Text.isBlank)
  else if c = 'S' then some (.such fun x => !Text.isBlank x)
  else if c = 'h' then some (.such Text.isHexDigit)
  else if c = 'H' then some (.such fun x => !Text.isHexDigit x)
  else none

/-- The character that an escape writes: a control character, or itself if it is
no letter or digit. -/
def charOfEscape? (c : Char) : Option Char :=
  if c = 'n' then some '\n'
  else if c = 'r' then some '\r'
  else if c = 't' then some '\t'
  else if c = 'f' then some '\x0c'
  else if c = 'v' then some '\x0b'
  else if c = 'a' then some '\x07'
  else if c = 'e' then some '\x1b'
  else if c.isAlphanum then none
  else some c

/-- The number of hexadecimal digits that follow a letter where they stand
without braces. -/
def hexDigitsOf? (c : Char) : Option Nat :=
  if c = 'x' then some 2 else if c = 'u' then some 4 else if c = 'U' then some 8
  else none

/-- The character with the code point that hexadecimal digits write. -/
def charOfHex (digits : Text) : Except Fault Escaped :=
  if (Text.hexNumber digits).isValidChar then
    .ok (.char (Char.ofNat (Text.hexNumber digits)))
  else .error .badEscape

/-- A code point of `count` digits, or of up to eight in braces. -/
def readHex (count : Nat) (ahead : Text) : Except Fault (Escaped × Text) :=
  let digits := ahead.take count
  if digits.length = count ∧ digits.all Text.isHexDigit then
    (charOfHex digits).map fun x => (x, ahead.drop count)
  else match ahead with
    | '{' :: rest =>
      let digits := rest.takeWhile Text.isHexDigit
      match rest.dropWhile Text.isHexDigit with
      | '}' :: left =>
        if digits.isEmpty || 8 < digits.length then .error .badEscape
        else (charOfHex digits).map fun x => (x, left)
      | _ => .error .badEscape
    | _ => .error .badEscape

/-- What the escape with `c` behind its backslash stands for, and what follows
it. -/
def readEscaped (c : Char) (rest : Text) : Except Fault (Escaped × Text) :=
  match setOfEscape? c, hexDigitsOf? c, charOfEscape? c with
  | some set, _, _ => .ok (.set set, rest)
  | none, some count, _ => readHex count rest
  | none, none, some x => .ok (.char x, rest)
  | none, none, none => .error .badEscape

/-! ## Progress -/

private theorem map_snd_eq_ok {α : Type} {r : Except Fault α}
    {left left' : Text} {x : α}
    (h : r.map (fun x => (x, left)) = .ok (x, left')) : left = left' := by
  cases r with
  | error e => simp [Except.map] at h
  | ok y =>
    simp only [Except.map, Except.ok.injEq, Prod.mk.injEq] at h
    exact h.2

private theorem readHex_length {count : Nat} {ahead left : Text} {x : Escaped}
    (h : readHex count ahead = .ok (x, left)) : left.length ≤ ahead.length := by
  unfold readHex at h
  simp only at h
  split at h
  · rw [← map_snd_eq_ok h]
    simp
  · split at h
    · rename_i rest _
      have hle := Text.length_dropWhile_le Text.isHexDigit rest
      split at h
      · rename_i left' hdrop
        rw [hdrop] at hle
        split at h
        · simp at h
        · rw [← map_snd_eq_ok h]
          simp only [List.length_cons] at hle ⊢
          omega
      · simp at h
    · simp at h

/-- An escape takes at least the character behind the backslash. -/
theorem readEscaped_length {c : Char} {rest left : Text} {x : Escaped}
    (h : readEscaped c rest = .ok (x, left)) : left.length ≤ rest.length := by
  unfold readEscaped at h
  split at h
  · simp only [Except.ok.injEq, Prod.mk.injEq] at h
    simp [h.2]
  · exact readHex_length h
  · simp only [Except.ok.injEq, Prod.mk.injEq] at h
    simp [h.2]
  · simp at h

end SelectorPath.Pattern
