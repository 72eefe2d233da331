import Mathlib
import SelectorPath.Proofs.QuotedStrings
import SelectorPath.Proofs.TextParts

/-!
# Placeholders

A placeholder is a number between two marks that start and end with low lines.
Restoring reads a text from left to right and takes a placeholder wherever one
starts, so what it does at a place is known from the text ahead: a placeholder
that was issued is read back with its number, and a text without a low line is
passed over.

## Main results

* `placeholder?_placeholder`: an issued placeholder is read back, whatever
  follows it.
* `restore_placeholder`, `restore_cons_of_none`: the steps of restoring.
* `restore_nil`, `capture_of_no_quote`: a text without quotes is neither masked
  nor changed by restoring.
-/

namespace SelectorPath

namespace Literal

/-! ## Reading a placeholder -/

/-- A placeholder that is found stands there as it is written. -/
theorem placeholder?_eq_some {ahead digits left : Text}
    (h : placeholder? ahead = some (digits, left)) :
    ahead = "__S" ++ digits ++ "__" ++ left := by
  unfold placeholder? at h
  simp only [Option.bind_eq_bind, Option.bind_eq_some_iff] at h
  obtain ⟨rest, hopen, left', hclose, h⟩ := h
  split at h
  · cases h
  · cases h
    have hopen := Text.after?_eq_some_iff.mp hopen
    have hclose := Text.after?_eq_some_iff.mp hclose
    have hrest :=
      List.takeWhile_append_dropWhile (p := Text.isDecimalDigit) (l := rest)
    rw [hclose] at hrest
    conv_lhs => rw [hopen, ← hrest]
    simp

/-- An issued placeholder is read back. -/
theorem placeholder?_placeholder (n : Nat) (rest : Text) :
    placeholder? (placeholder n ++ rest) = some (Text.ofNat n, rest) := by
  have hdigits : ∀ c ∈ Text.ofNat n, Text.isDecimalDigit c = true :=
    fun c hc => by
    rw [Text.isDecimalDigit, Text.isDigit_of_mem_ofNat hc, Bool.true_or]
  have hmark : Text.isDecimalDigit '_' = false := by decide
  have hopen : Text.after? "__S" (placeholder n ++ rest) =
      some (Text.ofNat n ++ ('_' :: '_' :: rest)) := by
    rw [Text.after?_eq_some_iff, placeholder]
    simp
  have htake : (Text.ofNat n ++ ('_' :: '_' :: rest)).takeWhile
      Text.isDecimalDigit = Text.ofNat n := by
    rw [List.takeWhile_append_of_pos hdigits,
      List.takeWhile_cons_of_neg (by simp [hmark]), List.append_nil]
  have hdrop : (Text.ofNat n ++ ('_' :: '_' :: rest)).dropWhile
      Text.isDecimalDigit = '_' :: '_' :: rest := by
    rw [List.dropWhile_append_of_pos hdigits,
      List.dropWhile_cons_of_neg (by simp [hmark])]
  have hclose : Text.after? "__" ('_' :: '_' :: rest) = some rest :=
    Text.after?_eq_some_iff.mpr rfl
  have hsome : (Text.ofNat n).isEmpty = false := by
    simpa using Text.ofNat_ne_nil n
  simp only [placeholder?, hopen, Option.bind_eq_bind, Option.bind_some, htake,
    hdrop, hclose, hsome, Bool.false_eq_true, if_false]

/-- A placeholder starts with a low line. -/
theorem placeholder?_of_ne {c : Char} (h : c ≠ '_') (rest : Text) :
    placeholder? (c :: rest) = none := by
  have hopen : Text.after? "__S" (c :: rest) = none := if_neg h.symm
  rw [placeholder?, hopen]
  rfl

private theorem numbered?_ofNat (table : List Text) (n : Nat) :
    numbered? table (Text.ofNat n) = table[n]? := by
  have hdigits : (Text.ofNat n).all Char.isDigit = true :=
    List.all_eq_true.mpr fun c hc => Text.isDigit_of_mem_ofNat hc
  rw [numbered?, if_pos hdigits, Text.toNat_ofNat]

/-! ## Restoring -/

/-- A character that starts no placeholder is copied. -/
theorem restore_cons_of_none {c : Char} {rest : Text}
    (h : placeholder? (c :: rest) = none) (table : List Text) :
    restore table (c :: rest) = c :: restore table rest := by
  rw [restore]
  split
  · rename_i hfound
    rw [h] at hfound
    cases hfound
  · rfl

theorem restore_cons_of_ne {c : Char} (h : c ≠ '_') (table : List Text)
    (rest : Text) :
    restore table (c :: rest) = c :: restore table rest :=
  restore_cons_of_none (placeholder?_of_ne h rest) table

/-- A placeholder is replaced by its literal, or it stays. -/
theorem restore_of_placeholder? {table : List Text} {ahead digits left : Text}
    (h : placeholder? ahead = some (digits, left)) :
    restore table ahead =
      (numbered? table digits).getD ("__S" ++ digits ++ "__") ++
      restore table left := by
  cases ahead with
  | nil => cases h
  | cons c rest =>
    rw [restore]
    split
    · rename_i hfound
      cases h.symm.trans hfound
      rfl
    · rename_i hfound
      cases h.symm.trans hfound

/-- The placeholder of a recorded literal is replaced by it. -/
theorem restore_placeholder {table : List Text} {n : Nat} {literal : Text}
    (h : table[n]? = some literal) (rest : Text) :
    restore table (placeholder n ++ rest) = literal ++ restore table rest := by
  rw [restore_of_placeholder? (placeholder?_placeholder n rest),
    numbered?_ofNat, h, Option.getD_some]

/-- Without literals nothing is replaced. -/
theorem restore_nil (t : Text) : restore [] t = t := by
  fun_induction restore [] t with
  | case1 => rfl
  | case2 c rest digits left hfound ih =>
    have hnone : numbered? [] digits = none := by
      unfold numbered?
      split <;> rfl
    rw [hnone, ih, placeholder?_eq_some hfound]
    rfl
  | case3 c rest hfound ih => rw [ih]

/-! ## Texts without quotes -/

private theorem segments_of_no_quote {t : Text} (hdouble : '"' ∉ t)
    (hsingle : '\'' ∉ t) :
    segments t = t.map .char := by
  induction t with
  | nil => simp [segments]
  | cons c rest ih =>
    rw [List.mem_cons, not_or] at hdouble hsingle
    have hc : ¬(c = '"' ∨ c = '\'') :=
      not_or.mpr ⟨Ne.symm hdouble.1, Ne.symm hsingle.1⟩
    rw [segments_char rest hc, ih hdouble.2 hsingle.2, List.map_cons]

/-- A text without quotes has no literals. -/
theorem capture_of_no_quote {t : Text} (hdouble : '"' ∉ t)
    (hsingle : '\'' ∉ t) : capture t = (t, []) := by
  have hmask : ∀ (index : Nat) (t : Text), mask index (t.map .char) = t := by
    intro index t
    induction t with
    | nil => rfl
    | cons c rest ih => rw [List.map_cons, mask, ih]
  have hliterals : ∀ t : Text, literals (t.map .char) = [] := by
    intro t
    induction t with
    | nil => rfl
    | cons c rest ih => rw [List.map_cons, literals, ih]
  rw [capture, segments_of_no_quote hdouble hsingle, hmask, hliterals]

end Literal

end SelectorPath
