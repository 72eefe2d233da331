import Mathlib
import SelectorPath.Proofs.ArgumentGrammar
import SelectorPath.Proofs.Escapes
import SelectorPath.Proofs.LetterCase

/-!
# Encodings of names and strings

A character can be written as it is, behind a backslash, or by its number in
hexadecimal digits behind a backslash, and in a string a backslash in front of a
newline stands for nothing. Each character of a text is written in its own way.
How far a number reaches depends on what follows it: a further digit would be
taken for a part of it unless it has six already, and a blank for its end. So an
encoding is told together with the text that follows it (`Encodes`).

## Main results

* `escaped_numeral`, `escaped_bareNumeral`: a number is read as its character.
* `takeName_of_encodes`, `takeString_of_encodes`: one induction for each reader,
  a case for each way to write a character.
* `Cursor.reads_encoding`: a name and a string are read back, however they are
  written.
-/

namespace SelectorPath

namespace Text

/-! ## Digits in capital and small letters -/

private theorem hexValue?_eq (c : Char) :
    hexValue? c =
      if 48 ≤ c.toNat ∧ c.toNat ≤ 57 then some (c.toNat - 48)
      else if 97 ≤ c.toNat ∧ c.toNat ≤ 102 then some (c.toNat - 97 + 10)
      else if 65 ≤ c.toNat ∧ c.toNat ≤ 70 then some (c.toNat - 65 + 10)
      else none := by
  have hle : ∀ a b : Char, a ≤ b ↔ a.toNat ≤ b.toNat :=
    fun a b => UInt32.le_iff_toNat_le
  simp only [hexValue?, XPath.isDigit_iff, hle]
  rfl

private theorem hexValue?_toLower (c : Char) :
    hexValue? c.toLower = hexValue? c := by
  have hlower := toNat_toLower c
  by_cases hcapital : 65 ≤ c.toNat ∧ c.toNat ≤ 90
  · rw [if_pos hcapital] at hlower
    rw [hexValue?_eq, hexValue?_eq, hlower, if_neg (by omega),
      @if_neg (48 ≤ c.toNat ∧ c.toNat ≤ 57) _ (by omega),
      @if_neg (97 ≤ c.toNat ∧ c.toNat ≤ 102) _ (by omega)]
    by_cases hdigit : c.toNat ≤ 70
    · have hvalue : c.toNat + 32 - 97 + 10 = c.toNat - 65 + 10 := by omega
      rw [if_pos (by omega), if_pos (by omega), hvalue]
    · rw [if_neg (by omega), if_neg (by omega), if_neg (by omega)]
  · rw [if_neg hcapital] at hlower
    rw [char_eq_of_toNat_eq hlower]

private theorem isHexDigit_toLower (c : Char) :
    isHexDigit c.toLower = isHexDigit c := by
  rw [isHexDigit, isHexDigit, hexValue?_toLower]

private theorem hexNumber_map_toLower (digits : Text) :
    hexNumber (digits.map Char.toLower) = hexNumber digits := by
  simp only [hexNumber, List.foldl_map, hexValue?_toLower]

private theorem hexNumber_zeros (n : Nat) (digits : Text) :
    hexNumber (List.replicate n '0' ++ digits) = hexNumber digits := by
  induction n with
  | zero => rfl
  | succ n ih =>
    rw [List.replicate_succ, List.cons_append]
    exact ih

/-- The digits are the hexadecimal value of a character in capital or small
letters, at most six with the zeros in front. -/
def IsHexOf (c : Char) (digits : Text) : Prop :=
  digits.length ≤ 6 ∧ ∃ zeros,
    digits.map Char.toLower = List.replicate zeros '0' ++ hexDigits c.toNat

namespace IsHexOf

variable {c : Char} {digits : Text}

private theorem hexNumber_eq (h : IsHexOf c digits) :
    hexNumber digits = c.toNat := by
  obtain ⟨-, zeros, hdigits⟩ := h
  rw [← hexNumber_map_toLower, hdigits, hexNumber_zeros, hexNumber_hexDigits]

private theorem all_isHexDigit (h : IsHexOf c digits) :
    digits.all isHexDigit = true := by
  obtain ⟨-, zeros, hdigits⟩ := h
  have hzeros : (List.replicate zeros '0').all isHexDigit = true := by
    rw [List.all_replicate]
    split
    · rfl
    · decide
  have hlower : (digits.map Char.toLower).all isHexDigit = true := by
    rw [hdigits, List.all_append, hzeros, all_hexDigits]
    rfl
  rw [List.all_map] at hlower
  simpa only [Function.comp_def, isHexDigit_toLower] using hlower

/-- The digits of a character are never missing. -/
theorem ne_nil (h : IsHexOf c digits) : digits ≠ [] := by
  rintro rfl
  obtain ⟨-, zeros, hdigits⟩ := h
  exact hexDigits_ne_nil c.toNat (List.append_eq_nil_iff.mp hdigits.symm).2

end IsHexOf

end Text

namespace Selector

open SelectorPath.Text (isSelectorBlank isHexDigit IsHexOf)

/-! ## Encodings -/

/-- The text `e`, with `next` behind it, writes `v`. The characters with `plain`
may be written as they are, and `joins` tells whether lines may be joined. -/
inductive Encodes (plain : Char → Bool) (joins : Bool) (next : Text) :
    (e v : Text) → Prop
  | nil : Encodes plain joins next [] []
  | plain {c : Char} {e v : Text} (hplain : plain c = true)
    (he : Encodes plain joins next e v) :
    Encodes plain joins next (c :: e) (c :: v)
  | escape {c : Char} {e v : Text} (hhex : isHexDigit c = false)
    (hline : c ≠ '\n') (he : Encodes plain joins next e v) :
    Encodes plain joins next ('\\' :: c :: e) (c :: v)
  /-- A number with the blank that ends it. -/
  | numeral {c blank : Char} {digits e v : Text} (hc : c ≠ '\x00')
    (hdigits : IsHexOf c digits) (hblank : isSelectorBlank blank = true)
    (he : Encodes plain joins next e v) :
    Encodes plain joins next ('\\' :: digits ++ blank :: e) (c :: v)
  /-- A number without a blank. It is not followed by one, and by a further
  digit only if it has six. -/
  | bareNumeral {c : Char} {digits e v : Text} (hc : c ≠ '\x00')
    (hdigits : IsHexOf c digits)
    (hblank : (e ++ next).head?.all (fun d => !isSelectorBlank d) = true)
    (hhex : digits.length = 6 ∨
      (e ++ next).head?.all (fun d => !isHexDigit d) = true)
    (he : Encodes plain joins next e v) :
    Encodes plain joins next ('\\' :: digits ++ e) (c :: v)
  | join {e v : Text} (hjoins : joins = true)
    (he : Encodes plain joins next e v) :
    Encodes plain joins next ('\\' :: '\n' :: e) v

/-- Whether the character can stand as it is in a string with the quote `q`. -/
def isStringChar (q c : Char) : Bool :=
  c != q && c != '\\' && c != '\n'

/-! ## Numbers -/

/-- A number is read as its character, and the blank behind it is taken. -/
theorem escaped_numeral {c blank : Char} {digits : Text} (hc : c ≠ '\x00')
    (hdigits : IsHexOf c digits) (hblank : isSelectorBlank blank = true)
    (rest : Text) : escaped (digits ++ blank :: rest) = (c, rest) := by
  have hhex : isHexDigit blank = false := by
    cases hhex : isHexDigit blank with
    | false => rfl
    | true =>
      have hname := isNameChar_of_isHexDigit hhex
      rw [(isNameChar_of_isSelectorBlank hblank).1] at hname
      exact absurd hname (by decide)
  have hskip : skipOneBlank (blank :: rest) = rest := by
    rw [skipOneBlank, if_pos hblank]
  rw [escaped_digits hdigits.ne_nil hdigits.all_isHexDigit hdigits.1
    (.inr (by simp [hhex])), hskip, hdigits.hexNumber_eq, codePoint_toNat hc]

/-- A number is read as its character where nothing that follows belongs to
it. -/
theorem escaped_bareNumeral {c : Char} {digits rest : Text} (hc : c ≠ '\x00')
    (hdigits : IsHexOf c digits)
    (hblank : rest.head?.all (fun d => !isSelectorBlank d) = true)
    (hhex : digits.length = 6 ∨
      rest.head?.all (fun d => !isHexDigit d) = true) :
    escaped (digits ++ rest) = (c, rest) := by
  rw [escaped_digits hdigits.ne_nil hdigits.all_isHexDigit hdigits.1 hhex,
    skipOneBlank_of_head? hblank, hdigits.hexNumber_eq, codePoint_toNat hc]

private theorem startsEscape_of_ne_newline {c : Char} (hc : c ≠ '\n')
    (rest : Text) :
    startsEscape ('\\' :: c :: rest) = true :=
  bne_iff_ne.mpr hc

/-- A number behind a backslash is an escape. -/
theorem startsEscape_digits {c : Char} {digits : Text}
    (hdigits : IsHexOf c digits) (rest : Text) :
    startsEscape ('\\' :: (digits ++ rest)) = true := by
  have hall := hdigits.all_isHexDigit
  cases digits with
  | nil => exact absurd rfl hdigits.ne_nil
  | cons d digits =>
    rw [List.all_cons, Bool.and_eq_true] at hall
    exact startsEscape_of_ne_newline (ne_of_isHexDigit hall.1 (by decide)) _

/-! ## The readers -/

/-- A name goes on with the character of an escape. -/
theorem takeName_escaped {ahead left : Text} {c : Char}
    (hstart : startsEscape ('\\' :: ahead) = true)
    (h : escaped ahead = (c, left)) :
    takeName ('\\' :: ahead) = (c :: (takeName left).1, (takeName left).2) := by
  rw [takeName_escape (by decide) hstart, h]

/-- A name is read back where no name goes on. -/
theorem takeName_of_encodes {rest e v : Text}
    (h : Encodes isNameChar false rest e v) (hrest : extendsName rest = false) :
    takeName (e ++ rest) = (v, rest) := by
  induction h with
  | nil => exact takeName_of_not_extends hrest
  | plain hplain _ ih => rw [List.cons_append, takeName_cons hplain, ih]
  | escape hhex hline _ ih =>
    rw [List.cons_append, List.cons_append,
      takeName_escaped (startsEscape_of_ne_newline hline _)
        (escaped_other hhex _), ih]
  | numeral hc hdigits hblank _ ih =>
    rw [List.cons_append, List.cons_append, List.append_assoc, List.cons_append,
      takeName_escaped (startsEscape_digits hdigits _)
        (escaped_numeral hc hdigits hblank _), ih]
  | bareNumeral hc hdigits hblank hhex _ ih =>
    rw [List.cons_append, List.cons_append, List.append_assoc,
      takeName_escaped (startsEscape_digits hdigits _)
        (escaped_bareNumeral hc hdigits hblank hhex), ih]
  | join hjoins => exact absurd hjoins (by decide)

/-- A string goes on with the character of an escape. -/
theorem takeString_escaped {q : Char} {ahead left : Text} {c : Char}
    (hq : q ≠ '\\') (hstart : startsEscape ('\\' :: ahead) = true)
    (h : escaped ahead = (c, left)) :
    takeString q ('\\' :: ahead) = prepend c (takeString q left) := by
  cases ahead with
  | nil => exact absurd hstart (by decide)
  | cons d ahead => rw [takeString_escape hq.symm (bne_iff_ne.mp hstart), h]

/-- A string is read back up to its quote. -/
theorem takeString_of_encodes {q : Char} {rest e v : Text} (hq : q ≠ '\\')
    (h : Encodes (isStringChar q) true (q :: rest) e v) :
    takeString q (e ++ q :: rest) = (.ok v, rest) := by
  induction h with
  | nil => exact takeString_end q rest
  | plain hplain _ ih =>
    simp only [isStringChar, Bool.and_eq_true, bne_iff_ne] at hplain
    rw [List.cons_append, takeString_cons hplain.1.1 hplain.2 hplain.1.2, ih]
    rfl
  | escape hhex hline _ ih =>
    rw [List.cons_append, List.cons_append,
      takeString_escaped hq (startsEscape_of_ne_newline hline _)
        (escaped_other hhex _), ih]
    rfl
  | numeral hc hdigits hblank _ ih =>
    rw [List.cons_append, List.cons_append, List.append_assoc, List.cons_append,
      takeString_escaped hq (startsEscape_digits hdigits _)
        (escaped_numeral hc hdigits hblank _), ih]
    rfl
  | bareNumeral hc hdigits hblank hhex _ ih =>
    rw [List.cons_append, List.cons_append, List.append_assoc,
      takeString_escaped hq (startsEscape_digits hdigits _)
        (escaped_bareNumeral hc hdigits hblank hhex), ih]
    rfl
  | join _ _ ih =>
    rw [List.cons_append, List.cons_append, takeString_join hq.symm, ih]

namespace Cursor

/-- However a text is written as a name or as a string, it is read back, and the
cursor then stands behind it: in front of what no name goes on with, or behind
the closing quote. -/
theorem reads_encoding (behind e v rest : Text) :
    (Encodes isNameChar false rest e v → extendsName rest = false →
      (Cursor.mk behind (e ++ rest)).name = (v, ⟨e.reverse ++ behind, rest⟩)) ∧
    ∀ q, q ≠ '\\' → Encodes (isStringChar q) true (q :: rest) e v →
      (Cursor.mk behind (e ++ q :: rest)).string q =
        (.ok v, ⟨(e ++ [q]).reverse ++ behind, rest⟩) := by
  refine ⟨fun h hrest => ?_, fun q hq h => ?_⟩
  · rw [← moveTo_append (c := ⟨behind, e ++ rest⟩) rfl, name,
      takeName_of_encodes h hrest]
  · have htaken : (Cursor.mk behind (e ++ q :: rest)).ahead =
        (e ++ [q]) ++ rest := by simp
    rw [← moveTo_append htaken, string, takeString_of_encodes hq h]
    rfl

/-- In the name, a number ends at a blank, and one of six digits at a letter
that would be a digit. In the string, lines are joined at both ends, the quote
stands behind a backslash, and a newline is written by its number. -/
theorem reads_encoding_mixed :
    Encodes isNameChar false " b" "a\\:\\31 x\\00005Af" "a:1xZf" ∧
      (Cursor.mk [] "a\\:\\31 x\\00005Af b").name =
        (("a:1xZf" : Text), ⟨"fA50000\\x 13\\:\\a", " b"⟩) ∧
      Encodes (isStringChar '\'') true "'b" "\\\n\\'\\A\\\n" "'\n" ∧
      (Cursor.mk "'" "\\\n\\'\\A\\\n'b").string '\'' =
        (.ok "'\n", ⟨"'\n\\A\\'\\\n\\'", "b"⟩) := by
  have hname : Encodes isNameChar false " b" "a\\:\\31 x\\00005Af"
      "a:1xZf" := by
    refine .plain (by decide) (.escape (by decide) (by decide) ?_)
    refine @Encodes.numeral _ _ _ '1' ' ' "31" "x\\00005Af" "xZf" (by decide)
      ⟨by decide, 0, rfl⟩ rfl ?_
    refine .plain (by decide) ?_
    refine @Encodes.bareNumeral _ _ _ 'Z' "00005A" "f" "f" (by decide)
      ⟨by decide, 4, rfl⟩ rfl (.inl rfl) ?_
    exact .plain (by decide) .nil
  have hstring : Encodes (isStringChar '\'') true "'b" "\\\n\\'\\A\\\n"
      "'\n" := by
    refine .join rfl (.escape (by decide) (by decide) ?_)
    refine @Encodes.bareNumeral _ _ _ '\n' "A" "\\\n" [] (by decide) ⟨by decide,
      0, rfl⟩ rfl (.inr rfl) ?_
    exact .join rfl .nil
  exact ⟨hname, (reads_encoding [] _ _ _).1 hname (by decide), hstring,
    (reads_encoding "'" _ _ _).2 '\'' (by decide) hstring⟩

end Cursor

end Selector

end SelectorPath
