import Mathlib
import SelectorPath.Proofs.Spans

/-!
# Texts in escapes

Any text can be written in hexadecimal escapes, each with a blank behind it that
ends the number. Such a text is read back as a name and as the inside of a
string, and it holds no quote and no parenthesis that the reader of arguments
would count.

The null character has no hexadecimal escape, for its number stands for the
replacement character. It is written behind a backslash.

## Main results

* `escaped_escapeChar`: an escape stands for its character.
* `takeName_escapeText`, `takeString_escapeText`: reading back a name and a
  string.
* `run_escapeText`: escapes leave the reader of arguments where it stands.
-/

namespace SelectorPath.Text

/-! ## Hexadecimal numerals -/

/-- The hexadecimal numeral of a number. -/
def hexDigits (n : Nat) : Text :=
  Nat.toDigits 16 n

private theorem hexDigits_of_lt {n : Nat} (h : n < 16) :
    hexDigits n = [n.digitChar] :=
  Nat.toDigits_of_lt_base h

private theorem hexDigits_of_le {n : Nat} (h : 16 ≤ n) :
    hexDigits n = hexDigits (n / 16) ++ [(n % 16).digitChar] :=
  Nat.toDigits_of_base_le (by decide) h

private theorem hexValue?_digitChar {d : Nat} (h : d < 16) :
    hexValue? d.digitChar = some d := by
  have hall : ∀ d < 16, hexValue? (Nat.digitChar d) = some d := by decide
  exact hall d h

private theorem hexNumber_concat (digits : Text) (c : Char) :
    hexNumber (digits ++ [c]) =
      16 * hexNumber digits + (hexValue? c).getD 0 := by
  simp [hexNumber]

/-- Hexadecimal digits are read back as their number. -/
theorem hexNumber_hexDigits (n : Nat) : hexNumber (hexDigits n) = n := by
  induction n using Nat.strongRecOn with
  | ind n ih =>
    by_cases h : n < 16
    · rw [hexDigits_of_lt h, ← List.nil_append [_], hexNumber_concat,
        hexValue?_digitChar h]
      simp [hexNumber]
    · have hle : 16 ≤ n := by omega
      rw [hexDigits_of_le hle, hexNumber_concat, ih (n / 16) (by omega),
        hexValue?_digitChar (Nat.mod_lt n (by decide)), Option.getD_some]
      omega

theorem all_hexDigits (n : Nat) : (hexDigits n).all isHexDigit = true := by
  induction n using Nat.strongRecOn with
  | ind n ih =>
    have hdigit : ∀ d < 16, isHexDigit (Nat.digitChar d) = true := by
      intro d hd
      rw [isHexDigit, hexValue?_digitChar hd]
      rfl
    by_cases h : n < 16
    · rw [hexDigits_of_lt h, List.all_cons, hdigit n h]
      rfl
    · have hle : 16 ≤ n := by omega
      rw [hexDigits_of_le hle, List.all_append, ih (n / 16) (by omega),
        List.all_cons, hdigit (n % 16) (Nat.mod_lt n (by decide))]
      rfl

private theorem length_hexDigits (c : Char) :
    (hexDigits c.toNat).length ≤ 6 := by
  have hlt : c.toNat < 1114112 := by
    have hvalid : c.toNat < 55296 ∨ 57343 < c.toNat ∧ c.toNat < 1114112 :=
      c.valid
    omega
  rw [hexDigits, Nat.length_toDigits_le_iff (by decide) (by decide)]
  omega

theorem hexDigits_ne_nil (n : Nat) : hexDigits n ≠ [] :=
  List.ne_nil_of_length_pos Nat.length_toDigits_pos

end SelectorPath.Text

namespace SelectorPath.Selector

open SelectorPath.Text (isSelectorBlank isHexDigit hexNumber hexDigits trimBy)

/-! ## Escapes -/

/-- A character written as an escape. -/
def escapeChar (c : Char) : Text :=
  if c = '\x00' then ['\\', c] else '\\' :: hexDigits c.toNat ++ " "

/-- A text written in escapes. -/
def escapeText (t : Text) : Text :=
  t.flatMap escapeChar

/-- A run of characters is taken whole: it has the length that is allowed, or no
such character follows. -/
theorem takeUpTo_all {p : Char → Bool} {n : Nat} {taken left : Text}
    (hall : taken.all p = true) (hlength : taken.length ≤ n)
    (hleft : taken.length = n ∨ left.head?.all (fun c => !p c) = true) :
    takeUpTo p n (taken ++ left) = (taken, left) := by
  induction n generalizing taken with
  | zero =>
    rw [List.eq_nil_of_length_eq_zero (Nat.le_zero.mp hlength)]
    rfl
  | succ n ih =>
    cases taken with
    | nil =>
      have hleft := hleft.resolve_left (Nat.succ_ne_zero n).symm
      cases left with
      | nil => rfl
      | cons c left =>
        have hc : p c = false := by simpa using hleft
        simp [takeUpTo, hc]
    | cons c taken =>
      rw [List.all_cons, Bool.and_eq_true] at hall
      rw [List.length_cons, Nat.add_right_cancel_iff] at hleft
      rw [List.cons_append, takeUpTo, if_pos hall.1,
        ih hall.2 (Nat.le_of_succ_le_succ hlength) hleft]

/-- An escape takes its digits, six at most, and the blank behind them. -/
theorem escaped_digits {digits left : Text} (hne : digits ≠ [])
    (hall : digits.all isHexDigit = true) (hlength : digits.length ≤ 6)
    (hleft : digits.length = 6 ∨
      left.head?.all (fun c => !isHexDigit c) = true) :
    escaped (digits ++ left) =
      (codePoint (hexNumber digits), skipOneBlank left) := by
  cases digits with
  | nil => exact absurd rfl hne
  | cons d digits =>
    rw [List.all_cons, Bool.and_eq_true] at hall
    have hrun : digits.length = 5 ∨ left.head?.all
        (fun c => !isHexDigit c) = true :=
      hleft.imp_left Nat.succ_inj.mp
    exact escaped_hex hall.1
      (takeUpTo_all hall.2 (Nat.le_of_succ_le_succ hlength) hrun)

/-- A character other than null is the one of its code point. -/
theorem codePoint_toNat {c : Char} (h : c ≠ '\x00') :
    codePoint c.toNat = c := by
  have hne : c.toNat ≠ 0 := fun hzero => h (Char.toNat_inj.mp hzero)
  rw [codePoint, dif_pos ⟨c.valid, hne⟩]
  exact Char.toNat_inj.mp rfl

theorem ne_of_isHexDigit {c d : Char} (hc : isHexDigit c = true)
    (hd : isHexDigit d = false) : c ≠ d := by
  rintro rfl
  rw [hc] at hd
  exact absurd hd (by decide)

theorem isInert_of_isHexDigit {c : Char} (h : isHexDigit c = true) :
    Balance.isInert c = true := by
  simp only [Balance.isInert, Bool.and_eq_true, bne_iff_ne]
  exact ⟨⟨⟨⟨ne_of_isHexDigit h (by decide), ne_of_isHexDigit h (by decide)⟩,
    ne_of_isHexDigit h (by decide)⟩, ne_of_isHexDigit h (by decide)⟩,
      ne_of_isHexDigit h (by decide)⟩

/-- An escape stands for its character, and behind the character that the
backslash takes nothing in it counts in an argument. -/
theorem escaped_escapeChar (c : Char) :
    ∃ d tail, escapeChar c = '\\' :: d :: tail ∧ d ≠ '\n' ∧
      tail.all Balance.isInert = true ∧
      ∀ rest : Text, escaped (d :: tail ++ rest) = (c, rest) := by
  by_cases hc : c = '\x00'
  · refine ⟨c, [], if_pos hc, by rw [hc]; decide, rfl,
      fun rest => escaped_other ?_ rest⟩
    rw [hc]
    decide
  · have hall := Text.all_hexDigits c.toNat
    have hlength := Text.length_hexDigits c
    have hnumber := Text.hexNumber_hexDigits c.toNat
    cases hdigits : hexDigits c.toNat with
    | nil => exact absurd hdigits (Text.hexDigits_ne_nil c.toNat)
    | cons d digits =>
      rw [hdigits, List.all_cons, Bool.and_eq_true] at hall
      rw [hdigits] at hlength hnumber
      refine ⟨d, digits ++ " ", ?_, ?_, ?_, fun rest => ?_⟩
      · rw [escapeChar, if_neg hc, hdigits]
        rfl
      · exact ne_of_isHexDigit hall.1 (by decide)
      · rw [List.all_append, Bool.and_eq_true, List.all_eq_true]
        exact ⟨fun e he =>
          isInert_of_isHexDigit (List.all_eq_true.mp hall.2 e he), rfl⟩
      · have hread := @escaped_digits (d :: digits) (' ' :: rest)
          (List.cons_ne_nil _ _)
          (List.all_cons.trans (Bool.and_eq_true_iff.mpr hall)) hlength
            (.inr rfl)
        rw [hnumber, codePoint_toNat hc] at hread
        rw [List.cons_append, List.append_assoc]
        exact hread

/-! ## Names and strings -/

private theorem escapeText_cons (c : Char) (t rest : Text) :
    escapeText (c :: t) ++ rest = escapeChar c ++ (escapeText t ++ rest) := by
  simp [escapeText]

/-- A name written in escapes is read back where no name goes on. -/
theorem takeName_escapeText (name : Text) {rest : Text}
    (h : extendsName rest = false) :
    takeName (escapeText name ++ rest) = (name, rest) := by
  induction name with
  | nil => exact takeName_of_not_extends h
  | cons c name ih =>
    obtain ⟨d, tail, hescape, hd, -, hread⟩ := escaped_escapeChar c
    have hstart : startsEscape
        ('\\' :: (d :: tail ++ (escapeText name ++ rest))) = true := by
      simpa [startsEscape] using hd
    rw [escapeText_cons, hescape, List.cons_append,
      takeName_escape (by decide) hstart, hread, ih]

/-- An escaped name starts as a name does. -/
theorem startsName_escapeText {name : Text} (h : name ≠ []) (rest : Text) :
    startsName (escapeText name ++ rest) = true := by
  cases name with
  | nil => exact absurd rfl h
  | cons c name =>
    obtain ⟨d, tail, hescape, hd, -, -⟩ := escaped_escapeChar c
    rw [escapeText_cons, hescape]
    show (isNameStart '\\' || d != '\n') = true
    simpa using Or.inr hd

/-- A string written in escapes is read back up to its quote. -/
theorem takeString_escapeText (value rest : Text) :
    takeString '"' (escapeText value ++ '"' :: rest) = (.ok value, rest) := by
  induction value with
  | nil => exact takeString_end '"' rest
  | cons c value ih =>
    obtain ⟨d, tail, hescape, hd, -, hread⟩ := escaped_escapeChar c
    rw [escapeText_cons, hescape, List.cons_append, List.cons_append,
      takeString_escape (by decide) hd, ← List.cons_append, hread, ih]
    rfl

/-! ## Escapes in an argument -/

/-- Characters that mean nothing leave the reader of arguments where it
stands. -/
theorem Balance.run_inert {quote : Option Char}
    (hquote : quote.all (fun q => !isInert q) = true) (depth : Nat) {t : Text}
    (h : t.all isInert = true) :
    Balance.run ⟨depth, quote, false⟩ t = some ⟨depth, quote, false⟩ := by
  induction t with
  | nil => rfl
  | cons c t ih =>
    rw [List.all_cons, Bool.and_eq_true] at h
    have hne : quote ≠ some c := by
      rintro rfl
      rw [Option.all_some, h.1] at hquote
      exact absurd hquote (by decide)
    rw [run_cons (step_inert _ h.1 hne)]
    exact ih h.2

/-- An escaped text changes nothing for the reader of arguments, also inside of
a string. -/
theorem Balance.run_escapeText {quote : Option Char}
    (hquote : quote.all (fun q => !isInert q) = true) (depth : Nat) (t : Text) :
    Balance.run ⟨depth, quote, false⟩ (escapeText t) =
      some ⟨depth, quote, false⟩ := by
  induction t with
  | nil => rfl
  | cons c t ih =>
    obtain ⟨d, tail, hescape, -, hinert, -⟩ := escaped_escapeChar c
    rw [← List.append_nil (escapeText _), escapeText_cons, hescape,
      List.append_nil, List.cons_append, List.cons_append, run_pair, run_append,
      run_inert hquote depth hinert]
    exact ih

/-- A text of characters without meaning is balanced. -/
theorem isBalanced_of_inert {t : Text} (h : t.all Balance.isInert = true) :
    IsBalanced t :=
  isBalanced_iff_run.mpr (Balance.run_inert rfl 0 h)

/-- An escaped text is balanced. -/
theorem isBalanced_escapeText (t : Text) : IsBalanced (escapeText t) :=
  isBalanced_iff_run.mpr (Balance.run_escapeText rfl 0 t)

/-- A string is balanced, whatever it says. -/
theorem isBalanced_string (value : Text) :
    IsBalanced ('"' :: escapeText value ++ "\"") := by
  have hinside : Balance.run ⟨0, some '"', false⟩ (escapeText value) =
      some ⟨0, some '"', false⟩ :=
    Balance.run_escapeText rfl 0 value
  rw [isBalanced_iff_run, List.cons_append]
  show Balance.run ⟨0, some '"', false⟩ (escapeText value ++ "\"") = some {}
  rw [Balance.run_append, hinside]
  rfl

/-! ## The end of a text in escapes -/

/-- Whether trimming the text at its end leaves a character that is no
backslash. -/
def EndsSolid (t : Text) : Prop :=
  ∃ (front : Text) (c : Char) (after : Text), t = front ++ c :: after ∧
    c ≠ '\\' ∧
    isSelectorBlank c = false ∧ after.all isSelectorBlank = true

/-- How a text ends is told by its last part. -/
theorem EndsSolid.append {b : Text} (h : EndsSolid b) (a : Text) :
    EndsSolid (a ++ b) := by
  obtain ⟨front, c, after, rfl, hc⟩ := h
  exact ⟨a ++ front, c, after, by rw [List.append_assoc], hc⟩

/-- A text with a character at its end that is neither blank nor a backslash
ends firmly. -/
theorem endsSolid_concat (a : Text) {c : Char} (hslash : c ≠ '\\')
    (hblank : isSelectorBlank c = false) :
    EndsSolid (a ++ [c]) :=
  ⟨a, c, [], rfl, hslash, hblank, rfl⟩

/-- No escape loses its blank. -/
theorem EndsSolid.dangles_trimBy {t : Text} (h : EndsSolid t) :
    dangles (trimBy isSelectorBlank t) = false := by
  obtain ⟨front, c, after, rfl, hslash, hblank, hafter⟩ := h
  rw [Text.trimBy_append_cons hblank front hafter]
  exact dangles_concat _ hslash

private theorem endsSolid_escapeChar (c : Char) : EndsSolid (escapeChar c) := by
  by_cases hc : c = '\x00'
  · rw [escapeChar, if_pos hc]
    exact endsSolid_concat ['\\'] (by rw [hc]; decide) (by rw [hc]; decide)
  · have hall := Text.all_hexDigits c.toNat
    rcases List.eq_nil_or_concat (hexDigits c.toNat) with hdigits |
        ⟨digits, d, hdigits⟩
    · exact absurd hdigits (Text.hexDigits_ne_nil c.toNat)
    · rw [hdigits, List.concat_eq_append, List.all_append, Bool.and_eq_true]
        at hall
      have hd : isHexDigit d = true := by simpa using hall.2
      refine ⟨'\\' :: digits, d, [' '], ?_, ne_of_isHexDigit hd (by decide),
        ?_, rfl⟩
      · rw [escapeChar, if_neg hc, hdigits]
        simp
      · cases hblank : isSelectorBlank d with
        | false => rfl
        | true =>
          have hname := isNameChar_of_isHexDigit hd
          rw [(isNameChar_of_isSelectorBlank hblank).1] at hname
          exact absurd hname (by decide)

/-- An escaped text ends firmly. -/
theorem endsSolid_escapeText {t : Text} (h : t ≠ []) :
    EndsSolid (escapeText t) := by
  rcases List.eq_nil_or_concat t with rfl | ⟨front, c, rfl⟩
  · exact absurd rfl h
  · have happend : escapeText (front.concat c) =
        escapeText front ++ escapeChar c := by
      simp [escapeText]
    rw [happend]
    exact (endsSolid_escapeChar c).append _

end SelectorPath.Selector
