import SelectorPath.Proofs.Balance
import SelectorPath.Proofs.Items
import SelectorPath.Proofs.Lexing
import SelectorPath.Proofs.ParsedShape

/-!
# Lexemes in their surroundings

What a reader gives depends on the part of the text that it takes and on little
of what follows: at most on the first character behind. A quoted string or an
attribute test has a closing character of its own, and then nothing that follows
matters.

A name has none. It ends where it would not go on, and a hexadecimal escape at
its end takes one blank with it. So what is appended to a text may lose a blank
to a name at its end, and a backslash at its end may take a character that is
appended; otherwise the name stays as it is.

## Main results

* `takeName_takes`: a name depends on what it is read from.
* `takeName_append`: a name in front of something that does not continue it.
* `takeString_closed`, `readAttribute_closed`: a string and an attribute test
  stand for themselves.
-/

namespace SelectorPath.Selector

open SelectorPath.Text (isSelectorBlank isHexDigit hexNumber skipBlank)

/-! ## Taking a part of a text -/

private theorem head?_append_congr {left left' : Text}
    (h : left'.head? = left.head?) (taken : Text) :
    (taken ++ left').head? = (taken ++ left).head? := by
  cases taken with
  | nil => exact h
  | cons c rest => rfl

private theorem head?_append_cons (taken : Text) (c : Char)
    (left left' : Text) :
    (taken ++ c :: left').head? = (taken ++ c :: left).head? := by
  cases taken <;> rfl

theorem head?_append_of_ne {taken : Text} (h : taken ≠ []) (left left' : Text) :
    (taken ++ left').head? = (taken ++ left).head? := by
  cases taken with
  | nil => exact absurd rfl h
  | cons c rest => rfl

/-- A text without backslashes ends in no lone one. -/
theorem dangles_of_not_mem {t : Text} (h : '\\' ∉ t) : dangles t = false := by
  induction t with
  | nil => rfl
  | cons c rest ih =>
    rw [dangles_cons fun hc => h (hc ▸ List.mem_cons_self ..)]
    exact ih fun hmem => h (List.mem_cons_of_mem c hmem)

/-! ## Blanks -/

theorem backslash_not_mem_of_all {p : Char → Bool} (hp : p '\\' = false)
    {w : Text} (h : w.all p = true) : '\\' ∉ w := by
  intro hmem
  have hslash := List.all_eq_true.mp h _ hmem
  rw [hp] at hslash
  exact absurd hslash (by decide)

/-- Blanks are skipped one after the other. -/
theorem skipBlank_append {w : Text} (h : w.all isSelectorBlank = true)
    (rest : Text) :
    skipBlank (w ++ rest) = skipBlank rest :=
  List.dropWhile_append_of_pos fun c hc => List.all_eq_true.mp h c hc

/-- A text without a blank in front stays as it is. -/
theorem skipBlank_of_head? {t : Text}
    (h : t.head?.all (fun c => !isSelectorBlank c) = true) :
    skipBlank t = t := by
  cases t with
  | nil => rfl
  | cons c rest =>
    have hc : isSelectorBlank c = false := by simpa using h
    exact List.dropWhile_cons_of_neg (by simp [hc])

private theorem head?_of_skipBlank {t : Text}
    (h : (skipBlank t).head? ≠ some '\\') :
    t.head? ≠ some '\\' := by
  intro hhead
  rw [skipBlank_of_head? (by rw [hhead]; rfl)] at h
  exact h hhead

/-- What is skipped are blanks. -/
theorem exists_skipBlank (t : Text) :
    ∃ w : Text, w.all isSelectorBlank = true ∧ t = w ++ skipBlank t :=
  ⟨t.takeWhile isSelectorBlank, List.all_takeWhile,
    List.takeWhile_append_dropWhile.symm⟩

private theorem skipBlank_takes (t : Text) :
    ∃ w : Text, t = w ++ skipBlank t ∧
      ∀ left' : Text, left'.head? = (skipBlank t).head? →
        skipBlank (w ++ left') = left' := by
  obtain ⟨w, hw, ht⟩ := exists_skipBlank t
  refine ⟨w, ht, fun left' hhead => ?_⟩
  rw [skipBlank_append hw]
  apply skipBlank_of_head?
  rw [hhead]
  exact Text.head?_dropWhile isSelectorBlank t

/-! ## Escapes -/

/-- A run of characters ends as it does in front of a character that cannot go
on with it. -/
theorem takeUpTo_append {p : Char → Bool} {n : Nat} {t taken left : Text}
    (h : takeUpTo p n t = (taken, left)) :
    t = taken ++ left ∧ taken.all p = true ∧ ∀ left' : Text,
      (left'.head? = left.head? ∨ left'.head?.all (fun c => !p c) = true) →
        takeUpTo p n (taken ++ left') = (taken, left') := by
  induction n generalizing t taken with
  | zero =>
    cases h
    exact ⟨rfl, rfl, fun left' _ => rfl⟩
  | succ n ih =>
    cases t with
    | nil =>
      cases h
      refine ⟨rfl, rfl, fun left' hleft => ?_⟩
      cases left' with
      | nil => rfl
      | cons c rest =>
        have hc : p c = false := by simpa using hleft
        simp [takeUpTo, hc]
    | cons c rest =>
      by_cases hc : p c = true
      · rw [takeUpTo, if_pos hc] at h
        cases hrest : takeUpTo p n rest with
        | mk taken' left' =>
          rw [hrest] at h
          cases h
          obtain ⟨heq, hall, htakes⟩ := ih hrest
          refine ⟨congrArg (c :: ·) heq, by simp [hc, hall],
            fun left' hleft => ?_⟩
          rw [List.cons_append, takeUpTo, if_pos hc, htakes left' hleft]
      · rw [takeUpTo, if_neg hc] at h
        cases h
        refine ⟨rfl, rfl, fun left' hleft => ?_⟩
        cases left' with
        | nil => rfl
        | cons d rest' =>
          have hd : p d = false := by
            rcases hleft with hleft | hleft
            · simp only [List.head?_cons, Option.some.injEq] at hleft
              simpa [hleft] using hc
            · simpa using hleft
          simp [takeUpTo, hd]

theorem skipOneBlank_of_head? {t : Text}
    (h : t.head?.all (fun c => !isSelectorBlank c) = true) :
    skipOneBlank t = t := by
  cases t with
  | nil => rfl
  | cons c rest =>
    have hc : isSelectorBlank c = false := by simpa using h
    simp [skipOneBlank, hc]

/-- An escape by digits is the character of their number. -/
theorem escaped_hex {c : Char} {rest digits left : Text}
    (hc : isHexDigit c = true)
    (hdigits : takeUpTo isHexDigit 5 rest = (digits, left)) :
    escaped (c :: rest) =
      (codePoint (hexNumber (c :: digits)), skipOneBlank left) := by
  simp [escaped, hc, hdigits]

/-- An escape by another character is that character. -/
theorem escaped_other {c : Char} (hc : isHexDigit c = false) (rest : Text) :
    escaped (c :: rest) = (c, rest) := by
  simp [escaped, hc]

/-- The part of an escape behind its backslash. -/
theorem escaped_takes {t : Text} (hne : t ≠ []) :
    ∃ taken : Text, taken ≠ [] ∧ t = taken ++ (escaped t).2 ∧
      dangles ('\\' :: taken) = false ∧
      ∀ left' : Text, left'.head? = (escaped t).2.head? →
        escaped (taken ++ left') = ((escaped t).1, left') := by
  cases t with
  | nil => exact absurd rfl hne
  | cons c rest =>
    by_cases hc : isHexDigit c = true
    · cases hdigits : takeUpTo isHexDigit 5 rest with
      | mk digits left =>
        obtain ⟨hrest, hall, htakes⟩ := takeUpTo_append hdigits
        have hslash :=
          dangles_of_not_mem (backslash_not_mem_of_all (by decide) hall)
        rw [escaped_hex hc hdigits]
        -- The blank behind the digits belongs to the escape.
        by_cases hblank : left.head?.any isSelectorBlank = true
        · cases left with
          | nil => simp at hblank
          | cons b left =>
            have hb : isSelectorBlank b = true := by simpa using hblank
            have hskip : ∀ left' : Text, skipOneBlank (b :: left') = left' := by
              intro left'
              simp [skipOneBlank, hb]
            refine ⟨c :: digits ++ [b], List.cons_ne_nil _ _, ?_, ?_, ?_⟩
            · rw [hskip, hrest]
              simp
            · exact dangles_concat digits fun hb' => by
                simp [hb', isSelectorBlank] at hb
            · intro left' _
              have hmore := escaped_hex hc (htakes (b :: left') (.inl rfl))
              rw [hskip] at hmore
              simpa using hmore
        · have hhead : left.head?.all (fun c => !isSelectorBlank c) = true := by
            cases left with
            | nil => rfl
            | cons b left => simpa using hblank
          rw [skipOneBlank_of_head? hhead]
          refine ⟨c :: digits, List.cons_ne_nil _ _, congrArg (c :: ·) hrest,
            hslash, ?_⟩
          intro left' hleft
          have hmore := escaped_hex hc (htakes left' (.inl hleft))
          rw [skipOneBlank_of_head? (by rw [hleft]; exact hhead)] at hmore
          exact hmore
    · rw [Bool.not_eq_true] at hc
      rw [escaped_other hc]
      exact ⟨[c], List.cons_ne_nil _ _, rfl, rfl,
        fun left' _ => escaped_other hc left'⟩

/-- An escape at the end of a text takes at most a blank of what is appended. -/
theorem escaped_append_of_end {t more : Text} (hne : t ≠ [])
    (hend : (escaped t).2 = [])
    (hmore : more.head?.all (fun c => !isHexDigit c) = true) :
    escaped (t ++ more) = ((escaped t).1, more) ∨
      escaped (t ++ more) = ((escaped t).1, skipOneBlank more) := by
  cases t with
  | nil => exact absurd rfl hne
  | cons c rest =>
    by_cases hc : isHexDigit c = true
    · cases hdigits : takeUpTo isHexDigit 5 rest with
      | mk digits left =>
        obtain ⟨hrest, -, htakes⟩ := takeUpTo_append hdigits
        rw [escaped_hex hc hdigits] at hend ⊢
        cases left with
        | nil =>
          right
          rw [List.append_nil] at hrest
          rw [hrest]
          exact escaped_hex hc (htakes more (.inr hmore))
        | cons b left =>
          left
          have hb : isSelectorBlank b = true := by
            cases hb : isSelectorBlank b with
            | true => rfl
            | false => simp [skipOneBlank, hb] at hend
          have hleft : left = [] := by simpa [skipOneBlank, hb] using hend
          have hread := escaped_hex hc (htakes (b :: more) (.inl rfl))
          rw [hrest, hleft]
          simpa [skipOneBlank, hb] using hread
    · rw [Bool.not_eq_true] at hc
      rw [escaped_other hc] at hend ⊢
      left
      rw [List.cons_append, escaped_other hc, show rest = [] from hend]
      rfl

/-! ## Names -/

/-- A character of a name belongs to it. -/
theorem takeName_cons {c : Char} (hname : isNameChar c = true) (rest : Text) :
    takeName (c :: rest) = (c :: (takeName rest).1, (takeName rest).2) := by
  rw [takeName, if_pos hname]

/-- An escape belongs to the name that it stands in. -/
theorem takeName_escape {c : Char} {rest : Text} (hname : ¬isNameChar c = true)
    (hescape : startsEscape (c :: rest) = true) :
    takeName (c :: rest) =
      ((escaped rest).1 :: (takeName (escaped rest).2).1,
        (takeName (escaped rest).2).2) := by
  rw [takeName, if_neg hname, if_pos hescape]

theorem takeName_of_not_extends {t : Text} (h : extendsName t = false) :
    takeName t = ([], t) := by
  cases t with
  | nil => rw [takeName]
  | cons c rest =>
    rw [extendsName, Bool.or_eq_false_iff] at h
    rw [takeName, if_neg (by simp [h.1]), if_neg (by simp [h.2])]

private theorem startsEscape_of_ne {c : Char} (hc : c ≠ '\\') (rest : Text) :
    startsEscape (c :: rest) = false := by
  unfold startsEscape
  split
  · rename_i heq
    exact absurd (List.cons.inj heq).1 hc
  · rfl

/-- A name goes on only with a character of a name, or with an escape. -/
theorem extendsName_cons {c : Char} (hc : c ≠ '\\') (rest : Text) :
    extendsName (c :: rest) = isNameChar c := by
  rw [extendsName, startsEscape_of_ne hc, Bool.or_false]

private theorem extendsName_congr {t t' : Text} (hhead : t'.head? = t.head?)
    (hslash : t.head? ≠ some '\\') :
    extendsName t' = extendsName t := by
  cases t with
  | nil =>
    cases t' with
    | nil => rfl
    | cons d rest' => simp at hhead
  | cons c rest =>
    cases t' with
    | nil => simp at hhead
    | cons d rest' =>
      simp only [List.head?_cons, Option.some.injEq] at hhead
      have hc : c ≠ '\\' := fun hc => hslash (congrArg some hc)
      rw [extendsName_cons hc,
        extendsName_cons (by rw [hhead]; exact hc), hhead]

private theorem startsEscape_cons {c d : Char} {rest rest' : Text}
    (h : startsEscape (c :: d :: rest) = true) :
    c = '\\' ∧ startsEscape (c :: d :: rest') = true := by
  unfold startsEscape at h
  split at h
  · rename_i heq
    cases heq
    exact ⟨rfl, h⟩
  · simp at h

/-- A name depends on what it is read from. -/
theorem takeName_takes (t : Text) :
    ∃ taken : Text, t = taken ++ (takeName t).2 ∧ dangles taken = false ∧
      ∀ left' : Text, left'.head? = (takeName t).2.head? →
        extendsName left' = false →
        takeName (taken ++ left') = ((takeName t).1, left') := by
  fun_induction takeName t with
  | case1 =>
    exact ⟨[], rfl, rfl, fun left' _ hleft => takeName_of_not_extends hleft⟩
  | case2 c rest hname name left heq ih =>
    rw [heq] at ih
    obtain ⟨taken, ht, hdangles, htakes⟩ := ih
    have hc : c ≠ '\\' := by
      rintro rfl
      exact absurd hname (by decide)
    refine ⟨c :: taken, congrArg (c :: ·) ht,
      by rw [dangles_cons hc, hdangles], ?_⟩
    intro left' hhead hleft
    rw [List.cons_append, takeName_cons hname, htakes left' hhead hleft]
  | case3 c rest hname hescape name left heq ih =>
    rw [heq] at ih
    obtain ⟨taken, ht, hdangles, htakes⟩ := ih
    cases rest with
    | nil =>
      exact absurd hescape (by simp [startsEscape])
    | cons d rest =>
      obtain ⟨part, hne, hpart, hpaired, hescaped⟩ :=
        escaped_takes (List.cons_ne_nil d rest)
      obtain ⟨hslash, -⟩ := @startsEscape_cons c d rest [] hescape
      refine ⟨c :: part ++ taken, ?_, ?_, ?_⟩
      · rw [hpart, ht]
        simp
      · rw [hslash, dangles_append hpaired, hdangles]
      · intro left' hhead hleft
        have hread := hescaped (taken ++ left')
          (by rw [ht]; exact head?_append_congr hhead taken)
        have hstart : startsEscape (c :: (part ++ (taken ++ left'))) =
            true := by
          cases part with
          | nil => exact absurd rfl hne
          | cons e part =>
            have he : d = e := (List.cons.inj hpart).1
            rw [← he]
            exact (startsEscape_cons hescape).2
        rw [List.append_assoc, List.cons_append,
          takeName_escape hname hstart, hread, htakes left' hhead hleft]
  | case4 c rest hname hescape =>
    exact ⟨[], rfl, rfl, fun left' _ hleft => takeName_of_not_extends hleft⟩

/-- Whether an escape lies ahead is decided by two characters. -/
theorem startsEscape_append {t : Text} (hne : t ≠ []) (ht : dangles t = false)
    (more : Text) :
    startsEscape (t ++ more) = startsEscape t := by
  cases t with
  | nil => exact absurd rfl hne
  | cons c rest =>
    by_cases hc : c = '\\'
    · subst hc
      cases rest with
      | nil => exact absurd ht (by decide)
      | cons d rest => rfl
    · rw [startsEscape_of_ne hc, List.cons_append, startsEscape_of_ne hc]

/-- What follows a text decides only at its end whether it would continue a
name. -/
theorem extendsName_append {t : Text} (hne : t ≠ []) (ht : dangles t = false)
    (more : Text) :
    extendsName (t ++ more) = extendsName t := by
  have hescape := startsEscape_append hne ht more
  cases t with
  | nil => exact absurd rfl hne
  | cons c rest =>
    rw [List.cons_append] at hescape ⊢
    rw [extendsName, extendsName, hescape]

theorem isNameChar_of_isHexDigit {c : Char} (h : isHexDigit c = true) :
    isNameChar c = true := by
  have hle : ∀ a b : Char, a ≤ b ↔ a.toNat ≤ b.toNat :=
    fun a b => UInt32.le_iff_toNat_le
  have halpha : c.isAlpha = true → isNameChar c = true := by
    intro hc
    simp [isNameChar, isNameStart, hc]
  unfold isHexDigit Text.hexValue? at h
  split at h
  · rename_i hdigit
    simp [isNameChar, hdigit]
  split at h
  · rename_i hsmall
    rw [hle, hle] at hsmall
    have hlow : 97 ≤ c.toNat := hsmall.1
    have hhigh : c.toNat ≤ 102 := hsmall.2
    exact halpha (XPath.isAlpha_iff.mpr (.inr ⟨hlow, by omega⟩))
  split at h
  · rename_i hcapital
    rw [hle, hle] at hcapital
    have hlow : 65 ≤ c.toNat := hcapital.1
    have hhigh : c.toNat ≤ 70 := hcapital.2
    exact halpha (XPath.isAlpha_iff.mpr (.inl ⟨hlow, by omega⟩))
  · simp at h

/-- Whether a text can stand behind a selector list: blanks, and then the end, a
comma or a closing parenthesis. -/
def stops (t : Text) : Bool :=
  (skipBlank t).head?.all fun c => c == ',' || c == ')'

/-- A blank, a comma or a parenthesis stops what stands in front. -/
theorem stops_cons {c : Char} {rest : Text} (h : stops (c :: rest) = true) :
    isSelectorBlank c = true ∨ c = ',' ∨ c = ')' := by
  by_cases hc : isSelectorBlank c = true
  · exact .inl hc
  · rw [stops, skipBlank_of_head? (by simpa using hc)] at h
    exact .inr (by simpa using h)

/-- Where something stops no name goes on. -/
theorem extendsName_of_stops {t : Text} (h : stops t = true) :
    extendsName t = false := by
  cases t with
  | nil => rfl
  | cons c rest =>
    have hplain : isNameChar c = false ∧ c ≠ '\\' := by
      rcases stops_cons h with hc | rfl | rfl
      · exact isNameChar_of_isSelectorBlank hc
      · exact ⟨by decide, by decide⟩
      · exact ⟨by decide, by decide⟩
    rw [extendsName_cons hplain.2]
    exact hplain.1

private theorem skipBlank_skipOneBlank (t : Text) :
    skipBlank (skipOneBlank t) = skipBlank t := by
  cases t with
  | nil => rfl
  | cons c rest =>
    by_cases hc : isSelectorBlank c = true
    · rw [skipOneBlank, if_pos hc, skipBlank, skipBlank,
        List.dropWhile_cons_of_pos hc]
    · rw [skipOneBlank, if_neg hc]

/-- A name at the end of a text takes at most a blank of what is appended. -/
theorem takeName_append_of_end {t more : Text} (hend : (takeName t).2 = [])
    (hmore : extendsName more = false)
    (hskip : extendsName (skipOneBlank more) = false) :
    takeName (t ++ more) = ((takeName t).1, more) ∨
      takeName (t ++ more) = ((takeName t).1, skipOneBlank more) := by
  fun_induction takeName t with
  | case1 => exact .inl (takeName_of_not_extends hmore)
  | case2 c rest hname name left heq ih =>
    rw [heq] at ih
    rw [List.cons_append, takeName_cons hname]
    rcases ih hend with h | h
    · exact .inl (by rw [h])
    · exact .inr (by rw [h])
  | case3 c rest hname hescape name left heq ih =>
    rw [heq] at ih
    cases rest with
    | nil => exact absurd hescape (by simp [startsEscape])
    | cons d rest =>
      have hne : d :: rest ≠ [] := List.cons_ne_nil d rest
      have hstart : startsEscape (c :: (d :: rest ++ more)) = true :=
        (startsEscape_cons hescape).2
      rw [List.cons_append, takeName_escape hname hstart]
      cases hafter : (escaped (d :: rest)).2 with
      | nil =>
        have hdigit : more.head?.all (fun c => !isHexDigit c) = true := by
          cases more with
          | nil => rfl
          | cons e more =>
            rw [extendsName, Bool.or_eq_false_iff] at hmore
            cases he : isHexDigit e with
            | false => simp [he]
            | true =>
              rw [isNameChar_of_isHexDigit he] at hmore
              exact absurd hmore.1 (by decide)
        rw [hafter, takeName] at heq
        cases heq
        rcases escaped_append_of_end hne hafter hdigit with h | h
        · exact .inl (by rw [h, takeName_of_not_extends hmore])
        · exact .inr (by rw [h, takeName_of_not_extends hskip])
      | cons e after =>
        obtain ⟨part, -, hpart, -, htakes⟩ := escaped_takes hne
        have hread :=
          htakes ((escaped (d :: rest)).2 ++ more) (by rw [hafter]; rfl)
        rw [← List.append_assoc, ← hpart] at hread
        rcases ih hend with h | h
        · exact .inl (by rw [hread, h])
        · exact .inr (by rw [hread, h])
  | case4 c rest hname hescape => simp at hend

/-- A name in front of a text that ends a selector list: at most a blank of that
goes with the name. -/
theorem takeName_append {t more : Text} (ht : dangles t = false)
    (hmore : stops more = true) :
    ∃ more', takeName (t ++ more) = ((takeName t).1, (takeName t).2 ++ more') ∧
      skipBlank more' = skipBlank more := by
  have hextends := extendsName_of_stops hmore
  have hskip := skipBlank_skipOneBlank more
  by_cases hend : (takeName t).2 = []
  · rw [hend]
    rcases takeName_append_of_end hend hextends
      (extendsName_of_stops (by rw [stops, hskip]; exact hmore)) with h | h
    · exact ⟨more, h, rfl⟩
    · exact ⟨skipOneBlank more, h, hskip⟩
  · obtain ⟨taken, heq, hdangles, htakes⟩ := takeName_takes t
    refine ⟨more, ?_, rfl⟩
    have hleft : dangles (takeName t).2 = false := by
      rw [heq, dangles_append hdangles] at ht
      exact ht
    have hhead : ((takeName t).2 ++ more).head? = (takeName t).2.head? := by
      rw [head?_append_of_ne hend [], List.append_nil]
    have hread := htakes ((takeName t).2 ++ more) hhead
      (by rw [extendsName_append hend hleft, extendsName_takeName])
    rw [← List.append_assoc, ← heq] at hread
    exact hread

/-! ## Strings -/

theorem takeString_end (quote : Char) (rest : Text) :
    takeString quote (quote :: rest) = (.ok [], rest) := by
  simp [takeString.eq_def]

theorem takeString_join {quote : Char} (hquote : '\\' ≠ quote) (rest : Text) :
    takeString quote ('\\' :: '\n' :: rest) = takeString quote rest := by
  rw [takeString.eq_def]
  simp [hquote]

/-- An escape belongs to the string that it stands in. -/
theorem takeString_escape {quote d : Char} (hquote : '\\' ≠ quote)
    (hd : d ≠ '\n') (rest : Text) :
    takeString quote ('\\' :: d :: rest) =
      prepend (escaped (d :: rest)).1
        (takeString quote (escaped (d :: rest)).2) := by
  rw [takeString.eq_def]
  simp [hquote]

theorem takeString_cons {quote c : Char} (hquote : c ≠ quote)
    (hnewline : c ≠ '\n') (hslash : c ≠ '\\') (rest : Text) :
    takeString quote (c :: rest) = prepend c (takeString quote rest) := by
  rw [takeString.eq_def]
  simp [hquote, hnewline, hslash]

/-- A string stands for itself, whatever follows its closing quote. -/
theorem takeString_closed {quote : Char} {t value left : Text}
    (h : takeString quote t = (.ok value, left)) :
    ∃ body : Text, t = body ++ quote :: left ∧
      ∀ left' : Text, takeString quote (body ++ quote :: left') =
        (.ok value, left') := by
  fun_induction takeString quote t generalizing value with
  | case1 => simp at h
  | case2 rest =>
    cases h
    exact ⟨[], rfl, takeString_end quote⟩
  | case3 => simp at h
  | case4 => simp at h
  | case5 rest hquote _ ih =>
    obtain ⟨body, hbody, hread⟩ := ih h
    refine ⟨'\\' :: '\n' :: body, by rw [hbody]; rfl, fun left' => ?_⟩
    rw [List.cons_append, List.cons_append, takeString_join hquote, hread]
  | case6 d rest hd hquote _ ih =>
    obtain ⟨value', hvalue, rfl⟩ := prepend_eq_ok h
    obtain ⟨body, hbody, hread⟩ := ih hvalue
    obtain ⟨part, hne, hpart, -, htakes⟩ :=
      escaped_takes (List.cons_ne_nil d rest)
    refine ⟨'\\' :: part ++ body, ?_, fun left' => ?_⟩
    · rw [hpart, hbody]
      simp
    · have hescaped :=
        htakes (body ++ quote :: left') (by rw [hbody]; cases body <;> rfl)
      cases part with
      | nil => exact absurd rfl hne
      | cons e part =>
        have he : e = d := (List.cons.inj hpart).1.symm
        rw [List.append_assoc, List.cons_append, List.cons_append,
          takeString_escape hquote (he ▸ hd), ← List.cons_append,
            hescaped, hread]
        rfl
  | case7 c rest hquote hnewline hslash ih =>
    obtain ⟨value', hvalue, rfl⟩ := prepend_eq_ok h
    obtain ⟨body, hbody, hread⟩ := ih hvalue
    refine ⟨c :: body, by rw [hbody]; rfl, fun left' => ?_⟩
    rw [List.cons_append, takeString_cons hquote hnewline hslash, hread]
    rfl

/-! ## Attribute tests -/

private theorem readAttributeName_takes {t name left : Text}
    (h : readAttributeName t = .ok (name, left))
    (hslash : left.head? ≠ some '\\') :
    ∃ taken : Text, t = taken ++ left ∧ ∀ left' : Text,
      left'.head? = left.head? →
      readAttributeName (taken ++ left') = .ok (name, left') := by
  obtain ⟨w, hw, hskip⟩ := skipBlank_takes t
  obtain ⟨taken, htaken, -, htakes⟩ := takeName_takes (skipBlank t)
  unfold readAttributeName at h
  simp only at h
  split at h
  · simp at h
  · rename_i hname
    cases h
    refine ⟨w ++ taken, by rw [List.append_assoc, ← htaken, ← hw],
      fun left' hhead => ?_⟩
    have hextends := extendsName_congr hhead hslash
    rw [extendsName_takeName] at hextends
    have hblank := hskip (taken ++ left') (by
      rw [htaken]
      exact head?_append_congr hhead taken)
    unfold readAttributeName
    rw [List.append_assoc, hblank, htakes left' hhead hextends]
    simp only
    rw [if_neg hname]

private theorem readTest_takes {t left : Text} {test : AttributeTest}
    (h : readTest t = .ok (test, left)) :
    ∃ taken : Text, t = taken ++ left ∧ taken ≠ [] ∧ taken.head? ≠ some '\\' ∧
      ∀ left' : Text, readTest (taken ++ left') = .ok (test, left') := by
  unfold readTest at h
  split at h
  · simp at h
  · cases h
    exact ⟨['='], rfl, List.cons_ne_nil _ _, by decide, fun left' => rfl⟩
  · rename_i c rest hequals
    split at h
    · simp at h
    · rename_i test' htest
      split at h
      · rename_i rest'
        cases h
        refine ⟨[c, '='], rfl, List.cons_ne_nil _ _, ?_, fun left' => ?_⟩
        · intro hc
          cases hc
          simp [testOfSymbol?] at htest
        · have hc : c ≠ '=' := fun hc => hequals hc
          simp [readTest, htest]
      · simp at h

/-- The longest run of characters stays the same in front of the character that
ended it. -/
theorem takeWhile_takes (p : Char → Bool) (t : Text) {left' : Text}
    (h : left'.head? = (t.dropWhile p).head?) :
    (t.takeWhile p ++ left').takeWhile p = t.takeWhile p ∧
      (t.takeWhile p ++ left').dropWhile p = left' := by
  have hall : ∀ d ∈ t.takeWhile p, p d = true :=
    fun d hd => List.all_eq_true.mp List.all_takeWhile d hd
  have hstop : left'.takeWhile p = [] ∧ left'.dropWhile p = left' := by
    have hnot := Text.head?_dropWhile p t
    rw [← h] at hnot
    cases left' with
    | nil => exact ⟨rfl, rfl⟩
    | cons d left' =>
      have hd : p d = false := by simpa using hnot
      simp [hd]
  rw [List.takeWhile_append_of_pos hall, List.dropWhile_append_of_pos hall,
    hstop.1, hstop.2]
  exact ⟨List.append_nil _, rfl⟩

/-- A value without quotes is the longest run of its characters. -/
theorem readValue_bare {name t value left : Text}
    (hquote : t.head? ≠ some '"' ∧ t.head? ≠ some '\'') :
    readValue name t = .ok (value, left) ↔
      t.takeWhile isBareValueChar = value ∧ t.dropWhile isBareValueChar = left ∧
        value ≠ [] := by
  cases t with
  | nil =>
    constructor
    · rintro ⟨⟩
    · rintro ⟨rfl, -, hne⟩
      exact absurd rfl hne
  | cons c rest =>
    have hc : ¬(c = '"' ∨ c = '\'') := by simpa using hquote
    rw [readValue, if_neg hc]
    by_cases hempty : (c :: rest).takeWhile isBareValueChar = []
    · simp only [hempty, List.isEmpty_nil, if_true]
      constructor
      · rintro ⟨⟩
      · rintro ⟨rfl, -, hne⟩
        exact absurd rfl hne
    · rw [if_neg (by simpa using hempty), Except.ok.injEq, Prod.mk.injEq]
      constructor
      · rintro ⟨rfl, rfl⟩
        exact ⟨rfl, rfl, hempty⟩
      · rintro ⟨rfl, rfl, -⟩
        exact ⟨rfl, rfl⟩

private theorem readValue_takes {name t value left : Text}
    (h : readValue name t = .ok (value, left)) :
    ∃ taken : Text, t = taken ++ left ∧ taken ≠ [] ∧ ∀ left' : Text,
      left'.head? = left.head? →
      readValue name (taken ++ left') = .ok (value, left') := by
  cases t with
  | nil => cases h
  | cons c rest =>
    by_cases hquote : c = '"' ∨ c = '\''
    · cases hstring : takeString c rest with
      | mk r left₁ =>
        cases r with
        | error fault => simp [readValue, hquote, hstring] at h
        | ok value' =>
          simp only [readValue, if_pos hquote, hstring, Except.ok.injEq,
            Prod.mk.injEq] at h
          obtain ⟨rfl, rfl⟩ := h
          obtain ⟨body, hbody, hread⟩ := takeString_closed hstring
          refine ⟨c :: body ++ [c], by simp [hbody], List.cons_ne_nil _ _,
            fun left' _ => ?_⟩
          have hmore := hread left'
          simp [readValue, hquote, hmore]
    · rw [readValue_bare (by simpa using hquote)] at h
      obtain ⟨rfl, rfl, hne⟩ := h
      refine ⟨_, List.takeWhile_append_dropWhile.symm, hne,
        fun left' hhead => ?_⟩
      have hfirst :=
        head?_append_of_ne hne ((c :: rest).dropWhile isBareValueChar) left'
      rw [List.takeWhile_append_dropWhile] at hfirst
      obtain ⟨htake, hdrop⟩ := takeWhile_takes isBareValueChar (c :: rest) hhead
      rw [readValue_bare (by rw [hfirst]; simpa using hquote), htake, hdrop]
      exact ⟨rfl, rfl, hne⟩

private theorem takeFlag_takes (t : Text) :
    ∃ taken : Text, t = taken ++ (takeFlag t).2 ∧ ∀ left' : Text,
      left'.head? = (takeFlag t).2.head? →
        (takeFlag (taken ++ left')).2 = left' := by
  cases t with
  | nil =>
    refine ⟨[], rfl, fun left' hhead => ?_⟩
    cases left' with
    | nil => rfl
    | cons c left' => simp [takeFlag] at hhead
  | cons c rest =>
    by_cases hc : c.toLower = 'i' ∨ c.toLower = 's'
    · exact ⟨[c], by simp [takeFlag, hc], fun left' _ => by simp [takeFlag, hc]⟩
    · refine ⟨[], by simp [takeFlag, hc], fun left' hhead => ?_⟩
      cases left' with
      | nil => rfl
      | cons d left' =>
        have hd : d = c := by simpa [takeFlag, hc] using hhead
        simp [takeFlag, hd, hc]

/-- A flag and the closing bracket, with blanks around them. -/
theorem readClosing_closed {t left : Text}
    (h : readClosing (skipBlank (takeFlag (skipBlank t)).2) = .ok left) :
    ∃ body : Text, t = body ++ ']' :: left ∧ ∀ left' : Text,
      readClosing (skipBlank (takeFlag (skipBlank (body ++ ']' :: left'))).2) =
        .ok left' := by
  obtain ⟨w₁, hw₁, hskip₁⟩ := skipBlank_takes t
  obtain ⟨flag, hflag, htakes⟩ := takeFlag_takes (skipBlank t)
  obtain ⟨w₂, hw₂, hskip₂⟩ := skipBlank_takes (takeFlag (skipBlank t)).2
  have hclose : skipBlank (takeFlag (skipBlank t)).2 = ']' :: left := by
    unfold readClosing at h
    split at h
    · simp at h
    · rename_i heq
      cases h
      exact heq
    · simp at h
  rw [hclose] at hw₂ hskip₂
  rw [hw₂] at hflag htakes
  rw [hflag] at hw₁ hskip₁
  refine ⟨w₁ ++ (flag ++ w₂), by simpa using hw₁, fun left' => ?_⟩
  have hhead := head?_append_cons w₂ ']' left left'
  have hread₁ :=
    hskip₁ (flag ++ (w₂ ++ ']' :: left')) (head?_append_congr hhead flag)
  have hread₂ := hskip₂ (']' :: left') rfl
  have htext : w₁ ++ (flag ++ w₂) ++ ']' :: left' =
      w₁ ++ (flag ++ (w₂ ++ ']' :: left')) := by simp
  rw [htext, hread₁, htakes _ hhead, hread₂]
  rfl

/-- An attribute test stands for itself, whatever follows its closing
bracket. -/
theorem readAttribute_closed {t left : Text} {token : Token}
    (h : readAttribute t = .ok (token, left)) :
    ∃ body : Text, t = body ++ ']' :: left ∧
      ∀ left' : Text, readAttribute (body ++ ']' :: left') =
        .ok (token, left') := by
  cases readAttribute_eq_ok_iff.mp h with
  | present hname hclose =>
    rename_i name left₁
    obtain ⟨w₁, hw₁, hskip₁⟩ := skipBlank_takes left₁
    rw [hclose] at hw₁ hskip₁
    obtain ⟨taken, htaken, htakes⟩ :=
      readAttributeName_takes hname (head?_of_skipBlank (by simp [hclose]))
    refine ⟨taken ++ w₁, by rw [htaken, hw₁]; simp, fun left' => ?_⟩
    have hname' := htakes (w₁ ++ ']' :: left')
      (by rw [hw₁]; exact head?_append_cons w₁ ']' left left')
    rw [List.append_assoc, readAttribute_eq_ok_iff]
    exact .present hname' (hskip₁ (']' :: left') rfl)
  | compares hname htest hvalue hclose =>
    rename_i name left₁ left₂ value left₃ test
    obtain ⟨w₁, hw₁, hskip₁⟩ := skipBlank_takes left₁
    obtain ⟨symbol, hsymbol, hne, hfirst, htest'⟩ := readTest_takes htest
    obtain ⟨w₂, hw₂, hskip₂⟩ := skipBlank_takes left₂
    obtain ⟨body, hbody, hne', hvalue'⟩ := readValue_takes hvalue
    obtain ⟨close, hclosing, hclose'⟩ := readClosing_closed hclose
    have hslash : (skipBlank left₁).head? ≠ some '\\' := by
      rw [hsymbol]
      cases symbol with
      | nil => exact absurd rfl hne
      | cons c symbol => exact hfirst
    obtain ⟨taken, htaken, htakes⟩ :=
      readAttributeName_takes hname (head?_of_skipBlank hslash)
    refine ⟨taken ++ (w₁ ++ (symbol ++ (w₂ ++ (body ++ close)))), ?_,
      fun left' => ?_⟩
    · rw [htaken, hw₁, hsymbol, hw₂, hbody, hclosing]
      simp
    · have hclose₃ : (close ++ ']' :: left').head? = left₃.head? := by
        rw [hclosing]
        exact head?_append_cons close ']' left left'
      have hbody₂ : (body ++ (close ++ ']' :: left')).head? =
          (skipBlank left₂).head? := by
        rw [hbody]
        exact head?_append_of_ne hne' _ _
      have hsymbol₁ : (symbol ++
          (w₂ ++ (body ++ (close ++ ']' :: left')))).head? =
          (skipBlank left₁).head? := by
        rw [hsymbol]
        exact head?_append_of_ne hne _ _
      have hname₀ : (w₁ ++
          (symbol ++ (w₂ ++ (body ++ (close ++ ']' :: left'))))).head? =
          left₁.head? := by
        rw [hw₁]
        exact head?_append_congr hsymbol₁ w₁
      have htext : taken ++ (w₁ ++ (symbol ++ (w₂ ++ (body ++ close)))) ++
          ']' :: left' =
          taken ++
            (w₁ ++ (symbol ++ (w₂ ++ (body ++ (close ++ ']' :: left'))))) := by
        simp
      rw [htext, readAttribute_eq_ok_iff]
      have htest₁ := htest' (w₂ ++ (body ++ (close ++ ']' :: left')))
      rw [← hskip₁ _ hsymbol₁] at htest₁
      have hvalue₂ := hvalue' (close ++ ']' :: left') hclose₃
      rw [← hskip₂ _ hbody₂] at hvalue₂
      exact .compares (htakes _ hname₀) htest₁ hvalue₂ (hclose' left')

end SelectorPath.Selector
