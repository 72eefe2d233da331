import SelectorPath.XPath.Letters
import SelectorPath.Proofs.Evaluation

/-!
# Letter case in ASCII

The mappings of ASCII texts are those of their characters one by one, and the
letters that a translation lists for such a text are its own. A translation
leaves every other letter alone, which is enough to compare without regard to
case: a letter that is not listed occurs in the other text only if the texts
differ anyway.

## Main results

* `translated_letters`: what the translation with the letters of an ASCII text
  does.
* `translated_letters_eq_upper_iff`: it makes a text equal to the capitals of
  the other exactly when the two have the same capitals.
-/

namespace SelectorPath

/-! ## Characters -/

/-- ASCII letters are made capital by their distance. -/
theorem toNat_toUpper (c : Char) :
    c.toUpper.toNat = if 97 ≤ c.toNat ∧ c.toNat ≤ 122 then c.toNat - 32
      else c.toNat := by
  unfold Char.toUpper
  split
  · rename_i h
    have hsmall : 97 ≤ c.toNat ∧ c.toNat ≤ 122 := by
      simpa [UInt32.le_iff_toNat_le] using h
    have hshift : ('A'.val - 'a'.val).toNat = 4294967264 := by decide
    have hval : c.val.toNat = c.toNat := rfl
    rw [if_pos hsmall]
    show (c.val + ('A'.val - 'a'.val)).toNat = _
    rw [UInt32.toNat_add, hshift]
    omega
  · rename_i h
    have hother : ¬(97 ≤ c.toNat ∧ c.toNat ≤ 122) := by
      simpa [UInt32.le_iff_toNat_le] using h
    rw [if_neg hother]

/-- ASCII letters are made small by their distance. -/
theorem toNat_toLower (c : Char) :
    c.toLower.toNat = if 65 ≤ c.toNat ∧ c.toNat ≤ 90 then c.toNat + 32
      else c.toNat := by
  unfold Char.toLower
  split
  · rename_i h
    have hcapital : 65 ≤ c.toNat ∧ c.toNat ≤ 90 := by
      simpa [UInt32.le_iff_toNat_le] using h
    have hshift : ('a'.val - 'A'.val).toNat = 32 := by decide
    have hval : c.val.toNat = c.toNat := rfl
    rw [if_pos hcapital]
    show (c.val + ('a'.val - 'A'.val)).toNat = _
    rw [UInt32.toNat_add, hshift]
    omega
  · rename_i h
    have hother : ¬(65 ≤ c.toNat ∧ c.toNat ≤ 90) := by
      simpa [UInt32.le_iff_toNat_le] using h
    rw [if_neg hother]

private theorem isUpper_iff {c : Char} :
    c.isUpper = true ↔ 65 ≤ c.toNat ∧ c.toNat ≤ 90 := by
  show decide (c.val ≥ 'A'.val ∧ c.val ≤ 'Z'.val) = true ↔ _
  rw [decide_eq_true_eq, ge_iff_le, UInt32.le_iff_toNat_le,
    UInt32.le_iff_toNat_le]
  exact Iff.rfl

theorem char_eq_of_toNat_eq {c d : Char} (h : c.toNat = d.toNat) : c = d :=
  Char.ext (UInt32.toNat_inj.mp h)

/-- A code point that makes a character other than null is that of the
character. -/
theorem eq_toNat_of_ofNat {n : Nat} {c : Char} (hc : c.toNat ≠ 0)
    (h : Char.ofNat n = c) : n = c.toNat := by
  by_cases hvalid : n.isValidChar
  · have hof : Char.ofNat n = Char.ofNatAux n hvalid := dif_pos hvalid
    rw [← h, hof]
    rfl
  · have hof : Char.ofNat n = '\x00' := dif_neg hvalid
    rw [← h, hof] at hc
    exact absurd rfl hc

/-- Letters that are no capitals are told apart by their capitals. -/
theorem toUpper_injective {c d : Char} (hc : c.isUpper = false)
    (hd : d.isUpper = false) (h : c.toUpper = d.toUpper) : c = d := by
  have hc : ¬(65 ≤ c.toNat ∧ c.toNat ≤ 90) := by
    rw [← isUpper_iff, hc]
    decide
  have hd : ¬(65 ≤ d.toNat ∧ d.toNat ≤ 90) := by
    rw [← isUpper_iff, hd]
    decide
  have hnat : c.toUpper.toNat = d.toUpper.toNat := by rw [h]
  rw [toNat_toUpper, toNat_toUpper] at hnat
  apply char_eq_of_toNat_eq
  split at hnat <;> split at hnat <;> omega

private theorem toUpper_toUpper (c : Char) : c.toUpper.toUpper = c.toUpper := by
  apply char_eq_of_toNat_eq
  have hupper := toNat_toUpper c
  rw [toNat_toUpper c.toUpper]
  split at hupper <;> split <;> omega

/-! ## Texts -/

namespace Text

/-- Whether all characters of a text are in the ASCII range. -/
def isAscii (t : Text) : Bool :=
  t.all fun c => c.toNat < 0x80

/-- Whether a text has no ASCII capital. -/
def isSmall (t : Text) : Bool :=
  t.all fun c => !c.isUpper

private theorem isAscii_cons {c : Char} {t : Text} :
    isAscii (c :: t) = true ↔ c.toNat < 0x80 ∧ isAscii t = true := by
  simp [isAscii]

private theorem lowerAfter_of_ascii {t : Text} (before : Text)
    (h : isAscii t = true) :
    lowerAfter before t = t.map Char.toLower := by
  induction t generalizing before with
  | nil => rfl
  | cons c rest ih =>
    rw [isAscii_cons] at h
    have hsigma : (c == 'Σ') = false := by
      rw [beq_eq_false_iff_ne]
      rintro rfl
      exact absurd h.1 (by decide)
    rw [lowerAfter, hsigma, ih _ h.2, lowerChar_of_ascii h.1]
    rfl

/-- In the ASCII range, texts are made small letter by letter. -/
theorem lower_of_ascii {t : Text} (h : isAscii t = true) :
    lower t = t.map Char.toLower :=
  lowerAfter_of_ascii [] h

private theorem upper_of_ascii {t : Text} (h : isAscii t = true) :
    upper t = t.map Char.toUpper := by
  induction t with
  | nil => rfl
  | cons c rest ih =>
    rw [isAscii_cons] at h
    have hrest : rest.flatMap upperChar = rest.map Char.toUpper := ih h.2
    rw [upper, List.flatMap_cons, upperChar_of_ascii h.1, hrest]
    rfl

/-- Texts without capitals are told apart by their capitals. -/
theorem map_toUpper_injective {t u : Text} (ht : isSmall t = true)
    (hu : isSmall u = true) (h : t.map Char.toUpper = u.map Char.toUpper) :
    t = u := by
  induction t generalizing u with
  | nil =>
    cases u with
    | nil => rfl
    | cons d u => simp at h
  | cons c t ih =>
    cases u with
    | nil => simp at h
    | cons d u =>
      simp only [isSmall, List.all_cons, Bool.and_eq_true, Bool.not_eq_true']
        at ht hu
      simp only [List.map_cons, List.cons.injEq] at h
      have hhead := toUpper_injective ht.1 hu.1 h.1
      have htail := ih ht.2 hu.2 h.2
      rw [hhead, htail]

/-! ### Quotes -/

/-- Only a quote has a quote for its capital form. -/
theorem quote_mem_upperChar {c : Char} (h : '\'' ∈ upperChar c) : c = '\'' := by
  unfold upperChar at h
  split at h
  · rename_i hascii
    rw [List.mem_singleton] at h
    have hnat : c.toUpper.toNat = 39 := by
      rw [← h]
      rfl
    rw [toNat_toUpper] at hnat
    apply char_eq_of_toNat_eq
    split at hnat
    · omega
    · exact hnat
  · rename_i hwide
    split at h
    · rename_i sequence hlookup
      have htable : ∀ e ∈ upperSequences, ∀ n ∈ e.2, 39 < n := by decide
      obtain ⟨n, hn, heq⟩ := List.mem_map.mp h
      obtain ⟨l₁, l₂, hsplit, -⟩ := List.lookup_eq_some_iff.mp hlookup
      have hmem : (c.toNat, sequence) ∈ upperSequences := by
        rw [hsplit]
        simp
      have hlarge := htable _ hmem n hn
      have hquote : n = 39 := eq_toNat_of_ofNat (by decide) heq
      omega
    · rw [List.mem_singleton] at h
      unfold moved at h
      split at h
      · rename_i r hr
        have htable : ∀ r ∈ upperRuns, (39 : Int) < r.first + r.shift := by
          decide +kernel
        have hmove : r.move c.toNat = 39 := eq_toNat_of_ofNat (by decide) h.symm
        have hfirst := htable r (List.mem_of_find?_eq_some hr)
        have hcovers := List.find?_some hr
        simp only [Run.covers, Bool.and_eq_true, decide_eq_true_eq] at hcovers
        simp only [Run.move, Int.ofNat_eq_natCast] at hmove
        omega
      · exact h.symm

/-- Making a text capital adds no single quote. -/
theorem quote_not_mem_upper {t : Text} (h : '\'' ∉ t) : '\'' ∉ upper t := by
  intro hquote
  obtain ⟨c, hc, hmem⟩ := List.mem_flatMap.mp hquote
  rw [quote_mem_upperChar hmem] at hc
  exact h hc

end Text

/-! ## Translation -/

namespace XPath

/-- A translation to counterparts replaces the characters that are listed. -/
theorem translated_map (source t : Text) (g : Char → Char) :
    translated source (source.map g) t = t.map fun c =>
      if c ∈ source then g c else c := by
  unfold translated
  refine Eq.trans (congrArg (List.filterMap · t) ?_)
    (congrFun List.filterMap_eq_map t)
  funext c
  cases hidx : source.idxOf? c with
  | none =>
    have hmem : c ∉ source := List.idxOf?_eq_none_iff.mp hidx
    simp [hmem]
  | some i =>
    obtain ⟨hi, hget, -⟩ := List.idxOf?_eq_some_iff.mp hidx
    have hmem : c ∈ source := by
      rw [← hget]
      exact List.getElem_mem hi
    simp [hmem, hi, hget]

/-- The letters whose case can be folded. -/
theorem isFoldable_iff {c : Char} :
    isFoldable c = true ↔ 97 ≤ c.toNat ∧ c.toNat ≤ 122 ∨ c = 'š' ∨ c = 'ž' ∨
      c = 'œ' ∨
      224 ≤ c.toNat ∧ c.toNat ≤ 255 ∨ 940 ≤ c.toNat ∧ c.toNat ≤ 974 := by
  have hle : ∀ a b : Char, a ≤ b ↔ a.toNat ≤ b.toNat := fun a b => Iff.rfl
  simp only [isFoldable, Bool.or_eq_true, Bool.and_eq_true, decide_eq_true_eq,
    beq_iff_eq, hle, or_assoc]
  exact Iff.rfl

/-- In the ASCII range, the small letters can be folded. -/
theorem isFoldable_of_ascii {c : Char} (h : c.toNat < 0x80) :
    isFoldable c = true ↔ 97 ≤ c.toNat ∧ c.toNat ≤ 122 := by
  rw [isFoldable_iff]
  constructor
  · rintro (hsmall | rfl | rfl | rfl | hlatin | hgreek)
    · exact hsmall
    · exact absurd h (by decide)
    · exact absurd h (by decide)
    · exact absurd h (by decide)
    · omega
    · omega
  · exact .inl

/-- The tables of letters hold no single quote. -/
theorem quote_not_mem_letters (t : Text) :
    '\'' ∉ (Letters.ofText t).lower ∧ '\'' ∉ (Letters.ofText t).upper := by
  have hlower : '\'' ∉ (Letters.ofText t).lower := by
    intro hquote
    have hfold := (List.mem_filter.mp (List.mem_eraseDups.mp hquote)).2
    exact absurd hfold (by decide)
  exact ⟨hlower, Text.quote_not_mem_upper hlower⟩

/-- The letters listed for an ASCII text are the small forms of its own
letters. -/
theorem mem_letters_iff {t : Text} {c : Char} (h : t.isAscii = true) :
    c ∈ (Letters.ofText t).lower ↔
      (97 ≤ c.toNat ∧ c.toNat ≤ 122) ∧ ∃ d ∈ t, d.toLower = c := by
  have hlower : (Letters.ofText t).lower =
      ((t.map Char.toLower).filter isFoldable).eraseDups := by
    simp only [Letters.ofText, Text.lower_of_ascii h]
  rw [hlower, List.mem_eraseDups, List.mem_filter, List.mem_map, and_comm]
  apply and_congr_left
  rintro ⟨d, hd, rfl⟩
  apply isFoldable_of_ascii
  have hascii : d.toNat < 0x80 := by
    simp only [Text.isAscii, List.all_eq_true, decide_eq_true_eq] at h
    exact h d hd
  rw [toNat_toLower]
  split <;> omega

/-- In the ASCII range, the capitals of the table belong to its small letters.
-/
theorem letters_upper {t : Text} (h : t.isAscii = true) :
    (Letters.ofText t).upper = (Letters.ofText t).lower.map Char.toUpper := by
  have hascii : Text.isAscii (Letters.ofText t).lower = true := by
    simp only [Text.isAscii, List.all_eq_true, decide_eq_true_eq]
    intro c hc
    have hsmall := ((mem_letters_iff h).mp hc).1
    omega
  show Text.upper (Letters.ofText t).lower = _
  exact Text.upper_of_ascii hascii

/-- The translation with the letters of an ASCII text makes capitals of these
letters. -/
theorem translated_letters {t : Text} (h : t.isAscii = true) (u : Text) :
    translated (Letters.ofText t).lower (Letters.ofText t).upper u =
      u.map fun c => if c ∈ (Letters.ofText t).lower then c.toUpper else c := by
  rw [letters_upper h, translated_map]

/-- At a character of the text itself, a capital is made exactly where one is
asked for. -/
theorem fold_eq_toUpper_iff {t : Text} (h : t.isAscii = true) {c d : Char}
    (hd : d ∈ t) :
    (if c ∈ (Letters.ofText t).lower then c.toUpper else c) = d.toUpper ↔
      c.toUpper = d.toUpper := by
  by_cases hc : c ∈ (Letters.ofText t).lower
  · rw [if_pos hc]
  · rw [if_neg hc]
    constructor
    · rintro rfl
      exact toUpper_toUpper d
    · intro heq
      -- A small letter with the same capital would have been listed.
      have hsmall : ¬(97 ≤ c.toNat ∧ c.toNat ≤ 122) := by
        intro hrange
        apply hc
        refine (mem_letters_iff h).mpr ⟨hrange, d, hd, char_eq_of_toNat_eq ?_⟩
        have hnat : c.toUpper.toNat = d.toUpper.toNat := by rw [heq]
        rw [toNat_toUpper, toNat_toUpper, if_pos hrange] at hnat
        rw [toNat_toLower]
        split at hnat <;> split <;> omega
      rw [← heq]
      apply char_eq_of_toNat_eq
      rw [toNat_toUpper, if_neg hsmall]

/-- In the ASCII range, translation compares texts without regard to case. -/
theorem translated_letters_eq_upper_iff {t : Text} (h : t.isAscii = true)
    (u : Text) :
    translated (Letters.ofText t).lower (Letters.ofText t).upper u =
      Text.upper t ↔
      u.map Char.toUpper = t.map Char.toUpper := by
  rw [translated_letters h, Text.upper_of_ascii h]
  -- The letters are those of the whole text while the texts are compared from
  -- the front.
  have hpart : ∀ t' : Text, (∀ d ∈ t', d ∈ t) →
      ((u.map fun c => if c ∈ (Letters.ofText t).lower then c.toUpper else c) =
          t'.map Char.toUpper ↔ u.map Char.toUpper = t'.map Char.toUpper) := by
    induction u with
    | nil => simp
    | cons c u ih =>
      intro t' hmem
      cases t' with
      | nil => simp
      | cons d t' =>
        have hhead :=
          fold_eq_toUpper_iff h (hmem d (List.mem_cons_self ..)) (c := c)
        have htail := ih t' fun d hd => hmem d (List.mem_cons_of_mem _ hd)
        simp only [List.map_cons, List.cons.injEq, hhead, htail]
  exact hpart t fun d hd => hd

end XPath

end SelectorPath
