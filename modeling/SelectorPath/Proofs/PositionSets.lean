import Mathlib
import SelectorPath.Proofs.Positions

/-!
# Sets of positions

What the argument of `:nth-child` writes and which positions it stands for, both
said without the formula that the argument is read into: `Writes` is the
notation and `PositionSet.Has` the arithmetic. For a text of ASCII characters,
the condition that is compiled from it, read as XPath, is true at the positions
of the set.

A missing step is one, and then the condition asks for one side of the offset
only. The same condition is written for a step of zero, where it is all that is
asked.

## Main results

* `accepts_iff_has`: a formula accepts the positions of its set.
* `exists_formula_iff`: the texts that a formula is read from are those of the
  notation.
* `positionTest_iff_writes`: when an argument is compiled, and what the result
  means.
-/

namespace SelectorPath.XPath

/-! ## Positions -/

/-- A set of positions: one position, or `a*k + b` for every natural `k`, with
`a` negated where the progression goes down. -/
inductive PositionSet where
  | exactly (k : Nat)
  | progression (down : Bool) (a b : Nat)
deriving DecidableEq, Repr

/-- Whether a position is in the set. A step of zero stands for all positions on
one side of `b`. -/
def PositionSet.Has : PositionSet → Nat → Prop
  | exactly k, p => p = k
  | progression down a b, p =>
    if a = 0 then if down then p ≤ b else b ≤ p
    else ∃ k : Nat, (p : Int) = (if down then -(a : Int) else a) * k + b

/-- A natural multiple is a multiple that is not negative. -/
theorem exists_multiple_iff {a : Nat} (ha : a ≠ 0) (m : Int) :
    (∃ k : Nat, m = a * k) ↔ 0 ≤ m ∧ m.tmod a = 0 := by
  have hpos : (0 : Int) < a := by omega
  constructor
  · rintro ⟨k, rfl⟩
    exact ⟨Int.mul_nonneg hpos.le (Int.natCast_nonneg k),
      Int.mul_tmod_right _ _⟩
  · rintro ⟨hm, hmod⟩
    obtain ⟨k, rfl⟩ := Int.dvd_of_tmod_eq_zero hmod
    have hk : 0 ≤ k := nonneg_of_mul_nonneg_right hm hpos
    exact ⟨k.toNat, by rw [Int.toNat_of_nonneg hk]⟩

private theorem PositionSet.has_progression_iff {a : Nat} (ha : a ≠ 0)
    (down : Bool) (b p : Nat) :
    (progression down a b).Has p ↔
      (if down then (p : Int) - b ≤ 0 else 0 ≤ (p : Int) - b) ∧
        ((p : Int) - b).tmod a = 0 := by
  rw [Has, if_neg ha]
  cases down with
  | false =>
    rw [if_neg Bool.false_ne_true, if_neg Bool.false_ne_true,
      ← exists_multiple_iff ha]
    exact exists_congr fun k => sub_eq_iff_eq_add.symm
  | true =>
    -- Downwards, the offset lies a multiple above the position.
    have hdown : ((p : Int) - b ≤ 0 ∧ ((p : Int) - b).tmod a = 0) ↔
        ∃ k : Nat, (b : Int) - p = a * k := by
      rw [exists_multiple_iff ha, ← neg_sub (b : Int) p, Int.neg_tmod,
        neg_eq_zero, neg_nonpos]
    rw [if_pos rfl, if_pos rfl, hdown]
    refine exists_congr fun k => ?_
    rw [neg_mul]
    constructor
    · intro hp
      omega
    · intro hp
      omega

namespace Formula

/-- The positions that a formula stands for; a missing step is one. -/
def positions : Formula → PositionSet
  | exactly numeral => .exactly (Text.toNat numeral)
  | progression reverse step offset =>
    .progression reverse (if step.isEmpty then 1
      else Text.toNat step) (offset.elim 0 Text.toNat)

/-- A formula accepts the positions of its set. -/
theorem accepts_iff_has (f : Formula) (p : Nat) :
    f.accepts p = true ↔ f.positions.Has p := by
  cases f with
  | exactly numeral => exact beq_iff_eq
  | progression reverse step offset =>
    rw [positions, accepts]
    generalize offset.elim 0 Text.toNat = b
    have hside : (if reverse then decide ((p : Int) - b ≤ 0)
        else decide (0 ≤ (p : Int) - b)) = true ↔
        if reverse then (p : Int) - b ≤ 0 else 0 ≤ (p : Int) - b := by
      cases reverse with
      | true => exact decide_eq_true_iff
      | false => exact decide_eq_true_iff
    simp only [Int.ofNat_eq_natCast, Bool.and_eq_true, hside, Bool.or_eq_true,
      beq_iff_eq]
    by_cases hempty : step.isEmpty = true
    · have hzero : Text.toNat step = 0 := by
        rw [List.isEmpty_iff.mp hempty]
        rfl
      rw [if_pos hempty, PositionSet.has_progression_iff one_ne_zero, hzero]
      simp
    · rw [if_neg hempty]
      by_cases hzero : Text.toNat step = 0
      · rw [PositionSet.Has, if_pos hzero]
        simp only [hzero, true_or, and_true]
        cases reverse with
        | true => simp
        | false => simp
      · rw [PositionSet.has_progression_iff hzero]
        simp only [hzero, false_or]

/-! ## The notation -/

/-- A sign, which may be missing, and whether it negates. -/
inductive WritesSign : Text → Bool → Prop
  | none : WritesSign [] false
  | plus : WritesSign ['+'] false
  | minus : WritesSign ['-'] true

/-- The digits in front of `n`, which may be missing, and their number. -/
inductive WritesStep : Text → Nat → Prop
  | none : WritesStep [] 1
  | digits {t : Text} (ht : isNumeral t = true) : WritesStep t (Text.toNat t)

/-- The offset behind `n`, which may be missing, and its number. -/
inductive WritesOffset : Text → Nat → Prop
  | none : WritesOffset [] 0
  | digits {t : Text} (ht : isNumeral t = true) :
    WritesOffset ('+' :: t) (Text.toNat t)

/-- What a trimmed text writes. -/
inductive Writes : Text → PositionSet → Prop
  | odd : Writes "odd" (.progression false 2 1)
  | even : Writes "even" (.progression false 2 0)
  | exactly {t : Text} (ht : isNumeral t = true) :
    Writes t (.exactly (Text.toNat t))
  | progression {sign step offset : Text} {down : Bool} {a b : Nat}
    (hsign : WritesSign sign down) (hstep : WritesStep step a)
    (hoffset : WritesOffset offset b) :
    Writes (sign ++ (step ++ 'n' :: offset)) (.progression down a b)

private theorem writesStep_iff {t : Text} {a : Nat} :
    WritesStep t a ↔ t.all Char.isDigit = true ∧ a = if t.isEmpty then 1
      else Text.toNat t := by
  constructor
  · intro h
    cases h with
    | none => exact ⟨rfl, rfl⟩
    | digits ht =>
      rw [isNumeral, Bool.and_eq_true, Bool.not_eq_true'] at ht
      exact ⟨ht.2, by rw [ht.1]; rfl⟩
  · rintro ⟨hdigits, rfl⟩
    cases hempty : t.isEmpty with
    | true =>
      rw [List.isEmpty_iff.mp hempty]
      exact .none
    | false => exact .digits (by rw [isNumeral, hempty, hdigits]; rfl)

private theorem isDecimalDigit_of_isDigit {c : Char} (h : c.isDigit = true) :
    Text.isDecimalDigit c = true := by
  rw [Text.isDecimalDigit, h, Bool.true_or]

/-- A formula behind the sign, from its text. -/
theorem writes_of_progression? {reverse : Bool} {t : Text} {f : Formula}
    (hnumeric : f.isNumeric = true) (h : progression? reverse t = some f) :
    ∃ step offset a b, t = step ++ 'n' :: offset ∧ WritesStep step a ∧
      WritesOffset offset b ∧
      f.positions = .progression reverse a b := by
  have hsplit :=
    List.takeWhile_append_dropWhile (p := Text.isDecimalDigit) (l := t)
  unfold progression? at h
  simp only at h
  split at h
  · rename_i hleft
    cases h
    rw [isNumeric, hasNumerals, Bool.and_eq_true] at hnumeric
    rw [hleft] at hsplit
    exact ⟨_, [], _, 0, hsplit.symm, writesStep_iff.mpr ⟨hnumeric.1, rfl⟩,
      .none, rfl⟩
  · rename_i offset hleft
    split at h
    · cases h
      rw [isNumeric, hasNumerals, Bool.and_eq_true] at hnumeric
      rw [hleft] at hsplit
      exact ⟨_, '+' :: offset, _, _, hsplit.symm,
        writesStep_iff.mpr ⟨hnumeric.1, rfl⟩, .digits hnumeric.2, rfl⟩
    · cases h
  · cases h

/-- And the formula from a text of that form. -/
theorem progression?_of_writes (reverse : Bool) {step offset : Text} {a b : Nat}
    (hstep : WritesStep step a) (hoffset : WritesOffset offset b) :
    ∃ f, progression? reverse (step ++ 'n' :: offset) = some f ∧
      f.positions = .progression reverse a b := by
  obtain ⟨hdigits, rfl⟩ := writesStep_iff.mp hstep
  have hdecimal : ∀ c ∈ step, Text.isDecimalDigit c = true := fun c hc =>
    isDecimalDigit_of_isDigit (List.all_eq_true.mp hdigits c hc)
  have hn : Text.isDecimalDigit 'n' = false := by decide
  have htake : (step ++ 'n' :: offset).takeWhile Text.isDecimalDigit =
      step := by
    rw [List.takeWhile_append_of_pos hdecimal, List.takeWhile_cons, hn]
    exact List.append_nil step
  have hdrop : (step ++ 'n' :: offset).dropWhile Text.isDecimalDigit =
      'n' :: offset := by
    rw [List.dropWhile_append_of_pos hdecimal, List.dropWhile_cons, hn]
    rfl
  unfold progression?
  simp only [htake, hdrop]
  cases hoffset with
  | none => exact ⟨_, rfl, rfl⟩
  | @digits t ht =>
    rw [isNumeral, Bool.and_eq_true, List.all_eq_true] at ht
    have hall : t.all Text.isDecimalDigit = true :=
      List.all_eq_true.mpr fun c hc => isDecimalDigit_of_isDigit (ht.2 c hc)
    refine ⟨progression reverse step (some t), ?_, rfl⟩
    simp only [ht.1, hall, Bool.and_self, if_true]

private theorem writes_of_ofTrimmed? {t : Text} {f : Formula}
    (hnumeric : f.isNumeric = true) (h : ofTrimmed? t = some f) :
    Writes t f.positions := by
  -- The sign stands in front of what `progression?` reads.
  have hsigned : ∀ {sign rest : Text} {reverse : Bool},
      WritesSign sign reverse →
      progression? reverse rest = some f →
        Writes (sign ++ rest) f.positions := by
    intro sign rest reverse hsign hrest
    obtain ⟨step, offset, a, b, rfl, hstep, hoffset, hpositions⟩ :=
      writes_of_progression? hnumeric hrest
    rw [hpositions]
    exact .progression hsign hstep hoffset
  unfold ofTrimmed? at h
  split at h
  · rename_i hodd
    cases h
    rw [hodd]
    exact .odd
  split at h
  · rename_i heven
    cases h
    rw [heven]
    exact .even
  split at h
  · rename_i hnumeral
    cases h
    exact .exactly hnumeral
  split at h
  · exact hsigned .minus h
  · exact hsigned .plus h
  · exact hsigned .none h

private theorem ofTrimmed?_of_numeral {t : Text} (ht : isNumeral t = true) :
    ofTrimmed? t = some (.exactly t) := by
  have hodd : t ≠ "odd" := by
    rintro rfl
    exact absurd ht (by decide)
  have heven : t ≠ "even" := by
    rintro rfl
    exact absurd ht (by decide)
  unfold ofTrimmed?
  rw [if_neg hodd, if_neg heven]
  exact if_pos ht

/-- A sign is taken off, and what follows it is neither a word nor a numeral. -/
theorem ofTrimmed?_signed {sign rest : Text} {reverse : Bool}
    (hsign : WritesSign sign reverse)
    (hhead : ∀ c, rest.head? = some c → c.isDigit = true ∨ c = 'n')
    (hn : 'n' ∈ rest) :
    ofTrimmed? (sign ++ rest) = progression? reverse rest := by
  have hne : ∀ {c : Char} {word : Text}, c.isDigit = false → c ≠ 'n' →
      rest ≠ c :: word := by
    rintro c word hdigit hc rfl
    rcases hhead c rfl with h | h
    · rw [h] at hdigit
      exact absurd hdigit (by decide)
    · exact hc h
  have hnumeral :
      ¬(!(sign ++ rest).isEmpty && (sign ++ rest).all Char.isDigit) = true := by
    rw [Bool.and_eq_true, List.all_eq_true]
    rintro ⟨-, hall⟩
    exact absurd (hall 'n' (List.mem_append_right sign hn)) (by decide)
  have hodd : sign ++ rest ≠ "odd" := by
    cases hsign with
    | none => exact hne (by decide) (by decide)
    | plus => rintro ⟨⟩
    | minus => rintro ⟨⟩
  have heven : sign ++ rest ≠ "even" := by
    cases hsign with
    | none => exact hne (by decide) (by decide)
    | plus => rintro ⟨⟩
    | minus => rintro ⟨⟩
  unfold ofTrimmed?
  rw [if_neg hodd, if_neg heven, if_neg hnumeral]
  cases hsign with
  | none =>
    split
    · rename_i heq
      exact absurd heq (hne (by decide) (by decide))
    · rename_i heq
      exact absurd heq (hne (by decide) (by decide))
    · rfl
  | plus => rfl
  | minus => rfl

private theorem ofTrimmed?_of_writes {t : Text} {s : PositionSet}
    (h : Writes t s) :
    ∃ f, ofTrimmed? t = some f ∧ f.positions = s := by
  cases h with
  | odd => exact ⟨_, rfl, rfl⟩
  | even => exact ⟨_, rfl, rfl⟩
  | exactly ht => exact ⟨_, ofTrimmed?_of_numeral ht, rfl⟩
  | @progression sign step offset down a b hsign hstep hoffset =>
    have hhead : ∀ c, (step ++ 'n' :: offset).head? = some c →
        c.isDigit = true ∨ c = 'n' := by
      intro c hc
      cases step with
      | nil => exact .inr (Option.some.inj hc).symm
      | cons d step =>
        rw [← show d = c from Option.some.inj hc]
        exact .inl (List.all_eq_true.mp (writesStep_iff.mp hstep).1 d
          List.mem_cons_self)
    have hn : 'n' ∈ step ++ 'n' :: offset :=
      List.mem_append_right step List.mem_cons_self
    rw [ofTrimmed?_signed hsign hhead hn]
    exact progression?_of_writes down hstep hoffset

/-- The texts that formulas are read from are those of the notation. -/
theorem exists_formula_iff {t : Text} (hascii : Text.isAscii t = true)
    (s : PositionSet) :
    (∃ f, ofTrimmed? t = some f ∧ f.positions = s) ↔ Writes t s := by
  constructor
  · rintro ⟨f, hf, rfl⟩
    exact writes_of_ofTrimmed? (isNumeric_of_ascii hascii hf) hf
  · exact ofTrimmed?_of_writes

end Formula

/-- An argument in ASCII is compiled exactly if it is in the notation, blanks
around it left aside, and the condition is true at the positions that it writes.
Otherwise the error holds the argument as it was given. -/
theorem positionTest_iff_writes {data : Text}
    (hascii : Text.isAscii data = true) :
    ((∃ condition, positionTest data = .ok condition) ↔
      ∃ s, Formula.Writes (Text.trim data) s) ∧
      ((¬∃ s, Formula.Writes (Text.trim data) s) →
        positionTest data = .error (.badPosition data)) ∧
      ∀ s, Formula.Writes (Text.trim data) s → ∃ condition e,
        positionTest data = .ok condition ∧
        readExpr condition = some e ∧ ∀ c : Context, e.truth c = true ↔
          s.Has c.position := by
  have hiff := fun s => Formula.exists_formula_iff (isAscii_trim hascii) s
  have hmeans : ∀ s, Formula.Writes (Text.trim data) s → ∃ condition e,
      positionTest data = .ok condition ∧
      readExpr condition = some e ∧ ∀ c : Context, e.truth c = true ↔
        s.Has c.position := by
    intro s hs
    obtain ⟨f, hf, rfl⟩ := (hiff s).mpr hs
    have hnumeric := Formula.isNumeric_of_ascii (isAscii_trim hascii) hf
    have hfragment := Formula.isFragment_condition hnumeric
    rw [Expr.isFragment, Bool.and_eq_true, Bool.and_eq_true] at hfragment
    refine ⟨f.condition.render, f.condition, ?_, readExpr_render hfragment.1.1,
      fun c => ?_⟩
    · rw [positionTest, hf]
    · rw [Formula.truth_condition hnumeric, Formula.accepts_iff_has]
  have hfails : (¬∃ s, Formula.Writes (Text.trim data) s) →
      positionTest data = .error (.badPosition data) := by
    intro hnone
    cases hf : Formula.ofTrimmed? (Text.trim data) with
    | none => rw [positionTest, hf]
    | some f => exact absurd ⟨_, (hiff _).mp ⟨f, hf, rfl⟩⟩ hnone
  refine ⟨⟨?_, ?_⟩, hfails, hmeans⟩
  · rintro ⟨condition, hok⟩
    by_contra hnone
    rw [hfails hnone] at hok
    cases hok
  · rintro ⟨s, hs⟩
    obtain ⟨condition, e, hok, -⟩ := hmeans s hs
    exact ⟨condition, hok⟩

/-- A progression that goes down from the third position, with a leading zero
and blanks around it. -/
theorem positionTest_iff_writes_downwards :
    Text.isAscii " -02n+3 " = true ∧
      Formula.Writes (Text.trim " -02n+3 ") (.progression true 2 3) ∧
      ∃ condition e, positionTest " -02n+3 " = .ok condition ∧
        readExpr condition = some e ∧
        ∀ c : Context, e.truth c = true ↔
          (PositionSet.progression true 2 3).Has c.position := by
  have hascii : Text.isAscii " -02n+3 " = true := by decide
  have hwrites : Formula.Writes (Text.trim " -02n+3 ")
      (.progression true 2 3) := by
    have htrim : Text.trim " -02n+3 " = "-02n+3" := by decide
    rw [htrim]
    exact @Formula.Writes.progression "-" "02" "+3" true 2 3 .minus
      (.digits rfl) (.digits rfl)
  exact ⟨hascii, hwrites, (positionTest_iff_writes hascii).2.2 _ hwrites⟩

end SelectorPath.XPath
