import SelectorPath.Proofs.Conditions
import SelectorPath.Proofs.Trimming

/-!
# Meaning of position formulas

The condition of a position formula, read as XPath, asks for what the formula
says about the position: it is the given one, or it lies on one side of the
offset and differs from it by a multiple of the step. A step of zero leaves the
side only.

Numerals are ASCII digits here. A formula may hold digits of other scripts,
which XPath does not read.

## Main results

* `Formula.truth_condition`: what the condition of a formula means.
* `Formula.isNumeric_of_ascii`: the formula of an ASCII text holds ASCII
  numerals.
-/

namespace SelectorPath

namespace XPath

/-! ## Numerals -/

private theorem isSpace_of_isDigit {c : Char} (h : c.isDigit = true) :
    isSpace c = false := by
  cases hs : isSpace c with
  | false => rfl
  | true =>
    simp only [isSpace, Bool.or_eq_true, beq_iff_eq] at hs
    rcases hs with ((rfl | rfl) | rfl) | rfl <;> exact absurd h (by decide)

theorem number?_numeral {t : Text} (h : isNumeral t = true) :
    number? t = some (Int.ofNat (Text.toNat t)) := by
  have hdigits : ∀ c ∈ t, c.isDigit = true := by
    simp only [isNumeral, Bool.and_eq_true, List.all_eq_true] at h
    exact h.2
  have htrim : Text.trimBy isSpace t = t :=
    Text.trimBy_eq_self fun c hc => isSpace_of_isDigit (hdigits c hc)
  have hnatural : natural? t = some (Text.toNat t) := if_pos h
  unfold number?
  rw [htrim]
  split
  · rename_i digits
    exact absurd (hdigits '-' (List.mem_cons_self ..)) (by decide)
  · rw [hnatural]
    rfl

theorem number?_negative {t : Text} (h : isNumeral t = true) :
    number? ('-' :: t) = some (-Int.ofNat (Text.toNat t)) := by
  have hdigits : ∀ c ∈ t, c.isDigit = true := by
    simp only [isNumeral, Bool.and_eq_true, List.all_eq_true] at h
    exact h.2
  have hspace : ∀ c ∈ '-' :: t, isSpace c = false := by
    intro c hc
    rcases List.mem_cons.mp hc with rfl | hc
    · decide
    · exact isSpace_of_isDigit (hdigits c hc)
  have hnatural : natural? t = some (Text.toNat t) := if_pos h
  unfold number?
  rw [Text.trimBy_eq_self hspace]
  show (natural? t).map _ = _
  rw [hnatural]
  rfl

/-! ## Formulas -/

private theorem truth_atMost_number {c : Context} {l r : Expr} {m n : Int}
    (hl : l.value c = .number (some m)) (hr : r.value c = .number (some n)) :
    (Expr.binary .atMost l r).truth c = decide (m ≤ n) := by
  show Value.compare .atMost (l.value c) (r.value c) = _
  rw [hl, hr]
  show ((decide (m ≤ n) || false) || false) = _
  rw [Bool.or_false, Bool.or_false]

private theorem truth_atLeast_number {c : Context} {l r : Expr} {m n : Int}
    (hl : l.value c = .number (some m)) (hr : r.value c = .number (some n)) :
    (Expr.binary .atLeast l r).truth c = decide (n ≤ m) := by
  show Value.compare .atLeast (l.value c) (r.value c) = _
  rw [hl, hr]
  show ((decide (n ≤ m) || false) || false) = _
  rw [Bool.or_false, Bool.or_false]

namespace Formula

/-- Whether the digits of a formula satisfy `p`; only a step may have none. -/
def hasNumerals (p : Char → Bool) : Formula → Bool
  | exactly numeral => !numeral.isEmpty && numeral.all p
  | progression _ step offset =>
    step.all p && offset.all fun b => !b.isEmpty && b.all p

/-- Whether the numerals of a formula are made of ASCII digits. -/
def isNumeric : Formula → Bool :=
  hasNumerals Char.isDigit

/-- Whether a formula accepts a position. -/
def accepts (position : Nat) : Formula → Bool
  | exactly numeral => position == Text.toNat numeral
  | progression reverse step offset =>
    let place : Int := position - Int.ofNat (offset.elim 0 Text.toNat)
    let step := Text.toNat step
    (if reverse then decide (place ≤ 0) else decide (0 ≤ place))
      && (step == 0 || place.tmod (Int.ofNat step) == 0)

/-! ### The place of a position -/

/-- The expression for the difference of the position from the offset. -/
def placeExpr : Option Text → Expr
  | none => .position
  | some b => .minus .position (.number b)

/-- The condition that the position lies on the side of the offset which the
formula asks for. -/
def boundExpr (reverse : Bool) (offset : Option Text) : Expr :=
  .binary (if reverse then .atMost
    else .atLeast) (placeExpr offset) (.number "0")

/-- The condition that the position differs from the offset by a multiple of the
divisor. -/
def multipleExpr (divisor : Text) (offset : Option Text) : Expr :=
  .binary .equal (.binary .modulo (.group (placeExpr offset)) (.number divisor))
    (.number "0")

/-- The condition of a progression is a bound and, unless every place counts, a
multiple. -/
theorem condition_progression (reverse : Bool) (step : Text)
    (offset : Option Text) :
    (progression reverse step offset).condition =
      if (step.dropWhile (· == '0')).isEmpty
          || (!reverse && step.dropWhile (· == '0') == ("1" : Text)) then
        boundExpr reverse offset
      else
        .binary .and (boundExpr reverse offset)
          (multipleExpr (if reverse then '-' :: step.dropWhile (· == '0')
            else step.dropWhile (· == '0')) offset) := by
  cases offset <;> rfl

private theorem value_zero (c : Context) :
    (Expr.number "0").value c = .number (some 0) := by
  show Value.number (number? "0") = _
  rw [show number? "0" = some 0 by decide]

private theorem value_placeExpr {offset : Option Text}
    (h : offset.all isNumeral = true) (c : Context) :
    (placeExpr offset).value c =
      .number (some (c.position - Int.ofNat (offset.elim 0 Text.toNat))) := by
  cases offset with
  | none =>
    show Value.number (some c.position) = _
    simp
  | some b =>
    show Value.number ((number? b).map fun n => (c.position : Int) - n) = _
    rw [number?_numeral h]
    rfl

private theorem truth_boundExpr (reverse : Bool) {offset : Option Text}
    (h : offset.all isNumeral = true) (c : Context) :
    (boundExpr reverse offset).truth c =
      if reverse then decide
        (c.position - Int.ofNat (offset.elim 0 Text.toNat) ≤ 0)
      else decide (0 ≤ c.position - Int.ofNat (offset.elim 0 Text.toNat)) := by
  cases reverse with
  | true => exact truth_atMost_number (value_placeExpr h c) (value_zero c)
  | false => exact truth_atLeast_number (value_placeExpr h c) (value_zero c)

private theorem truth_multipleExpr {divisor : Text} {offset : Option Text}
    {n : Int} (h : offset.all isNumeral = true)
    (hdivisor : number? divisor = some n) (hn : n ≠ 0) (c : Context) :
    (multipleExpr divisor offset).truth c =
      ((c.position - Int.ofNat (offset.elim 0 Text.toNat)).tmod n == 0) := by
  have hplace := value_placeExpr h c
  have hvalue : (Expr.binary .modulo (.group (placeExpr offset))
      (.number divisor)).value c =
      .number (some ((c.position - Int.ofNat (offset.elim 0 Text.toNat)).tmod
        n)) := by
    show Operator.modulo.apply ((placeExpr offset).value c)
        (.number (number? divisor)) = _
    rw [hplace, hdivisor]
    show Value.number (if n = 0 then none else some _) = _
    rw [if_neg hn]
  rw [multipleExpr, truth_equal_number hvalue (value_zero c), Bool.eq_iff_iff,
    beq_iff_eq, beq_iff_eq]
  exact eq_comm

/-! ### Steps -/

private theorem toNat_dropWhile_zero (t : Text) :
    Text.toNat (t.dropWhile (· == '0')) = Text.toNat t := by
  induction t with
  | nil => rfl
  | cons c rest ih =>
    rw [List.dropWhile_cons]
    split
    · rename_i hc
      rw [ih, beq_iff_eq.mp hc]
      rfl
    · rfl

/-- Without leading zeros, only the empty numeral is zero. -/
theorem toNat_eq_zero_iff {step : Text} (h : step.all Char.isDigit = true) :
    Text.toNat step = 0 ↔ (step.dropWhile (· == '0')).isEmpty = true := by
  rw [← toNat_dropWhile_zero]
  have hhead := Text.head?_dropWhile (· == '0') step
  cases hstep : step.dropWhile (· == '0') with
  | nil => simp [Text.toNat]
  | cons c rest =>
    have hzero : c ≠ '0' := by
      rw [hstep] at hhead
      simpa using hhead
    have hdigit : c.isDigit = true := by
      have hmem : c ∈ step := by
        apply (List.dropWhile_suffix (l := step) (· == '0')).subset
        rw [hstep]
        exact List.mem_cons_self ..
      exact List.all_eq_true.mp h c hmem
    have hpos : 48 < c.toNat := by
      have hlow := (isDigit_iff.mp hdigit).1
      have hne : c.toNat ≠ 48 := fun heq => hzero (char_eq_of_toNat_eq heq)
      omega
    have hvalue : Text.toNat (c :: rest) =
        10 ^ rest.length * (c.toNat - 48) + Nat.ofDigitChars 10 rest 0 := by
      rw [Text.toNat, Nat.ofDigitChars_cons,
        Nat.ofDigitChars_eq_ofDigitChars_zero, Nat.mul_zero, Nat.zero_add]
      rfl
    have hpower : 0 < 10 ^ rest.length * (c.toNat - 48) :=
      Nat.mul_pos (Nat.pow_pos (by decide)) (by omega)
    simp only [List.isEmpty_cons, Bool.false_eq_true, iff_false]
    omega

private theorem isNumeral_dropWhile_zero {step : Text}
    (h : step.all Char.isDigit = true)
    (hne : (step.dropWhile (· == '0')).isEmpty = false) :
    isNumeral (step.dropWhile (· == '0')) = true := by
  rw [isNumeral, hne, Bool.not_false, Bool.true_and, List.all_eq_true]
  intro d hd
  exact List.all_eq_true.mp h d ((List.dropWhile_suffix (· == '0')).subset hd)

/-- A downward formula divides by the negated step. -/
theorem number?_divisor (reverse : Bool) {digits : Text}
    (h : isNumeral digits = true) :
    number? (if reverse then '-' :: digits else digits) =
      some (if reverse then -Int.ofNat (Text.toNat digits)
        else Int.ofNat (Text.toNat digits)) := by
  cases reverse with
  | true => exact number?_negative h
  | false => exact number?_numeral h

/-- The condition of a formula is true at the positions that the formula
accepts. -/
theorem truth_condition {f : Formula} (h : f.isNumeric = true) (c : Context) :
    f.condition.truth c = f.accepts c.position := by
  cases f with
  | exactly numeral =>
    have hvalue : (Expr.number numeral).value c =
        .number (some (Int.ofNat (Text.toNat numeral))) := by
      show Value.number (number? numeral) = _
      rw [number?_numeral h]
    have htruth : (exactly numeral).condition.truth c =
        (Int.ofNat (Text.toNat numeral) == (c.position : Int)) :=
          truth_equal_number rfl hvalue
    rw [htruth, accepts, Bool.eq_iff_iff, beq_iff_eq, beq_iff_eq]
    rw [Int.ofNat_eq_natCast]
    omega
  | progression reverse step offset =>
    simp only [isNumeric, hasNumerals, Bool.and_eq_true] at h
    obtain ⟨hstep, hoffset⟩ := h
    have hbound := truth_boundExpr reverse hoffset c
    have hzero := toNat_eq_zero_iff hstep
    rw [condition_progression, accepts]
    generalize hdrop : step.dropWhile (· == '0') = digits at hzero
    have hdigits : Text.toNat digits = Text.toNat step := by
      rw [← hdrop, toNat_dropWhile_zero]
    cases hempty : digits.isEmpty with
    | true =>
      rw [Bool.true_or, if_pos rfl, hbound, hzero.mpr hempty]
      simp
    | false =>
      have hnumeral : isNumeral digits = true := by
        rw [← hdrop] at hempty ⊢
        exact isNumeral_dropWhile_zero hstep hempty
      have hne : Text.toNat step ≠ 0 := by
        intro heq
        rw [hzero.mp heq] at hempty
        exact absurd hempty (by decide)
      rw [Bool.false_or]
      split
      · rename_i hone
        -- every place is a multiple of one
        rw [Bool.and_eq_true, beq_iff_eq] at hone
        have hstep1 : Text.toNat step = 1 := by
          rw [← hdigits, hone.2]
          rfl
        rw [hbound, hstep1]
        simp
      · have hcast : Int.ofNat (Text.toNat digits) ≠ 0 := by
          rw [hdigits, Int.ofNat_eq_natCast]
          omega
        have hdivisor : (if reverse then -Int.ofNat (Text.toNat digits)
            else Int.ofNat (Text.toNat digits)) ≠ 0 := by
          cases reverse with
          | true => exact Int.neg_ne_zero.mpr hcast
          | false => exact hcast
        have hmultiple := truth_multipleExpr hoffset
          (number?_divisor reverse hnumeral) hdivisor c
        show ((boundExpr reverse offset).truth c &&
            (multipleExpr _ offset).truth c) = _
        rw [hbound, hmultiple, hdigits, beq_eq_false_iff_ne.mpr hne,
          Bool.false_or]
        -- the sign of the divisor does not matter for divisibility
        cases reverse with
        | true => rw [if_pos rfl, if_pos rfl, Int.tmod_neg]
        | false => rfl

/-! ### Readable conditions -/

private theorem isSigned_of_isNumeral {t : Text} (h : isNumeral t = true) :
    Expr.isSigned t = true := by
  unfold Expr.isSigned
  split
  · simp [isNumeral] at h
  · exact h

private theorem isReadable_placeExpr {offset : Option Text}
    (h : offset.all isNumeral = true) :
    (placeExpr offset).isReadable = true ∧ 5 ≤ (placeExpr offset).level := by
  cases offset with
  | none => exact ⟨rfl, by decide⟩
  | some b =>
    have hnumber : (Expr.number b).isReadable = true := isSigned_of_isNumeral h
    refine ⟨?_, Nat.le_refl 5⟩
    show (true && (Expr.number b).isReadable && true && true) = true
    rw [hnumber]
    rfl

/-- A comparison can be read back if its sides bind more closely. -/
theorem isReadable_binary {op : Operator} {l r : Expr}
    (hl : l.isReadable = true) (hr : r.isReadable = true)
    (hleft : op.level ≤ l.level) (hright : op.level < r.level) :
    (Expr.binary op l r).isReadable = true := by
  show (l.isReadable && r.isReadable && decide (op.level ≤ l.level)
    && decide (op.level < r.level)) = true
  rw [hl, hr, decide_eq_true hleft, decide_eq_true hright]
  rfl

private theorem isReadable_boundExpr (reverse : Bool) {offset : Option Text}
    (h : offset.all isNumeral = true) :
    (boundExpr reverse offset).isReadable = true := by
  obtain ⟨hreadable, hlevel⟩ := isReadable_placeExpr h
  have hop : (if reverse then Operator.atMost else .atLeast).level = 4 := by
    cases reverse <;> rfl
  apply isReadable_binary hreadable (by decide)
  · omega
  · rw [hop]
    decide

private theorem isReadable_multipleExpr {divisor : Text} {offset : Option Text}
    (h : offset.all isNumeral = true)
    (hdivisor : Expr.isSigned divisor = true) :
    (multipleExpr divisor offset).isReadable = true := by
  have hplace : (Expr.group (placeExpr offset)).isReadable = true :=
    (isReadable_placeExpr h).1
  have hnumber : (Expr.number divisor).isReadable = true := hdivisor
  have hmodulo : (Expr.binary .modulo (.group (placeExpr offset))
      (.number divisor)).isReadable =
      true := by
    apply isReadable_binary hplace hnumber
    · show 6 ≤ 7
      decide
    · show 6 < 7
      decide
  apply isReadable_binary hmodulo (by decide)
  · show 3 ≤ 6
    decide
  · decide

/-- The condition of a formula may stand as a fragment. -/
theorem isFragment_condition {f : Formula} (h : f.isNumeric = true) :
    f.condition.isFragment = true := by
  cases f with
  | exactly numeral =>
    have hreadable : (Expr.number numeral).isReadable = true :=
      isSigned_of_isNumeral h
    apply isFragment_comparison rfl
    apply isReadable_binary rfl hreadable (by decide)
    show 3 < 7
    decide
  | progression reverse step offset =>
    simp only [isNumeric, hasNumerals, Bool.and_eq_true] at h
    obtain ⟨hstep, hoffset⟩ := h
    have hbound := isReadable_boundExpr reverse hoffset
    have hcomparison : (if reverse then Operator.atMost
        else .atLeast).isComparison = true := by
      cases reverse <;> rfl
    rw [condition_progression]
    split
    · exact isFragment_comparison hcomparison hbound
    · rename_i hmany
      simp only [Bool.or_eq_true, not_or, Bool.not_eq_true] at hmany
      have hnumeral := isNumeral_dropWhile_zero hstep hmany.1
      have hdivisor : Expr.isSigned (if reverse then
          '-' :: step.dropWhile (· == '0')
          else step.dropWhile (· == '0')) = true := by
        cases reverse with
        | true => exact hnumeral
        | false => exact isSigned_of_isNumeral hnumeral
      generalize (if reverse then '-' :: step.dropWhile (· == '0')
        else step.dropWhile (· == '0')) = divisor at hdivisor ⊢
      have hmultiple := isReadable_multipleExpr hoffset hdivisor
      have hlevel : (boundExpr reverse offset).level = 4 := by
        cases reverse <;> rfl
      have hreadable : (Expr.binary .and (boundExpr reverse offset)
          (multipleExpr divisor offset)).isReadable = true := by
        apply isReadable_binary hbound hmultiple
        · rw [hlevel]
          decide
        · show 2 < 3
          decide
      -- the comparison on the left brings the sign that puts the whole in
      -- parentheses
      have hsign : '=' ∈ (Expr.binary .and (boundExpr reverse offset)
          (multipleExpr divisor offset)).render :=
        mem_render_binary.mpr (.inl (mem_render_comparison _ _ hcomparison))
      simp only [Expr.isFragment, hreadable, needsParens_of_mem hsign,
        Bool.or_true, Bool.and_true]
      rfl

/-! ### Formulas in ASCII -/

/-- The ASCII digits are the only decimal digits of ASCII. -/
theorem isDigit_of_ascii {c : Char} (hascii : c.toNat < 0x80)
    (h : Text.isDecimalDigit c = true) :
    c.isDigit = true := by
  rw [Text.isDecimalDigit, Bool.or_eq_true] at h
  rcases h with h | h
  · exact h
  · have htable : ∀ r ∈ Text.digitRanges, r = (0x30, 0x39) ∨ 0x80 ≤ r.1 := by
      decide
    rw [Text.Ranges.has, List.any_eq_true] at h
    obtain ⟨r, hr, hc⟩ := h
    simp only [Bool.and_eq_true, decide_eq_true_eq] at hc
    rcases htable r hr with rfl | hhigh
    · exact isDigit_iff.mpr hc
    · omega

private theorem hasNumerals_of_progression? {p : Char → Bool} {reverse : Bool}
    {t : Text} {f : Formula}
    (hp : ∀ c ∈ t, Text.isDecimalDigit c = true → p c = true)
    (h : progression? reverse t = some f) : f.hasNumerals p = true := by
  have hsplit :=
    List.takeWhile_append_dropWhile (p := Text.isDecimalDigit) (l := t)
  have hstep : (t.takeWhile Text.isDecimalDigit).all p = true := by
    rw [List.all_eq_true]
    intro c hc
    have hdigit : (t.takeWhile Text.isDecimalDigit).all Text.isDecimalDigit =
        true :=
      List.all_takeWhile
    exact hp c ((List.takeWhile_sublist _).subset hc)
      (List.all_eq_true.mp hdigit c hc)
  unfold progression? at h
  split at h
  · injection h with h
    rw [← h]
    simp [hasNumerals, hstep]
  · rename_i offset heq
    split at h
    · rename_i hoffset
      injection h with h
      rw [Bool.and_eq_true] at hoffset
      have hdigits : offset.all p = true := by
        rw [List.all_eq_true]
        intro c hc
        apply hp c _ (List.all_eq_true.mp hoffset.2 c hc)
        rw [← hsplit, heq]
        simp [hc]
      rw [← h]
      simp only [hasNumerals, hstep, Option.all_some, hoffset.1, hdigits,
        Bool.and_self]
    · simp at h
  · simp at h

/-- The digits of a formula come from its text, those of `odd` and `even`
apart. -/
theorem hasNumerals_of_ofTrimmed? {p : Char → Bool} {t : Text} {f : Formula}
    (hdigit : ∀ c, c.isDigit = true → p c = true)
    (hp : ∀ c ∈ t, Text.isDecimalDigit c = true → p c = true)
    (h : ofTrimmed? t = some f) :
    f.hasNumerals p = true := by
  unfold ofTrimmed? at h
  split at h
  · injection h with h
    rw [← h]
    simp [hasNumerals, hdigit '2' (by decide), hdigit '1' (by decide)]
  · split at h
    · injection h with h
      rw [← h]
      simp [hasNumerals, hdigit '2' (by decide)]
    · split at h
      · rename_i hdigits
        injection h with h
        rw [Bool.and_eq_true, List.all_eq_true] at hdigits
        rw [← h, hasNumerals, Bool.and_eq_true, List.all_eq_true]
        exact ⟨hdigits.1, fun c hc => hdigit c (hdigits.2 c hc)⟩
      · split at h
        · exact hasNumerals_of_progression?
            (fun c hc => hp c (List.mem_cons_of_mem _ hc)) h
        · exact hasNumerals_of_progression?
            (fun c hc => hp c (List.mem_cons_of_mem _ hc)) h
        · exact hasNumerals_of_progression? hp h

/-- The numerals of a formula written in ASCII are ASCII digits. -/
theorem isNumeric_of_ascii {t : Text} {f : Formula}
    (hascii : Text.isAscii t = true) (h : ofTrimmed? t = some f) :
    f.isNumeric = true := by
  apply hasNumerals_of_ofTrimmed? (fun c hc => hc) _ h
  intro c hc hdigit
  rw [Text.isAscii, List.all_eq_true] at hascii
  exact isDigit_of_ascii (of_decide_eq_true (hascii c hc)) hdigit

end Formula

/-- Trimming stays in the ASCII range. -/
theorem isAscii_trim {t : Text} (h : Text.isAscii t = true) :
    Text.isAscii (Text.trim t) = true := by
  obtain ⟨before, after, -, -, ht⟩ := Text.exists_trimBy Text.isBlank t
  have hmem : ∀ c ∈ Text.trim t, c ∈ t := by
    intro c hc
    rw [ht]
    exact List.mem_append_right _ (List.mem_append_left _ hc)
  simp only [Text.isAscii, List.all_eq_true] at h ⊢
  exact fun c hc => h c (hmem c hc)

end XPath

end SelectorPath
