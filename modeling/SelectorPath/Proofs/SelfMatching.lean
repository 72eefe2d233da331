import SelectorPath.Proofs.LetterFolding

/-!
# Texts that match themselves

A condition without regard to letter case has two sides. What is looked for is
mapped by the full case mappings, which know every script, may lengthen a text
and look at the neighbours of a capital sigma. The text of the element goes
through `translate`, which replaces single letters of a few scripts. So whether
a text matches itself is asked of each of its characters: both sides must make
the same of it.

## Main results

* `flatten_eq_flatten_iff`: texts put together from pieces are equal exactly if
  the pieces are.
* `collapse_lower`: small letters of a text with collapsed white space.
* `upper_letters`: the listed letters and their capitals stand side by side, but
  for one letter.
* `filters_self_iff`: which texts and which names their own conditions find.
-/

namespace SelectorPath

namespace Text

/-! ## Pieces -/

/-- Where one side has a piece of at most one character in each place and the
other a piece of at least one, equal texts have equal pieces. -/
theorem flatten_eq_flatten_iff {xs ys : List Text}
    (hlength : xs.length = ys.length) (hxs : ∀ x ∈ xs, x.length ≤ 1)
    (hys : ∀ y ∈ ys, y ≠ []) : xs.flatten = ys.flatten ↔ xs = ys := by
  refine ⟨fun h => ?_, fun h => congrArg List.flatten h⟩
  have hshort : ∀ xs : List Text, (∀ x ∈ xs, x.length ≤ 1) →
      xs.flatten.length ≤ xs.length := by
    intro xs hxs
    induction xs with
    | nil => exact Nat.le_refl _
    | cons x xs ih =>
      have hx := hxs x List.mem_cons_self
      have hrest := ih fun y hy => hxs y (List.mem_cons_of_mem _ hy)
      rw [List.flatten_cons, List.length_append, List.length_cons]
      omega
  have hlong : ∀ ys : List Text, (∀ y ∈ ys, y ≠ []) →
      ys.length ≤ ys.flatten.length := by
    intro ys hys
    induction ys with
    | nil => exact Nat.le_refl _
    | cons y ys ih =>
      have hy := List.length_pos_of_ne_nil (hys y List.mem_cons_self)
      have hrest := ih fun x hx => hys x (List.mem_cons_of_mem _ hx)
      rw [List.flatten_cons, List.length_append, List.length_cons]
      omega
  induction xs generalizing ys with
  | nil => exact (List.length_eq_zero_iff.mp hlength.symm).symm
  | cons x xs ih =>
    cases ys with
    | nil => simp at hlength
    | cons y ys =>
      rw [List.flatten_cons, List.flatten_cons] at h
      have hxs' : ∀ x ∈ xs, x.length ≤ 1 :=
        fun z hz => hxs z (List.mem_cons_of_mem _ hz)
      have hys' : ∀ y ∈ ys, y ≠ [] :=
        fun z hz => hys z (List.mem_cons_of_mem _ hz)
      have hrest : xs.length = ys.length := Nat.succ.inj hlength
      have hhead : x.length = y.length := by
        have hsum := congrArg List.length h
        rw [List.length_append, List.length_append] at hsum
        have hx := hxs x List.mem_cons_self
        have hy := List.length_pos_of_ne_nil (hys y List.mem_cons_self)
        have hxs'' := hshort xs hxs'
        have hys'' := hlong ys hys'
        omega
      obtain ⟨rfl, htail⟩ := List.append_inj h hhead
      rw [ih hrest hxs' hys' htail]

/-! ## Small letters, character by character -/

/-- The small form of a character between `before`, nearest first, and
`rest`. -/
def smallForm (before : Text) (c : Char) (rest : Text) : Text :=
  if c == 'Σ' then [if meetsCased before && !meetsCased rest then 'ς' else 'σ']
  else lowerChar c

/-- The small forms of the characters of a text, each in its place. -/
def smallForms (before : Text) : Text → List Text
  | [] => []
  | c :: rest => smallForm before c rest :: smallForms (c :: before) rest

private theorem flatten_smallForms (before t : Text) :
    (smallForms before t).flatten = lowerAfter before t := by
  induction t generalizing before with
  | nil => rfl
  | cons c rest ih =>
    rw [smallForms, List.flatten_cons, ih, lowerAfter, smallForm]

private theorem length_smallForms (before t : Text) :
    (smallForms before t).length = t.length := by
  induction t generalizing before with
  | nil => rfl
  | cons c rest ih => rw [smallForms, List.length_cons, List.length_cons, ih]

private theorem lowerChar_ne_nil (c : Char) : lowerChar c ≠ [] := by
  unfold lowerChar
  split
  · exact List.cons_ne_nil _ _
  · split
    · exact List.cons_ne_nil _ _
    · exact List.cons_ne_nil _ _

theorem upperChar_ne_nil (c : Char) : upperChar c ≠ [] := by
  unfold upperChar
  split
  · exact List.cons_ne_nil _ _
  · split
    · rename_i sequence hlookup
      have htable : upperSequences.all
          (fun entry => !entry.2.isEmpty) = true := by decide
      obtain ⟨front, back, hsplit, -⟩ := List.lookup_eq_some_iff.mp hlookup
      have hmem : (c.toNat, sequence) ∈ upperSequences := by
        rw [hsplit]
        exact List.mem_append_right _ List.mem_cons_self
      simpa using List.all_eq_true.mp htable _ hmem
    · exact List.cons_ne_nil _ _

/-- A small form is one of the two sigmas, or the form of the character that
stands alone. -/
theorem smallForm_cases (before : Text) (c : Char) (rest : Text) :
    smallForm before c rest = ['ς'] ∧ c = 'Σ' ∨ smallForm before c rest =
      lowerChar c := by
  by_cases hsigma : c = 'Σ'
  · subst hsigma
    rw [smallForm, if_pos (by decide)]
    split
    · exact .inl ⟨rfl, rfl⟩
    · exact .inr rfl
  · rw [smallForm, if_neg (by simpa using hsigma)]
    exact .inr rfl

private theorem smallForm_ne_nil (before : Text) (c : Char) (rest : Text) :
    smallForm before c rest ≠ [] := by
  rcases smallForm_cases before c rest with ⟨hform, -⟩ | hform
  · rw [hform]
    exact List.cons_ne_nil _ _
  · rw [hform]
    exact lowerChar_ne_nil c

private theorem ne_nil_of_mem_smallForms {before t form : Text}
    (h : form ∈ smallForms before t) : form ≠ [] := by
  induction t generalizing before with
  | nil => exact absurd h List.not_mem_nil
  | cons c rest ih =>
    rcases List.mem_cons.mp h with rfl | h
    · exact smallForm_ne_nil before c rest
    · exact ih h

/-- Without the final sigma, small forms do not depend on their place. -/
theorem smallForms_eq_map {before t : Text} (h : 'ς' ∉ lowerAfter before t) :
    smallForms before t = t.map lowerChar := by
  induction t generalizing before with
  | nil => rfl
  | cons c rest ih =>
    rw [← flatten_smallForms, smallForms, List.flatten_cons, List.mem_append,
      not_or, flatten_smallForms] at h
    rcases smallForm_cases before c rest with ⟨hform, -⟩ | hform
    · rw [hform] at h
      exact absurd List.mem_cons_self h.1
    · rw [smallForms, List.map_cons, hform, ih h.2]

private theorem mem_lowerAfter_of_lowerChar {before t : Text} {c d : Char}
    (hc : c ∈ t) (hsigma : c ≠ 'Σ') (hd : d ∈ lowerChar c) :
    d ∈ lowerAfter before t := by
  induction t generalizing before with
  | nil => exact absurd hc List.not_mem_nil
  | cons e rest ih =>
    rw [lowerAfter, List.mem_append]
    rcases List.mem_cons.mp hc with rfl | hc
    · rw [if_neg (by simpa using hsigma)]
      exact .inl hd
    · exact .inr (ih hc)

/-- Quotes around a text change nothing inside, not even for a sigma next to
them. -/
theorem meetsCased_concat_quote (t : Text) :
    meetsCased (t ++ ['"']) = meetsCased t := by
  have hquote : caseIgnorableRanges.has '"' = false ∧
      casedRanges.has '"' = false := by decide +kernel
  induction t with
  | nil => simp [meetsCased, hquote.1, hquote.2]
  | cons c t ih =>
    unfold meetsCased at ih ⊢
    rw [List.cons_append, List.dropWhile_cons, List.dropWhile_cons]
    by_cases hc : caseIgnorableRanges.has c = true
    · rw [if_pos hc, if_pos hc]
      exact ih
    · rw [if_neg hc, if_neg hc]

private theorem lowerAfter_quoted (before t : Text) :
    lowerAfter (before ++ ['"']) (t ++ ['"']) =
      lowerAfter before t ++ ['"'] := by
  induction t generalizing before with
  | nil => rfl
  | cons c rest ih =>
    rw [List.cons_append, lowerAfter, lowerAfter, ← List.cons_append,
      ih (c :: before), meetsCased_concat_quote, meetsCased_concat_quote,
      List.append_assoc]

private theorem lower_quoted (t : Text) :
    lower ('"' :: t ++ ['"']) = '"' :: lower t ++ ['"'] := by
  have hrest : lowerAfter ['"'] (t ++ ['"']) = lowerAfter [] t ++ ['"'] :=
    lowerAfter_quoted [] t
  rw [lower, List.cons_append, lowerAfter, hrest]
  rfl

/-! ## White space in small letters -/

/-- Whether no run leads into the ranges. -/
def Ranges.isAvoidedBy (ranges : Ranges) (runs : List Run) : Bool :=
  runs.all fun r => ranges.all fun range =>
    (r.last : Int) + r.shift < range.1 || (range.2 : Int) < r.first + r.shift

private theorem has_iff {ranges : Ranges} {c : Char} :
    ranges.has c = true ↔ ∃ range ∈ ranges, range.1 ≤ c.toNat ∧
      c.toNat ≤ range.2 := by
  simp only [Ranges.has, List.any_eq_true, Bool.and_eq_true, decide_eq_true_eq]

/-- What is moved into ranges that no run leads into has been there before. -/
theorem has_of_has_moved {ranges : Ranges} {runs : List Run}
    (havoided : ranges.isAvoidedBy runs = true)
    (hpositive : ∀ range ∈ ranges, 0 < range.1) {c : Char}
    (h : ranges.has (moved runs c) = true) :
    ranges.has c = true := by
  unfold moved at h
  split at h
  · rename_i r hr
    obtain ⟨range, hrange, hlow, hhigh⟩ := has_iff.mp h
    have hpos := hpositive range hrange
    have hmove : r.move c.toNat = (Char.ofNat (r.move c.toNat)).toNat :=
      eq_toNat_of_ofNat (by omega) rfl
    have hcovers := List.find?_some hr
    simp only [Run.covers, Bool.and_eq_true, decide_eq_true_eq] at hcovers
    have hout := List.all_eq_true.mp
      (List.all_eq_true.mp havoided r (List.mem_of_find?_eq_some hr))
      range hrange
    simp only [Bool.or_eq_true, decide_eq_true_eq] at hout
    rw [← hmove] at hlow hhigh
    simp only [Run.move, Int.ofNat_eq_natCast] at hlow hhigh
    omega
  · exact h

private theorem isAvoidedBy_of_subset {ranges larger : Ranges} {runs : List Run}
    (hsubset : ranges ⊆ larger) (h : larger.isAvoidedBy runs = true) :
    ranges.isAvoidedBy runs = true := by
  simp only [Ranges.isAvoidedBy, List.all_eq_true] at h ⊢
  exact fun r hr range hrange => h r hr range (hsubset hrange)

/-- The runs of small letters lead neither to white space nor to the one letter
with several capitals. -/
theorem lowerRuns_avoid :
    Ranges.isAvoidedBy ((0x3B0, 0x3B0) :: blankRanges) lowerRuns = true := by
  decide +kernel

/-- What becomes a character of the ranges in small letters has been in them
before, if the mapping moves nothing into them. -/
theorem has_of_mem_lowerChar {ranges : Ranges}
    (hascii : ∀ c : Char, ranges.has c.toLower = ranges.has c)
    (hdotted : ranges.has 'i' = false ∧ ranges.has '\u0307' = false)
    (havoided : ranges.isAvoidedBy lowerRuns = true)
    (hpositive : ∀ range ∈ ranges, 0 < range.1) {c d : Char}
    (hd : d ∈ lowerChar c) (h : ranges.has d = true) : ranges.has c = true := by
  unfold lowerChar at hd
  split at hd
  · rwa [List.mem_singleton.mp hd, hascii] at h
  · split at hd
    · simp only [List.mem_cons, List.not_mem_nil, or_false] at hd
      rcases hd with rfl | rfl
      · exact absurd (h.symm.trans hdotted.1) (by decide)
      · exact absurd (h.symm.trans hdotted.2) (by decide)
    · rw [List.mem_singleton.mp hd] at h
      exact has_of_has_moved havoided hpositive h

/-- Only white space has white space for its small form. -/
theorem isBlank_of_mem_lowerChar {c d : Char} (hd : d ∈ lowerChar c)
    (h : isBlank d = true) :
    isBlank c = true :=
  has_of_mem_lowerChar isBlank_toLower ⟨by decide, by decide⟩
    (isAvoidedBy_of_subset (List.subset_cons_self _ _) lowerRuns_avoid)
      (by decide) hd h

private theorem isBlank_of_mem_smallForm {before : Text} {c : Char}
    {rest : Text} {d : Char} (hd : d ∈ smallForm before c rest)
    (h : isBlank d = true) : isBlank c = true := by
  rcases smallForm_cases before c rest with ⟨hform, -⟩ | hform
  · rw [hform, List.mem_singleton] at hd
    rw [hd] at h
    exact absurd h (by decide)
  · rw [hform] at hd
    exact isBlank_of_mem_lowerChar hd h

/-- A text of one or more characters, none of them white space. -/
def IsWord (w : Text) : Prop :=
  w ≠ [] ∧ ∀ c ∈ w, isBlank c = false

private theorem isWord_of_mem_words {t w : Text} (h : w ∈ words t) :
    IsWord w := by
  obtain ⟨hpiece, hne⟩ := List.mem_filter.mp h
  exact ⟨by simpa using hne, not_of_mem_splitBy hpiece⟩

/-- Words with single spaces between them are collapsed already. -/
theorem collapse_join {ws : List Text} (h : ∀ w ∈ ws, IsWord w) :
    collapse (join " " ws) = join " " ws := by
  by_cases hne : ws = []
  · rw [hne]
    rfl
  · have hsplit : splitBy isBlank (join " " ws) = ws :=
      splitBy_join hne (by decide) fun w hw => (h w hw).2
    have hwords : ws.filter (fun w => !w.isEmpty) = ws := by
      rw [List.filter_eq_self]
      intro w hw
      simpa using (h w hw).1
    rw [collapse, words, hsplit, hwords]

/-- The small letters of a word are a word, whatever stands around it. -/
theorem exists_lowerAfter_append (before : Text) {w : Text}
    (hw : ∀ c ∈ w, isBlank c = false) (rest : Text) :
    ∃ small, lowerAfter before (w ++ rest) =
      small ++ lowerAfter (w.reverse ++ before) rest ∧
      (w ≠ [] → small ≠ []) ∧ ∀ c ∈ small, isBlank c = false := by
  induction w generalizing before with
  | nil =>
    exact ⟨[], rfl, fun h => absurd rfl h,
      fun c hc => absurd hc List.not_mem_nil⟩
  | cons c w ih =>
    obtain ⟨small, hsmall, -, hblank⟩ :=
      ih (c :: before) fun d hd => hw d (List.mem_cons_of_mem _ hd)
    refine ⟨smallForm before c (w ++ rest) ++ small, ?_, ?_, ?_⟩
    · rw [List.cons_append, lowerAfter, hsmall, List.append_assoc,
        List.reverse_cons, List.append_assoc]
      rfl
    · intro _ hnil
      exact smallForm_ne_nil before c _ (List.append_eq_nil_iff.mp hnil).1
    · intro d hd
      rcases List.mem_append.mp hd with hd | hd
      · rw [Bool.eq_false_iff]
        intro hd'
        have hc := isBlank_of_mem_smallForm hd hd'
        rw [hw c List.mem_cons_self] at hc
        exact absurd hc (by decide)
      · exact hblank d hd

private theorem exists_lowerAfter_join (before : Text) {ws : List Text}
    (h : ∀ w ∈ ws, IsWord w) :
    ∃ smalls, lowerAfter before (join " " ws) = join " " smalls ∧
      (ws ≠ [] → smalls ≠ []) ∧
      ∀ w ∈ smalls, IsWord w := by
  induction ws generalizing before with
  | nil =>
    exact ⟨[], rfl, fun h => absurd rfl h,
      fun w hw => absurd hw List.not_mem_nil⟩
  | cons w ws ih =>
    obtain ⟨hne, hblank⟩ := h w List.mem_cons_self
    cases ws with
    | nil =>
      obtain ⟨small, hsmall, hsmallne, hword⟩ :=
        exists_lowerAfter_append before hblank []
      refine ⟨[small], ?_, fun _ => List.cons_ne_nil _ _, ?_⟩
      · rw [List.append_nil] at hsmall
        simpa [join, lowerAfter] using hsmall
      · intro v hv
        rw [List.mem_singleton.mp hv]
        exact ⟨hsmallne hne, hword⟩
    | cons w' ws =>
      obtain ⟨small, hsmall, hsmallne, hword⟩ :=
        exists_lowerAfter_append before hblank
          (" ".toList ++ join " " (w' :: ws))
      obtain ⟨smalls, hsmalls, hsmallsne, hwords⟩ :=
        ih (' ' :: (w.reverse ++ before)) fun v hv =>
          h v (List.mem_cons_of_mem _ hv)
      have hspace : lowerAfter (w.reverse ++ before)
          (" ".toList ++ join " " (w' :: ws)) =
          " ".toList ++ join " " smalls := by
        rw [← hsmalls]
        rfl
      refine ⟨small :: smalls, ?_, fun _ => List.cons_ne_nil _ _, ?_⟩
      · obtain ⟨v, vs, rfl⟩ :=
          List.exists_cons_of_ne_nil (hsmallsne (List.cons_ne_nil _ _))
        rw [join_cons_cons, List.append_assoc, hsmall, hspace, join_cons_cons,
          List.append_assoc]
      · intro v hv
        rcases List.mem_cons.mp hv with rfl | hv
        · exact ⟨hsmallne hne, hword⟩
        · exact hwords v hv

/-- A text with collapsed white space is one in small letters, too. -/
theorem collapse_lower {t : Text} (h : collapse t = t) :
    collapse (lower t) = lower t := by
  obtain ⟨smalls, hsmalls, -, hwords⟩ :=
    exists_lowerAfter_join [] fun w => @isWord_of_mem_words t w
  have hlower : lower t = join " " smalls := by
    rw [← hsmalls, ← collapse, h, lower]
  rw [hlower, collapse_join hwords]

end Text

namespace XPath

/-! ## The letters that can be listed -/

/-- The capital of a letter that has a single one. -/
def capital (c : Char) : Char :=
  (Text.upperChar c).headD c

/-- The small letter of a capital that has a single one. -/
def small (c : Char) : Char :=
  (Text.lowerChar c).headD c

/-- The letters above ASCII that can be listed. -/
def wideFoldables : Text :=
  ([0x153, 0x161, 0x17E] ++ List.range' 0xE0 32 ++ List.range' 0x3AC 35).map
    Char.ofNat

section Foldable

variable {c : Char} (h : isFoldable c = true)

include h

private theorem mem_wideFoldables (hwide : ¬c.toNat < 0x80) :
    c ∈ wideFoldables := by
  refine List.mem_map.mpr ⟨c.toNat, ?_, Char.ofNat_toNat c⟩
  simp only [List.mem_append, List.mem_range'_1, List.mem_cons,
    List.not_mem_nil, or_false]
  rcases isFoldable_iff.mp h with hsmall | rfl | rfl | rfl | hlatin | hgreek
  · omega
  · decide
  · decide
  · decide
  · omega
  · omega

/-- No run of small letters starts from a letter that can be listed. -/
theorem lowerChar_of_isFoldable : Text.lowerChar c = [c] := by
  by_cases hascii : c.toNat < 0x80
  · have hsmall := (isFoldable_of_ascii hascii).mp h
    rw [Text.lowerChar_of_ascii hascii]
    congr 1
    apply char_eq_of_toNat_eq
    rw [toNat_toLower, if_neg (by omega)]
  · have hdotted : ¬(c == '\u0130') = true := by
      rw [beq_iff_eq]
      rintro rfl
      exact absurd h (by decide)
    have htable : Text.lowerRuns.all (fun r =>
        r.last < 0xE0 || 0x3CE < r.first ||
          (0xFF < r.first && r.last < 0x3AC && !r.covers 0x153 &&
            !r.covers 0x161 && !r.covers 0x17E)) = true := by
      decide +kernel
    have hnone : Text.lowerRuns.find? (·.covers c.toNat) = none := by
      rw [List.find?_eq_none]
      intro r hr hcovers
      have hr := List.all_eq_true.mp htable r hr
      simp only [Bool.or_eq_true, Bool.and_eq_true, decide_eq_true_eq,
        Bool.not_eq_true'] at hr
      have hbounds := hcovers
      simp only [Text.Run.covers, Bool.and_eq_true, decide_eq_true_eq]
        at hbounds
      rcases isFoldable_iff.mp h with hsmall | rfl | rfl | rfl | hlatin | hgreek
      · omega
      · have hfirst : r.first ≤ 0x161 ∧ 0x161 ≤ r.last := hbounds.1
        rcases hr with (hr | hr) | ⟨⟨-, hskip⟩, -⟩
        · omega
        · omega
        · exact absurd (hskip.symm.trans hcovers) (by decide)
      · have hfirst : r.first ≤ 0x17E ∧ 0x17E ≤ r.last := hbounds.1
        rcases hr with (hr | hr) | ⟨-, hskip⟩
        · omega
        · omega
        · exact absurd (hskip.symm.trans hcovers) (by decide)
      · have hfirst : r.first ≤ 0x153 ∧ 0x153 ≤ r.last := hbounds.1
        rcases hr with (hr | hr) | ⟨⟨⟨-, hskip⟩, -⟩, -⟩
        · omega
        · omega
        · exact absurd (hskip.symm.trans hcovers) (by decide)
      · omega
      · omega
    rw [Text.lowerChar, if_neg hascii, if_neg hdotted, Text.moved, hnone]

/-- One letter has no single capital. -/
theorem lookup_upperSequences (hne : c ≠ 'ΰ') :
    Text.upperSequences.lookup c.toNat = none := by
  have htable : Text.upperSequences.all (fun entry => entry.1 == 0x3B0 ||
      !isFoldable (Char.ofNat entry.1)) =
      true := by decide
  rw [List.lookup_eq_none_iff]
  intro entry hentry
  rw [bne_iff_ne]
  intro heq
  have hentry := List.all_eq_true.mp htable entry hentry
  rw [← heq, Char.ofNat_toNat, h, Bool.not_true, Bool.or_false, beq_iff_eq]
    at hentry
  exact hne (char_eq_of_toNat_eq hentry)

/-- The capital of a letter of the table is one character, but for one letter.
-/
theorem upperChar_of_isFoldable (hne : c ≠ 'ΰ') :
    Text.upperChar c = [capital c] := by
  have hsingle : ∃ d, Text.upperChar c = [d] := by
    rw [Text.upperChar, lookup_upperSequences h hne]
    split
    · exact ⟨_, rfl⟩
    · exact ⟨_, rfl⟩
  obtain ⟨d, hd⟩ := hsingle
  rw [capital, hd]
  rfl

/-- The capitals above ASCII lead back to their letters, but for the one that
two letters share. -/
theorem capital_of_wide (hwide : ¬c.toNat < 0x80) (hne : c ≠ 'ΰ') :
    Text.isBlank (capital c) = false ∧
      (c ≠ 'ς' → Text.lowerChar (capital c) = [c]) := by
  have htable : wideFoldables.all (fun c => c == 'ΰ' ||
      !Text.isBlank (capital c) &&
        (c == 'ς' || Text.lowerChar (capital c) == [c])) = true := by
    decide +kernel
  have hc := List.all_eq_true.mp htable c (mem_wideFoldables h hwide)
  rw [Bool.or_eq_true, Bool.and_eq_true, Bool.or_eq_true, beq_iff_eq,
    beq_iff_eq, beq_iff_eq] at hc
  have hc := hc.resolve_left hne
  exact ⟨by simpa using hc.1, hc.2.resolve_left⟩

private theorem capital_of_ascii (hascii : c.toNat < 0x80) :
    Text.isBlank (capital c) = false ∧ Text.lowerChar (capital c) = [c] := by
  have hsmall := (isFoldable_of_ascii hascii).mp h
  have hcapital : capital c = c.toUpper := by
    rw [capital, Text.upperChar_of_ascii hascii]
    rfl
  have hupper := toNat_toUpper c
  rw [if_pos hsmall] at hupper
  rw [hcapital]
  refine ⟨Text.isBlank_of_letter (by omega) (by omega), ?_⟩
  rw [Text.lowerChar_of_ascii (by omega)]
  congr 1
  apply char_eq_of_toNat_eq
  rw [toNat_toLower, if_pos (by omega)]
  omega

/-- The small form of a capital of the table is its letter, but for two letters.
-/
theorem lowerChar_capital (hne : c ≠ 'ΰ') (hfinal : c ≠ 'ς') :
    Text.lowerChar (capital c) = [c] := by
  by_cases hascii : c.toNat < 0x80
  · exact (capital_of_ascii h hascii).2
  · exact (capital_of_wide h hascii hne).2 hfinal

private theorem isBlank_of_mem_upperChar {d : Char}
    (hd : d ∈ Text.upperChar c) : Text.isBlank d = false := by
  by_cases hmany : c = 'ΰ'
  · subst hmany
    have hall : (Text.upperChar 'ΰ').all (fun d => !Text.isBlank d) = true := by
      decide
    simpa using List.all_eq_true.mp hall d hd
  · rw [upperChar_of_isFoldable h hmany, List.mem_singleton] at hd
    rw [hd]
    by_cases hascii : c.toNat < 0x80
    · exact (capital_of_ascii h hascii).1
    · exact (capital_of_wide h hascii hmany).1

end Foldable

/-! ## The letters of a text -/

section Letters

variable {t : Text}

/-- The small letters of the table are the foldable ones of the text. -/
theorem mem_lower_letters {c : Char} :
    c ∈ (Letters.ofText t).lower ↔ c ∈ Text.lower t ∧ isFoldable c = true := by
  rw [Letters.ofText, List.mem_eraseDups, List.mem_filter]

/-- A letter of the text that can be listed is. -/
theorem mem_letters_of_isFoldable {c : Char} (hc : c ∈ t)
    (h : isFoldable c = true) :
    c ∈ (Letters.ofText t).lower := by
  have hsigma : c ≠ 'Σ' := by
    rintro rfl
    exact absurd h (by decide)
  refine mem_lower_letters.mpr
    ⟨Text.mem_lowerAfter_of_lowerChar hc hsigma ?_, h⟩
  rw [lowerChar_of_isFoldable h]
  exact List.mem_cons_self

/-- The listed letters and their capitals stand side by side unless one of them
has several capitals. -/
theorem upper_letters (h : 'ΰ' ∉ (Letters.ofText t).lower) :
    (Letters.ofText t).upper = (Letters.ofText t).lower.map capital := by
  have hsingle : ∀ c ∈ (Letters.ofText t).lower,
      Text.upperChar c = [capital c] := by
    intro c hc
    refine upperChar_of_isFoldable (mem_lower_letters.mp hc).2 ?_
    rintro rfl
    exact h hc
  exact (List.flatMap_congr hsingle).trans (List.flatMap_pure_eq_map capital _)

/-- No other character has the letter with several capitals for its small
form. -/
theorem mem_of_mem_lowerAfter {before : Text}
    (h : 'ΰ' ∈ Text.lowerAfter before t) : 'ΰ' ∈ t := by
  have hascii : ∀ c : Char, Text.Ranges.has [(0x3B0, 0x3B0)] c.toLower =
      Text.Ranges.has [(0x3B0, 0x3B0)] c := by
    intro c
    have hlower := toNat_toLower c
    rw [Bool.eq_iff_iff, Text.has_iff, Text.has_iff]
    simp only [List.mem_singleton, exists_eq_left]
    split at hlower <;> omega
  rw [← Text.flatten_smallForms] at h
  induction t generalizing before with
  | nil => exact absurd h List.not_mem_nil
  | cons c rest ih =>
    rw [Text.smallForms, List.flatten_cons, List.mem_append] at h
    rcases h with h | h
    · rcases Text.smallForm_cases before c rest with ⟨hform, -⟩ | hform
      · rw [hform] at h
        exact absurd h (by decide)
      · rw [hform] at h
        have havoided :
            Text.Ranges.isAvoidedBy [(0x3B0, 0x3B0)] Text.lowerRuns = true :=
          Text.isAvoidedBy_of_subset
            (List.cons_subset_cons _ (List.nil_subset _)) Text.lowerRuns_avoid
        have hc := Text.has_of_mem_lowerChar hascii ⟨by decide, by decide⟩
          havoided (by decide) h (by decide)
        obtain ⟨range, hrange, hlow, hhigh⟩ := Text.has_iff.mp hc
        rw [List.mem_singleton.mp hrange] at hlow hhigh
        have heq : c = 'ΰ' := char_eq_of_toNat_eq (Nat.le_antisymm hhigh hlow)
        rw [heq]
        exact List.mem_cons_self
    · exact List.mem_cons_of_mem _ (ih h)

private theorem letters_quoted (t : Text) :
    Letters.ofText ('"' :: t ++ ['"']) = Letters.ofText t := by
  have hfilter : ('"' :: Text.lower t ++ ['"']).filter isFoldable =
      (Text.lower t).filter isFoldable := by
    rw [List.cons_append, List.filter_cons_of_neg (by decide),
      List.filter_append, List.filter_cons_of_neg (by decide), List.filter_nil,
      List.append_nil]
  rw [Letters.ofText, Letters.ofText, Text.lower_quoted, hfilter]

end Letters

/-! ## Translation, character by character -/

private theorem translated_eq_flatten (source target t : Text) :
    translated source target t =
      (t.map fun c => translated source target [c]).flatten := by
  induction t with
  | nil => rfl
  | cons c t ih =>
    rw [List.map_cons, List.flatten_cons, ← ih]
    show translated source target ([c] ++ t) = _
    exact List.filterMap_append

/-- A translation gives one text exactly if it gives the piece of each
character. -/
theorem translated_eq_flatten_iff {source target t : Text} {pieces : List Text}
    (hlength : pieces.length = t.length)
    (hpieces : ∀ piece ∈ pieces, piece ≠ []) :
    translated source target t = pieces.flatten ↔
      (t.map fun c => translated source target [c]) = pieces := by
  rw [translated_eq_flatten]
  refine Text.flatten_eq_flatten_iff ?_ ?_ hpieces
  · rw [List.length_map, hlength]
  · intro piece hpiece
    obtain ⟨c, -, rfl⟩ := List.mem_map.mp hpiece
    exact List.length_filterMap_le _ _

/-- What is not listed stays. -/
theorem mem_translated {source target t : Text} {c : Char} (hc : c ∈ t)
    (hsource : c ∉ source) :
    c ∈ translated source target t := by
  refine List.mem_filterMap.mpr ⟨c, hc, ?_⟩
  rw [List.idxOf?_eq_none_iff.mpr hsource]

/-! ## Names -/

/-- A name is found by its own condition if each of its characters is a letter
that can be listed and has one capital, or has no other capital form. -/
theorem translated_eq_upper_iff (t : Text) :
    translated (Letters.ofText t).lower (Letters.ofText t).upper t =
      Text.upper t ↔
      ∀ c ∈ t, isFoldable c = true ∧ c ≠ 'ΰ' ∨ Text.upperChar c = [c] := by
  have hupper : Text.upper t = (t.map Text.upperChar).flatten := rfl
  have hne : ∀ piece ∈ t.map Text.upperChar, piece ≠ [] := by
    intro piece hpiece
    obtain ⟨c, -, rfl⟩ := List.mem_map.mp hpiece
    exact Text.upperChar_ne_nil c
  rw [hupper, translated_eq_flatten_iff (List.length_map _) hne,
    List.map_inj_left]
  by_cases hmany : 'ΰ' ∈ t
  · -- one character becomes three, which no translation does
    constructor
    · intro h
      have hlength := congrArg List.length (h _ hmany)
      have hone : (translated (Letters.ofText t).lower (Letters.ofText t).upper
          ['ΰ']).length ≤ 1 :=
        List.length_filterMap_le _ _
      have hthree : (Text.upperChar 'ΰ').length = 3 := rfl
      omega
    · intro h
      rcases h _ hmany with ⟨-, hne⟩ | hself
      · exact absurd rfl hne
      · exact absurd (congrArg List.length hself) (by decide)
  · have hlisted : 'ΰ' ∉ (Letters.ofText t).lower := fun h =>
      hmany (mem_of_mem_lowerAfter (mem_lower_letters.mp h).1)
    refine forall₂_congr fun c hc => ?_
    rw [upper_letters hlisted, translated_map, List.map_singleton]
    by_cases hfold : isFoldable c = true
    · have hcne : c ≠ 'ΰ' := fun heq => hmany (heq ▸ hc)
      rw [if_pos (mem_letters_of_isFoldable hc hfold),
        upperChar_of_isFoldable hfold hcne]
      exact iff_of_true rfl (.inl ⟨hfold, hcne⟩)
    · rw [if_neg fun h => hfold (mem_lower_letters.mp h).2, eq_comm]
      exact ⟨.inr, fun h => h.resolve_left fun h => hfold h.1⟩

/-! ## Texts -/

/-- A text is found by its own condition if its white space is collapsed and the
translation makes of each character its small form. -/
theorem translated_eq_collapse_lower_iff {t u : Text}
    (ht : normalizeSpace u = t) :
    translated (Letters.ofText t).upper (Letters.ofText t).lower t =
      Text.collapse (Text.lower t) ↔
      Text.collapse t = t ∧
        (t.map fun c => translated (Letters.ofText t).upper
          (Letters.ofText t).lower [c]) =
          Text.smallForms [] t := by
  have hpieces :
      translated (Letters.ofText t).upper (Letters.ofText t).lower t =
        Text.lower t ↔
      (t.map fun c => translated (Letters.ofText t).upper
        (Letters.ofText t).lower [c]) =
        Text.smallForms [] t := by
    rw [Text.lower, ← Text.flatten_smallForms]
    exact translated_eq_flatten_iff (Text.length_smallForms [] t) fun _ =>
      Text.ne_nil_of_mem_smallForms
  constructor
  · intro h
    have hspace : ∀ c ∈ t, Text.isBlank c = true → c = ' ' := by
      intro c hc hblank
      have hsource : c ∉ (Letters.ofText t).upper := by
        intro hupper
        obtain ⟨f, hf, hcf⟩ := List.mem_flatMap.mp hupper
        have hfalse := isBlank_of_mem_upperChar (mem_lower_letters.mp hf).2 hcf
        rw [hblank] at hfalse
        exact absurd hfalse (by decide)
      have hmem := @mem_translated _ (Letters.ofText t).lower _ _ hc hsource
      rw [h] at hmem
      rcases Text.mem_join hmem with hspace | ⟨w, hw, hcw⟩
      · exact List.mem_singleton.mp hspace
      · have hfalse := (Text.isWord_of_mem_words hw).2 c hcw
        rw [hblank] at hfalse
        exact absurd hfalse (by decide)
    have hcollapse : Text.collapse t = t := by
      rw [← ht]
      apply Text.collapse_join
      intro w hw
      obtain ⟨hpiece, hne⟩ := List.mem_filter.mp hw
      refine ⟨by simpa using hne, fun c hc => ?_⟩
      rw [Bool.eq_false_iff]
      intro hblank
      have hnot := Text.not_of_mem_splitBy hpiece c hc
      have hmem : c ∈ t := by
        rw [← ht]
        exact (Text.infix_join hw).subset hc
      rw [hspace c hmem hblank] at hnot
      exact absurd hnot (by decide)
    rw [Text.collapse_lower hcollapse] at h
    exact ⟨hcollapse, hpieces.mp h⟩
  · rintro ⟨hcollapse, hforms⟩
    rw [Text.collapse_lower hcollapse]
    exact hpieces.mpr hforms

/-- Where no letter has several capitals and no sigma is final, the translation
makes small forms exactly of the characters that have none, and of the capitals
of letters that can be listed. -/
theorem translated_eq_smallForms_iff {t : Text} (hmany : 'ΰ' ∉ t)
    (hfinal : 'ς' ∉ Text.lower t) :
    (t.map fun c => translated (Letters.ofText t).upper (Letters.ofText t).lower
      [c]) = Text.smallForms [] t ↔
      ∀ c ∈ t, Text.lowerChar c = [c] ∨
        ∃ f, isFoldable f = true ∧ Text.lowerChar c = [f] ∧
          Text.upperChar f = [c] := by
  have hne : ∀ f ∈ (Letters.ofText t).lower, f ≠ 'ΰ' ∧ f ≠ 'ς' := by
    intro f hf
    have hlower := (mem_lower_letters.mp hf).1
    exact ⟨fun heq => hmany (mem_of_mem_lowerAfter (heq ▸ hlower)),
      fun heq => hfinal (heq ▸ hlower)⟩
  have hupper : (Letters.ofText t).upper =
      (Letters.ofText t).lower.map capital :=
    upper_letters fun h => (hne _ h).1 rfl
  have hsmall : ∀ f ∈ (Letters.ofText t).lower,
      Text.lowerChar (capital f) = [f] := fun f hf =>
    lowerChar_capital (mem_lower_letters.mp hf).2 (hne f hf).1 (hne f hf).2
  have hlower : (Letters.ofText t).lower =
      (Letters.ofText t).upper.map small := by
    rw [hupper, List.map_map]
    refine ((List.map_congr_left fun f hf => ?_).trans (List.map_id _)).symm
    show (Text.lowerChar (capital f)).headD (capital f) = f
    rw [hsmall f hf]
    rfl
  have hforms : Text.lower t = (t.map Text.lowerChar).flatten := by
    rw [Text.lower, ← Text.flatten_smallForms, Text.smallForms_eq_map hfinal]
  rw [Text.smallForms_eq_map hfinal, List.map_inj_left]
  refine forall₂_congr fun c hc => ?_
  rw [hlower, translated_map, List.map_singleton]
  by_cases hlisted : c ∈ (Letters.ofText t).upper
  · rw [if_pos hlisted]
    rw [hupper] at hlisted
    obtain ⟨f, hf, rfl⟩ := List.mem_map.mp hlisted
    have hfold := (mem_lower_letters.mp hf).2
    refine iff_of_true ?_
      (.inr ⟨f, hfold, hsmall f hf, upperChar_of_isFoldable hfold (hne f hf).1⟩)
    rw [small, hsmall f hf]
    rfl
  · rw [if_neg hlisted]
    refine ⟨fun h => .inl h.symm, ?_⟩
    rintro (hself | ⟨f, hfold, hform, hcapital⟩)
    · exact hself.symm
    · -- the small form of a character of the text is listed, and then the
      -- character is
      have hmem : f ∈ Text.lower t := by
        rw [hforms]
        exact List.mem_flatten.mpr ⟨_, List.mem_map_of_mem hc,
          hform ▸ List.mem_cons_self⟩
      have hcf : capital f = c := by
        rw [capital, hcapital]
        rfl
      refine absurd ?_ hlisted
      rw [hupper, ← hcf]
      exact List.mem_map_of_mem (mem_lower_letters.mpr ⟨hmem, hfold⟩)

private theorem trim_quoted (d : Text) :
    Text.trim ('"' :: d ++ ['"']) = '"' :: d ++ ['"'] := by
  rw [Text.trim, Text.trimBy_append_cons (by decide) ('"' :: d) rfl,
    List.dropWhile_cons_of_neg (by decide)]

private theorem authorLiteral_quoted (d : Text) :
    authorLiteral ('"' :: d ++ ['"']) = ('"', d) := by
  rw [List.cons_append, authorLiteral, if_pos ⟨.inr rfl, List.getLast?_concat⟩,
    List.dropLast_concat]

/-- Which texts and which names their own conditions find: a text if the
translation makes of each character what the case mapping makes of it in its
place, so that a capital of another script or a final sigma is lost; a name if
each of its characters is a letter that can be listed or has no other capital
form. -/
theorem filters_self_iff (t : Token) :
    (∀ d, t.pseudo? = some (.text .equals false) →
      t.argument = some (.text ('"' :: d ++ ['"'])) → '"' ∉ d →
      ∃ fragment e, filters t = .ok [fragment] ∧ readExpr fragment = some e ∧
        ∀ c : Context, normalizeSpace c.text = d →
          (e.holds c = true ↔ Text.collapse d = d ∧
            (d.map fun ch => translated (Letters.ofText d).upper
              (Letters.ofText d).lower [ch]) =
              Text.smallForms [] d) ∧
          ('ΰ' ∉ d → 'ς' ∉ Text.lower d →
            (e.holds c = true ↔ Text.collapse d = d ∧
              ∀ ch ∈ d, Text.lowerChar ch = [ch] ∨
                ∃ f, isFoldable f = true ∧ Text.lowerChar ch = [f] ∧
                  Text.upperChar f = [ch]))) ∧
      (t.kind = .tag → '\'' ∉ t.label →
        ∃ fragment e, filters t = .ok [fragment] ∧ readExpr fragment = some e ∧
          ∀ c : Context, c.name = t.label →
            (e.holds c = true ↔
              ∀ ch ∈ t.label, isFoldable ch = true ∧ ch ≠ 'ΰ' ∨
                Text.upperChar ch = [ch])) := by
  constructor
  · intro d hpseudo hargument hquote
    have htrim : Text.trim ('"' :: d ++ ['"']) = '"' :: d ++ ['"'] :=
      trim_quoted d
    have hauthor := authorLiteral_quoted d
    have hquotable : isQuotable false ('"' :: d ++ ['"']) = true := by
      rw [isQuotable_iff, hauthor]
      exact hquote
    have hfilters := filters_eq_of_text hpseudo hargument
      (by rw [htrim]; exact List.cons_ne_nil _ _)
    rw [htrim] at hfilters
    refine ⟨_, textFilter .equals false ('"' :: d ++ ['"']), hfilters,
      readExpr_render (isReadable_textFilter .equals hquotable), ?_⟩
    intro c hd
    have hholds : (textFilter .equals false ('"' :: d ++ ['"'])).holds c =
        true ↔
        translated (Letters.ofText d).upper (Letters.ofText d).lower d =
          Text.collapse (Text.lower d) := by
      rw [holds_of_isTest c (isSealed_textFilter .equals hquotable).2,
        truth_textFilter, toText_ownExpr, letters_quoted, hd]
      show _ = (searchLiteral (Text.lower ('"' :: d ++ ['"']))).2 ↔ _
      rw [searchLiteral_eq, Text.lower_quoted, authorLiteral_quoted]
    refine ⟨hholds.trans (translated_eq_collapse_lower_iff hd),
      fun hmany hfinal => ?_⟩
    rw [hholds, translated_eq_collapse_lower_iff hd,
      translated_eq_smallForms_iff hmany hfinal]
  · intro hkind hquote
    refine ⟨_, tagFilter t.label, Draft.filters_of_tag hkind,
      readExpr_render (isReadable_tagFilter hquote), ?_⟩
    intro c hname
    rw [holds_of_isTest c rfl, truth_tagFilter_iff, hname,
      translated_eq_upper_iff]

/-- A word in Greek capitals is lost at its final sigma and one in Cyrillic at
its first letter, while accents do no harm; `ß` has a capital form of two
letters that no translation makes of it. -/
theorem filters_self_iff_finalSigma :
    (∃ fragment e, filters (.pseudoClass "text" (some (.text "\"ΣΟΦΟΣ\""))) =
      .ok [fragment] ∧
      readExpr fragment = some e ∧
        e.holds ⟨"p", fun _ => none, "ΣΟΦΟΣ", [], 1, 1⟩ = false) ∧
      (∃ fragment e, filters (.pseudoClass "text" (some (.text "\"Москва\""))) =
        .ok [fragment] ∧
        readExpr fragment = some e ∧
          e.holds ⟨"p", fun _ => none, "Москва", [], 1, 1⟩ = false) ∧
      (∃ fragment e, filters
        (.pseudoClass "text" (some (.text "\"CAFÉ Ήλιος\""))) = .ok [fragment] ∧
        readExpr fragment = some e ∧
          e.holds ⟨"p", fun _ => none, " CAFÉ\nΉλιος", [], 1, 1⟩ = true) ∧
      (∃ fragment e, filters (.tag "straße") = .ok [fragment] ∧
        readExpr fragment = some e ∧
        e.holds ⟨"straße", fun _ => none, [], [], 1, 1⟩ = false) ∧
      ∃ fragment e, filters (.tag "été") = .ok [fragment] ∧
        readExpr fragment = some e ∧
        e.holds ⟨"été", fun _ => none, [], [], 1, 1⟩ = true := by
  refine ⟨?_, ?_, ?_, ?_, ?_⟩
  · obtain ⟨fragment, e, hfilters, hread, hholds⟩ :=
      (filters_self_iff (.pseudoClass "text" (some (.text "\"ΣΟΦΟΣ\"")))).1
        "ΣΟΦΟΣ" (by decide) rfl (by decide)
    refine ⟨fragment, e, hfilters, hread, ?_⟩
    rw [Bool.eq_false_iff, Ne, (hholds _ (by decide)).1]
    decide +kernel
  · obtain ⟨fragment, e, hfilters, hread, hholds⟩ :=
      (filters_self_iff (.pseudoClass "text" (some (.text "\"Москва\"")))).1
        "Москва" (by decide) rfl (by decide)
    refine ⟨fragment, e, hfilters, hread, ?_⟩
    rw [Bool.eq_false_iff, Ne,
      (hholds _ (by decide)).2 (by decide) (by decide +kernel)]
    rintro ⟨-, h⟩
    have hform : Text.lowerChar 'М' = ['м'] := rfl
    rcases h 'М' (by decide) with hself | ⟨f, hfold, hsmall, -⟩
    · exact absurd (hform.symm.trans hself) (by decide)
    · obtain ⟨rfl, -⟩ := List.cons.inj (hform.symm.trans hsmall)
      exact absurd hfold (by decide)
  · obtain ⟨fragment, e, hfilters, hread, hholds⟩ :=
      (filters_self_iff (.pseudoClass "text" (some (.text "\"CAFÉ Ήλιος\"")))).1
        "CAFÉ Ήλιος" (by decide) rfl (by decide)
    refine ⟨fragment, e, hfilters, hread, ?_⟩
    rw [(hholds _ (by decide)).1]
    decide +kernel
  · obtain ⟨fragment, e, hfilters, hread, hholds⟩ :=
      (filters_self_iff (.tag "straße")).2 rfl (by decide)
    refine ⟨fragment, e, hfilters, hread, ?_⟩
    rw [Bool.eq_false_iff, Ne, hholds _ rfl]
    intro h
    exact absurd (h 'ß' (by decide)) (by decide)
  · obtain ⟨fragment, e, hfilters, hread, hholds⟩ :=
      (filters_self_iff (.tag "été")).2 rfl (by decide)
    refine ⟨fragment, e, hfilters, hread, ?_⟩
    rw [hholds _ rfl]
    have hall : ("été" : Text).all isFoldable = true ∧
        'ΰ' ∉ ("été" : Text) := by decide
    intro ch hch
    refine .inl ⟨List.all_eq_true.mp hall.1 ch hch, ?_⟩
    rintro rfl
    exact hall.2 hch

end XPath

end SelectorPath
