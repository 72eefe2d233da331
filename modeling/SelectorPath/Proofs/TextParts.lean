import SelectorPath.Text.Basic

/-!
# Parts of a text

The decimal numeral of a number, and how cutting a text at separators and
joining pieces undo each other.

A piece can be found without cutting: it holds no separator, and on either side
of it the text ends or has a separator. Where the only separator is one
character, this is the same as to look for the piece with that character on both
sides, in a text with that character added at both ends.

## Main results

* `toNat_ofNat`: the numeral of a number is read back.
* `splitBy_join`: pieces that were joined are cut apart again.
* `mem_splitBy_iff`: the pieces of a text are the parts that stand between
  separators.
* `padded_infix_iff`: looking for a part with a separator on both sides.
-/

namespace SelectorPath.Text

/-! ## Numerals -/

/-- The numeral of a number has digits only. -/
theorem isDigit_of_mem_ofNat {n : Nat} {c : Char} (h : c ∈ ofNat n) :
    c.isDigit = true :=
  Nat.isDigit_of_mem_toDigits (by decide) (by decide) h

/-- No numeral is empty. -/
theorem ofNat_ne_nil (n : Nat) : ofNat n ≠ [] :=
  List.ne_nil_of_length_pos Nat.length_toDigits_pos

/-- A numeral is read back as its number. -/
theorem toNat_ofNat (n : Nat) : toNat (ofNat n) = n :=
  Nat.ofDigitChars_ten_toDigits

/-! ## Cutting and joining -/

/-- What follows a beginning completes it to the text. -/
theorem after?_eq_some_iff {start t rest : Text} :
    after? start t = some rest ↔ t = start ++ rest := by
  induction start generalizing t with
  | nil => simp [after?]
  | cons s start ih =>
    cases t with
    | nil => simp [after?]
    | cons c t =>
      by_cases hc : s = c
      · simp [after?, hc, ih]
      · have hne : c ≠ s := fun h => hc h.symm
        simp [after?, hc, hne]

/-- A text is cut at the first place where the character stands. -/
theorem cutAt?_eq_some_iff {c : Char} {t left right : Text} :
    cutAt? c t = some (left, right) ↔ t = left ++ c :: right ∧ c ∉ left := by
  induction t generalizing left with
  | nil => simp [cutAt?]
  | cons d rest ih =>
    by_cases hd : d = c
    · subst hd
      cases left with
      | nil => simp [cutAt?]
      | cons e left =>
        simp only [cutAt?, if_true, List.mem_cons, List.cons_append,
          List.cons.injEq]
        constructor
        · rintro ⟨⟩
        · rintro ⟨⟨rfl, -⟩, hmem⟩
          exact absurd (.inl rfl) hmem
    · have hcut : cutAt? c (d :: rest) =
          (cutAt? c rest).map fun halves => (d :: halves.1, halves.2) :=
            if_neg hd
      rw [hcut, Option.map_eq_some_iff]
      constructor
      · rintro ⟨⟨left', right'⟩, hrest, heq⟩
        cases heq
        obtain ⟨rfl, hmem⟩ := ih.mp hrest
        exact ⟨rfl, by simpa [Ne.symm hd] using hmem⟩
      · rintro ⟨heq, hmem⟩
        cases left with
        | nil =>
          cases heq
          exact absurd rfl hd
        | cons e left =>
          cases heq
          exact ⟨(left, right),
            ih.mpr ⟨rfl, fun h => hmem (List.mem_cons_of_mem _ h)⟩, rfl⟩

section Cutting

variable {p : Char → Bool} {t w : Text} {sep : Char}

/-- A text without separators is one piece. -/
theorem splitBy_of_not (h : ∀ c ∈ t, p c = false) : splitBy p t = [t] := by
  induction t with
  | nil => rfl
  | cons c t ih =>
    have hc : ¬p c = true := by simp [h c List.mem_cons_self]
    rw [splitBy, if_neg hc, ih fun d hd => h d (List.mem_cons_of_mem _ hd)]

/-- The first piece ends at the first separator. -/
theorem splitBy_append_cons (h : ∀ c ∈ t, p c = false) (hsep : p sep = true)
    (rest : Text) :
    splitBy p (t ++ sep :: rest) = t :: splitBy p rest := by
  induction t with
  | nil => exact if_pos hsep
  | cons c t ih =>
    have hc : ¬p c = true := by simp [h c List.mem_cons_self]
    rw [List.cons_append, splitBy, if_neg hc,
      ih fun d hd => h d (List.mem_cons_of_mem _ hd)]

/-- A text has no separator, or it can be cut at the first one. -/
theorem exists_first_separator (p : Char → Bool) (t : Text) :
    (∀ c ∈ t, p c = false) ∨
      ∃ front sep rest, t = front ++ sep :: rest ∧ (∀ c ∈ front, p c = false) ∧
        p sep = true := by
  induction t with
  | nil => exact .inl fun c hc => absurd hc List.not_mem_nil
  | cons c t ih =>
    by_cases hc : p c = true
    · exact .inr ⟨[], c, t, rfl, fun d hd => absurd hd List.not_mem_nil, hc⟩
    · have hcons : ∀ {u : Text}, (∀ d ∈ u, p d = false) → ∀ d ∈ c :: u,
          p d = false := by
        intro u hu d hd
        rcases List.mem_cons.mp hd with rfl | hd
        · exact Bool.eq_false_iff.mpr hc
        · exact hu d hd
      rcases ih with hnone | ⟨front, sep, rest, rfl, hfront, hsep⟩
      · exact .inl (hcons hnone)
      · exact .inr ⟨c :: front, sep, rest, rfl, hcons hfront, hsep⟩

/-- Induction over the separators of a text, from left to right. -/
@[elab_as_elim]
theorem separator_induction (p : Char → Bool) {motive : Text → Prop}
    (whole : ∀ t : Text, (∀ c ∈ t, p c = false) → motive t)
    (cut : ∀ (front : Text) (sep : Char) (rest : Text),
      (∀ c ∈ front, p c = false) → p sep = true → motive rest →
      motive (front ++ sep :: rest))
    (t : Text) : motive t := by
  rcases exists_first_separator p t with hnone |
      ⟨front, sep, rest, ht, hfront, hsep⟩
  · exact whole t hnone
  · have hshort : rest.length < t.length := by
      rw [ht, List.length_append, List.length_cons]
      omega
    rw [ht]
    exact cut front sep rest hfront hsep (separator_induction p whole cut rest)
termination_by t.length

/-- No piece holds a separator. -/
theorem not_of_mem_splitBy (h : w ∈ splitBy p t) : ∀ c ∈ w, p c = false := by
  induction t using separator_induction p with
  | whole t hnone =>
    rw [splitBy_of_not hnone, List.mem_singleton] at h
    rw [h]
    exact hnone
  | cut front sep rest hfront hsep ih =>
    rw [splitBy_append_cons hfront hsep] at h
    rcases List.mem_cons.mp h with rfl | h
    · exact hfront
    · exact ih h

theorem join_singleton (sep a : Text) : join sep [a] = a := by
  simp [join]

/-- The separator stands between neighbours. -/
theorem join_cons_cons (sep a b : Text) (rest : List Text) :
    join sep (a :: b :: rest) = a ++ sep ++ join sep (b :: rest) := by
  simp [join]

/-- The characters of joined pieces are those of the pieces and of the
separator. -/
theorem mem_join {sep : Text} {pieces : List Text} {c : Char}
    (h : c ∈ join sep pieces) :
    c ∈ sep ∨ ∃ piece ∈ pieces, c ∈ piece := by
  induction pieces with
  | nil => cases h
  | cons a rest ih =>
    cases rest with
    | nil => exact .inr ⟨a, List.mem_cons_self, by simpa [join] using h⟩
    | cons b rest =>
      rw [join_cons_cons, List.mem_append, List.mem_append] at h
      rcases h with (h | h) | h
      · exact .inr ⟨a, List.mem_cons_self, h⟩
      · exact .inl h
      · rcases ih h with h | ⟨piece, hpiece, hc⟩
        · exact .inl h
        · exact .inr ⟨piece, List.mem_cons_of_mem _ hpiece, hc⟩

/-- Each piece stands in what is joined. -/
theorem infix_join {sep piece : Text} {pieces : List Text}
    (h : piece ∈ pieces) : piece <:+: join sep pieces := by
  induction pieces with
  | nil => cases h
  | cons a rest ih =>
    cases rest with
    | nil =>
      rw [List.mem_singleton] at h
      simp [join, h]
    | cons b rest =>
      rw [join_cons_cons]
      rcases List.mem_cons.mp h with rfl | h
      · exact ((List.prefix_append _ _).trans (List.prefix_append _ _)).isInfix
      · exact (ih h).trans (List.suffix_append _ _).isInfix

/-- No piece is longer than what is joined. -/
theorem length_le_join {sep piece : Text} {pieces : List Text}
    (h : piece ∈ pieces) :
    piece.length ≤ (join sep pieces).length :=
  (infix_join h).length_le

/-- Pieces without separators are found again when they are joined and cut. -/
theorem splitBy_join {pieces : List Text} (hne : pieces ≠ [])
    (hsep : p sep = true) (h : ∀ piece ∈ pieces, ∀ c ∈ piece, p c = false) :
    splitBy p (join [sep] pieces) = pieces := by
  induction pieces with
  | nil => exact absurd rfl hne
  | cons a rest ih =>
    have ha := h a List.mem_cons_self
    cases rest with
    | nil =>
      rw [join_singleton, splitBy_of_not ha]
    | cons b rest =>
      have hrest := ih (List.cons_ne_nil b rest) fun piece hpiece =>
        h piece (List.mem_cons_of_mem _ hpiece)
      rw [join_cons_cons, List.append_assoc, List.singleton_append,
        splitBy_append_cons ha hsep, hrest]

/-- Of no pieces at all an empty one is made, which is told apart by being
empty. -/
theorem mem_splitBy_join {pieces : List Text} (hsep : p sep = true)
    (h : ∀ piece ∈ pieces, ∀ c ∈ piece, p c = false) (hne : w ≠ []) :
    w ∈ splitBy p (join [sep] pieces) ↔ w ∈ pieces := by
  by_cases hpieces : pieces = []
  · rw [hpieces]
    simp [join, splitBy, hne]
  · rw [splitBy_join hpieces hsep h]

/-! ## Parts between separators -/

/-- Whether `w` stands somewhere in `t` with an end of the text or a separator
on either side. -/
def Stands (p : Char → Bool) (w t : Text) : Prop :=
  ∃ before behind, t = before ++ w ++ behind ∧ before.getLast?.all p = true ∧
    behind.head?.all p = true

private theorem eq_nil_of_getLast? (hlast : t.getLast?.all p = true)
    (h : ∀ c ∈ t, p c = false) : t = [] := by
  rcases List.eq_nil_or_concat t with rfl | ⟨front, c, rfl⟩
  · rfl
  · have hc : p c = true := by simpa using hlast
    exact absurd hc (by simp [h c (by simp)])

/-- Text behind a separator decides how the whole ends. -/
theorem getLast?_append_separator (front : Text) (hsep : p sep = true) :
    (front ++ sep :: t).getLast?.all p = t.getLast?.all p := by
  rw [List.getLast?_append, List.getLast?_cons]
  cases t.getLast? with
  | none => simp [hsep]
  | some c => rfl

/-- Two ways to cut a text in front of a separator, neither with one before it,
are the same. -/
theorem eq_of_append_eq_append {a b x y : Text} (ha : ∀ c ∈ a, p c = false)
    (hb : ∀ c ∈ b, p c = false) (hx : x.head?.all p = true)
    (hy : y.head?.all p = true) (h : a ++ x = b ++ y) : a = b := by
  rcases List.append_eq_append_iff.mp h with ⟨u, rfl, rfl⟩ | ⟨u, rfl, rfl⟩
  · cases u with
    | nil => simp
    | cons c u => exact absurd hx (by simp [hb c (by simp)])
  · cases u with
    | nil => simp
    | cons c u => exact absurd hy (by simp [ha c (by simp)])

private theorem stands_of_not (h : ∀ c ∈ t, p c = false) :
    Stands p w t ↔ w = t := by
  constructor
  · rintro ⟨before, behind, rfl, hbefore, hbehind⟩
    have hbefore := eq_nil_of_getLast? hbefore fun c hc => h c (by simp [hc])
    have hbehind : behind = [] := by
      cases behind with
      | nil => rfl
      | cons c rest => exact absurd hbehind (by simp [h c (by simp)])
    simp [hbefore, hbehind]
  · rintro rfl
    exact ⟨[], [], by simp, rfl, rfl⟩

/-- Past the first separator the rest of the text is searched as a text of its
own. -/
theorem stands_append_cons {front : Text} (hfront : ∀ c ∈ front, p c = false)
    (hsep : p sep = true) (rest : Text) (hw : ∀ c ∈ w, p c = false) :
    Stands p w (front ++ sep :: rest) ↔ w = front ∨ Stands p w rest := by
  constructor
  · rintro ⟨before, behind, h, hbefore, hbehind⟩
    rw [List.append_assoc] at h
    rcases List.append_eq_append_iff.mp h with ⟨u, rfl, hrest⟩ | ⟨u, rfl, hrest⟩
    · -- what stands before reaches over the first separator, unless it is
      -- nothing
      cases u with
      | nil =>
        have hnil := eq_nil_of_getLast? (by simpa using hbefore) hfront
        subst hnil
        exact .inl (eq_of_append_eq_append hw hfront hbehind (y := sep :: rest)
          hsep hrest.symm)
      | cons c u =>
        obtain ⟨rfl, rfl⟩ := List.cons.inj hrest
        rw [getLast?_append_separator front hsep] at hbefore
        exact .inr ⟨u, behind, by simp, hbefore, hbehind⟩
    · have hnil := eq_nil_of_getLast? hbefore fun c hc =>
        hfront c (by simp [hc])
      subst hnil
      exact .inl (eq_of_append_eq_append hw hfront hbehind (y := sep :: rest)
        hsep hrest)
  · rintro (rfl | ⟨before, behind, rfl, hbefore, hbehind⟩)
    · exact ⟨[], sep :: rest, by simp, rfl, by simpa using hsep⟩
    · rw [← getLast?_append_separator front hsep] at hbefore
      exact ⟨front ++ sep :: before, behind, by simp, hbefore, hbehind⟩

/-- The pieces of a text are the parts without a separator that stand between
separators. -/
theorem mem_splitBy_iff (hw : ∀ c ∈ w, p c = false) :
    w ∈ splitBy p t ↔ Stands p w t := by
  induction t using separator_induction p with
  | whole t hnone =>
    rw [splitBy_of_not hnone, List.mem_singleton, stands_of_not hnone]
  | cut front sep rest hfront hsep ih =>
    rw [splitBy_append_cons hfront hsep, List.mem_cons, ih,
      stands_append_cons hfront hsep rest hw]

/-- With the separator added at both ends of a text, its ends need no case of
their own. -/
theorem padded_infix_iff :
    sep :: (w ++ [sep]) <:+: sep :: (t ++ [sep]) ↔ Stands (· == sep) w t := by
  constructor
  · rintro ⟨front, back, h⟩
    -- the separator in front of `w` is the added one, or it is the last of what
    -- stands before
    obtain ⟨before, hbefore, h⟩ : ∃ before : Text,
        before.getLast?.all (· == sep) = true ∧
        before ++ w ++ sep :: back = t ++ [sep] := by
      cases front with
      | nil => exact ⟨[], rfl, by simpa using h⟩
      | cons c front =>
        exact ⟨front ++ [sep], by simp, by simpa using (List.cons.inj h).2⟩
    rcases List.eq_nil_or_concat back with rfl | ⟨back, c, rfl⟩
    · have hwhole : before ++ w = t := List.append_inj_left' h rfl
      exact ⟨before, [], by simp [hwhole], hbefore, rfl⟩
    · have hinit : before ++ w ++ sep :: back ++ [c] = t ++ [sep] := by
        simpa using h
      exact ⟨before, sep :: back, (List.append_inj_left' hinit rfl).symm,
        hbefore, by simp⟩
  · rintro ⟨before, behind, rfl, hbefore, hbehind⟩
    obtain ⟨front, hfront⟩ : ∃ front, sep :: before = front ++ [sep] := by
      rcases List.eq_nil_or_concat before with rfl | ⟨before, c, rfl⟩
      · exact ⟨[], rfl⟩
      · have hc : c = sep := by simpa using hbefore
        exact ⟨sep :: before, by simp [hc]⟩
    obtain ⟨back, hback⟩ : ∃ back, behind ++ [sep] = sep :: back := by
      cases behind with
      | nil => exact ⟨[], rfl⟩
      | cons c behind =>
        have hc : c = sep := by simpa using hbehind
        exact ⟨behind ++ [sep], by simp [hc]⟩
    refine ⟨front, back, ?_⟩
    calc front ++ sep :: (w ++ [sep]) ++ back =
      (front ++ [sep]) ++ w ++ sep :: back := by simp
      _ = sep :: before ++ w ++ (behind ++ [sep]) := by rw [← hfront, ← hback]
      _ = sep :: (before ++ w ++ behind ++ [sep]) := by simp

end Cutting

end SelectorPath.Text
