import SelectorPath.Text.Blank

/-!
# Trimming

What trimming takes off the ends of a text satisfies the predicate, and what it
leaves neither starts nor ends with a character that does. So a text is trimmed
once only, and trimming takes back what was added at the end of a trimmed text.

## Main results

* `trimBy_trimBy`, `trim_trim`: trimming twice is trimming once.
* `exists_trimBy`, `isTrimmedBy_trimBy`: what trimming takes off and what it
  leaves.
* `trimBy_append`: trimming undoes appending.
-/

namespace SelectorPath.Text

private theorem dropWhile_eq_self {p : Char → Bool} {t : Text}
    (h : t.head?.all (fun c => !p c) = true) :
    t.dropWhile p = t := by
  cases t with
  | nil => rfl
  | cons c rest =>
    have hc : p c = false := by simpa using h
    rw [List.dropWhile_cons, hc]
    rfl

theorem head?_dropWhile (p : Char → Bool) (t : Text) :
    (t.dropWhile p).head?.all (fun c => !p c) = true := by
  induction t with
  | nil => rfl
  | cons c rest ih =>
    rw [List.dropWhile_cons]
    split
    · exact ih
    · simp_all

/-- The first character stays when the end is trimmed, as long as any does. -/
theorem head?_trimEndBy {p q : Char → Bool} {t : Text}
    (h : t.head?.all q = true) :
    (trimEndBy p t).head?.all q = true := by
  obtain ⟨rest, hrest⟩ : trimEndBy p t <+: t := by
    rw [trimEndBy, ← List.reverse_suffix, List.reverse_reverse]
    exact List.dropWhile_suffix p
  cases hend : trimEndBy p t with
  | nil => rfl
  | cons c u =>
    rw [← hrest, hend] at h
    exact h

private theorem trimEndBy_trimEndBy (p : Char → Bool) (t : Text) :
    trimEndBy p (trimEndBy p t) = trimEndBy p t := by
  simp only [trimEndBy, List.reverse_reverse]
  rw [dropWhile_eq_self (head?_dropWhile p t.reverse)]

/-- Trimming twice is trimming once. -/
theorem trimBy_trimBy (p : Char → Bool) (t : Text) :
    trimBy p (trimBy p t) = trimBy p t := by
  have hhead : (trimBy p t).head?.all (fun c => !p c) = true :=
    head?_trimEndBy (head?_dropWhile p t)
  show trimEndBy p ((trimBy p t).dropWhile p) = _
  rw [dropWhile_eq_self hhead]
  exact trimEndBy_trimEndBy p _

/-- Trimming white space twice is trimming it once. -/
theorem trim_trim (t : Text) : trim (trim t) = trim t :=
  trimBy_trimBy isBlank t

theorem trimBy_eq_self {p : Char → Bool} {t : Text} (h : ∀ c ∈ t, p c = false) :
    trimBy p t = t := by
  have hhead : ∀ u : Text, (∀ c ∈ u, p c = false) → u.dropWhile p = u := by
    intro u hu
    apply dropWhile_eq_self
    cases u with
    | nil => rfl
    | cons c rest => simpa using hu c (List.mem_cons_self ..)
  have hreverse := hhead t.reverse fun c hc => h c (List.mem_reverse.mp hc)
  rw [trimBy, hhead t h, trimEndBy, hreverse, List.reverse_reverse]

/-- What trimming takes off the end. -/
theorem exists_trimEndBy (p : Char → Bool) (t : Text) :
    ∃ after : Text, after.all p = true ∧ t = trimEndBy p t ++ after := by
  refine ⟨(t.reverse.takeWhile p).reverse, ?_, ?_⟩
  · rw [List.all_reverse]
    exact List.all_takeWhile
  · rw [trimEndBy, ← List.reverse_append, List.takeWhile_append_dropWhile,
      List.reverse_reverse]

/-- What trimming takes off the two ends. -/
theorem exists_trimBy (p : Char → Bool) (t : Text) :
    ∃ before after : Text, before.all p = true ∧ after.all p = true ∧
      t = before ++ (trimBy p t ++ after) := by
  obtain ⟨after, hafter, heq⟩ := exists_trimEndBy p (t.dropWhile p)
  refine ⟨t.takeWhile p, after, List.all_takeWhile, hafter, ?_⟩
  rw [trimBy, ← heq, List.takeWhile_append_dropWhile]

/-- Whether a text neither starts nor ends with a character satisfying `p`. -/
def isTrimmedBy (p : Char → Bool) (t : Text) : Bool :=
  t.head?.all (fun c => !p c) && t.getLast?.all (fun c => !p c)

/-- What was trimmed is trimmed. -/
theorem isTrimmedBy_trimBy (p : Char → Bool) (t : Text) :
    isTrimmedBy p (trimBy p t) = true := by
  have hhead : (trimBy p t).head?.all (fun c => !p c) = true :=
    head?_trimEndBy (head?_dropWhile p t)
  have hlast : (trimBy p t).getLast?.all (fun c => !p c) = true := by
    rw [trimBy, trimEndBy, List.getLast?_reverse]
    exact head?_dropWhile p _
  rw [isTrimmedBy, hhead, hlast]
  rfl

/-! ## Trimming what was appended -/

private theorem trimEndBy_append_cons {p : Char → Bool} {c : Char}
    (hc : p c = false) (front : Text) {after : Text}
    (hafter : after.all p = true) :
    trimEndBy p (front ++ c :: after) = front ++ [c] := by
  have hreverse : (front ++ c :: after).reverse =
      after.reverse ++ c :: front.reverse := by simp
  have hdrop : ∀ d ∈ after.reverse, p d = true := by
    intro d hd
    exact List.all_eq_true.mp hafter d (List.mem_reverse.mp hd)
  rw [trimEndBy, hreverse, List.dropWhile_append_of_pos hdrop,
    dropWhile_eq_self (by simpa using hc)]
  simp

/-- Trimming ends at the last character that stays. -/
theorem trimBy_append_cons {p : Char → Bool} {c : Char} (hc : p c = false)
    (front : Text) {after : Text} (hafter : after.all p = true) :
    trimBy p (front ++ c :: after) = front.dropWhile p ++ [c] := by
  have hstart : (front ++ c :: after).dropWhile p =
      front.dropWhile p ++ c :: after := by
    induction front with
    | nil => exact dropWhile_eq_self (by simpa using hc)
    | cons d front ih =>
      by_cases hd : p d = true
      · rw [List.cons_append, List.dropWhile_cons_of_pos hd,
          List.dropWhile_cons_of_pos hd, ih]
      · rw [List.cons_append, List.dropWhile_cons_of_neg hd,
          List.dropWhile_cons_of_neg hd]
        rfl
  rw [trimBy, hstart, trimEndBy_append_cons hc _ hafter]

/-- Trimming takes back what was added at the end of a trimmed text. -/
theorem trimBy_append {p : Char → Bool} {t w : Text}
    (ht : isTrimmedBy p t = true) (hw : w.all p = true) :
    trimBy p (t ++ w) = t := by
  rw [isTrimmedBy, Bool.and_eq_true] at ht
  obtain ⟨hhead, hlast⟩ := ht
  rcases List.eq_nil_or_concat t with rfl | ⟨front, c, rfl⟩
  · have hdrop : w.dropWhile p = [] := by
      rw [← List.append_nil w]
      exact List.dropWhile_append_of_pos (List.all_eq_true.mp hw)
    rw [List.nil_append, trimBy, hdrop]
    rfl
  · rw [List.concat_eq_append] at hhead hlast ⊢
    have hc : p c = false := by simpa using hlast
    have hfront : front.dropWhile p = front := by
      apply dropWhile_eq_self
      cases front with
      | nil => rfl
      | cons d front => exact hhead
    rw [List.append_assoc, List.singleton_append,
      trimBy_append_cons hc front hw, hfront]

/-- What stands in front and is dropped does not matter. -/
theorem trimBy_append_left {p : Char → Bool} {lead : Text}
    (h : lead.all p = true) (t : Text) :
    trimBy p (lead ++ t) = trimBy p t := by
  rw [trimBy, List.dropWhile_append_of_pos (List.all_eq_true.mp h), ← trimBy]

/-- Trimmed texts stay trimmed when they are put together. -/
theorem isTrimmedBy_append {p : Char → Bool} {a b : Text} (hne : a ≠ [])
    (hne' : b ≠ []) (ha : isTrimmedBy p a = true) (hb : isTrimmedBy p b = true)
    (sep : Text) :
    isTrimmedBy p (a ++ sep ++ b) = true := by
  rw [isTrimmedBy, Bool.and_eq_true] at ha hb ⊢
  refine ⟨?_, ?_⟩
  · cases a with
    | nil => exact absurd rfl hne
    | cons c a => exact ha.1
  · rcases List.eq_nil_or_concat b with rfl | ⟨front, c, rfl⟩
    · exact absurd rfl hne'
    · simpa [List.getLast?_append] using hb.2

end SelectorPath.Text
