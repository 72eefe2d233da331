import SelectorPath.Text.Quoted
import SelectorPath.Proofs.Replacing

/-!
# Texts as one literal

A text is written between double quotes, and a double quote inside it as the
character reference `&quot;`. No quote is left inside, so the literal ends where
it is meant to, and writing it once more changes nothing.

The text can be had back from the literal unless it held a reference of its own.
The reference begins with a character that is nowhere else in it, so an
occurrence that is found either was written for a quote or stands in the text
already: none comes about where two parts of the text meet.

## Main results

* `unquoted_unquote`: which quotes are dropped.
* `replaceWord_referenced`: the text is read back from its references.
* `quoted_literal`: all of it about the literal of a text.
-/

namespace SelectorPath.Text

/-! ## Quotes around a text -/

/-- `u` is the text `v` without one pair of matching quotes around it, where it
has one. A lone quote counts as a pair. -/
inductive Unquoted : (v u : Text) → Prop
  | pair {q : Char} {u : Text} (hq : q = '\'' ∨ q = '"') :
    Unquoted (q :: u ++ [q]) u
  | lone {q : Char} (hq : q = '\'' ∨ q = '"') : Unquoted [q] []
  | bare {v : Text}
    (hpair : ∀ q, q = '\'' ∨ q = '"' → v ≠ [q] ∧ ∀ u, v ≠ q :: u ++ [q]) :
    Unquoted v v

private theorem unquoteWith?_eq_some_iff {q : Char} {v u : Text} :
    unquoteWith? q v = some u ↔ v = q :: u ++ [q] ∨ v = [q] ∧ u = [] := by
  cases v with
  | nil => simp [unquoteWith?]
  | cons c rest =>
    rcases List.eq_nil_or_concat rest with rfl | ⟨front, d, rfl⟩
    · -- a lone character is the first and the last one
      by_cases hc : c = q
      · simp [unquoteWith?, hc, @eq_comm _ [] u]
      · simp [unquoteWith?, hc]
    · have hlast : (c :: front.concat d).getLast? = some d := by
        rw [List.concat_eq_append, ← List.cons_append, List.getLast?_concat]
      have hdrop : (front.concat d).dropLast = front := by simp
      rw [unquoteWith?, hlast, hdrop]
      by_cases hquotes : c = q ∧ d = q
      · obtain ⟨rfl, rfl⟩ := hquotes
        simp
      · rw [if_neg fun h => hquotes ⟨h.1, Option.some.inj h.2⟩]
        refine iff_of_false (by simp) ?_
        rintro (h | ⟨h, -⟩)
        · rw [List.cons_append, List.cons.injEq, List.concat_eq_append] at h
          exact hquotes ⟨h.1,
            List.singleton_inj.mp (List.append_inj_right' h.2 rfl)⟩
        · simp at h

/-- What is dropped from a text is a pair of matching quotes around it, and
nothing else. -/
theorem unquoted_unquote (v : Text) : Unquoted v (unquote v) := by
  have hunquoted : ∀ {q u}, q = '\'' ∨ q = '"' → unquoteWith? q v = some u →
      Unquoted v u := by
    intro q u hq h
    rcases unquoteWith?_eq_some_iff.mp h with rfl | ⟨rfl, rfl⟩
    · exact .pair hq
    · exact .lone hq
  rw [unquote]
  cases hsingle : unquoteWith? '\'' v with
  | some u => exact hunquoted (.inl rfl) hsingle
  | none =>
    cases hdouble : unquoteWith? '"' v with
    | some u => exact hunquoted (.inr rfl) hdouble
    | none =>
      refine .bare fun q hq => ?_
      have hnone : ∀ u, unquoteWith? q v ≠ some u := by
        rcases hq with rfl | rfl
        · simp [hsingle]
        · simp [hdouble]
      exact ⟨fun h => hnone [] (unquoteWith?_eq_some_iff.mpr (.inr ⟨h, rfl⟩)),
        fun u h => hnone u (unquoteWith?_eq_some_iff.mpr (.inl h))⟩

/-- What was in a text without its quotes is in the text. -/
theorem Unquoted.isInfix {v u : Text} (h : Unquoted v u) : u <:+: v := by
  cases h with
  | pair => exact ⟨[_], [_], rfl⟩
  | lone => exact List.nil_infix
  | bare => exact List.infix_refl _

/-! ## References -/

/-- The text with its double quotes as references. -/
def referenced (t : Text) : Text :=
  t.flatMap fun c => if c = '"' then "&quot;" else [c]

private theorem quoted_eq (v : Text) :
    quoted v = '"' :: referenced (unquote v) ++ ['"'] :=
  rfl

private theorem referenced_quote (t : Text) :
    referenced ('"' :: t) = "&quot;" ++ referenced t :=
  rfl

private theorem referenced_cons {c : Char} (hc : c ≠ '"') (t : Text) :
    referenced (c :: t) = c :: referenced t := by
  rw [referenced, List.flatMap_cons, if_neg hc]
  rfl

private theorem quote_not_mem_referenced (t : Text) : '"' ∉ referenced t := by
  induction t with
  | nil => exact List.not_mem_nil
  | cons c t ih =>
    by_cases hc : c = '"'
    · rw [hc, referenced_quote, List.mem_append]
      exact not_or.mpr ⟨by decide, ih⟩
    · rw [referenced_cons hc, List.mem_cons]
      exact not_or.mpr ⟨fun h => hc h.symm, ih⟩

private theorem referenced_of_not_mem {t : Text} (h : '"' ∉ t) :
    referenced t = t := by
  induction t with
  | nil => rfl
  | cons c t ih =>
    rw [List.mem_cons, not_or] at h
    rw [referenced_cons fun hc => h.1 hc.symm, ih h.2]

/-- What begins a text with references and holds no ampersand stands in the text
as it was. -/
theorem prefix_of_prefix_referenced {w t : Text} (hw : '&' ∉ w)
    (h : w <+: referenced t) : w <+: t := by
  induction w generalizing t with
  | nil => exact List.nil_prefix
  | cons a w ih =>
    rw [List.mem_cons, not_or] at hw
    cases t with
    | nil => exact h
    | cons c t =>
      by_cases hc : c = '"'
      · rw [hc, referenced_quote] at h
        exact absurd (List.cons_prefix_cons.mp h).1.symm hw.1
      · rw [referenced_cons hc, List.cons_prefix_cons] at h
        exact List.cons_prefix_cons.mpr ⟨h.1, ih hw.2 h.2⟩

/-- A text without references of its own is read back. -/
theorem replaceWord_referenced {t : Text} (h : ¬("&quot;" : Text) <:+: t) :
    replaceWord "&quot;" "\"" (referenced t) = t := by
  induction t with
  | nil => exact replaceFrom_nil _ false rfl
  | cons c t ih =>
    have hrest := ih fun hoccurs => h (List.infix_cons hoccurs)
    by_cases hc : c = '"'
    · rw [hc, referenced_quote, replaceWord_append (by decide), hrest]
      rfl
    · have hcopy : ¬("&quot;" : Text) <+: c :: referenced t := by
        intro hbegins
        have htail := List.cons_prefix_cons.mp hbegins
        have hbody := prefix_of_prefix_referenced (by decide) htail.2
        exact h (List.cons_prefix_cons.mpr ⟨htail.1, hbody⟩).isInfix
      rw [referenced_cons hc, replaceWord_cons (by decide) _ hcopy, hrest]

/-! ## Literals -/

private theorem unquote_literal (w : Text) :
    unquote ('"' :: w ++ ['"']) = w := by
  have hsingle : unquoteWith? '\'' ('"' :: w ++ ['"']) = none := by
    rw [List.cons_append, unquoteWith?]
    exact if_neg fun h => absurd h.1 (by decide)
  have hdouble : unquoteWith? '"' ('"' :: w ++ ['"']) = some w :=
    unquoteWith?_eq_some_iff.mpr (.inl rfl)
  rw [unquote, hsingle, hdouble]
  rfl

/-- A text is written as one literal: between its two quotes stands no other,
writing it again changes nothing, and where the text held no reference,
replacing the references gives it back, without the quotes around it. -/
theorem quoted_literal (v : Text) :
    ∃ w, quoted v = '"' :: w ++ ['"'] ∧ '"' ∉ w ∧ quoted (quoted v) = quoted v ∧
      (¬("&quot;" : Text) <:+: v →
        Unquoted v (replaceWord "&quot;" "\"" w)) := by
  have hquote := quote_not_mem_referenced (unquote v)
  refine ⟨referenced (unquote v), quoted_eq v, hquote, ?_, fun hfree => ?_⟩
  · rw [quoted_eq v, quoted_eq, unquote_literal, referenced_of_not_mem hquote]
  · have hunquoted := unquoted_unquote v
    rw [replaceWord_referenced fun hoccurs =>
      hfree (hoccurs.trans hunquoted.isInfix)]
    exact hunquoted

/-- Quotes next to those around the text, and the beginning of a reference in
front of one. -/
theorem quoted_literal_innerQuotes :
    ¬("&quot;" : Text) <:+: "'\"&quot\"'".toList ∧
      ∃ w, quoted "'\"&quot\"'" = '"' :: w ++ ['"'] ∧ '"' ∉ w ∧
        Unquoted "'\"&quot\"'" (replaceWord "&quot;" "\"" w) := by
  have hfree : ¬("&quot;" : Text) <:+: "'\"&quot\"'".toList := by
    show ¬("&quot;" : Text) <:+: ['\'', '"', '&', 'q', 'u', 'o', 't', '"', '\'']
    decide
  obtain ⟨w, hw, hquote, -, hback⟩ := quoted_literal "'\"&quot\"'"
  exact ⟨hfree, w, hw, hquote, hback hfree⟩

end SelectorPath.Text
