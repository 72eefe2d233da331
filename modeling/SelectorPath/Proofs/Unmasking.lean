import Mathlib
import SelectorPath.Proofs.Placeholders

/-!
# Unmasking

Restoring looks for placeholders without knowing which characters of a masked
text the author wrote and which were put there for a literal. What it takes for
a placeholder begins with the mark of one, two low lines and an `S`. A mark
cannot begin with characters of the author and end in a placeholder, for a
placeholder shows two low lines first, where the mark goes on with one low line
and an `S` or with the `S` alone. So a mark is all the author's or begins an
issued placeholder, and where the author writes none, restoring stops at the
issued placeholders only, each at its own place and with its own number.

## Main results

* `mark_of_placeholder?_mask`: a placeholder that begins with a character of the
  author has the author's mark.
* `restore_mask`: restoring puts the literals back in their places.
* `restore_capture`: unmasking undoes masking.
-/

namespace SelectorPath.Literal

/-- The mark that a placeholder begins with, in characters outside of
literals. -/
def mark : List Segment :=
  [.char '_', .char '_', .char 'S']

@[simp] theorem source_append (a b : List Segment) :
    source (a ++ b) = source a ++ source b :=
  List.flatMap_append

/-! ## Marks in a masked text -/

/-- A masked text begins with a character of the author, or with two low
lines. -/
theorem mask_eq_cons {index : Nat} {segments : List Segment} {c : Char}
    {t : Text} (h : mask index segments = c :: t) :
    (∃ rest, segments = .char c :: rest ∧ mask index rest = t) ∨ c = '_' ∧
      t.head? = some '_' := by
  cases segments with
  | nil => cases h
  | cons segment rest =>
    cases segment with
    | char d =>
      obtain ⟨rfl, hrest⟩ := List.cons.inj h
      exact .inl ⟨rest, rfl, hrest⟩
    | literal literal =>
      obtain ⟨rfl, rfl⟩ := List.cons.inj h
      exact .inr ⟨rfl, rfl⟩

private theorem placeholder?_eq_some_mark {ahead digits left : Text}
    (h : placeholder? ahead = some (digits, left)) :
    ∃ rest, ahead = '_' :: '_' :: 'S' :: rest :=
  ⟨digits ++ "__" ++ left, by simpa using placeholder?_eq_some h⟩

/-- A placeholder that begins with a character of the author has the author's
mark. -/
theorem mark_of_placeholder?_mask {index : Nat} {c : Char} {rest : List Segment}
    {digits left : Text}
    (h : placeholder? (mask index (.char c :: rest)) = some (digits, left)) :
    mark <+: .char c :: rest := by
  obtain ⟨behind, hmask⟩ := placeholder?_eq_some_mark h
  obtain ⟨rfl, hsecond⟩ := List.cons.inj hmask
  -- The second low line may begin an issued placeholder, but then no `S`
  -- follows it.
  rcases mask_eq_cons hsecond with ⟨rest₁, rfl, hthird⟩ | ⟨-, hhead⟩
  · rcases mask_eq_cons hthird with ⟨rest₂, rfl, -⟩ | ⟨hletter, -⟩
    · exact ⟨rest₂, rfl⟩
    · exact absurd hletter (by decide)
  · exact absurd hhead (by simp)

/-! ## Restoring -/

/-- Where the author writes no mark, restoring puts the literals back in their
places. -/
theorem restore_mask {table : List Text} {index : Nat} {segments : List Segment}
    (hmark : ¬mark <:+: segments)
    (htable : table.drop index = literals segments) :
    restore table (mask index segments) = source segments := by
  induction segments generalizing index with
  | nil => simp [mask, restore]
  | cons segment rest ih =>
    have hrest : ¬mark <:+: rest := fun h => hmark (List.infix_cons h)
    cases segment with
    | char c =>
      have hnone : placeholder? (c :: mask index rest) = none := by
        rw [Option.eq_none_iff_forall_ne_some]
        rintro ⟨digits, left⟩ hfound
        exact hmark (mark_of_placeholder?_mask hfound).isInfix
      rw [mask, restore_cons_of_none hnone, ih hrest htable]
      rfl
    | literal literal =>
      rw [literals] at htable
      have hliteral : table[index]? = some literal := by
        rw [← List.head?_drop, htable, List.head?_cons]
      have htail : table.drop (index + 1) = literals rest := by
        rw [← List.tail_drop, htable, List.tail_cons]
      rw [mask, restore_placeholder hliteral, ih hrest htail]
      rfl

/-- Unmasking undoes masking: in a text without the mark of a placeholder,
whatever else stands next to its literals, restoring the masked text gives the
text back. -/
theorem restore_capture {t : Text} (h : ¬("__S" : Text) <:+: t) :
    restore (capture t).2 (capture t).1 = t := by
  have hmark : ¬mark <:+: segments t := by
    rintro ⟨front, behind, hsegments⟩
    refine h ⟨source front, source behind, ?_⟩
    rw [← source_segments t, ← hsegments, source_append, source_append]
    rfl
  rw [capture, restore_mask hmark List.drop_zero, source_segments]

/-- Eleven literals with no character between them, behind two low lines and in
front of what looks like the end of a placeholder. -/
def adjacentLiterals : Text :=
  "__''''''''''''''''''''\"x\"S1__"

/-- Eleven literals one beside the other are masked and restored. -/
theorem restore_capture_adjacentLiterals :
    ¬("__S" : Text) <:+: adjacentLiterals ∧
      (capture adjacentLiterals).1 =
        "____S0____S1____S2____S3____S4____S5____S6____S7____S8____S9____S10__S1__" ∧
      restore (capture adjacentLiterals).2 (capture adjacentLiterals).1 =
        adjacentLiterals := by
  have hmark : ¬("__S" : Text) <:+: adjacentLiterals := by decide
  exact ⟨hmark, by cbv, restore_capture hmark⟩

end SelectorPath.Literal
