import SelectorPath.Text.Occurrence
import SelectorPath.Proofs.TextParts

/-!
# Replacing from left to right

A pass over a text copies a character, or it writes what stands for an
occurrence and goes on behind the occurrence. Where the search looks only ahead
and an occurrence is never empty, the pass does the same from every place,
whatever lies behind it, and it is told by what it does at one place.

The search for a fixed word is such a search.

## Main results

* `replaceFrom_of_isForward`: the pass does not depend on what lies behind it.
* `replaceAll_of_none`, `replaceAll_of_some`: the pass at one place.
-/

namespace SelectorPath.Text

/-! ## The pass -/

/-- Replace the occurrences that lie ahead; `ended` tells whether one has just
ended. -/
def replaceFrom {α : Type} (find : Finder α) (write : α → Text) (behind : Text)
    (ended : Bool) (ahead : Text) : Text :=
  match find behind ahead with
  | some (found, left) =>
    if left.length < ahead.length then
      let taken := ahead.take (ahead.length - left.length)
      write found ++ replaceFrom find write (taken.reverse ++ behind) true left
    else
      (if ended then [] else write found) ++
        match ahead with
        | [] => []
        | c :: rest => c :: replaceFrom find write (c :: behind) false rest
  | none =>
    match ahead with
    | [] => []
    | c :: rest => c :: replaceFrom find write (c :: behind) false rest
termination_by ahead.length

/-- Replace every occurrence in a text. -/
def replaceAll {α : Type} (find : Finder α) (write : α → Text) (t : Text) :
    Text :=
  replaceFrom find write [] false t

variable {α : Type} {find : Finder α} {behind ahead rest left : Text}
    {found : α}

/-! ## The pass at one place -/

/-- At the end of a text the pass ends. -/
theorem replaceFrom_nil (write : α → Text) (ended : Bool)
    (h : find behind [] = none) :
    replaceFrom find write behind ended [] = [] := by
  rw [replaceFrom, h]

private theorem replaceFrom_of_none (write : α → Text) (ended : Bool) {c : Char}
    (h : find behind (c :: rest) = none) :
    replaceFrom find write behind ended (c :: rest) =
      c :: replaceFrom find write (c :: behind) false rest := by
  rw [replaceFrom, h]

private theorem replaceFrom_of_some (write : α → Text) (ended : Bool)
    (h : find behind ahead = some (found, left))
    (hlt : left.length < ahead.length) :
    replaceFrom find write behind ended ahead =
      write found ++
        replaceFrom find write
          ((ahead.take (ahead.length - left.length)).reverse ++ behind) true
          left := by
  rw [replaceFrom.eq_def, h]
  simp only [if_pos hlt]

/-! ## Searches that look only ahead -/

/-- Whether a search looks only at what lies ahead and takes at least one
character. -/
structure Finder.IsForward (find : Finder α) : Prop where
  ahead_only : ∀ behind ahead, find behind ahead = find [] ahead
  length_lt : ∀ {ahead found left}, find [] ahead = some (found, left) →
    left.length < ahead.length

/-- The pass does not depend on what lies behind it. -/
theorem replaceFrom_of_isForward (hfind : Finder.IsForward find)
    (write : α → Text) (behind : Text) (ended : Bool) (ahead : Text) :
    replaceFrom find write behind ended ahead =
      replaceAll find write ahead := by
  induction hlength : ahead.length using Nat.strongRecOn
      generalizing behind ended ahead with
  | ind n ih =>
    have hahead := hfind.ahead_only behind ahead
    rw [replaceAll]
    cases hnone : find [] ahead with
    | none =>
      rw [hnone] at hahead
      cases ahead with
      | nil =>
        rw [replaceFrom_nil write ended hahead,
          replaceFrom_nil write false hnone]
      | cons c rest =>
        have hrest := fun behind =>
          ih rest.length (by simp [← hlength]) behind false rest rfl
        rw [replaceFrom_of_none write ended hahead,
          replaceFrom_of_none write false hnone, hrest, hrest]
    | some occurrence =>
      obtain ⟨found, left⟩ := occurrence
      rw [hnone] at hahead
      have hlt := hfind.length_lt hnone
      have hleft := fun behind => ih left.length (by omega) behind true left rfl
      rw [replaceFrom_of_some write ended hahead hlt,
        replaceFrom_of_some write false hnone hlt, hleft, hleft]

/-- A character at which nothing is found is copied by the pass. -/
theorem replaceAll_of_none (hfind : Finder.IsForward find) (write : α → Text)
    {c : Char} (h : find [] (c :: rest) = none) :
    replaceAll find write (c :: rest) = c :: replaceAll find write rest := by
  rw [replaceAll, replaceFrom_of_none write false h,
    replaceFrom_of_isForward hfind]

/-- An occurrence is replaced, and the pass goes on behind it. -/
theorem replaceAll_of_some (hfind : Finder.IsForward find) (write : α → Text)
    (h : find [] ahead = some (found, left)) :
    replaceAll find write ahead =
      write found ++ replaceAll find write left := by
  rw [replaceAll, replaceFrom_of_some write false h (hfind.length_lt h),
    replaceFrom_of_isForward hfind]

/-! ## Words -/

/-- The search for a fixed word. -/
def findWord (word : Text) : Finder Unit := fun _ ahead =>
  (after? word ahead).map fun left => ((), left)

/-- The text with every occurrence of a word replaced. -/
def replaceWord (word replacement t : Text) : Text :=
  replaceAll (findWord word) (fun _ => replacement) t

private theorem isForward_findWord {word : Text} (hword : word ≠ []) :
    Finder.IsForward (findWord word) where
  ahead_only _ _ := rfl
  length_lt := by
    intro ahead found left h
    obtain ⟨rest, hrest, heq⟩ := Option.map_eq_some_iff.mp h
    obtain ⟨-, rfl⟩ := Prod.mk.inj heq
    have hlength := length_after? hrest
    have hpos := List.length_pos_iff.mpr hword
    omega

/-- A character that begins no occurrence is copied. -/
theorem replaceWord_cons {word : Text} (hword : word ≠ []) (replacement : Text)
    {c : Char} (h : ¬word <+: c :: rest) :
    replaceWord word replacement (c :: rest) =
      c :: replaceWord word replacement rest := by
  refine replaceAll_of_none (isForward_findWord hword) _ ?_
  rw [findWord, Option.map_eq_none_iff, Option.eq_none_iff_forall_ne_some]
  exact fun left hleft => h ⟨left, (after?_eq_some_iff.mp hleft).symm⟩

/-- A word is replaced where it stands. -/
theorem replaceWord_append {word : Text} (hword : word ≠ [])
    (replacement rest : Text) :
    replaceWord word replacement (word ++ rest) =
      replacement ++ replaceWord word replacement rest := by
  have hfind : findWord word [] (word ++ rest) = some ((), rest) := by
    rw [findWord, after?_eq_some_iff.mpr rfl, Option.map_some]
  exact replaceAll_of_some (isForward_findWord hword) _ hfind

end SelectorPath.Text
