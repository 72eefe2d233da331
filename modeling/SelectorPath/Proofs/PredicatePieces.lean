import Mathlib
import SelectorPath.Proofs.Connectives
import SelectorPath.Proofs.FirstOccurrences
import SelectorPath.Proofs.LetterCase

/-!
# The pieces of a predicate

Cutting a predicate at its connective, wherever that stands outside of literals,
parentheses and brackets, gives back the fragments it was made of. A fragment
with a connective in it is in parentheses, so no cut falls into a fragment; and
the words of the connective cannot come about where a fragment meets the
connective behind or before it, for they would be a word of the fragment.

Repetitions are removed after parentheses were added. That is the same as to
remove them before, because parentheses keep different fragments apart: a
fragment that looks like another one in parentheses needs parentheses itself.

## Main results

* `splitTop_join`: solid texts that were joined are cut apart again.
* `cutsAt_join_iff`: they have the connective between them and nowhere else.
* `needsParens_iff`: which fragments are put in parentheses.
* `guarded_injective`: parentheses keep fragments apart.
* `splitTop_flatten`: the pieces of a predicate are its fragments.
-/

namespace SelectorPath.XPath

/-! ## Cutting at every connective -/

/-- The pieces between the `op`s that stand outside of everything. -/
def splitTop (op : Connective) (t : Text) : List Text :=
  match _h : cutTop op {} t with
  | some parts => parts.1 :: splitTop op parts.2
  | none => [t]
termination_by t.length
decreasing_by exact (length_cutTop _h).2

private theorem splitTop_of_some {op : Connective} {t l r : Text}
    (h : cutTop op {} t = some (l, r)) :
    splitTop op t = l :: splitTop op r := by
  rw [splitTop]
  split
  · rename_i parts hparts
    rw [h, Option.some.injEq] at hparts
    rw [← hparts]
  · rename_i hnone
    exact absurd (hnone.symm.trans h) (Option.some_ne_none _).symm

private theorem splitTop_of_none {op : Connective} {t : Text}
    (h : cutTop op {} t = none) : splitTop op t = [t] := by
  rw [splitTop]
  split
  · rename_i parts hparts
    exact absurd (h.symm.trans hparts) (Option.some_ne_none _).symm
  · rfl

/-- Solid texts that were joined are cut apart again. -/
theorem splitTop_join {op : Connective} {gs : List Text} (hgs : gs ≠ [])
    (h : ∀ g ∈ gs, IsSolid op g) :
    splitTop op (Text.join op.spaced gs) = gs := by
  induction gs with
  | nil => exact absurd rfl hgs
  | cons g gs ih =>
    have hg := h g List.mem_cons_self
    cases gs with
    | nil =>
      rw [Text.join_singleton, splitTop_of_none hg.cutTop_eq_none]
    | cons g' gs =>
      have hrest := ih (List.cons_ne_nil _ _) fun x hx =>
        h x (List.mem_cons_of_mem _ hx)
      have hcut := hg.cutTop_spaced_append (Text.join op.spaced (g' :: gs))
      rw [Text.join_cons_cons, List.append_assoc, splitTop_of_some hcut, hrest]

/-! ## All places of a connective -/

/-- Between `front` and `back` the text has an `op` that stands outside of
everything. -/
def CutsAt (op : Connective) (t front back : Text) : Prop :=
  t = front ++ (op.spaced ++ back) ∧ ({} : Nesting).run front = some {}

section CutsAt

variable {op : Connective} {g rest front back : Text}

/-- What stands in front of a connective does not matter to those behind it. -/
theorem run_spaced_append (hg : isClosed g = true) (front : Text) :
    ({} : Nesting).run (g ++ (op.spaced ++ front)) =
      ({} : Nesting).run front := by
  have hspaced : isClosed op.spaced = true := by cases op <;> decide
  rw [Nesting.run_append, isClosed_iff.mp hg, Option.bind_some,
    Nesting.run_append, isClosed_iff.mp hspaced, Option.bind_some]

/-- A connective that begins inside of another one begins with the last blank of
it: only the blanks are blanks. -/
theorem spaced_of_overlap {c d : Char} {y z : Text}
    (hfirst : op.spaced = (c :: y) ++ (d :: z))
    (hsecond : op.spaced ++ back = (d :: z) ++ rest) :
    op.spaced <+: ' ' :: rest := by
  rw [op.spaced_append] at hsecond
  obtain ⟨rfl, -⟩ := List.cons.inj hsecond
  rw [← List.append_nil op.spaced, op.spaced_append] at hfirst
  have hlast : z = [] :=
    Connective.eq_nil_of_blank (List.cons.inj hfirst).2.symm
  refine ⟨back, ?_⟩
  rw [op.spaced_append, hsecond, hlast]
  rfl

/-- Behind a solid text the connective is the one that joins it to the rest, or
it is in the rest; it cannot lie across the end of the text or across the
beginning of the rest. -/
theorem IsSolid.cutsAt_append_iff (h : IsSolid op g)
    (hrest : ¬op.spaced <+: ' ' :: rest) :
    CutsAt op (g ++ (op.spaced ++ rest)) front back ↔
      front = g ∧ back = rest ∨ ∃ front', front = g ++ (op.spaced ++ front') ∧
        CutsAt op rest front' back := by
  constructor
  · rintro ⟨heq, hrun⟩
    rcases List.append_eq_append_iff.mp heq with ⟨y, rfl, hy⟩ | ⟨y, hg, hy⟩
    · rcases List.append_eq_append_iff.mp hy with ⟨z, rfl, hz⟩ |
          ⟨z, hspaced, hz⟩
      · rw [run_spaced_append h.1] at hrun
        exact .inr ⟨z, rfl, hz, hrun⟩
      · cases y with
        | nil =>
          rw [List.nil_append] at hspaced
          rw [← hspaced] at hz
          exact .inl ⟨List.append_nil g, List.append_cancel_left hz⟩
        | cons c y =>
          cases z with
          | nil =>
            rw [List.append_nil] at hspaced
            rw [← hspaced, ← List.append_nil op.spaced, run_spaced_append h.1]
              at hrun
            exact .inr ⟨[], by rw [hspaced, List.append_nil], hz.symm, hrun⟩
          | cons d z => exact absurd (spaced_of_overlap hspaced hz) hrest
    · cases y with
      | nil =>
        rw [List.append_nil] at hg
        exact .inl ⟨hg.symm, List.append_cancel_left hy⟩
      | cons c y =>
        have hfree := h.no_cut
          (by rw [hg]; rfl : ' ' :: g = (' ' :: front) ++ c :: y)
          (List.cons_ne_nil _ _) hrun
          (op.name ++ ' ' :: rest)
        rw [← op.spaced_append, ← hy] at hfree
        exact absurd (List.prefix_append _ _) hfree
  · rintro (⟨rfl, rfl⟩ | ⟨front', rfl, rfl, hrun⟩)
    · exact ⟨rfl, isClosed_iff.mp h.1⟩
    · exact ⟨by simp, (run_spaced_append h.1 _).trans hrun⟩

private theorem IsSolid.not_cutsAt (h : IsSolid op g) :
    ¬CutsAt op g front back := fun hcut =>
  cutTop_eq_none_iff.mp h.cutTop_eq_none front back hcut.1 hcut.2

/-- What is joined does not begin with the rest of a connective. -/
theorem not_spaced_join {gs : List Text} (h : ∀ x ∈ g :: gs, IsSolid op x) :
    ¬op.spaced <+: ' ' :: Text.join op.spaced (g :: gs) := by
  have hg := h g List.mem_cons_self
  have hfree : ∀ rest, ¬op.spaced <+: ' ' :: g ++ ' ' :: rest := fun rest =>
    @IsSolid.no_cut op g hg [] (' ' :: g) rfl (List.cons_ne_nil _ _) rfl rest
  cases gs with
  | nil =>
    rw [Text.join_singleton]
    exact fun hbegins => hfree [] (hbegins.trans (List.prefix_append _ _))
  | cons g' gs =>
    rw [Text.join_cons_cons, List.append_assoc, op.spaced_append]
    exact hfree _

/-- Solid texts that were joined have the connective between them and nowhere
else. -/
theorem cutsAt_join_iff {gs : List Text} (h : ∀ g ∈ gs, IsSolid op g)
    (hgs : gs ≠ []) :
    CutsAt op (Text.join op.spaced gs) front back ↔
      ∃ fronts backs, gs = fronts ++ backs ∧ fronts ≠ [] ∧ backs ≠ [] ∧
        front = Text.join op.spaced fronts ∧
          back = Text.join op.spaced backs := by
  induction gs generalizing front with
  | nil => exact absurd rfl hgs
  | cons g gs ih =>
    have hg := h g List.mem_cons_self
    cases gs with
    | nil =>
      rw [Text.join_singleton]
      refine iff_of_false hg.not_cutsAt ?_
      rintro ⟨fronts, backs, heq, hfronts, hbacks, -⟩
      have hlength := congrArg List.length heq
      have hfronts := List.length_pos_iff.mpr hfronts
      have hbacks := List.length_pos_iff.mpr hbacks
      rw [List.length_append, List.length_singleton] at hlength
      omega
    | cons g' gs =>
      have hgs := fun x hx => h x (List.mem_cons_of_mem _ hx)
      rw [Text.join_cons_cons, List.append_assoc,
        hg.cutsAt_append_iff (not_spaced_join hgs)]
      constructor
      · rintro (⟨rfl, rfl⟩ | ⟨front', rfl, hcut⟩)
        · exact ⟨[front], g' :: gs, rfl, List.cons_ne_nil _ _,
            List.cons_ne_nil _ _, (Text.join_singleton _ _).symm, rfl⟩
        · obtain ⟨fronts, backs, heq, hfronts, hbacks, rfl, rfl⟩ :=
            (ih hgs (List.cons_ne_nil _ _)).mp hcut
          obtain ⟨f, fs, rfl⟩ := List.exists_cons_of_ne_nil hfronts
          refine ⟨g :: f :: fs, backs, by rw [heq]; rfl, List.cons_ne_nil _ _,
            hbacks, ?_, rfl⟩
          rw [Text.join_cons_cons, List.append_assoc]
      · rintro ⟨fronts, backs, heq, hfronts, hbacks, rfl, rfl⟩
        obtain ⟨f, fs, rfl⟩ := List.exists_cons_of_ne_nil hfronts
        obtain ⟨rfl, htail⟩ := List.cons.inj heq
        cases fs with
        | nil => exact .inl ⟨Text.join_singleton _ _, by rw [htail]; rfl⟩
        | cons f' fs =>
          refine .inr ⟨Text.join op.spaced (f' :: fs), ?_,
            (ih hgs (List.cons_ne_nil _ _)).mpr ?_⟩
          · rw [Text.join_cons_cons, List.append_assoc]
          · exact ⟨f' :: fs, backs, htail, List.cons_ne_nil _ _, hbacks,
              rfl, rfl⟩

end CutsAt

/-! ## Fragments that need parentheses -/

/-- The fragment holds a sign of comparison, or one of the words `and` and `or`,
in any letter case, with no word character on either side. -/
def Connects (f : Text) : Prop :=
  (∃ c ∈ f, c = '=' ∨ c = '<' ∨ c = '>') ∨
    ∃ w, Text.Stands (fun c => !Text.isWordChar c) w f ∧
      (w.asciiLower = "and" ∨ w.asciiLower = "or")

/-- The two words are made of word characters, in any letter case. -/
theorem isWordChar_of_asciiLower {w : Text}
    (h : w.asciiLower = "and" ∨ w.asciiLower = "or") {c : Char} (hc : c ∈ w) :
    Text.isWordChar c = true := by
  have hletters : (("and" : Text) ++ "or").all
      (fun d => 97 ≤ d.toNat && d.toNat ≤ 122) = true := by decide
  have hmem : c.toLower ∈ ("and" : Text) ++ "or" := by
    have hlower : c.toLower ∈ w.asciiLower := List.mem_map_of_mem hc
    rcases h with h | h
    · exact List.mem_append_left _ (h ▸ hlower)
    · exact List.mem_append_right _ (h ▸ hlower)
  have hsmall : 97 ≤ c.toLower.toNat ∧ c.toLower.toNat ≤ 122 := by
    simpa using List.all_eq_true.mp hletters _ hmem
  rw [toNat_toLower] at hsmall
  have halpha : c.isAlpha = true :=
    isAlpha_iff.mpr (by split at hsmall <;> omega)
  have hascii : c.toNat < 0x80 := by split at hsmall <;> omega
  rw [Text.isWordChar, if_pos hascii, Char.isAlphanum, halpha]
  rfl

/-- Parentheses are put around what connects. -/
theorem needsParens_iff {f : Text} : needsParens f = true ↔ Connects f := by
  rw [needsParens, Bool.or_eq_true, List.any_eq_true, List.any_eq_true]
  refine or_congr (exists_congr fun c => and_congr_right fun _ =>
    by simp [or_assoc])
    (exists_congr fun w => ?_)
  rw [Bool.or_eq_true, beq_iff_eq, beq_iff_eq, Text.wordRuns, List.mem_filter,
    and_congr_left_iff]
  intro hword
  have hne : w.isEmpty = false := by
    cases w with
    | nil => rcases hword with hword | hword <;> exact absurd hword (by decide)
    | cons => rfl
  have hmem : w ∈ Text.splitBy (fun c => !Text.isWordChar c) f ↔
      Text.Stands (fun c => !Text.isWordChar c) w f :=
        Text.mem_splitBy_iff fun c hc => by
    rw [isWordChar_of_asciiLower hword hc]
    rfl
  rw [hmem, hne]
  exact and_iff_left rfl

/-- A fragment that connects also does so in parentheses. -/
theorem Connects.parens {f : Text} (h : Connects f) :
    Connects ("(" ++ f ++ ")") := by
  rcases h with ⟨c, hc, hsign⟩ |
      ⟨w, ⟨before, behind, rfl, hbefore, hbehind⟩, hword⟩
  · exact .inl ⟨c, by simp [hc], hsign⟩
  · refine .inr ⟨w, ⟨'(' :: before, behind ++ ")", by simp, ?_, ?_⟩, hword⟩
    · rw [← List.nil_append ('(' :: before),
        Text.getLast?_append_separator [] (by decide)]
      exact hbefore
    · cases behind with
      | nil => decide
      | cons c behind => exact hbehind

/-- Parentheses keep different fragments apart. -/
theorem guarded_injective {f g : Text} (h : guarded f = guarded g) : f = g := by
  -- what looks like a fragment in parentheses would have been put in
  -- parentheses
  have hlooks : ∀ {f g : Text}, needsParens f = true → needsParens g = false →
      "(" ++ f ++ ")" ≠ g := by
    rintro f _ hf hg rfl
    rw [needsParens_iff.mpr (needsParens_iff.mp hf).parens] at hg
    exact absurd hg (by decide)
  unfold guarded at h
  cases hf : needsParens f with
  | true =>
    rw [if_pos hf] at h
    cases hg : needsParens g with
    | true =>
      rw [if_pos hg] at h
      exact List.append_cancel_left (List.append_cancel_right h)
    | false =>
      rw [if_neg (by rw [hg]; decide)] at h
      exact absurd h (hlooks hf hg)
  | false =>
    rw [if_neg (by rw [hf]; decide)] at h
    cases hg : needsParens g with
    | true =>
      rw [if_pos hg] at h
      exact absurd h.symm (hlooks hg hf)
    | false => rwa [if_neg (by rw [hg]; decide)] at h

/-! ## Predicates -/

private theorem flatten_eq (op : Connective) (fragments : List Text) :
    flatten op fragments =
      Text.join op.spaced
        (if 1 < (fragments.filter fun f => !f.isEmpty).length
          then (fragments.filter fun f => !f.isEmpty).map guarded
          else fragments.filter fun f => !f.isEmpty).eraseDups :=
  rfl

/-- Of closed fragments that say something, one alone is the predicate. Several
are found again: cut at its connective outside of everything, the predicate has
one piece for each different fragment, in the order in which they first occur,
and the piece is the fragment in parentheses exactly if it connects. The
connective stands outside of everything between two pieces and nowhere else. -/
theorem splitTop_flatten (op : Connective) {fragments u : List Text}
    (hclosed : ∀ f ∈ fragments, isClosed f = true)
    (hu : ListsOnce (fragments.filter fun f => !f.isEmpty) u) :
    (fragments.filter (fun f => !f.isEmpty) = [] → flatten op fragments = []) ∧
    (∀ f, fragments.filter (fun f => !f.isEmpty) = [f] →
      flatten op fragments = f) ∧
    (1 < (fragments.filter fun f => !f.isEmpty).length →
      List.Forall₂ (fun f piece : Text => piece = "(" ++ f ++ ")" ∧ Connects f ∨
        piece = f ∧ ¬Connects f) u (splitTop op (flatten op fragments)) ∧
      ∀ front back, CutsAt op (flatten op fragments) front back ↔
        ∃ fronts backs, splitTop op (flatten op fragments) = fronts ++ backs ∧
          fronts ≠ [] ∧ backs ≠ [] ∧
          front = Text.join op.spaced fronts ∧
            back = Text.join op.spaced backs) := by
  rw [flatten_eq]
  have hsaid : ∀ f ∈ fragments.filter (fun f => !f.isEmpty),
      isClosed f = true := fun f hf =>
    hclosed f (List.mem_filter.mp hf).1
  generalize fragments.filter (fun f => !f.isEmpty) = said at hu hsaid
  refine ⟨?_, ?_, fun hmany => ?_⟩
  · rintro rfl
    rfl
  · rintro f rfl
    rw [if_neg (by simp), List.eraseDups_cons]
    exact Text.join_singleton _ _
  · have hpieces : (said.map guarded).eraseDups = u.map guarded := by
      rw [eraseDups_map fun f _ g _ => guarded_injective, hu.eq_eraseDups]
    have hne : u.map guarded ≠ [] := by
      obtain ⟨f, hf⟩ := List.exists_mem_of_length_pos (Nat.zero_lt_of_lt hmany)
      exact List.ne_nil_of_mem (List.mem_map_of_mem ((hu.mem_iff f).mpr hf))
    have hsolid : ∀ g ∈ u.map guarded, IsSolid op g := by
      intro g hg
      obtain ⟨f, hf, rfl⟩ := List.mem_map.mp hg
      exact isSolid_guarded (hsaid f ((hu.mem_iff f).mp hf))
    rw [if_pos hmany, hpieces, splitTop_join hne hsolid,
      List.forall₂_map_right_iff, List.forall₂_same]
    refine ⟨fun f _ => ?_, fun front back => cutsAt_join_iff hsolid hne⟩
    rw [← needsParens_iff]
    cases hparens : needsParens f with
    | true => exact .inl ⟨if_pos hparens, rfl⟩
    | false => exact .inr ⟨if_neg (by rw [hparens]; decide), by decide⟩

/-- A word in a literal, in capitals, asks for parentheses, a part of a longer
word does not; the fragment that looks like another one in parentheses stays
apart from it, and the repeated one is written once. -/
theorem splitTop_flatten_wordInLiteral :
    (["@order", "", "@a = 1", "contains(., ' AND ')", "(@a = 1)", "@order"] :
      List Text).all isClosed = true ∧
      List.Forall₂ (fun f piece : Text => piece = "(" ++ f ++ ")" ∧ Connects f ∨
        piece = f ∧ ¬Connects f)
        ["@order", "@a = 1", "contains(., ' AND ')", "(@a = 1)"]
        (splitTop .and (flatten .and ["@order", "", "@a = 1",
          "contains(., ' AND ')", "(@a = 1)", "@order"])) := by
  have hclosed :
      (["@order", "", "@a = 1", "contains(., ' AND ')", "(@a = 1)", "@order"] :
        List Text).all isClosed = true := by
    decide
  refine ⟨hclosed, ?_⟩
  have honce := listsOnce_eraseDups
    ((["@order", "", "@a = 1", "contains(., ' AND ')", "(@a = 1)", "@order"] :
      List Text).filter
      fun f => !f.isEmpty)
  exact (splitTop_flatten .and (List.all_eq_true.mp hclosed) honce).2.2
    (by decide) |>.1

end SelectorPath.XPath
