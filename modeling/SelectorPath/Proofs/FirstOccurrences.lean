import Mathlib.Data.List.Basic
import Mathlib.Data.List.Induction

/-!
# First occurrences

A list is told without its repetitions by what is in it and by the order in
which it first occurs. There is one such list, and it is what is left of the
list when repetitions are removed.

## Main results

* `eraseDups_concat`: what one more element changes.
* `listsOnce_eraseDups`, `ListsOnce.eq_eraseDups`: existence and uniqueness.
-/

namespace SelectorPath

variable {α : Type} [BEq α] [LawfulBEq α] {l u : List α}

/-- `u` lists each element of `l` once, in the order in which they first
occur. -/
structure ListsOnce {α : Type} [BEq α] (l u : List α) : Prop where
  mem_iff : ∀ a, a ∈ u ↔ a ∈ l
  order : u.Pairwise fun a b => l.idxOf a < l.idxOf b

omit [LawfulBEq α] in
/-- What lists once has no repetition. -/
theorem ListsOnce.nodup (h : ListsOnce l u) : u.Nodup := by
  refine h.order.imp fun {a b} hlt heq => ?_
  rw [heq] at hlt
  exact Nat.lt_irrefl _ hlt

/-- Elements at the end of a list do not move those before them. -/
theorem ListsOnce.order_append (h : ListsOnce l u) (more : List α) :
    u.Pairwise fun a b => (l ++ more).idxOf a < (l ++ more).idxOf b := by
  refine h.order.imp_of_mem fun {a b} ha hb hlt => ?_
  rwa [List.idxOf_append_of_mem ((h.mem_iff a).mp ha),
    List.idxOf_append_of_mem ((h.mem_iff b).mp hb)]

/-- A new element comes last, an old one keeps its place. -/
theorem eraseDups_concat (l : List α) (a : α) :
    (l ++ [a]).eraseDups = if l.contains a then l.eraseDups
      else l.eraseDups ++ [a] := by
  rw [List.eraseDups_append]
  by_cases ha : a ∈ l
  · have hremoved : [a].removeAll l = [] := by simp [List.removeAll, ha]
    simp [hremoved, ha]
  · have hkept : ([a].removeAll l).eraseDups = [a] := by
      simp [List.removeAll, ha, List.eraseDups_cons]
    simp [hkept, ha]

/-- Removing later repetitions lists once. -/
theorem listsOnce_eraseDups (l : List α) : ListsOnce l l.eraseDups := by
  induction l using List.reverseRecOn with
  | nil => exact ⟨fun a => Iff.rfl, List.Pairwise.nil⟩
  | append_singleton l a ih =>
    refine ⟨fun b => List.mem_eraseDups, ?_⟩
    rw [eraseDups_concat]
    by_cases ha : a ∈ l
    · rw [if_pos (by simpa using ha)]
      exact ih.order_append [a]
    · rw [if_neg (by simpa using ha), List.pairwise_append]
      refine ⟨ih.order_append [a], List.pairwise_singleton _ _,
        fun b hb c hc => ?_⟩
      have hb := (ih.mem_iff b).mp hb
      have hlast : (l ++ [a]).idxOf a = l.length := by
        simp [List.idxOf_append_of_notMem ha]
      rw [List.mem_singleton.mp hc, hlast, List.idxOf_append_of_mem hb]
      exact List.idxOf_lt_length_of_mem hb

/-- What is in a list, in the order of first occurrence, is all there is to
say. -/
theorem ListsOnce.eq_eraseDups (h : ListsOnce l u) : u = l.eraseDups := by
  have herased := listsOnce_eraseDups l
  have hperm : u.Perm l.eraseDups :=
    (List.perm_ext_iff_of_nodup h.nodup herased.nodup).mpr fun a =>
    (h.mem_iff a).trans (herased.mem_iff a).symm
  refine List.Perm.eq_of_pairwise (fun a b _ _ hab hba => ?_) h.order
    herased.order hperm
  exact absurd hab (Nat.lt_asymm hba)

end SelectorPath
