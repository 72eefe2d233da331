import Mathlib
import SelectorPath.Custom.NameUse
import SelectorPath.Custom.Registry
import SelectorPath.Proofs.Replacing

/-!
# Uses of plain names in a text

Plain names are replaced in one pass from left to right. A use starts with a
colon and takes at least that, so what lies behind a place does not matter to
what is replaced from there on, and the pass is told by what it does at one
place: it copies a character, or it writes what stands for a use and goes on
behind the use.

## Main results

* `argumentBehind?_eq_some_iff`: what is found behind a name.
* `NameUse.Leads.written`: a use that is found is what is written there.
* `replaceAll_use`, `replaceAll_colon`, `replaceAll_other`: the pass at one
  place.
* `replaceAll_skip`: a text without colons is copied.
* `replaceAll_congr`: the pass looks only at what is written for uses of the
  names.
-/

namespace SelectorPath

/-! ## What stands behind a name -/

/-- An argument is taken up to its closing parenthesis. -/
theorem argumentBehind?_argument {argument : Text} (hne : argument ≠ [])
    (hparen : ')' ∉ argument) (left : Text) :
    argumentBehind? ('(' :: (argument ++ ')' :: left)) =
      some (some argument, left) := by
  have hcut : Text.cutAt? ')' (argument ++ ')' :: left) =
      some (argument, left) :=
    Text.cutAt?_eq_some_iff.mpr ⟨rfl, hparen⟩
  have hsome : argument.isEmpty = false := by simpa using hne
  simp only [argumentBehind?, hcut, hsome, Bool.false_eq_true, if_false]

/-- Where no argument stands, a name ends unless it goes on. -/
theorem argumentBehind?_bare {ahead : Text}
    (h : ∀ a left, a ≠ [] → ')' ∉ a → ahead ≠ '(' :: (a ++ ')' :: left)) :
    argumentBehind? ahead = if ahead.head?.any continuesName then none
      else some (none, ahead) := by
  unfold argumentBehind?
  simp only
  split
  · rename_i rest
    split
    · rename_i a left hcut
      obtain ⟨rfl, hparen⟩ := Text.cutAt?_eq_some_iff.mp hcut
      rw [if_pos]
      by_contra hne
      exact h a left (by simpa using hne) hparen rfl
    · rfl
  · rfl

/-- What is found behind a name: an argument in parentheses, which is not empty,
or nothing where there is no argument and the name does not go on. -/
theorem argumentBehind?_eq_some_iff {ahead left : Text}
    {argument : Option Text} :
    argumentBehind? ahead = some (argument, left) ↔
      (∃ a, argument = some a ∧ a ≠ [] ∧ ')' ∉ a ∧
        ahead = '(' :: (a ++ ')' :: left)) ∨
        argument = none ∧ ahead = left ∧ left.head?.any continuesName = false ∧
          ∀ a left', a ≠ [] → ')' ∉ a → left ≠ '(' :: (a ++ ')' :: left') := by
  constructor
  · intro h
    by_cases hargument : ∃ a left', a ≠ [] ∧ ')' ∉ a ∧
      ahead = '(' :: (a ++ ')' :: left')
    · obtain ⟨a, left', hne, hparen, rfl⟩ := hargument
      rw [argumentBehind?_argument hne hparen] at h
      cases h
      exact .inl ⟨a, rfl, hne, hparen, rfl⟩
    · have hbare : ∀ a left', a ≠ [] → ')' ∉ a →
          ahead ≠ '(' :: (a ++ ')' :: left') :=
        fun a left' hne hparen heq => hargument ⟨a, left', hne, hparen, heq⟩
      rw [argumentBehind?_bare hbare] at h
      split at h
      · cases h
      · rename_i hended
        cases h
        exact .inr ⟨rfl, rfl, by simpa using hended, hbare⟩
  · rintro (⟨a, rfl, hne, hparen, rfl⟩ | ⟨rfl, rfl, hended, hbare⟩)
    · exact argumentBehind?_argument hne hparen left
    · rw [argumentBehind?_bare hbare, hended]
      rfl

/-! ## Uses that are found -/

/-- Whether a use lies directly ahead, and `left` behind it. -/
def NameUse.Leads (use : NameUse) (ahead left : Text) : Prop :=
  ∃ rest, ahead = use.name ++ rest ∧
    argumentBehind? rest = some (use.argument, left)

/-- What is found leads, whatever names there are. -/
theorem leads_of_useOfNames? {names : List Text} {ahead left : Text}
    {use : NameUse} (h : useOfNames? names ahead = some (use, left)) :
    use.name ∈ names ∧ use.Leads ahead left := by
  obtain ⟨name, hname, h⟩ := List.exists_of_findSome?_eq_some h
  simp only [Option.bind_eq_bind, Option.bind_eq_some_iff] at h
  obtain ⟨rest, hrest, ⟨argument, left'⟩, hbehind, h⟩ := h
  cases h
  exact ⟨hname, rest, Text.after?_eq_some_iff.mp hrest, hbehind⟩

/-- A use that lies ahead is what is written there. -/
theorem NameUse.Leads.written {use : NameUse} {ahead left : Text}
    (h : use.Leads ahead left) :
    ':' :: ahead = use.written ++ left := by
  obtain ⟨name, argument⟩ := use
  obtain ⟨rest, rfl, hbehind⟩ := h
  rcases argumentBehind?_eq_some_iff.mp hbehind with ⟨a, rfl, -, -, rfl⟩ |
      ⟨rfl, rfl, -⟩
  · simp [NameUse.written]
  · simp [NameUse.written]

private theorem length_useOfNames?_le {names : List Text} {ahead left : Text}
    {use : NameUse} (h : useOfNames? names ahead = some (use, left)) :
    left.length ≤ ahead.length := by
  have hwritten := congrArg List.length (leads_of_useOfNames? h).2.written
  simp only [NameUse.written, List.cons_append, List.length_cons,
    List.length_append] at hwritten
  omega

/-! ## The pass -/

variable {names : List Text} {write : NameUse → Text}

/-- The search for uses looks only ahead, and a use takes at least its colon. -/
theorem isForward_findName (names : List Text) :
    Text.Finder.IsForward (findName names) where
  ahead_only _ _ := rfl
  length_lt := by
    intro ahead use left h
    unfold findName at h
    split at h
    · exact Nat.lt_succ_of_le (length_useOfNames?_le h)
    · cases h

theorem replaceAll_nil : Text.replaceAll (findName names) write [] = [] :=
  Text.replaceFrom_nil write false rfl

/-- A character at which nothing is found is copied. -/
theorem replaceAll_copy {c : Char} {rest : Text}
    (h : findName names [] (c :: rest) = none) :
    Text.replaceAll (findName names) write (c :: rest) =
      c :: Text.replaceAll (findName names) write rest :=
  Text.replaceAll_of_none (isForward_findName names) write h

/-- A use that is found is replaced. -/
theorem replaceAll_found {ahead left : Text} {use : NameUse}
    (h : findName names [] ahead = some (use, left)) :
    Text.replaceAll (findName names) write ahead =
      write use ++ Text.replaceAll (findName names) write left :=
  Text.replaceAll_of_some (isForward_findName names) write h

/-- A use is found at a colon only. -/
theorem findName_other {c : Char} (hc : c ≠ ':') {behind : Text} (rest : Text) :
    findName names behind (c :: rest) = none := by
  unfold findName
  split
  · rename_i heq
    exact absurd (List.cons.inj heq).1 hc
  · rfl

/-- Only a colon starts a use. -/
theorem replaceAll_other {c : Char} (hc : c ≠ ':') (rest : Text) :
    Text.replaceAll (findName names) write (c :: rest) =
      c :: Text.replaceAll (findName names) write rest :=
  replaceAll_copy (findName_other hc rest)

/-- A colon that starts no use is copied. -/
theorem replaceAll_colon {rest : Text} (h : useOfNames? names rest = none) :
    Text.replaceAll (findName names) write (':' :: rest) =
      ':' :: Text.replaceAll (findName names) write rest :=
  replaceAll_copy h

/-- A use is replaced, and the pass goes on behind it. -/
theorem replaceAll_use {rest left : Text} {use : NameUse}
    (h : useOfNames? names rest = some (use, left)) :
    Text.replaceAll (findName names) write (':' :: rest) =
      write use ++ Text.replaceAll (findName names) write left :=
  replaceAll_found h

/-- A text without colons is copied. -/
theorem replaceAll_skip {t : Text} (h : ':' ∉ t) (rest : Text) :
    Text.replaceAll (findName names) write (t ++ rest) =
      t ++ Text.replaceAll (findName names) write rest := by
  induction t with
  | nil => rfl
  | cons c t ih =>
    rw [List.mem_cons, not_or] at h
    rw [List.cons_append, replaceAll_other (Ne.symm h.1), ih h.2,
      List.cons_append]

/-- Only what is written for uses of the names matters. -/
theorem replaceAll_congr {write' : NameUse → Text}
    (h : ∀ use, use.name ∈ names → write use = write' use) (t : Text) :
    Text.replaceAll (findName names) write t =
      Text.replaceAll (findName names) write' t := by
  induction hlength : t.length using Nat.strong_induction_on generalizing t with
  | _ n ih =>
    cases t with
    | nil => rw [replaceAll_nil, replaceAll_nil]
    | cons c rest =>
      rw [List.length_cons] at hlength
      have hrest := ih rest.length (by omega) rest rfl
      by_cases hc : c = ':'
      · subst hc
        cases huse : useOfNames? names rest with
        | none => rw [replaceAll_colon huse, replaceAll_colon huse, hrest]
        | some found =>
          obtain ⟨use, left⟩ := found
          have hle := length_useOfNames?_le huse
          rw [replaceAll_use huse, replaceAll_use huse,
            h use (leads_of_useOfNames? huse).1,
            ih left.length (by omega) left rfl]
      · rw [replaceAll_other hc, replaceAll_other hc, hrest]

/-! ## Registries of plain names -/

namespace Registry

/-- A plain name of a registry has its definition there. -/
theorem mem_entries_of_mem_names {r : Registry} {name : Text}
    (h : name ∈ r.names) :
    ∃ handler, r.find? name = some handler ∧ (name, handler) ∈ r.entries := by
  obtain ⟨hkey, -⟩ := List.mem_filter.mp h
  obtain ⟨entry, hentry, rfl⟩ := List.mem_map.mp hkey
  have hsome : (r.find? entry.1).isSome = true := by
    rw [Registry.find?, List.lookup_isSome_iff]
    exact ⟨entry, hentry, by simp⟩
  obtain ⟨handler, hhandler⟩ := Option.isSome_iff_exists.mp hsome
  obtain ⟨before, behind, hentries, -⟩ := List.lookup_eq_some_iff.mp hhandler
  exact ⟨handler, hhandler, by rw [hentries]; simp⟩

end Registry

end SelectorPath
