import Mathlib
import SelectorPath.Proofs.StandardEngine

/-!
# Order of definitions

Plain names are tried in the order of their definition, and the first that fits
is taken. That order does not matter for names made of the characters that
continue a name: where two of them stand at one place, the longer one continues
the shorter one, which then does not end there. So at most one name fits.

The patterns of a registry make their passes one after the other, and their
order does matter.

## Main results

* `useOfNames?_eq_some_iff`: which use of a name is found, whatever the order of
  the names.
* `Registry.expand_reordered`: registries that differ in the order of their
  plain names expand alike.
-/

namespace SelectorPath

/-! ## Entries -/

namespace Entries

/-- Under distinct keys, looking up finds the entries. -/
theorem lookup_eq_some_iff {α : Type} {entries : List (Text × α)} {key : Text}
    {value : α} (hnodup : (entries.map (·.1)).Nodup) :
    entries.lookup key = some value ↔ (key, value) ∈ entries := by
  induction entries with
  | nil => simp
  | cons entry rest ih =>
    obtain ⟨k, v⟩ := entry
    rw [List.map_cons, List.nodup_cons] at hnodup
    by_cases hk : key = k
    · subst hk
      have hrest : (key, value) ∉ rest :=
        fun hmem => hnodup.1 (List.mem_map.mpr ⟨_, hmem, rfl⟩)
      simp [hrest, eq_comm]
    · have hne : (key == k) = false := by simpa using hk
      simp [List.lookup_cons, hne, hk, ih hnodup.2]

/-- Entries under distinct keys are told by their keys in order and by which
they are. -/
theorem eq_of_keys_eq {α : Type} {entries entries' : List (Text × α)}
    (hnodup : (entries.map (·.1)).Nodup)
    (hkeys : entries.map (·.1) = entries'.map (·.1))
    (hmem : ∀ entry ∈ entries, entry ∈ entries') : entries = entries' := by
  induction entries generalizing entries' with
  | nil => simpa using hkeys.symm
  | cons entry rest ih =>
    obtain ⟨k, v⟩ := entry
    cases entries' with
    | nil => simp at hkeys
    | cons entry' rest' =>
      obtain ⟨k', v'⟩ := entry'
      rw [List.map_cons, List.map_cons, List.cons.injEq] at hkeys
      obtain ⟨hk, hkeys⟩ := hkeys
      have hk : k = k' := hk
      subst hk
      rw [List.map_cons, List.nodup_cons] at hnodup
      have hfirst : v = v' := by
        rcases List.mem_cons.mp (hmem (k, v) (List.mem_cons_self ..)) with heq
          | hlater
        · exact (Prod.mk.inj heq).2
        · exact absurd (hkeys ▸ List.mem_map_of_mem hlater) hnodup.1
      have hrest : ∀ entry ∈ rest, entry ∈ rest' := by
        intro entry hentry
        rcases List.mem_cons.mp (hmem entry (List.mem_cons_of_mem _ hentry))
          with rfl | hlater
        · exact absurd (List.mem_map_of_mem hentry) hnodup.1
        · exact hlater
      rw [hfirst, ih hnodup.2 hkeys hrest]

end Entries

/-! ## Uses of names -/

/-- Where a name goes on, it has not ended. -/
theorem argumentBehind?_of_continuesName {c : Char} (rest : Text)
    (h : continuesName c = true) :
    argumentBehind? (c :: rest) = none := by
  have hparen : c ≠ '(' := by
    rintro rfl
    exact absurd h (by decide)
  unfold argumentBehind?
  simp only [List.head?_cons, Option.any_some, h, if_true]
  split
  · rename_i heq
    exact absurd (List.cons.inj heq).1 hparen
  · rfl

/-- Whether a name consists of characters that continue a name. -/
def isWordName (name : Text) : Bool :=
  name.all continuesName

/-- A name that ends where another one goes on does not lie ahead. -/
theorem eq_nil_of_argumentBehind? {further rest : Text}
    {found : Option Text × Text} (hword : isWordName further = true)
    (h : argumentBehind? (further ++ rest) = some found) :
    further = [] := by
  cases further with
  | nil => rfl
  | cons c further =>
    rw [isWordName, List.all_cons, Bool.and_eq_true] at hword
    rw [List.cons_append, argumentBehind?_of_continuesName _ hword.1] at h
    cases h

/-- At most one use lies ahead. -/
theorem NameUse.Leads.unique {use use' : NameUse} {ahead left left' : Text}
    (hword : isWordName use.name = true) (hword' : isWordName use'.name = true)
    (h : use.Leads ahead left) (h' : use'.Leads ahead left') :
    use = use' ∧ left = left' := by
  obtain ⟨rest, hahead, hbehind⟩ := h
  obtain ⟨rest', hahead', hbehind'⟩ := h'
  have hname : use.name = use'.name := by
    rcases List.append_eq_append_iff.mp (hahead.symm.trans hahead') with
      ⟨further, hname, hrest⟩ | ⟨further, hname, hrest⟩
    · have hfurther : isWordName further = true := by
        rw [isWordName, hname, List.all_append, Bool.and_eq_true] at hword'
        exact hword'.2
      rw [hrest] at hbehind
      rw [hname, eq_nil_of_argumentBehind? hfurther hbehind, List.append_nil]
    · have hfurther : isWordName further = true := by
        rw [isWordName, hname, List.all_append, Bool.and_eq_true] at hword
        exact hword.2
      rw [hrest] at hbehind'
      rw [hname, eq_nil_of_argumentBehind? hfurther hbehind', List.append_nil]
  have hrest : rest = rest' := by
    rw [hahead, hname] at hahead'
    exact List.append_cancel_left hahead'
  rw [hrest, hbehind', Option.some.injEq, Prod.mk.injEq] at hbehind
  obtain ⟨name, argument⟩ := use
  obtain ⟨name', argument'⟩ := use'
  obtain ⟨hargument, hleft⟩ := hbehind
  exact ⟨NameUse.mk.injEq .. ▸ ⟨hname, hargument.symm⟩, hleft.symm⟩

/-- The use that is found among names is the one that lies ahead; no order of
the names enters. -/
theorem useOfNames?_eq_some_iff {names : List Text}
    (hwords : ∀ name ∈ names, isWordName name = true) {ahead left : Text}
    {use : NameUse} :
    useOfNames? names ahead = some (use, left) ↔
      use.name ∈ names ∧ use.Leads ahead left := by
  refine ⟨leads_of_useOfNames?, ?_⟩
  rintro ⟨hname, hleads⟩
  obtain ⟨rest, hrest, hbehind⟩ := hleads
  have hsome : (useOfNames? names ahead).isSome = true := by
    apply List.findSome?_isSome_iff.mpr
    refine ⟨use.name, hname, ?_⟩
    simp [Text.after?_eq_some_iff.mpr hrest, hbehind]
  obtain ⟨⟨use', left'⟩, hfirst⟩ := Option.isSome_iff_exists.mp hsome
  obtain ⟨hname', hleads'⟩ := leads_of_useOfNames? hfirst
  obtain ⟨rfl, rfl⟩ := NameUse.Leads.unique (hwords _ hname') (hwords _ hname)
    hleads' ⟨rest, hrest, hbehind⟩
  exact hfirst

/-- Names may be given in any order. -/
theorem findName_reordered {names names' : List Text}
    (hwords : ∀ name ∈ names, isWordName name = true)
    (hsame : ∀ name, name ∈ names ↔ name ∈ names') :
    findName names = findName names' := by
  have huse : useOfNames? names = useOfNames? names' := by
    funext ahead
    apply Option.ext
    rintro ⟨use, left⟩
    have hwords' : ∀ name ∈ names', isWordName name = true := fun name hname =>
      hwords name ((hsame name).mpr hname)
    rw [useOfNames?_eq_some_iff hwords, useOfNames?_eq_some_iff hwords', hsame]
  unfold findName
  rw [huse]

/-! ## Registries -/

namespace Registry

/-- The registries that insertions make. -/
inductive IsBuilt : Registry → Prop
  | empty : IsBuilt .empty
  | insert {r : Registry} (key : Text) (handler : Handler) (h : IsBuilt r) :
    IsBuilt (r.insert key handler)

private theorem nodup_keys_insert {r : Registry} (key : Text)
    (handler : Handler) (h : r.keys.Nodup) :
    (r.insert key handler).keys.Nodup := by
  rw [keys_insert]
  split
  · exact h
  · rename_i hnew
    refine List.nodup_append.mpr ⟨h, List.nodup_singleton key, ?_⟩
    rintro k hk _ hkey rfl
    exact hnew (List.mem_singleton.mp hkey ▸ hk)

/-- No key is defined twice. -/
theorem IsBuilt.nodup_keys {r : Registry} (h : r.IsBuilt) : r.keys.Nodup := by
  induction h with
  | empty => exact List.nodup_nil
  | insert key handler h ih => exact nodup_keys_insert key handler ih

/-- Registries with the same entries, their patterns in the same order. -/
structure Reordered (r r' : Registry) : Prop where
  entries : ∀ entry, entry ∈ r.entries ↔ entry ∈ r'.entries
  patterns : r.keys.filter isPatternKey = r'.keys.filter isPatternKey

/-- Reordered registries find the same definitions. -/
theorem Reordered.find? {r r' : Registry} (hr : r.IsBuilt) (hr' : r'.IsBuilt)
    (h : r.Reordered r') (key : Text) : r.find? key = r'.find? key := by
  apply Option.ext
  intro handler
  show r.entries.lookup key = some handler ↔
      r'.entries.lookup key = some handler
  rw [Entries.lookup_eq_some_iff hr.nodup_keys,
    Entries.lookup_eq_some_iff hr'.nodup_keys, h.entries]

/-- Reordered registries have the same plain names. -/
theorem Reordered.mem_names {r r' : Registry} (h : r.Reordered r')
    (name : Text) :
    name ∈ r.names ↔ name ∈ r'.names := by
  simp only [Registry.names, Registry.keys, List.mem_filter, List.mem_map,
    h.entries]

/-- Reordered registries have the same patterns ready, in the same order. -/
theorem Reordered.passes {r r' : Registry} (hr : r.IsBuilt)
    (h : r.Reordered r') :
    Engine.standard.passes r = Engine.standard.passes r' := by
  have hpatterns : r.entries.filter (fun entry => isPatternKey entry.1) =
      r'.entries.filter fun entry => isPatternKey entry.1 := by
    apply Entries.eq_of_keys_eq
    · exact (List.filter_sublist.map _).nodup hr.nodup_keys
    · have hkeys := h.patterns
      rwa [Registry.keys, Registry.keys, List.filter_map, List.filter_map]
        at hkeys
    · intro entry hentry
      obtain ⟨hmem, hpattern⟩ := List.mem_filter.mp hentry
      exact List.mem_filter.mpr ⟨(h.entries entry).mp hmem, hpattern⟩
  exact congrArg (fun entries => entries.mapM fun entry =>
    Engine.standard.compileKey entry.1 entry.2) hpatterns

/-- Reordered registries are empty together. -/
theorem Reordered.isEmpty {r r' : Registry} (h : r.Reordered r') :
    r.isEmpty = r'.isEmpty := by
  rw [Bool.eq_iff_iff, Registry.isEmpty, Registry.isEmpty, List.isEmpty_iff,
    List.isEmpty_iff, List.eq_nil_iff_forall_not_mem,
    List.eq_nil_iff_forall_not_mem]
  simp only [h.entries]

/-- Registries with the same definitions, their patterns in the same order,
expand every text alike if their plain names consist of word characters and
hyphens. -/
theorem expand_reordered {r r' : Registry} (hr : r.IsBuilt) (hr' : r'.IsBuilt)
    (hentries : ∀ entry, entry ∈ r.entries ↔ entry ∈ r'.entries)
    (hpatterns : r.keys.filter isPatternKey = r'.keys.filter isPatternKey)
    (hwords : ∀ name ∈ r.keys, isPatternKey name = false →
      isWordName name = true)
    (selector : Text) : r.expand selector = r'.expand selector := by
  have hsame : r.Reordered r' := ⟨hentries, hpatterns⟩
  have hfind : findName r.names = findName r'.names := by
    apply findName_reordered _ hsame.mem_names
    intro name hname
    obtain ⟨hkey, hplain⟩ := List.mem_filter.mp hname
    exact hwords name hkey (by simpa using hplain)
  have hname : ∀ table, expandName r table = expandName r' table := by
    intro table
    funext use
    unfold expandName
    rw [hsame.find? hr hr']
  cases hempty : r.isEmpty with
  | true =>
    rw [expand_of_isEmpty hempty, expand_of_isEmpty (hsame.isEmpty ▸ hempty)]
  | false =>
    rw [expand_eq hempty, expand_eq (hsame.isEmpty ▸ hempty), hsame.passes hr,
      hfind, hname]

/-- A registry in which a name comes in front of one that it begins. -/
def shorterFirst : Registry :=
  ((Registry.empty.insert "link" (.literal "a")).insert "/h[1-6]/"
    (.onMatch fun _ _ => "h")).insert "link2" (.literal "b")

/-- The same definitions with the longer name in front. -/
def longerFirst : Registry :=
  ((Registry.empty.insert "link2" (.literal "b")).insert "link"
    (.literal "a")).insert "/h[1-6]/" (.onMatch fun _ _ => "h")

/-- A name and a longer one that it begins, in either order. -/
theorem expand_reordered_link :
    shorterFirst.keys ≠ longerFirst.keys ∧
      shorterFirst.expand ":link2 :link" =
        longerFirst.expand ":link2 :link" := by
  refine ⟨by decide, ?_⟩
  apply expand_reordered
  · exact .insert _ _ (.insert _ _ (.insert _ _ .empty))
  · exact .insert _ _ (.insert _ _ (.insert _ _ .empty))
  · intro entry
    show entry ∈ [_, _, _] ↔ entry ∈ [_, _, _]
    simp only [List.mem_cons, List.not_mem_nil, or_false]
    tauto
  · decide
  · decide

end Registry

end SelectorPath
