import SelectorPath.Text.Basic

/-!
# Entries in order of insertion

A list of entries is a map that remembers the order in which its keys were first
inserted. Inserting under a known key replaces the value in its place and gives
back the value that stood there.

## Main results

* `Entries.exchange_fst`: what is given back is what was found under the key.
* `Entries.lookup_put_self`, `Entries.lookup_put_of_ne`: the last value under a
  key is found, and the other keys are left alone.
* `Entries.keys_put`: a new key comes last, an old key keeps its place.
-/

namespace SelectorPath.Entries

/-- Put a value under a key: the value that it replaces, if any, and the entries
afterwards. -/
def exchange {α : Type} (key : Text) (value : α) :
    List (Text × α) → Option α × List (Text × α)
  | [] => (none, [(key, value)])
  | (k, v) :: rest =>
    if k = key then (some v, (k, value) :: rest)
    else
      let exchanged := exchange key value rest
      (exchanged.1, (k, v) :: exchanged.2)

/-- The entries with a value under a key. -/
def put {α : Type} (key : Text) (value : α) (entries : List (Text × α)) :
    List (Text × α) :=
  (exchange key value entries).2

/-- The entries that insertions leave, made one after the other. -/
def putAll {α : Type} (insertions : List (Text × α)) : List (Text × α) :=
  insertions.foldl
    (fun entries insertion => put insertion.1 insertion.2 entries) []

/-- Putting a value goes along the entries up to its key. -/
theorem put_cons {α : Type} (key : Text) (value : α) (k : Text) (v : α)
    (rest : List (Text × α)) :
    put key value ((k, v) :: rest) =
      if k = key then (k, value) :: rest else (k, v) :: put key value rest := by
  rw [put, exchange]
  split <;> rfl

/-- What a value replaces is what was found under its key. -/
theorem exchange_fst {α : Type} (key : Text) (value : α)
    (entries : List (Text × α)) :
    (exchange key value entries).1 = entries.lookup key := by
  induction entries with
  | nil => rfl
  | cons entry rest ih =>
    obtain ⟨k, v⟩ := entry
    rw [exchange]
    by_cases hk : k = key
    · simp [hk]
    · have hne : (key == k) = false := by simpa using fun h => hk h.symm
      simp [hk, List.lookup_cons, hne, ih]

/-- What was put last under a key is found there. -/
theorem lookup_put_self {α : Type} (key : Text) (value : α)
    (entries : List (Text × α)) :
    (put key value entries).lookup key = some value := by
  induction entries with
  | nil => simp [put, exchange]
  | cons entry rest ih =>
    obtain ⟨k, v⟩ := entry
    rw [put_cons]
    by_cases hk : k = key
    · simp [hk]
    · have hne : (key == k) = false := by simpa using fun h => hk h.symm
      simp [hk, List.lookup_cons, hne, ih]

/-- Putting a value leaves what is found under other keys alone. -/
theorem lookup_put_of_ne {α : Type} {key other : Text} (value : α)
    (entries : List (Text × α)) (h : other ≠ key) :
    (put key value entries).lookup other = entries.lookup other := by
  have hne : (other == key) = false := by simpa using h
  induction entries with
  | nil => simp [put, exchange, List.lookup_cons, hne]
  | cons entry rest ih =>
    obtain ⟨k, v⟩ := entry
    rw [put_cons]
    by_cases hk : k = key
    · subst hk
      simp [List.lookup_cons, hne]
    · simp [hk, List.lookup_cons, ih]

/-- A new key comes last, an old key keeps its place. -/
theorem keys_put {α : Type} (key : Text) (value : α)
    (entries : List (Text × α)) :
    (put key value entries).map (·.1) =
      if key ∈ entries.map (·.1) then entries.map (·.1)
      else entries.map (·.1) ++ [key] := by
  induction entries with
  | nil => simp [put, exchange]
  | cons entry rest ih =>
    obtain ⟨k, v⟩ := entry
    rw [put_cons]
    by_cases hk : k = key
    · simp [hk]
    · have hne : key ≠ k := fun h => hk h.symm
      by_cases hmem : key ∈ rest.map (·.1)
      · simp only [hmem, if_true] at ih
        simp [hk, hne, hmem, ih]
      · simp only [hmem, if_false] at ih
        simp [hk, hne, hmem, ih]

end SelectorPath.Entries
