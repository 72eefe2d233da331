import Mathlib
import SelectorPath.Custom.DefinitionFile
import SelectorPath.Proofs.DefinitionOrder
import SelectorPath.Proofs.Drafts
import SelectorPath.Proofs.FirstOccurrences
import SelectorPath.Proofs.JsonGrammar

/-!
# Insertion order

A registry is a list of entries, and looking up, replacing and the order of the
passes all rely on each key standing in it once. Whatever definitions are made,
the list is the map that they describe: every key once, at the place of its
first definition and with its last one. The same goes for the entries that a
reader finds in a definition file, in whatever order it has them. A file may
repeat a key; a reader that keeps the entries of the file as a map in their
order has the last value of such a key, so that only this value has to be a
definition.

## Main results

* `Entries.keys_putAll`, `Entries.lookup_putAll_eq_some_iff`: the keys and the
  values that insertions leave.
* `Registry.ofEntries_eq_ok_iff`: when entries have a registry, and which it is.
* `Json.readObject_eq_some_iff`: the reader of the program keeps the order of
  the file.
* `Registry.isMapOf_insertions`: registries are maps in order of insertion.
-/

namespace SelectorPath

/-! ## Entries -/

namespace Entries

variable {α : Type} {insertions : List (Text × α)} {key : Text} {value : α}

/-- The last of the insertions under a key is of this value. -/
def IsLast (insertions : List (Text × α)) (key : Text) (value : α) : Prop :=
  ∃ before after, insertions = before ++ (key, value) :: after ∧
    ∀ later ∈ after, later.1 ≠ key

private theorem putAll_concat (insertions : List (Text × α))
    (insertion : Text × α) :
    putAll (insertions ++ [insertion]) =
      put insertion.1 insertion.2 (putAll insertions) := by
  simp [putAll]

/-- Each key stands once, in order of first insertion. -/
theorem keys_putAll (insertions : List (Text × α)) :
    (putAll insertions).map (·.1) = (insertions.map (·.1)).eraseDups := by
  induction insertions using List.reverseRecOn with
  | nil => rfl
  | append_singleton insertions insertion ih =>
    rw [putAll_concat, keys_put, ih, List.map_append, List.map_singleton,
      eraseDups_concat]
    simp only [List.mem_eraseDups, List.contains_iff_mem]

private theorem nodup_keys_putAll (insertions : List (Text × α)) :
    ((putAll insertions).map (·.1)).Nodup := by
  rw [keys_putAll]
  exact (listsOnce_eraseDups _).nodup

/-- The last value is the first one from behind. -/
theorem lookup_putAll (insertions : List (Text × α)) (key : Text) :
    (putAll insertions).lookup key = insertions.reverse.lookup key := by
  induction insertions using List.reverseRecOn with
  | nil => rfl
  | append_singleton insertions insertion ih =>
    obtain ⟨k, v⟩ := insertion
    rw [putAll_concat, List.reverse_append, List.reverse_singleton,
      List.singleton_append, List.lookup_cons]
    by_cases hk : key = k
    · rw [hk, lookup_put_self, beq_self_eq_true]
    · rw [lookup_put_of_ne v _ hk, ih, beq_false_of_ne hk]

/-- The value under a key is the last one that was inserted there. -/
theorem lookup_putAll_eq_some_iff :
    (putAll insertions).lookup key = some value ↔
      IsLast insertions key value := by
  rw [lookup_putAll, List.lookup_eq_some_iff]
  constructor
  · rintro ⟨behind, front, heq, hbehind⟩
    refine ⟨front.reverse, behind.reverse, ?_, fun later hlater => ?_⟩
    · rw [← List.reverse_reverse insertions, heq]
      simp
    · have hne := hbehind later (List.mem_reverse.mp hlater)
      exact fun h => (bne_iff_ne.mp hne) h.symm
  · rintro ⟨front, behind, rfl, hbehind⟩
    refine ⟨behind.reverse, front.reverse, by simp, fun later hlater => ?_⟩
    exact bne_iff_ne.mpr (hbehind later (List.mem_reverse.mp hlater)).symm

/-- A new key comes last. -/
theorem put_of_not_mem {entries : List (Text × α)} (value : α)
    (h : key ∉ entries.map (·.1)) :
    put key value entries = entries ++ [(key, value)] := by
  induction entries with
  | nil => rfl
  | cons entry rest ih =>
    obtain ⟨k, v⟩ := entry
    rw [List.map_cons, List.mem_cons, not_or] at h
    rw [put_cons, if_neg (Ne.symm h.1), ih h.2, List.cons_append]

/-- Entries under distinct keys are the map of themselves. -/
theorem putAll_of_nodup {entries : List (Text × α)}
    (h : (entries.map (·.1)).Nodup) :
    putAll entries = entries := by
  induction entries using List.reverseRecOn with
  | nil => rfl
  | append_singleton entries entry ih =>
    rw [List.map_append, List.map_singleton, List.nodup_append] at h
    have hnew : entry.1 ∉ entries.map (·.1) := fun hmem =>
      h.2.2 _ hmem _ (List.mem_singleton_self _) rfl
    rw [putAll_concat, ih h.1, put_of_not_mem _ hnew]

end Entries

/-- What the reader of the program finds in a text is the map of the entries
that stand there, in their order. -/
theorem Json.readObject_eq_some_iff {contents : Text}
    {fields : List (Text × Json)} :
    Json.readObject contents = some fields ↔
      ∃ entries, Json.HasEntries contents entries ∧
        fields = Entries.putAll entries := by
  rw [← Json.ofText?_eq_object_iff, Json.readObject]
  split
  · rename_i found hfound
    rw [hfound]
    simp
  · rename_i hnone
    exact ⟨by rintro ⟨⟩, fun h => absurd h (hnone fields)⟩

/-! ## Registries as maps -/

/-- The handler of an entry of a definition file. -/
def Definition.handler? (key : Text) (value : Json) : Option Handler :=
  (Definition.ofJson? value).map (·.handler key)

namespace Registry

/-- The registry is the map of what was inserted, in this order. `handler?`
tells the handler of a value under its key. -/
structure IsMapOf {α : Type} (handler? : Text → α → Option Handler)
    (insertions : List (Text × α)) (r : Registry) : Prop where
  /-- The distinct keys, in the order of their first insertion. -/
  keys : ListsOnce (insertions.map (·.1)) r.keys
  /-- The number of distinct keys. -/
  size : r.size = (insertions.map (·.1)).toFinset.card
  /-- The handler under a key is that of the last insertion there. -/
  find?_some : ∀ key handler, r.find? key = some handler ↔
    ∃ value, Entries.IsLast insertions key value ∧
      handler? key value = some handler
  /-- Nothing is found where nothing was inserted. -/
  find?_none : ∀ key, r.find? key = none ↔ key ∉ insertions.map (·.1)

variable {α : Type} {handler? : Text → α →
    Option Handler} {insertions : List (Text × α)}

/-- A definition handles a value under the same key. -/
def Handles (handler? : Text → α → Option Handler) (entry : Text × Handler)
    (field : Text × α) : Prop :=
  entry.1 = field.1 ∧ handler? field.1 field.2 = some entry.2

private theorem lookup_of_forall₂ {entries : List (Text × Handler)}
    {fields : List (Text × α)}
    (h : List.Forall₂ (Handles handler?) entries fields) (key : Text) :
    entries.lookup key = (fields.lookup key).bind (handler? key) := by
  induction h with
  | nil => rfl
  | @cons entry field entries fields hentry _ ih =>
    obtain ⟨k, handler⟩ := entry
    obtain ⟨name, value⟩ := field
    obtain ⟨hk, hhandler⟩ := hentry
    simp only at hk hhandler
    subst hk
    rw [List.lookup_cons, List.lookup_cons]
    by_cases hkey : key = k
    · simp [hkey, hhandler]
    · simp only [beq_false_of_ne hkey, ih]

/-- Values can be handled if each has a handler. -/
theorem exists_forall₂_iff {fields : List (Text × α)} :
    (∃ entries, List.Forall₂ (Handles handler?) entries fields) ↔
      ∀ field ∈ fields, (handler? field.1 field.2).isSome = true := by
  induction fields with
  | nil => simp
  | cons field fields ih =>
    rw [List.forall_mem_cons, ← ih, Option.isSome_iff_exists]
    constructor
    · rintro ⟨entries, hentries⟩
      obtain ⟨entry, others, hentry, hothers, rfl⟩ :=
        List.forall₂_cons_right_iff.mp hentries
      exact ⟨⟨entry.2, hentry.2⟩, others, hothers⟩
    · rintro ⟨⟨handler, hhandler⟩, others, hothers⟩
      exact ⟨(field.1, handler) :: others, .cons ⟨rfl, hhandler⟩ hothers⟩

private theorem keys_of_forall₂ {entries : List (Text × Handler)}
    {fields : List (Text × α)}
    (h : List.Forall₂ (Handles handler?) entries fields) :
    entries.map (·.1) = fields.map (·.1) := by
  induction h with
  | nil => rfl
  | cons hentry _ ih => rw [List.map_cons, List.map_cons, hentry.1, ih]

private theorem find?_eq_none_iff {r : Registry} {key : Text} :
    r.find? key = none ↔ key ∉ r.keys := by
  simp only [Registry.find?, List.lookup_eq_none_iff, bne_iff_ne, Registry.keys,
    List.mem_map, not_exists, not_and, ne_comm, ne_eq]

/-- A registry that handles what insertions leave is their map. -/
theorem isMapOf_of_forall₂ {r : Registry}
    (h : List.Forall₂ (Handles handler?) r.entries
      (Entries.putAll insertions)) :
    IsMapOf handler? insertions r := by
  have heq : r.keys = (insertions.map (·.1)).eraseDups :=
    (keys_of_forall₂ h).trans (Entries.keys_putAll _)
  have hkeys : ListsOnce (insertions.map (·.1)) r.keys := by
    rw [heq]
    exact listsOnce_eraseDups _
  refine ⟨hkeys, ?_, fun key handler => ?_, fun key => ?_⟩
  · have hset : (insertions.map (·.1)).toFinset = r.keys.toFinset := by
      ext key
      rw [List.mem_toFinset, List.mem_toFinset, hkeys.mem_iff]
    rw [hset, List.toFinset_card_of_nodup hkeys.nodup, Registry.keys,
      List.length_map, Registry.size]
  · rw [Registry.find?, lookup_of_forall₂ h, Option.bind_eq_some_iff]
    simp only [Entries.lookup_putAll_eq_some_iff]
  · rw [← hkeys.mem_iff, find?_eq_none_iff]

private theorem forall₂_put {entries : List (Text × Handler)}
    {fields : List (Text × α)} {entry : Text × Handler} {field : Text × α}
    (h : List.Forall₂ (Handles handler?) entries fields)
    (hentry : Handles handler? entry field) :
    List.Forall₂ (Handles handler?) (Entries.put entry.1 entry.2 entries)
      (Entries.put field.1 field.2 fields) := by
  induction h with
  | nil => exact .cons hentry .nil
  | @cons first first' entries fields hfirst hrest ih =>
    obtain ⟨k, handler⟩ := first
    obtain ⟨name, value⟩ := first'
    obtain ⟨rfl, hvalue⟩ := hfirst
    rw [Entries.put_cons, Entries.put_cons, hentry.1]
    split
    · rename_i hk
      exact .cons ⟨rfl, hk ▸ hentry.2⟩ hrest
    · exact .cons ⟨rfl, hvalue⟩ (hentry.1 ▸ ih)

/-- What handlers leave handles what the values leave. -/
theorem forall₂_putAll {entries : List (Text × Handler)}
    {fields : List (Text × α)}
    (h : List.Forall₂ (Handles handler?) entries fields) :
    List.Forall₂ (Handles handler?) (Entries.putAll entries)
      (Entries.putAll fields) := by
  suffices hrun : ∀ {left : List (Text × Handler)} {right : List (Text × α)},
      List.Forall₂ (Handles handler?) left right →
      List.Forall₂ (Handles handler?)
        (entries.foldl (fun entries entry =>
          Entries.put entry.1 entry.2 entries) left)
        (fields.foldl (fun entries entry => Entries.put entry.1 entry.2 entries)
          right) from
    hrun .nil
  induction h with
  | nil => exact fun hstart => hstart
  | cons hentry _ ih => exact fun hstart => ih (forall₂_put hstart hentry)

/-! ## Calls -/

/-- A call that defines a pseudo-class. -/
inductive Call where
  | insert (key : Text) (handler : Handler)
  | literal (name replacement : Text)
  | function (name : Text) (arity : Nat) (make : List Text → Text)
  | pattern (key : Text) (make : Option Text → Captures → Text)

/-- The key of a call and the handler that it puts there. -/
def Call.insertion : Call → Text × Handler
  | insert key handler => (key, handler)
  | literal name replacement => (name, .literal replacement)
  | function name arity make => (name, .function arity make)
  | pattern key make => (key, .onMatch make)

/-- The registry after a call. -/
def call (r : Registry) : Call → Registry
  | .insert key handler => (r.exchange key handler).2
  | .literal name replacement => r.literal name replacement
  | .function name arity make => r.function name arity make
  | .pattern key make => r.pattern key make

/-- The registry that calls make, one after the other. -/
def ofCalls (calls : List Call) : Registry :=
  calls.foldl call empty

/-- Every call is an insertion. -/
theorem entries_call (r : Registry) (c : Call) :
    (r.call c).entries = Entries.put c.insertion.1 c.insertion.2 r.entries := by
  cases c <;> rfl

private theorem entries_ofCalls (calls : List Call) :
    (ofCalls calls).entries = Entries.putAll (calls.map Call.insertion) := by
  induction calls using List.reverseRecOn with
  | nil => rfl
  | append_singleton calls c ih =>
    have hlast : ofCalls (calls ++ [c]) = (ofCalls calls).call c :=
      List.foldl_concat ..
    rw [hlast, entries_call, ih, List.map_append, List.map_singleton,
      Entries.putAll_concat]

private theorem isMapOf_calls (calls : List Call) :
    IsMapOf (fun _ handler => some handler) (calls.map Call.insertion)
      (ofCalls calls) := by
  apply isMapOf_of_forall₂
  rw [entries_ofCalls]
  exact List.forall₂_same.mpr fun entry _ => ⟨rfl, rfl⟩

/-! ## Definition files -/

private theorem define_eq_ok_iff {r r' : Registry} {entry : Text × Json} :
    r.define entry = .ok r' ↔
      ∃ handler, Definition.handler? entry.1 entry.2 = some handler ∧
        r' = r.insert entry.1 handler := by
  unfold define Definition.handler?
  cases Definition.ofJson? entry.2 with
  | none => simp
  | some definition => simp [eq_comm]

private theorem foldlM_define_eq_ok_iff {r r' : Registry}
    {fields : List (Text × Json)} :
    fields.foldlM define r = .ok r' ↔
      ∃ handled, List.Forall₂ (Handles Definition.handler?) handled fields ∧
        r'.entries = handled.foldl
          (fun entries entry => Entries.put entry.1 entry.2 entries)
          r.entries := by
  -- By induction on the entries, for all registries that the run may start
  -- from.
  induction fields generalizing r with
  | nil =>
    obtain ⟨entries⟩ := r
    obtain ⟨entries'⟩ := r'
    simp [pure, Except.pure, eq_comm]
  | cons field fields ih =>
    rw [List.foldlM_cons, bind_eq_ok_iff]
    simp only [define_eq_ok_iff]
    constructor
    · rintro ⟨next, ⟨handler, hhandler, rfl⟩, hrun⟩
      obtain ⟨handled, hhandles, hentries⟩ := ih.mp hrun
      exact ⟨(field.1, handler) :: handled, .cons ⟨rfl, hhandler⟩ hhandles,
        hentries⟩
    · rintro ⟨handled, hhandles, hentries⟩
      obtain ⟨⟨key, handler⟩, others, ⟨rfl, hhandler⟩, hothers, rfl⟩ :=
        List.forall₂_cons_right_iff.mp hhandles
      exact ⟨_, ⟨handler, hhandler, rfl⟩, ih.mpr ⟨others, hothers, hentries⟩⟩

/-- Entries have a registry if they are definitions, and it is what their
handlers leave. -/
theorem ofEntries_eq_ok_iff {r : Registry} {fields : List (Text × Json)} :
    ofEntries fields = .ok r ↔
      ∃ handled, List.Forall₂ (Handles Definition.handler?) handled fields ∧
        r.entries = Entries.putAll handled :=
  foldlM_define_eq_ok_iff

/-- The registry of entries handles what they leave. -/
theorem forall₂_of_ofEntries {r : Registry} {fields : List (Text × Json)}
    (h : ofEntries fields = .ok r) :
    List.Forall₂ (Handles Definition.handler?) r.entries
      (Entries.putAll fields) := by
  obtain ⟨handled, hhandles, hentries⟩ := ofEntries_eq_ok_iff.mp h
  rw [hentries]
  exact forall₂_putAll hhandles

private theorem exists_ofEntries_iff {fields : List (Text × Json)} :
    (∃ r, ofEntries fields = .ok r) ↔
      ∀ field ∈ fields, (Definition.ofJson? field.2).isSome = true := by
  have hhandler : ∀ field : Text × Json,
      (Definition.handler? field.1 field.2).isSome =
      (Definition.ofJson? field.2).isSome := fun field => Option.isSome_map
  simp only [← hhandler, ← exists_forall₂_iff, ofEntries_eq_ok_iff]
  constructor
  · rintro ⟨r, handled, hhandles, -⟩
    exact ⟨handled, hhandles⟩
  · rintro ⟨handled, hhandles⟩
    exact ⟨⟨Entries.putAll handled⟩, handled, hhandles, rfl⟩

/-- Every value of a map is a definition if the last one under each key is. -/
theorem forall_putAll_iff {entries : List (Text × Json)} :
    (∀ field ∈ Entries.putAll entries,
      (Definition.ofJson? field.2).isSome = true) ↔
      ∀ key value, Entries.IsLast entries key value →
        (Definition.ofJson? value).isSome = true := by
  simp only [← Entries.lookup_putAll_eq_some_iff,
    Entries.lookup_eq_some_iff (Entries.nodup_keys_putAll entries), Prod.forall]

private theorem ofFileBy_of_some {read : Json.Reader} {contents : Text}
    {fields : List (Text × Json)} (h : read contents = some fields) :
    ofFileBy read contents = ofEntries fields := by
  rw [ofFileBy, h]

/-- Calls leave the map of what they define, and each definition gives back the
one that was found before. A file has a registry if what the reader finds in it
are definitions, and this registry is the map of what is found. With a reader
that keeps the entries of the file as a map in their order, the registry is the
map of these entries, and it is there if the last value under each key is a
definition. -/
theorem isMapOf_insertions :
    (∀ calls : List Call,
      IsMapOf (fun _ handler => some handler) (calls.map Call.insertion)
        (ofCalls calls) ∧
      ∀ key handler, ((ofCalls calls).exchange key handler).1 =
        (ofCalls calls).find? key) ∧
    ∀ (read : Json.Reader) (contents : Text),
      (∀ fields, read contents = some fields →
        ((∃ r, ofFileBy read contents = .ok r) ↔
          ∀ field ∈ fields, (Definition.ofJson? field.2).isSome = true) ∧
        ∀ r, ofFileBy read contents = .ok r →
          IsMapOf Definition.handler? fields r) ∧
      (∀ entries, read contents = some (Entries.putAll entries) →
        ((∃ r, ofFileBy read contents = .ok r) ↔
          ∀ key value, Entries.IsLast entries key value →
            (Definition.ofJson? value).isSome = true) ∧
        ∀ r, ofFileBy read contents = .ok r →
          IsMapOf Definition.handler? entries r) ∧
      ∀ r, ofFileBy read contents = .ok r →
        ∀ key handler, (r.exchange key handler).1 = r.find? key := by
  refine ⟨fun calls => ⟨isMapOf_calls calls, (ofCalls calls).exchange_fst⟩,
    fun read contents => ⟨fun fields hread => ?_, fun entries hread => ?_,
      fun r _ => r.exchange_fst⟩⟩
  · rw [ofFileBy_of_some hread]
    exact ⟨exists_ofEntries_iff,
      fun r hr => isMapOf_of_forall₂ (forall₂_of_ofEntries hr)⟩
  · rw [ofFileBy_of_some hread]
    refine ⟨exists_ofEntries_iff.trans forall_putAll_iff, fun r hr => ?_⟩
    have hhandles := forall₂_of_ofEntries hr
    rw [Entries.putAll_of_nodup (Entries.nodup_keys_putAll entries)] at hhandles
    exact isMapOf_of_forall₂ hhandles

/-- A definition under a known key, and a file with a value that is no
definition until it is replaced. -/
theorem isMapOf_insertions_replaced :
    ((ofCalls [.literal "a" "x", .literal "b" "y"]).exchange "a"
      (.literal "z")).1 = some (.literal "x") ∧
    (ofCalls [.literal "a" "x", .literal "b" "y",
      .insert "a" (.literal "z")]).find? "a" =
      some (.literal "z") ∧
    ∃ r, ofFile "\x7b\"a\": 42, \"b\": \"y\", \"a\": \"x\"\x7d" = .ok r ∧
      ListsOnce [("a" : Text), ("b" : Text), ("a" : Text)] r.keys ∧ r.size = 2 ∧
      r.find? "a" = some (.literal "x") := by
  have hfile : ofFile "\x7b\"a\": 42, \"b\": \"y\", \"a\": \"x\"\x7d" =
      .ok ⟨[("a".toList, .literal "x".toList),
        ("b".toList, .literal "y".toList)]⟩ := by
    cbv
  have hentries : Json.HasEntries
      "\x7b\"a\": 42, \"b\": \"y\", \"a\": \"x\"\x7d"
      [("a", .number (.natural 42)), ("b", .string "y"),
        ("a", .string "x")] := by
    refine ⟨[⟨⟨[.scalar (.number (.natural 42))], .number (.natural 42)⟩, "a"⟩,
      ⟨⟨[.scalar (.string "y")], .string "y"⟩, "b"⟩,
        ⟨⟨[.scalar (.string "x")], .string "x"⟩, "a"⟩],
      ?_, ?_, rfl⟩
    · cbv
    · simp only [List.forall_mem_cons]
      exact ⟨.scalar _, .scalar _, .scalar _, by simp⟩
  obtain ⟨hcalls, hfiles⟩ := isMapOf_insertions
  obtain ⟨-, hordered, -⟩ := hfiles Json.readObject
    "\x7b\"a\": 42, \"b\": \"y\", \"a\": \"x\"\x7d"
  have hmap :=
    (hordered _ (Json.readObject_eq_some_iff.mpr ⟨_, hentries, rfl⟩)).2 _ hfile
  refine ⟨?_, ?_, _, hfile, hmap.keys, hmap.size, ?_⟩
  · rw [(hcalls _).2, (hcalls _).1.find?_some]
    exact ⟨_, ⟨[], [("b", .literal "y")], rfl, by decide⟩, rfl⟩
  · rw [(hcalls _).1.find?_some]
    exact ⟨_, ⟨[("a", .literal "x"), ("b", .literal "y")], [], rfl, by simp⟩,
      rfl⟩
  · rw [hmap.find?_some]
    exact ⟨_, ⟨[("a", .number (.natural 42)), ("b", .string "y")], [], rfl,
      by simp⟩, rfl⟩

end Registry

end SelectorPath
