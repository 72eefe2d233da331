import Mathlib
import SelectorPath.Json.Parser

/-!
# The grammar of JSON

A value is a scalar, or items or fields with commas between them and a pair of
brackets around them. The reader of JSON keeps a stack of open containers
instead, and forgets what a repeated field has written before. Here the grammar
is stated over the lexemes of a text, with all fields of an object in the order
of the text, and the reader is held against it: it accepts the derivations that
are not nested too deep, and nothing else.

## Main results

* `Writes.run`: the reader takes the lexemes of a value and completes that
  value.
* `Reading.Reads.step`, `Reading.Reads.run`: whatever the reader has taken is a
  beginning of a derivation.
* `ofText?_eq_some_iff`: the reader accepts what the grammar writes.
* `ofText?_eq_object_iff`: the object that a text writes, from its fields in the
  order of the text.
-/

namespace SelectorPath.Json

/-! ## Grammar -/

/-- Pieces of a text with commas between them. -/
def separated : List (List Lexeme) → List Lexeme
  | [] => []
  | piece :: rest => piece ++ rest.flatMap (.comma :: ·)

/-- A value in a text: its lexemes, and what they write. -/
structure Item where
  lexemes : List Lexeme
  value : Json

/-- A field in a text: its name, and its value. -/
structure Field extends Item where
  name : Text

namespace Field

/-- The lexemes of a field. -/
def written (field : Field) : List Lexeme :=
  .scalar (.string field.name) :: .colon :: field.lexemes

/-- What a field puts into its object. -/
def entry (field : Field) : Text × Json :=
  (field.name, field.value)

end Field

/-- The lexemes write the value, with containers nested up to the depth. -/
inductive Writes : Nat → List Lexeme → Json → Prop
  | scalar {depth : Nat} (value : Json) : Writes depth [.scalar value] value
  | array {depth : Nat} (items : List Item)
    (h : ∀ item ∈ items, Writes depth item.lexemes item.value) :
    Writes (depth + 1) (.opening false :: separated (items.map (·.lexemes)) ++
      [.closing false]) (.array (items.map (·.value)))
  | object {depth : Nat} (fields : List Field)
    (h : ∀ field ∈ fields, Writes depth field.lexemes field.value) :
    Writes (depth + 1) (.opening true :: separated (fields.map Field.written) ++
      [.closing true]) (.object (Entries.putAll (fields.map Field.entry)))

/-- The text writes an object with these entries, in this order; a name may be
repeated. -/
def HasEntries (t : Text) (entries : List (Text × Json)) : Prop :=
  ∃ fields : List Field,
    lexemes t = some (.opening true :: separated (fields.map Field.written) ++
      [.closing true]) ∧
    (∀ field ∈ fields, Writes (maxDepth - 1) field.lexemes field.value) ∧
    entries = fields.map Field.entry

/-! ## What is written can be read -/

namespace Reading

variable {β : Type} {outer : List Frame} {state : List β → Frame} {text : β →
    List Lexeme}
  {first next : Expectation}

/-- Members of a container behind a first one. `state` is the container after
the members read so far. -/
theorem run_behind
    (hcomma : ∀ done, step ⟨state done :: outer, .commaOrClosing⟩ .comma =
      some ⟨state done :: outer, next⟩)
    {members : List β}
    (htake : ∀ done, ∀ b ∈
      members, (text b).foldlM step ⟨state done :: outer, next⟩ =
      some ⟨state (done ++ [b]) :: outer, .commaOrClosing⟩)
    (done : List β) :
    ((members.map text).flatMap (.comma :: ·)).foldlM step ⟨state done :: outer,
      .commaOrClosing⟩ =
      some ⟨state (done ++ members) :: outer, .commaOrClosing⟩ := by
  induction members generalizing done with
  | nil => simp
  | cons b members ih =>
    have htail := ih (fun done b hb => htake done b (List.mem_cons_of_mem _ hb))
      (done ++ [b])
    rw [List.map_cons, List.flatMap_cons, List.cons_append, List.foldlM_cons,
      hcomma, Option.bind_eq_bind, Option.bind_some, List.foldlM_append,
      htake done b List.mem_cons_self, Option.bind_eq_bind,
      Option.bind_some, htail, List.append_assoc, List.singleton_append]

/-- All members of a container. -/
theorem run_separated
    (hcomma : ∀ done, step ⟨state done :: outer, .commaOrClosing⟩ .comma =
      some ⟨state done :: outer, next⟩)
    {members : List β}
    (htake : ∀ done, ∀ b ∈ members, ∀ e ∈
      [first, next], (text b).foldlM step ⟨state done :: outer, e⟩ =
      some ⟨state (done ++ [b]) :: outer, .commaOrClosing⟩) :
    (separated (members.map text)).foldlM step ⟨state [] :: outer, first⟩ =
      some ⟨state members :: outer, if members.isEmpty then first
        else .commaOrClosing⟩ := by
  cases members with
  | nil => rfl
  | cons b members =>
    have hbehind := run_behind hcomma
      (fun done b hb => htake done b (List.mem_cons_of_mem _ hb) next
      (by simp)) [b]
    rw [List.map_cons, separated, List.foldlM_append,
      htake [] b List.mem_cons_self first List.mem_cons_self,
      List.nil_append, Option.bind_eq_bind, Option.bind_some, hbehind]
    rfl

/-- A container, from its opening to its closing bracket. -/
theorem run_enclosed {r₁ r₂ r₃ r₄ : Reading} {x y : Lexeme} {xs : List Lexeme}
    (hopen : step r₁ x = some r₂) (hinside : xs.foldlM step r₂ = some r₃)
    (hclose : step r₃ y = some r₄) :
    (x :: xs ++ [y]).foldlM step r₁ = some r₄ := by
  simp [List.foldlM_append, hopen, hinside, hclose]

/-- The array after the items read so far. -/
def arrayOf (items : List Item) : Frame :=
  .array (items.map (·.value)).reverse

/-- The object after the fields read so far, with the name of the last one. -/
def objectOf (fields : List Field) : Frame :=
  .object (Entries.putAll (fields.map Field.entry))
    ((fields.getLast?.map (·.name)).getD [])

private theorem enter_eq_some_iff {isObject : Bool} {frames : List Frame}
    {r : Reading} :
    enter isObject frames = some r ↔ frames.length < maxDepth ∧
      r = if isObject then ⟨objectOf [] :: frames, .fieldOrClosing⟩
        else ⟨arrayOf [] :: frames, .itemOrClosing⟩ := by
  rw [enter]
  by_cases hfull : maxDepth ≤ frames.length
  · simp [hfull, Nat.not_lt.mpr hfull]
  · cases isObject <;>
        simp [hfull, Nat.lt_of_not_le hfull, eq_comm, arrayOf, objectOf,
        Entries.putAll]

private theorem step_opening {isObject : Bool} {frames : List Frame}
    {e : Expectation} (he : e ∈ [.itemOrClosing, .value]) :
    step ⟨frames, e⟩ (.opening isObject) = enter isObject frames := by
  rcases List.mem_pair.mp he with rfl | rfl <;> rfl

/-- A complete value becomes an item of the array around it. -/
theorem complete_arrayOf (items : List Item) (item : Item)
    (outer : List Frame) :
    complete item.value (arrayOf items :: outer) =
      ⟨arrayOf (items ++ [item]) :: outer, .commaOrClosing⟩ := by
  simp [complete, arrayOf]

/-- A complete value becomes the field that was named. -/
theorem complete_objectOf (fields : List Field) (field : Field)
    (outer : List Frame) :
    complete field.value
      (.object (Entries.putAll (fields.map Field.entry)) field.name :: outer) =
      ⟨objectOf (fields ++ [field]) :: outer, .commaOrClosing⟩ := by
  simp [complete, objectOf, Entries.putAll, Field.entry]

private theorem leave_arrayOf (items : List Item) (outer : List Frame) :
    leave false (arrayOf items :: outer) =
      some (complete (.array (items.map (·.value))) outer) := by
  simp [leave, arrayOf]

private theorem leave_objectOf (fields : List Field) (outer : List Frame) :
    leave true (objectOf fields :: outer) =
    some (complete (.object (Entries.putAll (fields.map Field.entry))) outer) :=
  rfl

end Reading

open Reading in
/-- The reader takes the lexemes of a value and completes that value, where one
may stand. -/
theorem Writes.run {depth : Nat} {xs : List Lexeme} {value : Json}
    (h : Writes depth xs value) {frames : List Frame}
    (hdepth : frames.length + depth ≤ maxDepth) {e : Expectation}
    (he : e ∈ [.itemOrClosing, .value]) :
    xs.foldlM step ⟨frames, e⟩ = some (complete value frames) := by
  -- By induction on the derivation, for all stacks: a member is read inside one
  -- more container.
  induction h generalizing frames e with
  | scalar value =>
    rcases List.mem_pair.mp he with rfl | rfl <;> rfl
  | array items _ ih =>
    have henter : step ⟨frames, e⟩ (.opening false) =
        some ⟨arrayOf [] :: frames, .itemOrClosing⟩ := by
      rw [step_opening he]
      exact enter_eq_some_iff.mpr ⟨by omega, rfl⟩
    have hitems := @run_separated Item frames arrayOf (·.lexemes) .itemOrClosing
      .value (fun done => rfl) items (fun done item hitem e he => by
        rw [ih item hitem (by simp only [List.length_cons]; omega) he,
          complete_arrayOf])
    have hclose :
        step ⟨arrayOf items :: frames,
            if items.isEmpty then .itemOrClosing else .commaOrClosing⟩
          (.closing false) =
          some (complete (.array (items.map (·.value))) frames) := by
      rw [← leave_arrayOf]
      cases items <;> rfl
    exact run_enclosed henter hitems hclose
  | object fields _ ih =>
    have henter : step ⟨frames, e⟩ (.opening true) =
        some ⟨objectOf [] :: frames, .fieldOrClosing⟩ := by
      rw [step_opening he]
      exact enter_eq_some_iff.mpr ⟨by omega, rfl⟩
    have hfields := @run_separated Field frames objectOf Field.written
      .fieldOrClosing .field (fun done => rfl)
      fields (fun done field hfield e he => by
        have hname : step ⟨objectOf done :: frames, e⟩
            (.scalar (.string field.name)) =
            some ⟨.object (Entries.putAll (done.map Field.entry)) field.name ::
              frames, .colon⟩ := by
          rcases List.mem_pair.mp he with rfl | rfl <;> rfl
        rw [Field.written, List.foldlM_cons, hname, Option.bind_eq_bind,
          Option.bind_some, List.foldlM_cons, ← complete_objectOf]
        -- The colon has led to the state in which a value stands.
        exact ih field hfield (by simp only [List.length_cons]; omega)
          (by simp))
    have hclose :
        step ⟨objectOf fields :: frames,
            if fields.isEmpty then .fieldOrClosing else .commaOrClosing⟩
          (.closing true) =
          some (complete (.object (Entries.putAll (fields.map Field.entry)))
            frames) := by
      rw [← leave_objectOf]
      cases fields <;> rfl
    exact run_enclosed henter hfields hclose

/-! ## What is read is written -/

/-- Pieces of a text with a comma behind each. -/
def leading (pieces : List (List Lexeme)) : List Lexeme :=
  pieces.flatMap (· ++ [.comma])

private theorem separated_concat (pieces : List (List Lexeme))
    (piece : List Lexeme) :
    separated (pieces ++ [piece]) = leading pieces ++ piece := by
  cases pieces with
  | nil => simp [separated, leading]
  | cons front pieces =>
    induction pieces generalizing front with
    | nil => simp [separated, leading]
    | cons next pieces ih => simpa [separated, leading] using ih next

private theorem leading_eq {pieces : List (List Lexeme)} (h : pieces ≠ []) :
    leading pieces = separated pieces ++ [.comma] := by
  obtain ⟨front, piece, rfl⟩ := (List.eq_nil_or_concat' pieces).resolve_left h
  simp [separated_concat, leading]

namespace Reading

/-- Values that fit into one more container inside the open ones. -/
def Fit (outer : List Frame) (items : List Item) : Prop :=
  outer.length < maxDepth ∧ ∀ item ∈ items,
    Writes (maxDepth - (outer.length + 1)) item.lexemes item.value

/-- One more item of the right depth fits. -/
theorem Fit.concat {outer : List Frame} {items : List Item} {item : Item}
    (h : Fit outer items)
    (hitem : Writes (maxDepth - (outer.length + 1)) item.lexemes item.value) :
    Fit outer (items ++ [item]) := by
  refine ⟨h.1, fun other hother => ?_⟩
  rcases List.mem_append.mp hother with hother | hother
  · exact h.2 other hother
  · rw [List.mem_singleton.mp hother]
    exact hitem

private theorem Fit.depth_eq {outer : List Frame} {items : List Item}
    (h : Fit outer items) :
    maxDepth - (outer.length + 1) + 1 = maxDepth - outer.length := by
  have hlt := h.1
  omega

/-- The lexemes in front of a value, where these containers are open. -/
inductive Opens : List Frame → List Lexeme → Prop
  | nil : Opens [] []
  | array {outer : List Frame} {xs : List Lexeme} {items : List Item}
    (h : Opens outer xs) (hfit : Fit outer items) :
    Opens (arrayOf items :: outer)
      (xs ++ .opening false :: leading (items.map (·.lexemes)))
  | object {outer : List Frame} {xs : List Lexeme} {fields : List Field}
    (h : Opens outer xs) (hfit : Fit outer (fields.map Field.toItem))
    (name : Text) :
    Opens (.object (Entries.putAll (fields.map Field.entry)) name :: outer)
      (xs ++ .opening true :: leading (fields.map Field.written) ++
      [.scalar (.string name), .colon])

/-- The lexemes that lead to a state of reading. -/
inductive Reads : Reading → List Lexeme → Prop
  | value {frames : List Frame} {xs : List Lexeme} (h : Opens frames xs) :
    Reads ⟨frames, .value⟩ xs
  | firstItem {outer : List Frame} {xs : List Lexeme} (h : Opens outer xs)
    (hfit : Fit outer []) :
    Reads ⟨arrayOf [] :: outer, .itemOrClosing⟩ (xs ++ [.opening false])
  | item {outer : List Frame} {xs : List Lexeme} {items : List Item}
    (h : Opens outer xs) (hfit : Fit outer items) (hne : items ≠ []) :
    Reads ⟨arrayOf items :: outer, .commaOrClosing⟩
      (xs ++ .opening false :: separated (items.map (·.lexemes)))
  | firstField {outer : List Frame} {xs : List Lexeme} (h : Opens outer xs)
    (hfit : Fit outer []) :
    Reads ⟨objectOf [] :: outer, .fieldOrClosing⟩ (xs ++ [.opening true])
  | name {outer : List Frame} {xs : List Lexeme} {fields : List Field}
    (h : Opens outer xs) (hfit : Fit outer (fields.map Field.toItem)) :
    Reads ⟨objectOf fields :: outer, .field⟩
      (xs ++ .opening true :: leading (fields.map Field.written))
  | colon {outer : List Frame} {xs : List Lexeme} {fields : List Field}
    (h : Opens outer xs) (hfit : Fit outer (fields.map Field.toItem))
    (name : Text) :
    Reads ⟨.object (Entries.putAll (fields.map Field.entry)) name :: outer,
      .colon⟩ (xs ++ .opening true :: leading (fields.map Field.written) ++
      [.scalar (.string name)])
  | field {outer : List Frame} {xs : List Lexeme} {fields : List Field}
    (h : Opens outer xs) (hfit : Fit outer (fields.map Field.toItem))
    (hne : fields ≠ []) :
    Reads ⟨objectOf fields :: outer, .commaOrClosing⟩
      (xs ++ .opening true :: separated (fields.map Field.written))
  | nothing {xs : List Lexeme} {value : Json} (h : Writes maxDepth xs value) :
    Reads ⟨[], .nothing value⟩ xs

/-- A value is complete. -/
theorem Opens.complete {frames : List Frame} {xs ys : List Lexeme}
    {value : Json} (h : Opens frames xs)
    (hvalue : Writes (maxDepth - frames.length) ys value) :
    Reads (complete value frames) (xs ++ ys) := by
  cases h with
  | nil => exact .nothing hvalue
  | @array outer xs items h hfit =>
    have hreads :=
      Reads.item h (@Fit.concat _ _ ⟨ys, value⟩ hfit hvalue) (by simp)
    rw [List.map_append, List.map_singleton, separated_concat,
      ← complete_arrayOf] at hreads
    simpa using hreads
  | @object outer xs fields h hfit name =>
    have hfit : Fit outer
        ((fields ++ [(⟨⟨ys, value⟩, name⟩ : Field)]).map Field.toItem) := by
      rw [List.map_append]
      exact @Fit.concat _ _ ⟨ys, value⟩ hfit hvalue
    have hreads := Reads.field h hfit (by simp)
    rw [List.map_append, List.map_singleton, separated_concat,
      ← complete_objectOf] at hreads
    simpa [Field.written] using hreads

/-- A container begins. -/
theorem Opens.enter {frames : List Frame} {xs : List Lexeme} {isObject : Bool}
    {r : Reading} (h : Opens frames xs)
    (henter : enter isObject frames = some r) :
    Reads r (xs ++ [.opening isObject]) := by
  obtain ⟨hdepth, rfl⟩ := enter_eq_some_iff.mp henter
  have hfit : Fit frames [] := ⟨hdepth, by simp⟩
  cases isObject with
  | false => exact .firstItem h hfit
  | true => exact .firstField h hfit

/-- An array ends. -/
theorem Opens.leave_array {outer : List Frame} {xs : List Lexeme}
    {items : List Item} {isObject : Bool} {r : Reading} (h : Opens outer xs)
    (hfit : Fit outer items)
    (hleave : leave isObject (arrayOf items :: outer) = some r) :
    Reads r (xs ++ .opening false :: separated (items.map (·.lexemes)) ++
      [.closing isObject]) := by
  cases isObject with
  | true => cases hleave
  | false =>
    have hwrites := Writes.array items hfit.2
    rw [hfit.depth_eq] at hwrites
    rw [leave_arrayOf, Option.some.injEq] at hleave
    rw [← hleave, List.append_assoc]
    exact h.complete hwrites

/-- An object ends. -/
theorem Opens.leave_object {outer : List Frame} {xs : List Lexeme}
    {fields : List Field} {isObject : Bool} {r : Reading} (h : Opens outer xs)
    (hfit : Fit outer (fields.map Field.toItem))
    (hleave : leave isObject (objectOf fields :: outer) = some r) :
    Reads r (xs ++ .opening true :: separated (fields.map Field.written) ++
      [.closing isObject]) := by
  cases isObject with
  | false => cases hleave
  | true =>
    have hwrites := Writes.object fields fun field hfield =>
      hfit.2 _ (List.mem_map_of_mem hfield)
    rw [hfit.depth_eq] at hwrites
    rw [leave_objectOf, Option.some.injEq] at hleave
    rw [← hleave, List.append_assoc]
    exact h.complete hwrites

/-- One more lexeme. -/
theorem Reads.step {r r' : Reading} {xs : List Lexeme} {x : Lexeme}
    (h : Reads r xs) (hstep : step r x = some r') : Reads r' (xs ++ [x]) := by
  -- Each state expects few lexemes; for the others there is no next state.
  cases h with
  | value h =>
    cases x with
    | scalar value =>
      cases hstep
      exact h.complete (.scalar value)
    | opening isObject => exact h.enter hstep
    | closing | comma | colon => cases hstep
  | firstItem h hfit =>
    have hopens := h.array hfit
    cases x with
    | scalar value =>
      cases hstep
      exact hopens.complete (.scalar value)
    | opening isObject => exact hopens.enter hstep
    | closing isObject => exact h.leave_array hfit hstep
    | comma | colon => cases hstep
  | item h hfit hne =>
    cases x with
    | comma =>
      cases hstep
      have hopens := h.array hfit
      rw [leading_eq (by simpa using hne), ← List.cons_append,
        ← List.append_assoc] at hopens
      exact .value hopens
    | closing isObject => exact h.leave_array hfit hstep
    | scalar | opening | colon => cases hstep
  | @firstField outer xs h hfit =>
    cases x with
    | scalar value =>
      cases value with
      | string name =>
        cases hstep
        exact @Reads.colon outer xs [] h hfit name
      | null | bool | number | array | object => cases hstep
    | closing isObject => exact @Opens.leave_object outer xs [] _ _ h hfit hstep
    | opening | comma | colon => cases hstep
  | name h hfit =>
    cases x with
    | scalar value =>
      cases value with
      | string name =>
        cases hstep
        exact .colon h hfit name
      | null | bool | number | array | object => cases hstep
    | opening | closing | comma | colon => cases hstep
  | colon h hfit name =>
    cases x with
    | colon =>
      cases hstep
      have hopens := h.object hfit name
      rw [List.append_cons _ _ [Lexeme.colon]] at hopens
      exact .value hopens
    | scalar | opening | closing | comma => cases hstep
  | field h hfit hne =>
    cases x with
    | comma =>
      cases hstep
      have hname := Reads.name h hfit
      rw [leading_eq (by simpa using hne), ← List.cons_append,
        ← List.append_assoc] at hname
      exact hname
    | closing isObject => exact h.leave_object hfit hstep
    | scalar | opening | colon => cases hstep
  | nothing h => cases hstep

/-- All lexemes to come. -/
theorem Reads.run {r r' : Reading} {xs ys : List Lexeme} (h : Reads r xs)
    (hrun : ys.foldlM Reading.step r = some r') : Reads r' (xs ++ ys) := by
  induction ys generalizing r xs with
  | nil =>
    cases hrun
    rwa [List.append_nil]
  | cons y ys ih =>
    rw [List.foldlM_cons, Option.bind_eq_bind, Option.bind_eq_some_iff] at hrun
    obtain ⟨next, hstep, hrun⟩ := hrun
    have hreads := ih (h.step hstep) hrun
    rwa [List.append_assoc, List.singleton_append] at hreads

end Reading

/-! ## Texts -/

/-- The reader accepts what the grammar writes. -/
theorem ofText?_eq_some_iff {t : Text} {value : Json} :
    ofText? t = some value ↔
      ∃ xs, lexemes t = some xs ∧ Writes maxDepth xs value := by
  simp only [ofText?, Option.bind_eq_bind, Option.bind_eq_some_iff]
  constructor
  · rintro ⟨xs, hxs, ⟨frames, next⟩, hrun, hnext⟩
    refine ⟨xs, hxs, ?_⟩
    have hreads := (Reading.Reads.value .nil).run hrun
    cases hreads with
    | nothing h =>
      cases hnext
      exact h
    | value | firstItem | item | firstField | name | colon | field =>
      cases hnext
  · rintro ⟨xs, hxs, h⟩
    exact ⟨xs, hxs, _, h.run (by simp) (by simp), rfl⟩

private theorem readWord?_ne_object {c : Char} {rest left : Text}
    (fields : List (Text × Json)) :
    readWord? c rest ≠ some (.object fields, left) := by
  unfold readWord?
  split_ifs <;> simp

private theorem readLexeme_ne_object {c : Char} {rest left : Text}
    (fields : List (Text × Json)) :
    readLexeme c rest ≠ some (.scalar (.object fields), left) := by
  unfold readLexeme
  -- Brackets, comma, colon, strings and numbers; `split` would go through the
  -- whole chain at each of them.
  iterate 9 refine iteInduction (motive := (· ≠ _)) (fun _ => by simp) fun _ =>
    ?_
  simp [readWord?_ne_object]

/-- A text has no lexeme that is an object by itself. -/
theorem object_not_mem_lexemes {t : Text} {xs : List Lexeme}
    (h : lexemes t = some xs) (fields : List (Text × Json)) :
    .scalar (.object fields) ∉ xs := by
  fun_induction lexemes t generalizing xs with
  | case1 =>
    cases h
    exact List.not_mem_nil
  | case2 c rest _ ih => exact ih h
  | case3 => cases h
  | case4 c rest _ x left hread ih =>
    obtain ⟨ys, hys, rfl⟩ := Option.map_eq_some_iff.mp h
    intro hmem
    rcases List.mem_cons.mp hmem with rfl | hmem
    · exact readLexeme_ne_object fields hread
    · exact ih hys hmem

/-- The object that a text writes, from its entries in the order of the text. -/
theorem ofText?_eq_object_iff {t : Text} {fields : List (Text × Json)} :
    ofText? t = some (.object fields) ↔
      ∃ entries, HasEntries t entries ∧ fields = Entries.putAll entries := by
  rw [ofText?_eq_some_iff]
  constructor
  · rintro ⟨xs, hxs, h⟩
    cases h with
    | scalar =>
      exact absurd List.mem_cons_self (object_not_mem_lexemes hxs fields)
    | object read hread => exact ⟨_, ⟨read, hxs, hread, rfl⟩, rfl⟩
  · rintro ⟨entries, ⟨read, hxs, hread, rfl⟩, rfl⟩
    exact ⟨_, hxs, .object read hread⟩

end SelectorPath.Json
