import Mathlib
import SelectorPath.Proofs.StandardEngine

/-!
# Opaque literals

While custom pseudo-classes are replaced, a quoted literal is one thing that is
kept or dropped but never looked into. A masked text is therefore seen here as a
text with numbered holes. Its characters are those outside of literals, and if
none of them is a low line, a hole is found back from its placeholder. If no
name has a low line either, a use of a name ends at the edge of a hole or holds
all of it, so the text with names replaced has holes again, and fewer of them.

## Main results

* `Skeleton.written_injective`: a masked text has one reading with holes.
* `Skeleton.exists_replaceAll`: replacing names in a text with holes.
* `Skeleton.restore_written`: restoring fills the holes.
* `Registry.expand_opaque`: one text with holes gives the expansion of all
  selectors with the same mask.
-/

namespace SelectorPath

/-- A character, or a hole for the literal of the given number. -/
inductive Symbol where
  | char (c : Char)
  | hole (index : Nat)
deriving DecidableEq, Repr

/-- A text with numbered holes. -/
abbrev Skeleton := List Symbol

/-- The symbol with the literals of a table in place. -/
def Symbol.fill (table : List Text) : Symbol → Text
  | char c => [c]
  | hole index => table[index]?.getD []

/-- The symbol with a placeholder for a hole. -/
def Symbol.written : Symbol → Text
  | char c => [c]
  | hole index => Literal.placeholder index

/-- The number of a hole. -/
def Symbol.hole? : Symbol → Option Nat
  | char _ => none
  | hole index => some index

namespace Skeleton

/-- The text with its holes filled. -/
def fill (table : List Text) (k : Skeleton) : Text :=
  k.flatMap (Symbol.fill table)

/-- The text with placeholders for its holes. -/
def written (k : Skeleton) : Text :=
  k.flatMap Symbol.written

/-- The numbers of the holes in their order. -/
def holes (k : Skeleton) : List Nat :=
  k.filterMap Symbol.hole?

@[simp] theorem written_nil : written [] = [] := rfl

@[simp] theorem written_char (c : Char) (k : Skeleton) :
    written (.char c :: k) = c :: written k := rfl

@[simp] theorem written_hole (index : Nat) (k : Skeleton) :
    written (.hole index :: k) = Literal.placeholder index ++ written k := rfl

@[simp] theorem fill_char (table : List Text) (c : Char) (k : Skeleton) :
    fill table (.char c :: k) = c :: fill table k := rfl

@[simp] theorem fill_hole (table : List Text) (index : Nat) (k : Skeleton) :
    fill table (.hole index :: k) = table[index]?.getD [] ++ fill table k := rfl

@[simp] theorem holes_char (c : Char) (k : Skeleton) :
    holes (.char c :: k) = holes k := rfl

@[simp] theorem holes_hole (index : Nat) (k : Skeleton) :
    holes (.hole index :: k) = index :: holes k := rfl

/-- The symbols of a text without holes. -/
def ofText (t : Text) : Skeleton :=
  t.map .char

private theorem written_ofText_append (t : Text) (k : Skeleton) :
    written (ofText t ++ k) = t ++ written k := by
  induction t with
  | nil => rfl
  | cons c t ih => exact congrArg (c :: ·) ih

private theorem holes_ofText_append (t : Text) (k : Skeleton) :
    holes (ofText t ++ k) = holes k := by
  induction t with
  | nil => rfl
  | cons c t ih => exact ih

/-! ## Masked texts -/

/-- The segments of a text with holes for its literals, numbered from `index`
on. -/
def ofSegments (index : Nat) : List Segment → Skeleton
  | [] => []
  | .char c :: rest => .char c :: ofSegments index rest
  | .literal _ :: rest => .hole index :: ofSegments (index + 1) rest

private theorem written_ofSegments (index : Nat) (segments : List Segment) :
    written (ofSegments index segments) = Literal.mask index segments := by
  induction segments generalizing index with
  | nil => rfl
  | cons segment rest ih =>
    cases segment with
    | char c => rw [ofSegments, written_char, ih, Literal.mask]
    | literal t => rw [ofSegments, written_hole, ih, Literal.mask]

private theorem holes_ofSegments (index : Nat) (segments : List Segment) :
    holes (ofSegments index segments) =
      List.range' index (Literal.literals segments).length := by
  induction segments generalizing index with
  | nil => rfl
  | cons segment rest ih =>
    cases segment with
    | char c => rw [ofSegments, holes_char, ih, Literal.literals]
    | literal t =>
      rw [ofSegments, holes_hole, ih, Literal.literals, List.length_cons,
        List.range'_succ]

private theorem char_mem_ofSegments_iff {c : Char} {index : Nat}
    {segments : List Segment} :
    .char c ∈ ofSegments index segments ↔ .char c ∈ segments := by
  induction segments generalizing index with
  | nil => simp [ofSegments]
  | cons segment rest ih =>
    cases segment with
    | char d => simp [ofSegments, ih]
    | literal t => simp [ofSegments, ih]

/-! ## Edges of holes -/

private theorem not_mem_placeholder {c : Char} (hmark : c ≠ '_')
    (hletter : c ≠ 'S') (hdigit : c.isDigit = false) (index : Nat) :
    c ∉ Literal.placeholder index := by
  have hnumeral : c ∉ Text.ofNat index := fun h => by
    rw [Text.isDigit_of_mem_ofNat h] at hdigit
    cases hdigit
  simp [Literal.placeholder, hmark, hletter, hnumeral]

/-- A masked text has one reading, for a hole is told by the low line that its
placeholder starts with. -/
theorem written_injective {k k' : Skeleton} (hk : .char '_' ∉ k)
    (hk' : .char '_' ∉ k') (h : written k = written k') : k = k' := by
  induction k generalizing k' with
  | nil =>
    cases k' with
    | nil => rfl
    | cons symbol' rest' =>
      cases symbol' with
      | char d => cases h
      | hole j => cases h
  | cons symbol rest ih =>
    rw [List.mem_cons, not_or] at hk
    cases k' with
    | nil =>
      cases symbol with
      | char c => cases h
      | hole i => cases h
    | cons symbol' rest' =>
      rw [List.mem_cons, not_or] at hk'
      cases symbol with
      | char c =>
        cases symbol' with
        | char d =>
          obtain ⟨rfl, hrest⟩ := List.cons.inj h
          rw [ih hk.2 hk'.2 hrest]
        | hole j =>
          obtain ⟨rfl, -⟩ := List.cons.inj h
          exact absurd rfl hk.1
      | hole i =>
        cases symbol' with
        | char d =>
          obtain ⟨rfl, -⟩ := List.cons.inj h
          exact absurd rfl hk'.1
        | hole j =>
          have hread := Literal.placeholder?_placeholder i (written rest)
          rw [← written_hole, h, written_hole, Literal.placeholder?_placeholder]
            at hread
          obtain ⟨hnumeral, hrest⟩ := Prod.mk.inj (Option.some.inj hread)
          have hindex : j = i := by
            rw [← Text.toNat_ofNat j, hnumeral, Text.toNat_ofNat]
          rw [hindex, ih hk.2 hk'.2 hrest.symm]

/-- A front without low lines ends at the edge of a symbol. -/
theorem exists_suffix_of_front {k : Skeleton} {front left : Text}
    (hfront : '_' ∉ front) (h : written k = front ++ left) :
    ∃ k', k' <:+ k ∧ written k' = left := by
  induction front generalizing k with
  | nil => exact ⟨k, List.suffix_refl k, h⟩
  | cons c front ih =>
    rw [List.mem_cons, not_or] at hfront
    cases k with
    | nil => cases h
    | cons symbol rest =>
      cases symbol with
      | char d =>
        obtain ⟨k', hsuffix, hk'⟩ := ih hfront.2 (List.cons.inj h).2
        exact ⟨k', hsuffix.trans (List.suffix_cons _ rest), hk'⟩
      | hole i => exact absurd (List.cons.inj h).1 hfront.1

/-- A closing parenthesis lies outside of holes. -/
theorem exists_suffix_of_paren {k : Skeleton} {argument left : Text}
    (h : written k = argument ++ ')' :: left) :
    ∃ k', k' <:+ k ∧ written k' = left := by
  induction k generalizing argument with
  | nil => simp at h
  | cons symbol rest ih =>
    have hrest : ∀ {argument}, written rest = argument ++ ')' :: left →
        ∃ k', k' <:+ symbol :: rest ∧ written k' = left := fun h => by
      obtain ⟨k', hsuffix, hk'⟩ := ih h
      exact ⟨k', hsuffix.trans (List.suffix_cons _ rest), hk'⟩
    cases symbol with
    | char d =>
      cases argument with
      | nil => exact ⟨rest, List.suffix_cons _ rest, (List.cons.inj h).2⟩
      | cons c argument => exact hrest (List.cons.inj h).2
    | hole i =>
      have hparen : ')' ∉ Literal.placeholder i :=
        not_mem_placeholder (by decide) (by decide) (by decide) i
      rw [written_hole] at h
      rcases List.append_eq_append_iff.mp h with ⟨inside, -, hinside⟩ |
          ⟨inside, hhole, hinside⟩
      · exact hrest hinside
      · cases inside with
        | nil => exact @hrest [] hinside.symm
        | cons c inside =>
          obtain ⟨rfl, -⟩ := List.cons.inj hinside
          exact absurd (by simp [hhole]) hparen

/-- A use of a name without low lines ends at the edge of a symbol. -/
theorem exists_suffix_of_use {k : Skeleton} {use : NameUse} {left : Text}
    (hname : '_' ∉ use.name) (h : use.Leads (written k) left) :
    ∃ k', k' <:+ k ∧ written k' = left := by
  obtain ⟨rest, hk, hbehind⟩ := h
  obtain ⟨behind, hsuffix, rfl⟩ := exists_suffix_of_front hname hk
  rcases argumentBehind?_eq_some_iff.mp hbehind
      with ⟨argument, -, -, -, hargument⟩ | ⟨-, hbare, -⟩
  · obtain ⟨k', hsuffix', hk'⟩ :=
      @exists_suffix_of_paren behind ('(' :: argument) left hargument
    exact ⟨k', hsuffix'.trans hsuffix, hk'⟩
  · exact ⟨behind, hsuffix, hbare⟩

/-! ## Replacing and restoring -/

/-- With names replaced by texts without low lines, a text with holes is one
again, and its holes are some of those it had. -/
theorem exists_replaceAll {names : List Text} {write : NameUse → Text}
    (hnames : ∀ name ∈ names, '_' ∉ name)
    (hwrite : ∀ use : NameUse, use.name ∈ names → '_' ∉ write use)
    {k : Skeleton} (hk : .char '_' ∉ k) :
    ∃ k', Text.replaceAll (findName names) write (written k) = written k' ∧
      .char '_' ∉ k' ∧
      k'.holes.Sublist k.holes := by
  induction hlength : k.length using Nat.strong_induction_on generalizing k with
  | _ n ih =>
    cases k with
    | nil => exact ⟨[], replaceAll_nil, List.not_mem_nil, List.Sublist.refl _⟩
    | cons symbol rest =>
      rw [List.mem_cons, not_or] at hk
      rw [List.length_cons] at hlength
      obtain ⟨rest', hrest, hclean, hholes⟩ :=
        ih rest.length (by omega) hk.2 rfl
      have hkeep : .char '_' ∉ symbol :: rest' := by
        rw [List.mem_cons, not_or]
        exact ⟨hk.1, hclean⟩
      cases symbol with
      | hole i =>
        have hcolon : ':' ∉ Literal.placeholder i :=
          not_mem_placeholder (by decide) (by decide) (by decide) i
        refine ⟨.hole i :: rest', ?_, hkeep, hholes.cons_cons i⟩
        rw [written_hole, replaceAll_skip hcolon, hrest, written_hole]
      | char c =>
        by_cases hc : c = ':'
        · subst hc
          cases huse : useOfNames? names (written rest) with
          | none =>
            refine ⟨.char ':' :: rest', ?_, hkeep, hholes⟩
            rw [written_char, replaceAll_colon huse, hrest, written_char]
          | some found =>
            obtain ⟨use, left⟩ := found
            obtain ⟨hname, hleads⟩ := leads_of_useOfNames? huse
            obtain ⟨behind, hsuffix, rfl⟩ :=
              exists_suffix_of_use (hnames _ hname) hleads
            have hbehind : .char '_' ∉ behind :=
              fun h => hk.2 (hsuffix.subset h)
            have hle := hsuffix.length_le
            obtain ⟨behind', hbehind', hclean', hholes'⟩ :=
              ih behind.length (by omega) hbehind rfl
            refine ⟨ofText (write use) ++ behind', ?_, ?_, ?_⟩
            · rw [written_char, replaceAll_use huse, hbehind',
                written_ofText_append]
            · simp [ofText, hclean', hwrite use hname]
            · rw [holes_ofText_append, holes_char]
              exact hholes'.trans (hsuffix.sublist.filterMap _)
        · refine ⟨.char c :: rest', ?_, hkeep, hholes⟩
          rw [written_char, replaceAll_other hc, hrest, written_char]

/-- Restoring fills the holes. -/
theorem restore_written {table : List Text} {k : Skeleton} (hk : .char '_' ∉ k)
    (hholes : ∀ index ∈ k.holes, index < table.length) :
    Literal.restore table (written k) = k.fill table := by
  induction k with
  | nil => simp [Literal.restore, fill]
  | cons symbol rest ih =>
    rw [List.mem_cons, not_or] at hk
    cases symbol with
    | char c =>
      have hc : c ≠ '_' := fun hc => hk.1 (by rw [hc])
      rw [written_char, Literal.restore_cons_of_ne hc, ih hk.2 hholes,
        fill_char]
    | hole i =>
      rw [holes_hole, List.forall_mem_cons] at hholes
      have hliteral : table[i]? = some (table[i]?.getD []) := by
        rw [List.getElem?_eq_getElem hholes.1, Option.getD_some]
      rw [written_hole, Literal.restore_placeholder hliteral, ih hk.2 hholes.2,
        fill_hole]

end Skeleton

/-! ## Expansion -/

namespace Registry

/-- A registry of plain names for fixed texts, with no low line in either. -/
structure HasFixedTexts (r : Registry) : Prop where
  ne_nil : r.entries ≠ []
  plain : ∀ entry ∈ r.entries, isPatternKey entry.1 = false
  keys : ∀ entry ∈ r.entries, '_' ∉ entry.1
  fixed : ∀ entry ∈ r.entries, ∃ replacement, entry.2 = .literal replacement ∧
    '_' ∉ replacement

private theorem HasFixedTexts.plain_keys {r : Registry} (h : r.HasFixedTexts) :
    ∀ key ∈ r.keys, isPatternKey key = false := by
  intro key hkey
  obtain ⟨entry, hentry, rfl⟩ := List.mem_map.mp hkey
  exact h.plain entry hentry

/-- A use of a name is replaced by a fixed text, whatever the literals are. -/
theorem HasFixedTexts.exists_replacement {r : Registry} (h : r.HasFixedTexts)
    {use : NameUse} (hname : use.name ∈ r.names) :
    ∃ replacement, '_' ∉ replacement ∧ ∀ table,
      expandName r table use = replacement := by
  obtain ⟨handler, hfind, hentry⟩ := mem_entries_of_mem_names hname
  obtain ⟨replacement, hhandler, hfixed⟩ := h.fixed _ hentry
  refine ⟨replacement, hfixed, fun table => ?_⟩
  have hfind : r.find? use.name = some (.literal replacement) := by
    rw [hfind, ← hhandler]
  simp only [expandName, hfind]

/-- A registry of fixed texts expands by the pass over its names, whatever the
literals are. -/
theorem HasFixedTexts.expand {r : Registry} (h : r.HasFixedTexts)
    (selector : Text) :
    r.expand selector = .ok (Literal.restore (Literal.capture selector).2
      (Text.replaceAll (findName r.names) (expandName r [])
        (Literal.capture selector).1)) := by
  have hne : r.keys ≠ [] := by simpa [Registry.keys] using h.ne_nil
  have hnames : Text.replaceAll (findName r.names)
      (expandName r (Literal.capture selector).2) (Literal.capture selector).1 =
        Text.replaceAll (findName r.names) (expandName r [])
          (Literal.capture selector).1 := by
    apply replaceAll_congr
    intro use hname
    obtain ⟨replacement, -, hreplacement⟩ := h.exists_replacement hname
    rw [hreplacement, hreplacement]
  rw [expand_of_plain hne h.plain_keys, hnames]

/-- One text with holes gives the expansion of every selector with the given
mask: the holes are filled with the literals of that selector, of which each
comes at most once and in its order. -/
theorem expand_opaque {r : Registry} (hr : r.HasFixedTexts) (masked : Text) :
    ∃ k : Skeleton, ∀ selector, .char '_' ∉ Literal.segments selector →
      (Literal.capture selector).1 = masked →
        r.expand selector = .ok (k.fill (Literal.capture selector).2) ∧
          k.holes.Sublist (List.range (Literal.capture selector).2.length) := by
  by_cases hexists : ∃ selector, .char '_' ∉ Literal.segments selector ∧
      (Literal.capture selector).1 = masked
  · obtain ⟨first, hfirst, rfl⟩ := hexists
    have hclean : ∀ {selector}, .char '_' ∉ Literal.segments selector →
        .char '_' ∉ Skeleton.ofSegments 0 (Literal.segments selector) :=
      fun h => mt Skeleton.char_mem_ofSegments_iff.mp h
    have hnames : ∀ name ∈ r.names, '_' ∉ name := fun name hname => by
      obtain ⟨handler, -, hentry⟩ := mem_entries_of_mem_names hname
      exact hr.keys _ hentry
    have hwrite : ∀ use : NameUse, use.name ∈ r.names →
        '_' ∉ expandName r [] use := fun use hname => by
      obtain ⟨replacement, hfixed, hreplacement⟩ := hr.exists_replacement hname
      rw [hreplacement]
      exact hfixed
    obtain ⟨k, hk, hkept, hholes⟩ :=
      Skeleton.exists_replaceAll hnames hwrite (hclean hfirst)
    refine ⟨k, fun selector hselector hmask => ?_⟩
    -- The mask tells the place of every hole.
    have hshape : Skeleton.ofSegments 0 (Literal.segments first) =
        Skeleton.ofSegments 0 (Literal.segments selector) := by
      apply Skeleton.written_injective (hclean hfirst) (hclean hselector)
      rw [Skeleton.written_ofSegments, Skeleton.written_ofSegments]
      exact hmask.symm
    rw [hshape, Skeleton.holes_ofSegments, ← List.range_eq_range'] at hholes
    rw [Skeleton.written_ofSegments] at hk
    refine ⟨?_, hholes⟩
    have hmasked : Text.replaceAll (findName r.names) (expandName r [])
        (Literal.capture first).1 =
        k.written := hk
    rw [hr.expand, hmask, hmasked, Skeleton.restore_written hkept]
    intro index hindex
    exact List.mem_range.mp (hholes.subset hindex)
  · exact ⟨[], fun selector hselector hmask =>
      absurd ⟨selector, hselector, hmask⟩ hexists⟩

/-- A registry with one fixed text. -/
def radioOnly : Registry :=
  Registry.empty.insert "radio" (.literal "input[type=radio]")

private theorem hasFixedTexts_radioOnly : radioOnly.HasFixedTexts where
  ne_nil := by decide
  plain := by decide
  keys := by decide
  fixed := by
    rintro entry hentry
    obtain rfl := List.mem_singleton.mp hentry
    exact ⟨_, rfl, by decide⟩

/-- Of two literals one is dropped with the argument and one is kept, also where
a literal holds the use of a name or the text of a placeholder. -/
theorem expand_opaque_radioOnly :
    radioOnly.HasFixedTexts ∧
      ∃ k : Skeleton, radioOnly.expand ":radio('x)') [title=':radio']" =
        .ok (k.fill ["'x)'", "':radio'"]) ∧
        radioOnly.expand ":radio(':radio') [title='__S0__']" =
          .ok (k.fill ["':radio'", "'__S0__'"]) := by
  have hcapture : Literal.capture ":radio('x)') [title=':radio']" =
      (":radio(__S0__) [title=__S1__]".toList,
        ["'x)'".toList, "':radio'".toList]) := by cbv
  have hcapture' : Literal.capture ":radio(':radio') [title='__S0__']" =
      (":radio(__S0__) [title=__S1__]".toList,
        ["':radio'".toList, "'__S0__'".toList]) := by cbv
  have hclean : .char '_' ∉ Literal.segments ":radio('x)') [title=':radio']" :=
    of_decide_eq_false (by cbv)
  have hclean' : .char '_' ∉
      Literal.segments ":radio(':radio') [title='__S0__']" :=
    of_decide_eq_false (by cbv)
  obtain ⟨k, hk⟩ :=
    expand_opaque hasFixedTexts_radioOnly ":radio(__S0__) [title=__S1__]"
  have hfill := (hk _ hclean (by rw [hcapture])).1
  have hfill' := (hk _ hclean' (by rw [hcapture'])).1
  rw [hcapture] at hfill
  rw [hcapture'] at hfill'
  exact ⟨hasFixedTexts_radioOnly, k, hfill, hfill'⟩

end Registry

end SelectorPath
