import Mathlib
import SelectorPath.Custom.Template
import SelectorPath.Proofs.TextParts

/-!
# Pieces of templates

A template is written as a sequence of pieces and comes in as one text, which is
cut into pieces again. What is cut are the pieces that were written, with the
texts in single characters, if each piece ends where the next one starts: what a
number is followed by is no digit, and a name holds no closing brace. Then the
template is rendered piece by piece.

A reference whose number is too large to be kept is no reference: a dollar sign
is written in its place.

## Main results

* `Template.readPieces_writtenAll`: the written pieces are read back.
* `Template.render_ofText`, `Template.highestIndex_ofText`: rendering a text
  that was written from pieces, and the highest number in it.
* `Template.render_writtenAll`: rendering is piecewise.
-/

namespace SelectorPath

/-! ## Written templates -/

namespace TemplatePiece

/-- A piece as it is written. A dollar sign in a text is doubled; any other text
is written as it is. -/
def written : TemplatePiece → Text
  | text t => t.flatMap fun c => if c = '$' then "$$" else [c]
  | reference (.index n) => '$' :: Text.ofNat n
  | reference (.named name) => '$' :: '{' :: (name ++ ['}'])
  | reference .data => "$data"

/-- The pieces one after the other. -/
def writtenAll (pieces : List TemplatePiece) : Text :=
  pieces.flatMap written

/-- Whether a written piece ends where it should when `behind` follows: a number
does not go on, and a name holds no closing brace. -/
def endsBefore (behind : Text) : TemplatePiece → Bool
  | reference (.index _) => behind.head?.all fun c => !c.isDigit
  | reference (.named name) => !name.contains '}'
  | _ => true

/-- Whether each piece ends where the next one starts. An empty text writes
nothing, so what follows a number is the next piece that is written. -/
def areApart : List TemplatePiece → Bool
  | [] => true
  | piece :: pieces => piece.endsBefore (writtenAll pieces) && areApart pieces

/-- The number that a piece refers to. -/
def index? : TemplatePiece → Option Nat
  | reference (.index n) => some n
  | _ => none

/-- The highest number referred to, or zero. -/
def highest (pieces : List TemplatePiece) : Nat :=
  (pieces.filterMap index?).foldr max 0

/-- What a piece gives when references are resolved; one that is not resolved
gives nothing. -/
def resolved (resolve : Reference → Option Text) : TemplatePiece → Text
  | text t => t
  | reference r => (resolve r).getD []

/-- The piece with its number kept in bounds: beyond them there is only a dollar
sign. -/
def bounded : TemplatePiece → TemplatePiece
  | reference (.index n) =>
    if n < Template.indexBound then reference (.index n) else text "$"
  | piece => piece

/-- A piece cut into the pieces that are read one at a time. -/
def spelled : TemplatePiece → List TemplatePiece
  | text t => t.map fun c => text [c]
  | reference r => [reference r]

end TemplatePiece

namespace Template

open TemplatePiece

/-! ## Reading the pieces -/

private theorem readPieces_of_ne {c : Char} (h : c ≠ '$') (rest : Text) :
    readPieces (c :: rest) = .text [c] :: readPieces rest := by
  rw [readPieces, if_neg h]

private theorem readPieces_of_readPiece {ahead left : Text}
    {piece : TemplatePiece} (h : readPiece ahead = (piece, left)) :
    readPieces ('$' :: ahead) = piece :: readPieces left := by
  rw [readPieces, if_pos rfl, h]

private theorem readPieces_text (t rest : Text) :
    readPieces ((TemplatePiece.text t).written ++ rest) =
      (TemplatePiece.text t).spelled ++ readPieces rest := by
  induction t with
  | nil => rfl
  | cons c t ih =>
    simp only [written, spelled, List.flatMap_cons, List.map_cons,
      List.append_assoc, List.cons_append] at ih ⊢
    by_cases hc : c = '$'
    · subst hc
      rw [if_pos rfl, ← ih]
      exact readPieces_of_readPiece rfl
    · rw [if_neg hc, ← ih]
      exact readPieces_of_ne hc _

private theorem indexPiece_ofNat (n : Nat) :
    indexPiece (Text.ofNat n) = (reference (.index n)).bounded := by
  have hdigits :
      (!(Text.ofNat n).isEmpty && (Text.ofNat n).all Char.isDigit) = true := by
    rw [Bool.and_eq_true, List.all_eq_true]
    exact ⟨by simpa using Text.ofNat_ne_nil n,
      fun c hc => Text.isDigit_of_mem_ofNat hc⟩
  rw [indexPiece, Text.natBelow?, hdigits, Text.toNat_ofNat, bounded]
  by_cases hn : n < indexBound
  · simp [hn]
  · simp [hn]

/-- A digit is none of the characters that start another piece. -/
theorem readPiece_of_isDigit {d : Char} (hd : d.isDigit = true) (rest : Text) :
    readPiece (d :: rest) = readIndex (d :: rest) := by
  have hafter : Text.after? "data" (d :: rest) = none := by
    refine if_neg ?_
    rintro rfl
    cases hd
  unfold readPiece
  split
  · rename_i hcons
    cases hcons
    cases hd
  · rename_i hcons
    cases hcons
    cases hd
  · rw [hafter]

/-- A number is read up to its last digit. -/
theorem readPiece_ofNat (n : Nat) {rest : Text}
    (h : rest.head?.all (fun c => !c.isDigit) = true) :
    readPiece (Text.ofNat n ++ rest) =
      ((reference (.index n)).bounded, rest) := by
  have hdigits : ∀ c ∈ Text.ofNat n, c.isDigit = true :=
    fun c hc => Text.isDigit_of_mem_ofNat hc
  have htake : rest.takeWhile Char.isDigit = [] ∧ rest.dropWhile Char.isDigit =
      rest := by
    cases rest with
    | nil => exact ⟨rfl, rfl⟩
    | cons c rest =>
      have hc : ¬c.isDigit = true := by simpa using h
      exact ⟨List.takeWhile_cons_of_neg hc, List.dropWhile_cons_of_neg hc⟩
  have hindex : readIndex (Text.ofNat n ++ rest) =
      ((reference (.index n)).bounded, rest) := by
    rw [readIndex, List.takeWhile_append_of_pos hdigits,
      List.dropWhile_append_of_pos hdigits, htake.1,
      htake.2, List.append_nil, indexPiece_ofNat]
  obtain ⟨d, digits, heq⟩ := List.exists_cons_of_ne_nil (Text.ofNat_ne_nil n)
  have hd : d.isDigit = true :=
    hdigits d (by rw [heq]; exact List.mem_cons_self)
  rw [← hindex, heq]
  exact readPiece_of_isDigit hd _

private theorem readPiece_named {name : Text} (h : '}' ∉ name) (rest : Text) :
    readPiece ('{' :: (name ++ '}' :: rest)) =
      (.reference (.named name), rest) := by
  have hcut : Text.cutAt? '}' (name ++ '}' :: rest) = some (name, rest) :=
    Text.cutAt?_eq_some_iff.mpr ⟨rfl, h⟩
  simp only [readPiece, hcut]

/-- A written piece is read back, but for the bound on its number. -/
theorem readPieces_written {piece : TemplatePiece} {rest : Text}
    (h : piece.endsBefore rest = true) :
    readPieces (piece.written ++ rest) =
      piece.bounded.spelled ++ readPieces rest := by
  cases piece with
  | text t => exact readPieces_text t rest
  | reference r =>
    cases r with
    | index n =>
      rw [written, List.cons_append,
        readPieces_of_readPiece (readPiece_ofNat n h), bounded]
      split <;> rfl
    | named name =>
      have hname : '}' ∉ name := by simpa [endsBefore] using h
      have hwritten : (reference (.named name)).written ++ rest =
          '$' :: '{' :: (name ++ '}' :: rest) := by
        simp [written]
      rw [hwritten, readPieces_of_readPiece (readPiece_named hname rest)]
      rfl
    | data => exact readPieces_of_readPiece rfl

/-- The written pieces are read back, but for the bound on their numbers. -/
theorem readPieces_writtenAll {pieces : List TemplatePiece}
    (h : areApart pieces = true) :
    readPieces (writtenAll pieces) = (pieces.map bounded).flatMap spelled := by
  induction pieces with
  | nil => simp [writtenAll, readPieces]
  | cons piece pieces ih =>
    rw [areApart, Bool.and_eq_true] at h
    rw [writtenAll, List.flatMap_cons, ← writtenAll, readPieces_written h.1,
      ih h.2, List.map_cons, List.flatMap_cons]

/-! ## Rendering them -/

private theorem render_spelled (pieces : List TemplatePiece)
    (resolve : Reference → Option Text) :
    render ⟨pieces.flatMap spelled⟩ resolve = render ⟨pieces⟩ resolve := by
  induction pieces with
  | nil => rfl
  | cons piece pieces ih =>
    simp only [render, List.flatMap_cons, List.flatMap_append] at ih ⊢
    rw [ih]
    congr 1
    cases piece with
    | text t => simp [spelled, List.flatMap_map]
    | reference r => simp [spelled]

private theorem highest_spelled (pieces : List TemplatePiece) :
    highest (pieces.flatMap spelled) = highest pieces := by
  rw [highest, highest]
  congr 1
  induction pieces with
  | nil => rfl
  | cons piece pieces ih =>
    rw [List.flatMap_cons, List.filterMap_append, ih]
    cases piece with
    | text t =>
      have hnone : (text t).spelled.filterMap index? = [] := by
        simp [spelled, index?, List.filterMap_eq_nil_iff]
      rw [hnone]
      rfl
    | reference r => cases r <;> rfl

private theorem highestIndex_eq (pieces : List TemplatePiece) :
    highestIndex ⟨pieces⟩ = max 1 (highest pieces) := by
  rw [highestIndex]
  generalize 1 = lowest
  induction pieces generalizing lowest with
  | nil => simp [highest]
  | cons piece pieces ih =>
    rw [List.foldl_cons, ih]
    cases piece with
    | text t => rfl
    | reference r =>
      cases r with
      | index n => simp [highest, index?, max_assoc]
      | named name => rfl
      | data => rfl

/-- The arity of a template is its highest number below the bound, and one at
least. -/
theorem highestIndex_ofText {pieces : List TemplatePiece}
    (h : areApart pieces = true) :
    (ofText (writtenAll pieces)).highestIndex =
      max 1 (highest (pieces.map bounded)) := by
  rw [ofText, readPieces_writtenAll h, highestIndex_eq, highest_spelled]

/-- A template that was written from pieces is rendered from them. -/
theorem render_ofText {pieces : List TemplatePiece} (h : areApart pieces = true)
    (resolve : Reference → Option Text) :
    (ofText (writtenAll pieces)).render resolve =
      render ⟨pieces.map bounded⟩ resolve := by
  rw [ofText, readPieces_writtenAll h, render_spelled]

/-- Numbers below the bound are kept. -/
theorem map_bounded {pieces : List TemplatePiece}
    (h : ∀ n, reference (.index n) ∈ pieces → n < indexBound) :
    pieces.map bounded = pieces := by
  have hbounded : ∀ piece ∈ pieces, piece.bounded = piece := by
    intro piece hpiece
    unfold bounded
    split
    · exact if_pos (h _ hpiece)
    · rfl
  rw [List.map_congr_left hbounded, List.map_id']

private theorem render_eq_flatMap (pieces : List TemplatePiece)
    (resolve : Reference → Option Text) :
    render ⟨pieces⟩ resolve = pieces.flatMap (resolved resolve) := by
  refine List.flatMap_congr fun piece _ => ?_
  cases piece with
  | text t => rfl
  | reference r => rfl

/-- Rendering is piecewise: a text gives itself and a reference what it is
resolved to, whatever that is, and the highest number is that of the references.
A text with its dollar signs doubled is given back. -/
theorem render_writtenAll {pieces : List TemplatePiece}
    (hapart : areApart pieces = true)
    (hbound : ∀ n, reference (.index n) ∈ pieces → n < 2 ^ 64) :
    (∀ resolve, (ofText (writtenAll pieces)).render resolve =
      pieces.flatMap (resolved resolve)) ∧
      (ofText (writtenAll pieces)).highestIndex = max 1 (highest pieces) ∧
      ∀ resolve (t : Text),
        (ofText (t.flatMap fun c => if c = '$' then "$$" else [c])).render
        resolve = t := by
  refine ⟨fun resolve => ?_, ?_, fun resolve t => ?_⟩
  · rw [render_ofText hapart, map_bounded hbound, render_eq_flatMap]
  · rw [highestIndex_ofText hapart, map_bounded hbound]
  · have hwritten : (t.flatMap fun c => if c = '$' then ("$$" : Text)
        else [c]) = writtenAll [text t] := by
      simp [writtenAll, written]
    rw [hwritten, render_ofText rfl, render_eq_flatMap]
    simp [bounded, resolved]

/-- A dollar sign on both sides of a number, a dollar sign in a name, and values
that look like references. -/
theorem render_writtenAll_dollars :
    areApart [text "a$", reference (.index 12), text "$3",
      reference (.named "$1"), reference .data] = true ∧
      writtenAll [text "a$", reference (.index 12), text "$3",
        reference (.named "$1"), reference .data] =
        "a$$$12$$3$\x7b$1\x7d$data" ∧
      (∀ resolve, (ofText "a$$$12$$3$\x7b$1\x7d$data").render resolve =
        "a$" ++ (resolve (.index 12)).getD [] ++ "$3" ++
          (resolve (.named "$1")).getD [] ++
          (resolve .data).getD []) ∧
      (ofText "a$$$12$$3$\x7b$1\x7d$data").highestIndex = 12 := by
  have hapart : areApart [text "a$", reference (.index 12), text "$3",
      reference (.named "$1"),
    reference .data] = true := by decide
  have hbound : ∀ n,
      reference (.index n) ∈ [text "a$", reference (.index 12), text "$3",
      reference (.named "$1"), reference .data] → n < 2 ^ 64 := by
    intro n hn
    have hn : n = 12 := by simpa using hn
    rw [hn]
    decide
  obtain ⟨hrender, hhighest, -⟩ := render_writtenAll hapart hbound
  refine ⟨hapart, by decide, fun resolve => (hrender resolve).trans ?_,
    hhighest⟩
  simp [resolved]

end Template

end SelectorPath
