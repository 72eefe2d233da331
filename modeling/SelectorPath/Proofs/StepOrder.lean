import SelectorPath.Proofs.ParsedShape
import SelectorPath.Proofs.PathGrammar

/-!
# Order of the steps

The pieces of a draft follow the grammar if each one fits behind the one in
front of it (`Piece.fits`). A run can break that in one way only: it writes a
node test where no step was begun. What a run leaves is always as `Piece.admits`
allows, and there a piece that does not fit clashes with the one in front of it.
So whether the text of some pieces is in the grammar can be told from the
pieces.

## Main results

* `isPath_of_linked`: pieces that fit make a path of the grammar.
* `smoothFrom_of_not_linked`: pieces of which one does not fit clash.
-/

namespace SelectorPath.XPath

/-! ## Pieces -/

/-- Whether a text is the node test for all elements or a plain name. -/
def isTestName (name : Text) : Bool :=
  name == ("*" : Text) || !name.isEmpty && name.isPlain

namespace Piece

/-- Whether a node test has to follow. -/
def isAxis : Piece → Bool
  | descendant | child => true
  | _ => false

/-- Whether a step ends with the piece, its predicate apart. -/
def isTested : Piece → Bool
  | root | test _ | sibling _ | comment _ => true
  | _ => false

/-- Whether the piece ends with a name. -/
def endsNamed : Piece → Bool
  | test name | sibling name => name != ("*" : Text)
  | _ => false

/-- Whether the piece starts with a name. -/
def startsNamed : Piece → Bool
  | test name => name != ("*" : Text)
  | comment _ => true
  | _ => false

/-- Whether a path can start with the piece. -/
def isStart : Piece → Bool
  | root | descendant => true
  | _ => false

/-- Whether a piece may stand behind another one. -/
def fits (previous next : Piece) : Bool :=
  match next with
  | root => false
  | descendant | child | sibling _ => !previous.isAxis
  | test _ | comment _ => previous.isAxis
  | predicate _ => previous.isTested

/-- Whether a run can leave a piece behind another one: a node test may be out
of place, but no two names meet. -/
def admits (previous next : Piece) : Bool :=
  match next with
  | test _ | comment _ =>
    previous.isAxis || !(previous.endsNamed && next.startsNamed)
  | _ => fits previous next

/-- Whether the text inside a piece is in order. -/
def isSound : Piece → Bool
  | test name | sibling name => isTestName name
  | comment condition => condition.isEmpty
  | predicate condition => !condition.isEmpty && isClosed condition
  | _ => true

/-- The piece without what stands inside a predicate. -/
def outline : Piece → Text
  | predicate _ => "[]"
  | piece => piece.render

end Piece

/-- Whether each piece is related to the one in front of it, and the first can
start a path; the latest piece comes first. -/
def linked (related : Piece → Piece → Bool) : List Piece → Bool
  | [] => true
  | [first] => first.isStart
  | next :: previous :: rest =>
    related previous next && linked related (previous :: rest)

/-- The texts that can be a node test. -/
theorem isTestName_iff {name : Text} :
    isTestName name = true ↔
      name = ("*" : Text) ∨ name ≠ [] ∧ name.isPlain = true := by
  simp [isTestName]

private theorem isTest_of_isTestName {name : Text}
    (h : isTestName name = true) : IsTest name := by
  rcases isTestName_iff.mp h with rfl | ⟨hne, hplain⟩
  · exact .star
  · exact .name hne hplain

/-! ## Pieces that fit -/

/-- What a path needs behind a piece that it ends with. -/
def Completes (piece : Piece) (t : Text) : Prop :=
  match piece with
  | .descendant | .child => ∀ step, IsStep step → IsPath (t ++ step)
  | .predicate _ => IsPath t
  | _ => ∀ predicate, IsPredicate predicate → IsPath (t ++ predicate)

/-- A path that ends in no axis is complete. -/
theorem Completes.isPath {piece : Piece} {t : Text} (h : Completes piece t)
    (haxis : piece.isAxis = false) : IsPath t := by
  cases piece with
  | descendant => exact absurd haxis (by decide)
  | child => exact absurd haxis (by decide)
  | predicate condition => exact h
  | _ => simpa using h [] .none

private theorem text_cons (piece : Piece) (pieces : List Piece) :
    Draft.text (piece :: pieces) = Draft.text pieces ++ piece.render := by
  have happend := Draft.text_append [piece] pieces
  rw [List.singleton_append] at happend
  rw [happend]
  simp [Draft.text]

/-- A piece that begins a step makes one of a path that stands in front of
it. -/
theorem completes_axis {piece : Piece} {t : Text} (haxis : piece.isAxis = true)
    (h : IsPath t) :
    Completes piece (t ++ piece.render) := by
  cases piece with
  | descendant => exact fun step hstep => .descendant h hstep
  | child => exact fun step hstep => .child h hstep
  | _ => exact absurd haxis (by simp [Piece.isAxis])

/-- A node test behind a piece that begins a step. -/
theorem completes_test {previous piece : Piece} {t : Text}
    (haxis : previous.isAxis = true) (h : Completes previous t)
    (htest : IsTest piece.render)
    (hpiece : ∀ t, (∀ predicate, IsPredicate predicate →
      IsPath (t ++ predicate)) → Completes piece t) :
    Completes piece (t ++ piece.render) := by
  have hstep : ∀ step, IsStep step → IsPath (t ++ step) := by
    cases previous with
    | descendant => exact h
    | child => exact h
    | _ => exact absurd haxis (by simp [Piece.isAxis])
  apply hpiece
  intro predicate hpredicate
  rw [List.append_assoc]
  exact hstep _ (.mk htest hpredicate)

/-- Pieces that fit make a path, up to what the last one needs. -/
theorem completes_of_linked {piece : Piece} {pieces : List Piece}
    (hlinked : linked Piece.fits (piece :: pieces) = true)
    (hsound : ∀ p ∈ piece :: pieces, p.isSound = true) :
    Completes piece (Draft.text (piece :: pieces)) := by
  induction pieces generalizing piece with
  | nil =>
    cases piece with
    | root => exact fun predicate hpredicate => .root hpredicate
    | descendant => exact fun step hstep => .top hstep
    | _ => exact absurd hlinked (by simp [linked, Piece.isStart])
  | cons previous pieces ih =>
    rw [linked, Bool.and_eq_true] at hlinked
    obtain ⟨hfits, hlinked⟩ := hlinked
    have hprevious := ih hlinked fun p hp =>
      hsound p (List.mem_cons_of_mem _ hp)
    have hpiece := hsound piece (List.mem_cons_self ..)
    rw [text_cons]
    cases piece with
    | root => exact absurd hfits (by simp [Piece.fits])
    | descendant =>
      exact completes_axis rfl
        (hprevious.isPath (by simpa [Piece.fits] using hfits))
    | child =>
      exact completes_axis rfl
        (hprevious.isPath (by simpa [Piece.fits] using hfits))
    | test name =>
      exact completes_test hfits hprevious (isTest_of_isTestName hpiece)
        fun t h => h
    | sibling name =>
      intro predicate hpredicate
      have hpath := hprevious.isPath (by simpa [Piece.fits] using hfits)
      have hstep := IsStep.mk (isTest_of_isTestName hpiece) hpredicate
      have hfull := IsPath.sibling hpath hstep
      rwa [List.append_assoc, ← List.append_assoc _ name predicate,
        ← List.append_assoc] at hfull
    | comment condition =>
      have hcondition : condition = [] := List.isEmpty_iff.mp hpiece
      rw [hcondition]
      exact completes_test hfits hprevious .comment fun t h => h
    | predicate condition =>
      rw [Piece.isSound, Bool.and_eq_true, Bool.not_eq_true'] at hpiece
      have hpredicate : IsPredicate (Piece.predicate condition).render :=
        .some (by simpa using hpiece.1) hpiece.2
      cases previous with
      | descendant => exact absurd hfits (by simp [Piece.fits, Piece.isTested])
      | child => exact absurd hfits (by simp [Piece.fits, Piece.isTested])
      | predicate condition =>
        exact absurd hfits (by simp [Piece.fits, Piece.isTested])
      | _ => exact hprevious _ hpredicate

/-- Pieces that fit make a path of the grammar, unless a step is only begun. -/
theorem isPath_of_linked {piece : Piece} {pieces : List Piece}
    (hlinked : linked Piece.fits (piece :: pieces) = true)
    (hsound : ∀ p ∈ piece :: pieces, p.isSound = true)
    (haxis : piece.isAxis = false) :
    IsPath (Draft.text (piece :: pieces)) :=
  (completes_of_linked hlinked hsound).isPath haxis

/-! ## Pieces that clash -/

/-- The outline of pieces, latest first. -/
def outlineText (pieces : List Piece) : Text :=
  (pieces.reverse.map Piece.outline).flatten

/-- Pieces are kept latest first, so that the first one ends the outline. -/
theorem outlineText_cons (piece : Piece) (pieces : List Piece) :
    outlineText (piece :: pieces) = outlineText pieces ++ piece.outline := by
  simp [outlineText]

/-- A sound piece has its outline. -/
theorem Piece.hasOutline {piece : Piece} (h : piece.isSound = true) :
    HasOutline piece.render piece.outline := by
  cases piece with
  | root => exact hasOutline_self (by decide)
  | descendant => exact hasOutline_self (by decide)
  | child => exact hasOutline_self (by decide)
  | test name => exact hasOutline_isTest (isTest_of_isTestName h)
  | sibling name =>
    exact (hasOutline_self (by decide)).append
      (hasOutline_isTest (isTest_of_isTestName h))
  | comment condition =>
    have hcondition : condition = [] := List.isEmpty_iff.mp h
    rw [hcondition]
    exact hasOutline_self (by decide)
  | predicate condition =>
    rw [Piece.isSound, Bool.and_eq_true] at h
    exact hasOutline_predicate h.2

/-- Sound pieces have the outline that they write. -/
theorem hasOutline_text {pieces : List Piece}
    (h : ∀ p ∈ pieces, p.isSound = true) :
    HasOutline (Draft.text pieces) (outlineText pieces) := by
  induction pieces with
  | nil => exact fun rest => rfl
  | cons piece pieces ih =>
    rw [text_cons, outlineText_cons]
    exact (ih fun p hp => h p (List.mem_cons_of_mem _ hp)).append
      (Piece.hasOutline (h piece (List.mem_cons_self ..)))

/-- Whether a text ends like a node test or a predicate, `named` telling whether
with a name. -/
def EndsTest (named : Bool) (t : Text) : Prop :=
  ∃ front e, t = front ++ [e] ∧
    (e ∈ ("*])" : Text) ∨ isPlainChar e = true ∧ named = true)

/-- How a path ends is told by its last part. -/
theorem EndsTest.append {named : Bool} {t : Text} (h : EndsTest named t)
    (front : Text) :
    EndsTest named (front ++ t) := by
  obtain ⟨t, e, rfl, he⟩ := h
  exact ⟨front ++ t, e, (List.append_assoc ..).symm, he⟩

private theorem endsTest_name {name : Text} (h : isTestName name = true) :
    EndsTest (name != ("*" : Text)) name := by
  by_cases hstar : name = ("*" : Text)
  · rw [hstar]
    exact ⟨[], '*', rfl, .inl (by decide)⟩
  · obtain ⟨hne, hplain⟩ := (isTestName_iff.mp h).resolve_left hstar
    rw [Text.isPlain, List.all_eq_true] at hplain
    refine ⟨name.dropLast, name.getLast hne,
      (List.dropLast_concat_getLast hne).symm, .inr ⟨?_, ?_⟩⟩
    · exact hplain _ (List.getLast_mem hne)
    · simpa using hstar

/-- A piece that begins no step ends like a node test or a predicate. -/
theorem Piece.endsTest {piece : Piece} (h : piece.isSound = true)
    (haxis : piece.isAxis = false) :
    EndsTest piece.endsNamed piece.outline := by
  cases piece with
  | root => exact ⟨"/", '*', rfl, .inl (by decide)⟩
  | descendant => exact absurd haxis (by decide)
  | child => exact absurd haxis (by decide)
  | test name => exact endsTest_name h
  | sibling name => exact (endsTest_name h).append _
  | comment condition =>
    have hcondition : condition = [] := List.isEmpty_iff.mp h
    rw [hcondition]
    exact ⟨"comment(", ')', rfl, .inl (by decide)⟩
  | predicate condition => exact ⟨"[", ']', rfl, .inl (by decide)⟩

/-- Whether a text starts like a node test, `named` telling whether with a
name. -/
def StartsTest (named : Bool) (t : Text) : Prop :=
  ∃ c rest, t = c :: rest ∧ if named then isPlainChar c = true else c = '*'

private theorem startsTest_name {name : Text} (h : isTestName name = true) :
    StartsTest (name != ("*" : Text)) name := by
  by_cases hstar : name = ("*" : Text)
  · rw [hstar]
    exact ⟨'*', [], rfl, rfl⟩
  · obtain ⟨hne, hplain⟩ := (isTestName_iff.mp h).resolve_left hstar
    cases name with
    | nil => exact absurd rfl hne
    | cons c rest =>
      rw [Text.isPlain, List.all_cons, Bool.and_eq_true] at hplain
      refine ⟨c, rest, rfl, ?_⟩
      rw [if_pos (bne_iff_ne.mpr hstar)]
      exact hplain.1

/-- A node test behind something that ends like one clashes with it, unless two
names meet. -/
theorem smoothFrom_clash {ends starts : Bool} {front t : Text}
    (hfront : EndsTest ends front) (ht : StartsTest starts t)
    (hnames : (ends && starts) = false) (d : Char) :
    smoothFrom d (front ++ t) = false := by
  obtain ⟨front, e, rfl, he⟩ := hfront
  obtain ⟨c, rest, rfl, hc⟩ := ht
  have hend : e ∈ ("*])" : Text) →
      (e == '*' || e == ']' || e == ')') = true := by
    intro he
    simpa [or_assoc] using he
  have hclash : clashes e c = true := by
    cases starts with
    | true =>
      have hends : ends = false := by simpa using hnames
      have hc : isPlainChar c = true := hc
      have he := hend (by simpa [hends] using he)
      simp [clashes, hc, he]
    | false =>
      have hc : c = '*' := hc
      rcases he with he | ⟨he, -⟩
      · simp [clashes, hc, hend he]
      · simp [clashes, hc, he]
  rw [List.append_assoc, List.singleton_append, smoothFrom_append, smoothFrom,
    smoothFrom, hclash]
  simp

/-- Where a run can leave a piece that does not fit, it clashes with the one in
front of it. -/
theorem smoothFrom_of_not_fits {previous next : Piece}
    (hprevious : previous.isSound = true) (hnext : next.isSound = true)
    (hadmits : previous.admits next = true) (hfits : previous.fits next = false)
    (front : Text) (d : Char) :
    smoothFrom d (front ++ previous.outline ++ next.outline) = false := by
  -- A piece that does not fit is a node test: of the others a run leaves only
  -- what fits.
  have htest : previous.isAxis = false ∧
      (previous.endsNamed && next.startsNamed) = false ∧
      StartsTest next.startsNamed next.outline := by
    cases next with
    | test name =>
      have haxis : previous.isAxis = false := hfits
      rw [Piece.admits, haxis, Bool.false_or, Bool.not_eq_true'] at hadmits
      exact ⟨haxis, hadmits, startsTest_name hnext⟩
    | comment condition =>
      have haxis : previous.isAxis = false := hfits
      rw [Piece.admits, haxis, Bool.false_or, Bool.not_eq_true'] at hadmits
      have hcondition : condition = [] := List.isEmpty_iff.mp hnext
      rw [hcondition] at hadmits ⊢
      exact ⟨haxis, hadmits, 'c', "omment()", rfl, by decide⟩
    | _ => exact absurd (hfits.symm.trans hadmits) Bool.false_ne_true
  obtain ⟨haxis, hnames, hstarts⟩ := htest
  exact smoothFrom_clash ((Piece.endsTest hprevious haxis).append front) hstarts
    hnames d

/-- Pieces that a run can leave and of which one does not fit clash. -/
theorem smoothFrom_of_not_linked {pieces : List Piece}
    (hsound : ∀ p ∈ pieces, p.isSound = true)
    (hadmits : linked Piece.admits pieces = true)
    (hfits : linked Piece.fits pieces = false) (d : Char) :
    smoothFrom d (outlineText pieces) = false := by
  match pieces with
  | [] => exact absurd hfits (by decide)
  | [piece] => exact absurd (hfits.symm.trans hadmits) Bool.false_ne_true
  | next :: previous :: rest =>
    rw [linked, Bool.and_eq_true] at hadmits
    rw [linked, Bool.and_eq_false_iff] at hfits
    have hbehind : ∀ p ∈ previous :: rest, p.isSound = true := fun p hp =>
      hsound p (List.mem_cons_of_mem _ hp)
    rcases hfits with hfits | hfits
    · rw [outlineText_cons, outlineText_cons]
      exact smoothFrom_of_not_fits (hbehind previous (List.mem_cons_self ..))
        (hsound next (List.mem_cons_self ..)) hadmits.1 hfits _ d
    · rw [outlineText_cons, smoothFrom_append,
        smoothFrom_of_not_linked hbehind hadmits.2 hfits d]
      rfl

end SelectorPath.XPath
