import Mathlib
import SelectorPath.Proofs.StandardEngine

/-!
# One pass over plain names

Where no pattern is defined and no literal is masked, expansion cuts the
selector into uses of names and the gaps between them, and writes something else
in place of each use. How a selector is cut is told by the names alone: a gap is
a text in which no use starts, and of the uses that stand at a place the first
name is taken, with its argument if it has one. There is exactly one such cut,
whatever the definitions write, so what they write is never looked at again.

## Main results

* `NameUse.leads_iff`: which use the search finds for a name.
* `findName_eq_none_iff`, `findName_eq_some_iff`: which use the search finds at
  a place.
* `NameCut.exists_isCut`, `NameCut.IsCut.unique`: a text is cut in exactly one
  way.
* `NameCut.IsCut.replaceAll`: the pass writes something for each use of the cut.
* `Registry.expand_isCut`: the expansion of a selector from its cut.
-/

namespace SelectorPath

/-! ## Uses at the start of a text -/

/-- A use stands at the start of a text, with `left` behind it: its argument is
not empty and ends at the first closing parenthesis, and without an argument the
name does not go on. -/
structure NameUse.Stands (use : NameUse) (text left : Text) : Prop where
  written : text = use.written ++ left
  argument : ∀ a, use.argument = some a → a ≠ [] ∧ ')' ∉ a
  ended : use.argument = none → left.head?.any continuesName = false

/-- No use of the names stands at the start of the text. -/
def NoUse (names : List Text) (text : Text) : Prop :=
  ∀ (use : NameUse) (left : Text), use.name ∈ names → ¬use.Stands text left

/-- Of the uses at the start of a text, the one of the first name, with its
argument if it can have one. -/
structure NameUse.IsFirst (names : List Text) (use : NameUse)
    (text left : Text) : Prop where
  stands : use.Stands text left
  first : ∃ before behind, names = before ++ use.name :: behind ∧
    NoUse before text
  whole : use.argument = none → ∀ a left',
    ¬(⟨use.name, some a⟩ : NameUse).Stands text left'

private theorem stands_some {name argument ahead left : Text} :
    (⟨name, some argument⟩ : NameUse).Stands (':' :: ahead) left ↔
      ahead = name ++ '(' :: (argument ++ ')' :: left) ∧ argument ≠ [] ∧
        ')' ∉ argument := by
  constructor
  · intro h
    exact ⟨by simpa [NameUse.written] using h.written, h.argument argument rfl⟩
  · rintro ⟨rfl, hargument⟩
    refine ⟨by simp [NameUse.written], ?_, by rintro ⟨⟩⟩
    rintro a ⟨⟩
    exact hargument

private theorem stands_none {name ahead left : Text} :
    (⟨name, none⟩ : NameUse).Stands (':' :: ahead) left ↔
      ahead = name ++ left ∧ left.head?.any continuesName = false := by
  constructor
  · intro h
    exact ⟨by simpa [NameUse.written] using h.written, h.ended rfl⟩
  · rintro ⟨rfl, hended⟩
    exact ⟨by simp [NameUse.written], by rintro a ⟨⟩, fun _ => hended⟩

/-- A name is found with its argument, and without one only where it cannot have
one. -/
theorem NameUse.leads_iff {use : NameUse} {ahead left : Text} :
    use.Leads ahead left ↔ use.Stands (':' :: ahead) left ∧
      (use.argument = none →
        ∀ a left', ¬(⟨use.name, some a⟩ : NameUse).Stands (':' :: ahead)
        left') := by
  obtain ⟨name, argument⟩ := use
  cases argument with
  | some a =>
    simp only [NameUse.Leads, argumentBehind?_eq_some_iff, stands_some]
    constructor
    · rintro ⟨rest, rfl, ⟨a', heq, hne, hparen, rfl⟩ | ⟨heq, -⟩⟩
      · cases heq
        exact ⟨⟨rfl, hne, hparen⟩, by rintro ⟨⟩⟩
      · cases heq
    · rintro ⟨⟨rfl, hne, hparen⟩, -⟩
      exact ⟨_, rfl, .inl ⟨a, rfl, hne, hparen, rfl⟩⟩
  | none =>
    simp only [NameUse.Leads, argumentBehind?_eq_some_iff, stands_none,
      stands_some]
    constructor
    · rintro ⟨rest, rfl, ⟨a, heq, -⟩ | ⟨-, rfl, hended, hbare⟩⟩
      · cases heq
      · refine ⟨⟨rfl, hended⟩, fun _ a left' h => ?_⟩
        exact hbare a left' h.2.1 h.2.2 (List.append_cancel_left h.1)
    · rintro ⟨⟨rfl, hended⟩, hwhole⟩
      refine ⟨left, rfl,
        .inr ⟨trivial, rfl, hended, fun a left' hne hparen heq => ?_⟩⟩
      exact hwhole trivial a left' ⟨by rw [heq], hne, hparen⟩

private theorem NameUse.Stands.exists_ahead {use : NameUse} {text left : Text}
    (h : use.Stands text left) :
    ∃ ahead, text = ':' :: ahead :=
  ⟨_, h.written⟩

/-- Where a use of a name stands, one is found. -/
theorem NameUse.Stands.exists_leads {use : NameUse} {ahead left : Text}
    (h : use.Stands (':' :: ahead) left) :
    ∃ (use' : NameUse) (left' : Text), use'.name = use.name ∧
      use'.Leads ahead left' := by
  by_cases hargument : ∃ a left',
    (⟨use.name, some a⟩ : NameUse).Stands (':' :: ahead) left'
  · obtain ⟨a, left', hstands⟩ := hargument
    exact ⟨⟨use.name, some a⟩, left', rfl,
      NameUse.leads_iff.mpr ⟨hstands, by rintro ⟨⟩⟩⟩
  · refine ⟨use, left, rfl,
      NameUse.leads_iff.mpr ⟨h, fun _ a left' hstands => ?_⟩⟩
    exact hargument ⟨a, left', hstands⟩

/-! ## The search at a colon -/

variable {names : List Text}

/-- Nothing is found exactly where no use stands. -/
theorem useOfNames?_eq_none_iff {ahead : Text} :
    useOfNames? names ahead = none ↔ NoUse names (':' :: ahead) := by
  constructor
  · intro h use left hname hstands
    obtain ⟨use', left', hsame, rest, hrest, hbehind⟩ := hstands.exists_leads
    have hnone := List.findSome?_eq_none_iff.mp h use'.name (hsame ▸ hname)
    simp [Text.after?_eq_some_iff.mpr hrest, hbehind] at hnone
  · intro h
    cases hfound : useOfNames? names ahead with
    | none => rfl
    | some found =>
      obtain ⟨use, left⟩ := found
      obtain ⟨hname, hleads⟩ := leads_of_useOfNames? hfound
      exact absurd (NameUse.leads_iff.mp hleads).1 (h use left hname)

/-- The use that is found is the first. -/
theorem useOfNames?_eq_some_iff_isFirst {ahead left : Text} {use : NameUse} :
    useOfNames? names ahead = some (use, left) ↔
      use.IsFirst names (':' :: ahead) left := by
  constructor
  · intro h
    obtain ⟨-, hleads⟩ := leads_of_useOfNames? h
    obtain ⟨hstands, hwhole⟩ := NameUse.leads_iff.mp hleads
    obtain ⟨before, name, behind, hnames, hname, hbefore⟩ :=
      List.findSome?_eq_some_iff.mp h
    have hsame : use.name = name := by
      simp only [Option.bind_eq_bind, Option.bind_eq_some_iff] at hname
      obtain ⟨rest, -, found, -, heq⟩ := hname
      cases heq
      rfl
    have hnone : useOfNames? before ahead = none :=
      List.findSome?_eq_none_iff.mpr hbefore
    exact ⟨hstands, ⟨before, behind, hsame ▸ hnames,
      useOfNames?_eq_none_iff.mp hnone⟩, hwhole⟩
  · rintro ⟨hstands, ⟨before, behind, rfl, hbefore⟩, hwhole⟩
    obtain ⟨rest, hrest, hbehind⟩ := NameUse.leads_iff.mpr ⟨hstands, hwhole⟩
    have hnone : useOfNames? before ahead = none :=
      useOfNames?_eq_none_iff.mpr hbefore
    rw [useOfNames?] at hnone ⊢
    rw [List.findSome?_append, hnone, Option.none_or, List.findSome?_cons]
    simp [Text.after?_eq_some_iff.mpr hrest, hbehind]

/-- Nothing is found where no name is used. -/
theorem findName_eq_none_iff {behind text : Text} :
    findName names behind text = none ↔ NoUse names text := by
  cases text with
  | nil =>
    refine iff_of_true rfl fun use left _ h => ?_
    obtain ⟨ahead, heq⟩ := h.exists_ahead
    cases heq
  | cons c ahead =>
    by_cases hc : c = ':'
    · subst hc
      exact useOfNames?_eq_none_iff
    · refine iff_of_true (findName_other hc ahead) fun use left _ h => ?_
      obtain ⟨ahead', heq⟩ := h.exists_ahead
      exact hc (List.cons.inj heq).1

/-- What is found is the first use. -/
theorem findName_eq_some_iff {behind text left : Text} {use : NameUse} :
    findName names behind text = some (use, left) ↔
      use.IsFirst names text left := by
  constructor
  · intro h
    cases text with
    | nil => cases h
    | cons c ahead =>
      by_cases hc : c = ':'
      · subst hc
        exact useOfNames?_eq_some_iff_isFirst.mp h
      · rw [findName_other hc ahead] at h
        cases h
  · intro h
    obtain ⟨ahead, rfl⟩ := h.stands.exists_ahead
    exact useOfNames?_eq_some_iff_isFirst.mpr h

instance (text : Text) : Decidable (NoUse names text) :=
  decidable_of_iff (findName names [] text = none) findName_eq_none_iff

instance (use : NameUse) (text left : Text) :
    Decidable (use.IsFirst names text left) :=
  decidable_of_iff (findName names [] text =
    some (use, left)) findName_eq_some_iff

namespace NameUse.IsFirst

variable {use use' : NameUse} {text left left' : Text}

/-- The first use is of one of the names. -/
theorem mem_names (h : use.IsFirst names text left) : use.name ∈ names := by
  obtain ⟨before, behind, rfl, -⟩ := h.first
  simp

/-- There is one first use. -/
theorem unique (h : use.IsFirst names text left)
    (h' : use'.IsFirst names text left') :
    use = use' ∧ left = left' := by
  have hfound := (@findName_eq_some_iff names [] text left use).mpr h
  rw [findName_eq_some_iff.mpr h'] at hfound
  cases hfound
  exact ⟨rfl, rfl⟩

/-- A use takes at least its colon. -/
theorem length_lt (h : use.IsFirst names text left) :
    left.length < text.length := by
  rw [h.stands.written]
  simp only [NameUse.written, List.cons_append, List.length_cons,
    List.length_append]
  omega

end NameUse.IsFirst

/-! ## Gaps -/

/-- No use starts in the gap, where `behind` stands behind it. -/
def IsGap (names : List Text) (gap behind : Text) : Prop :=
  ∀ front tail, gap = front ++ tail → tail ≠ [] → NoUse names (tail ++ behind)

private theorem isGap_nil (behind : Text) : IsGap names [] behind := by
  intro front tail heq hne
  exact absurd (List.append_eq_nil_iff.mp heq.symm).2 hne

private theorem isGap_cons {c : Char} {gap behind : Text} :
    IsGap names (c :: gap) behind ↔ NoUse names (c :: (gap ++ behind)) ∧
      IsGap names gap behind := by
  constructor
  · intro h
    refine ⟨h [] (c :: gap) rfl (List.cons_ne_nil c gap),
      fun front tail heq hne => ?_⟩
    exact h (c :: front) tail (by rw [heq]; rfl) hne
  · rintro ⟨hfirst, hgap⟩ front tail heq hne
    cases front with
    | nil =>
      cases heq
      exact hfirst
    | cons d front => exact hgap front tail (List.cons.inj heq).2 hne

instance IsGap.decidable (behind : Text) :
    (gap : Text) → Decidable (IsGap names gap behind)
  | [] => isTrue (isGap_nil behind)
  | c :: gap =>
    have := IsGap.decidable behind gap
    decidable_of_iff (NoUse names (c :: (gap ++ behind)) ∧
      IsGap names gap behind) isGap_cons.symm

/-- The next use is not in a gap. -/
theorem IsGap.length_le {use : NameUse} {gap gap' behind behind' left : Text}
    (h : IsGap names gap' behind') (hfirst : use.IsFirst names behind left)
    (heq : gap ++ behind = gap' ++ behind') :
    gap'.length ≤ gap.length := by
  rcases List.append_eq_append_iff.mp heq with ⟨tail, hgap', hbehind⟩ |
      ⟨tail, hgap, -⟩
  · by_cases htail : tail = []
    · rw [hgap', htail, List.append_nil]
    · exact absurd (hbehind ▸ hfirst.stands)
        (h gap tail hgap' htail use left hfirst.mem_names)
  · rw [hgap, List.length_append]
    omega

/-! ## Cuts -/

/-- A text cut into uses of names, each with what stands in front of it, and
what stands behind the last. -/
inductive NameCut where
  | last (gap : Text)
  | part (gap : Text) (use : NameUse) (behind : NameCut)

namespace NameCut

/-- The cut with something written for each use. -/
def fill (write : NameUse → Text) : NameCut → Text
  | last gap => gap
  | part gap use behind => gap ++ (write use ++ behind.fill write)

/-- The text that is cut. -/
def text : NameCut → Text :=
  fill NameUse.written

/-- Each use is the first one at its place, and none starts in a gap. -/
def IsCut (names : List Text) : NameCut → Prop
  | last gap => IsGap names gap []
  | part gap use behind =>
    IsGap names gap (use.written ++ behind.text) ∧
      use.IsFirst names (use.written ++ behind.text) behind.text ∧
        behind.IsCut names

instance IsCut.decidable : (cut : NameCut) → Decidable (cut.IsCut names)
  | last gap => inferInstanceAs (Decidable (IsGap names gap []))
  | part gap use behind =>
    have := IsCut.decidable behind
    inferInstanceAs (Decidable (IsGap names gap (use.written ++ behind.text) ∧
      use.IsFirst names (use.written ++ behind.text) behind.text ∧
        behind.IsCut names))

/-- The cut with a character in front. -/
def push (c : Char) : NameCut → NameCut
  | last gap => last (c :: gap)
  | part gap use behind => part (c :: gap) use behind

private theorem text_push (c : Char) (cut : NameCut) :
    (cut.push c).text = c :: cut.text := by
  cases cut <;> rfl

/-- A character at which no use starts belongs to the gap in front of the next
one. -/
theorem IsCut.push {c : Char} {cut : NameCut} (h : cut.IsCut names)
    (hfirst : NoUse names (c :: cut.text)) :
    (cut.push c).IsCut names := by
  cases cut with
  | last gap =>
    refine isGap_cons.mpr ⟨?_, h⟩
    rw [List.append_nil]
    exact hfirst
  | part gap use behind => exact ⟨isGap_cons.mpr ⟨hfirst, h.1⟩, h.2⟩

/-- Every text can be cut. -/
theorem exists_isCut (names : List Text) (text : Text) :
    ∃ cut : NameCut, cut.text = text ∧ cut.IsCut names := by
  induction hlength : text.length using Nat.strong_induction_on
      generalizing text with
  | _ n ih =>
    cases text with
    | nil => exact ⟨last [], rfl, isGap_nil []⟩
    | cons c rest =>
      cases hfound : findName names [] (c :: rest) with
      | none =>
        obtain ⟨cut, rfl, hcut⟩ :=
          ih rest.length (by rw [← hlength]; simp) rest rfl
        exact ⟨cut.push c, text_push c cut,
          hcut.push (findName_eq_none_iff.mp hfound)⟩
      | some found =>
        obtain ⟨use, left⟩ := found
        have hfirst := findName_eq_some_iff.mp hfound
        obtain ⟨cut, rfl, hcut⟩ :=
          ih left.length (hlength ▸ hfirst.length_lt) left rfl
        refine ⟨part [] use cut, hfirst.stands.written.symm, isGap_nil _,
          ?_, hcut⟩
        rw [← hfirst.stands.written]
        exact hfirst

/-- A text with a use is no gap. -/
theorem IsCut.ne_gap {gap gap' : Text} {use : NameUse} {behind : NameCut}
    (h : (part gap use behind).IsCut names) (hgap : IsGap names gap' []) :
    (part gap use behind).text ≠ gap' := by
  intro heq
  have hle := hgap.length_le h.2.1 (heq.trans (List.append_nil gap').symm)
  have hlength : (gap ++ (use.written ++ behind.text)).length = gap'.length :=
    congrArg List.length heq
  have hlt := h.2.1.length_lt
  rw [List.length_append] at hlength
  omega

/-- A text can be cut in one way. -/
theorem IsCut.unique {cut cut' : NameCut} (h : cut.IsCut names)
    (h' : cut'.IsCut names) (heq : cut.text = cut'.text) : cut = cut' := by
  induction cut generalizing cut' with
  | last gap =>
    cases cut' with
    | last gap' => exact congrArg last heq
    | part gap' use' behind' => exact absurd heq.symm (h'.ne_gap h)
  | part gap use behind ih =>
    cases cut' with
    | last gap' => exact absurd heq (h.ne_gap h')
    | part gap' use' behind' =>
      have hle := h'.1.length_le h.2.1 heq
      have hge := h.1.length_le h'.2.1 heq.symm
      obtain ⟨rfl, hrest⟩ : gap = gap' ∧ use.written ++ behind.text =
          use'.written ++ behind'.text :=
        List.append_inj heq (by omega)
      obtain ⟨rfl, hbehind⟩ := h.2.1.unique (hrest ▸ h'.2.1)
      rw [ih h.2.2 h'.2.2 hbehind]

end NameCut

/-! ## The pass -/

variable {write : NameUse → Text}

/-- A gap is copied. -/
theorem replaceAll_gap {gap behind : Text} (h : IsGap names gap behind) :
    Text.replaceAll (findName names) write (gap ++ behind) =
      gap ++ Text.replaceAll (findName names) write behind := by
  induction gap with
  | nil => rfl
  | cons c gap ih =>
    obtain ⟨hfirst, hgap⟩ := isGap_cons.mp h
    rw [List.cons_append, replaceAll_copy (findName_eq_none_iff.mpr hfirst),
      ih hgap, List.cons_append]

/-- The pass writes something for each use of the cut. -/
theorem NameCut.IsCut.replaceAll {cut : NameCut} (h : cut.IsCut names) :
    Text.replaceAll (findName names) write cut.text = cut.fill write := by
  induction cut with
  | last gap =>
    have hgap := @replaceAll_gap names write gap [] h
    rw [replaceAll_nil, List.append_nil] at hgap
    exact hgap
  | part gap use behind ih =>
    obtain ⟨hgap, hfirst, hbehind⟩ := h
    show Text.replaceAll (findName names) write
        (gap ++ (use.written ++ behind.text)) = _
    rw [replaceAll_gap hgap, replaceAll_found (findName_eq_some_iff.mpr hfirst),
      ih hbehind]
    rfl

/-! ## Expansion -/

/-- The argument of a use without the blanks around it, if there is more to
it. -/
def NameUse.given? (use : NameUse) : Option Text :=
  use.argument.bind fun a => if Text.trim a = [] then none
    else some (Text.trim a)

/-- What a definition writes for a use: a fixed text, or what it makes of the
argument. A function of several arguments has it cut at the commas. -/
def Handler.expansion (use : NameUse) : Handler → Text
  | literal replacement => replacement
  | function arity make =>
    make (use.given?.elim [] fun a =>
      if arity ≤ 1 then [a] else (a.splitBy (· == ',')).map Text.trim)
  | onMatch make => make use.given? {}

private theorem expandName_eq_expansion {r : Registry} {use : NameUse}
    {handler : Handler} (h : r.find? use.name = some handler) :
    expandName r [] use = handler.expansion use := by
  have hgiven : (use.argument.map Text.trim).filter (fun a => !a.isEmpty) =
      use.given? := by
    obtain ⟨name, argument⟩ := use
    cases argument with
    | none => rfl
    | some a =>
      by_cases ha : Text.trim a = [] <;>
        simp [NameUse.given?, Option.filter, ha]
  have hrestore : Literal.restore [] = id := funext Literal.restore_nil
  unfold expandName
  rw [hgiven, h, hrestore]
  cases handler with
  | literal replacement => rfl
  | function arity make =>
    have harguments : argumentsOf [] arity use.given? =
        use.given?.elim [] fun a =>
        if arity ≤ 1 then [a] else (a.splitBy (· == ',')).map Text.trim := by
      cases use.given? with
      | none => rfl
      | some a =>
        by_cases harity : arity ≤ 1
        · simp [argumentsOf, hrestore, harity, Nat.not_lt.mpr harity]
        · simp [argumentsOf, hrestore, harity, Nat.not_le.mp harity]
    exact congrArg make harguments
  | onMatch make => exact congrArg (make · {}) Option.map_id_apply

namespace Registry

/-- Plain names are expanded in one pass. A selector without quotes is cut in
one way by the names, and whatever is defined under these names, each use is
replaced by what its definition writes for it. -/
theorem expand_isCut {names : List Text} {selector : Text} (hne : names ≠ [])
    (hplain : ∀ name ∈ names, isPatternKey name = false)
    (hdouble : '"' ∉ selector) (hsingle : '\'' ∉ selector) :
    ∃ cut : NameCut, cut.text = selector ∧ cut.IsCut names ∧
      (∀ cut' : NameCut, cut'.text = selector → cut'.IsCut names → cut' = cut) ∧
      ∀ (r : Registry) (write : NameUse → Text), r.keys = names →
        (∀ use handler, r.find? use.name = some handler →
          write use = handler.expansion use) →
        r.expand selector = .ok (cut.fill write) := by
  obtain ⟨cut, rfl, hcut⟩ := NameCut.exists_isCut names selector
  refine ⟨cut, rfl, hcut, fun cut' htext hcut' => hcut'.unique hcut htext, ?_⟩
  rintro r write rfl hwrite
  have hnames : r.names = r.keys := List.filter_eq_self.mpr fun name hname => by
    simp [hplain name hname]
  rw [expand_plain hne hplain hdouble hsingle, ← hcut.replaceAll]
  refine congrArg Except.ok (replaceAll_congr (fun use hname => ?_) _)
  obtain ⟨handler, hfind, -⟩ := mem_entries_of_mem_names (hnames ▸ hname)
  rw [hwrite use handler hfind, expandName_eq_expansion hfind]

/-- Two names, the definition of the first of which writes the second. -/
def quoting : Registry :=
  ⟨[("list", .literal ":link"), ("link", .function 2 (Text.join "|"))]⟩

/-- A definition that writes another name, which is not replaced again. -/
theorem expand_isCut_quoting :
    quoting.keys = ["list", "link"] ∧
    quoting.expand ":list :link( b , :list) :lists" =
      .ok ":link b|:list :lists" := by
  refine ⟨rfl, ?_⟩
  obtain ⟨cut, -, -, hunique, hexpand⟩ := @expand_isCut quoting.keys
    ":list :link( b , :list) :lists"
    (by decide) (by decide) (by decide) (by decide)
  have hcut : cut = .part [] ⟨"list", none⟩
      (.part " " ⟨"link", some " b , :list"⟩ (.last " :lists")) :=
    (hunique _ (by decide) (by decide)).symm
  subst hcut
  rw [hexpand quoting
    (fun use => (quoting.find? use.name).elim [] (·.expansion use)) rfl
    fun use handler hfind => by rw [hfind]; rfl]
  decide

end Registry

end SelectorPath
