import SelectorPath.Proofs.Nesting
import SelectorPath.Proofs.Predicates
import SelectorPath.Proofs.TextParts

/-!
# Reading the connectives of a predicate

A predicate is cut at the words `or` and `and` that stand outside of its
literals, parentheses and brackets: first at `or`, which binds weakest, then at
`and`. What has no such word is `not(…)`, a group in parentheses, or a condition
that is not looked into. So the truth of a predicate follows from the truth of
the conditions in it (`truth`); it may also be asked for larger texts that are
conditions by agreement, the `atoms`.

The reader finds the fragments again that a predicate was made of. A fragment
beside others is in parentheses or holds neither word, and a cut can then be
made nowhere but between fragments (`IsSolid`).

## Main results

* `cutTop_eq_none_iff`, `cutTop_append`: what the cuts are.
* `isSolid_guarded`: fragments in parentheses where they need them are cut
  nowhere.
* `truth_flatten`: the truth of a predicate is that of its fragments joined.
* `truth_flatten_and`, `truth_flatten_or`: what empty fragments do to it.
-/

namespace SelectorPath.XPath

/-! ## Characters outside of everything -/

/-- A character with `p` stands in the text outside of its literals, parentheses
and brackets. -/
def HasTop (p : Char → Bool) (t : Text) : Prop :=
  ∃ front c back, t = front ++ c :: back ∧ ({} : Nesting).run front = some {} ∧
    p c = true

section HasTop

variable {p : Char → Bool}

/-- A text without the characters in question has none of them outside of
parentheses and literals. -/
theorem not_hasTop_of_not {t : Text} (h : ∀ c ∈ t, p c = false) :
    ¬HasTop p t := by
  rintro ⟨front, c, back, rfl, -, hc⟩
  rw [h c (by simp)] at hc
  exact absurd hc (by decide)

/-- Behind a closed text, what is outside of parentheses and literals is told
part by part. -/
theorem hasTop_append {a b : Text} (ha : isClosed a = true) :
    HasTop p (a ++ b) ↔ HasTop p a ∨ HasTop p b := by
  have hskip : ∀ front : Text,
      ({} : Nesting).run (a ++ front) = ({} : Nesting).run front := by
    intro front
    rw [Nesting.run_append, isClosed_iff.mp ha, Option.bind_some]
  constructor
  · rintro ⟨front, c, back, heq, hrun, hc⟩
    rcases List.append_eq_append_iff.mp heq with ⟨rest, rfl, rfl⟩ |
        ⟨rest, rfl, hback⟩
    · rw [hskip] at hrun
      exact .inr ⟨rest, c, back, rfl, hrun, hc⟩
    · cases rest with
      | nil => exact .inr ⟨[], c, back, by simpa using hback.symm, rfl, hc⟩
      | cons d rest =>
        obtain ⟨rfl, rfl⟩ := List.cons.inj hback
        exact .inl ⟨front, c, rest, rfl, hrun, hc⟩
  · rintro (⟨front, c, back, rfl, hrun, hc⟩ | ⟨front, c, back, rfl, hrun, hc⟩)
    · exact ⟨front, c, back ++ b, by simp, hrun, hc⟩
    · exact ⟨a ++ front, c, back, by simp, by rw [hskip, hrun], hc⟩

/-- What stands in the parentheses of a call is not outside. -/
theorem not_hasTop_call {callee inner : Text}
    (hcallee : ({} : Nesting).run callee = some ⟨[')'], none⟩)
    (hnot : callee.all (fun c => !p c) = true)
    (hinner : isClosed inner = true) :
    ¬HasTop p (callee ++ inner ++ ")") := by
  rintro ⟨front, c, back, heq, hrun, hc⟩
  rw [List.append_assoc] at heq
  rcases List.append_eq_append_iff.mp heq with ⟨rest, rfl, hrest⟩ |
      ⟨rest, rfl, hback⟩
  · -- the closing parenthesis is waited for from the callee to the end of
    -- `inner`
    have hpart : ∃ behind, inner = rest ++ behind := by
      rcases List.append_eq_append_iff.mp hrest with ⟨u, rfl, hu⟩ | ⟨u, rfl, -⟩
      · cases u with
        | nil => exact ⟨[], by simp⟩
        | cons d u => exact absurd (congrArg List.length hu) (by simp)
      · exact ⟨u, rfl⟩
    obtain ⟨behind, hbehind⟩ := hpart
    have hwhole := isClosed_iff.mp hinner
    rw [hbehind, Nesting.run_append] at hwhole
    obtain ⟨s, hs, -⟩ := Option.bind_eq_some_iff.mp hwhole
    have hframe : (⟨[')'], none⟩ : Nesting).run rest = some (s.above [')']) :=
      Nesting.run_frame [')'] hs
    rw [Nesting.run_append, hcallee, Option.bind_some, hframe,
      Option.some.injEq] at hrun
    have hclosers := congrArg Nesting.closers hrun
    exact absurd hclosers (by simp [Nesting.above])
  · cases rest with
    | nil =>
      rw [List.append_nil, hrun] at hcallee
      exact absurd hcallee (by decide)
    | cons d rest =>
      obtain ⟨rfl, -⟩ := List.cons.inj hback
      have hnot := List.all_eq_true.mp hnot c (by simp)
      rw [hc] at hnot
      exact absurd hnot (by decide)

end HasTop

/-! ## Cuts -/

/-- The connective with the blanks around it. -/
def Connective.spaced (op : Connective) : Text :=
  " " ++ op.name ++ " "

/-- What stands before and behind the first `op` that is outside of everything,
where `s` is open in front of the text. -/
def cutTop (op : Connective) (s : Nesting) : Text → Option (Text × Text)
  | [] => none
  | c :: rest =>
    if s = {} ∧ op.spaced.isPrefixOf (c :: rest) =
      true then some ([], (c :: rest).drop op.spaced.length)
    else (s.step c).bind fun s' => (cutTop op s' rest).map fun parts =>
      (c :: parts.1, parts.2)

/-- The words of connectives hold no blank. -/
theorem Connective.name_cases (op : Connective) :
    ' ' ∉ op.name ∧ op.name ≠ [] ∧ isClosed op.name = true := by
  cases op <;> decide

/-- No cut is made where the connective stands nowhere outside of parentheses
and literals. -/
theorem cutTop_eq_none_iff {op : Connective} {s : Nesting} {t : Text} :
    cutTop op s t = none ↔ ∀ front back, t = front ++ (op.spaced ++ back) →
      s.run front ≠ some {} := by
  induction t generalizing s with
  | nil =>
    refine iff_of_true rfl fun front back heq => ?_
    exact absurd (congrArg List.length heq) (by simp [Connective.spaced])
  | cons c rest ih =>
    rw [cutTop]
    by_cases hcut : s = {} ∧ op.spaced.isPrefixOf (c :: rest) = true
    · rw [if_pos hcut]
      obtain ⟨hs, hprefix⟩ := hcut
      obtain ⟨back, hback⟩ := List.isPrefixOf_iff_prefix.mp hprefix
      refine iff_of_false (Option.some_ne_none _) fun h =>
        h [] back hback.symm ?_
      rw [hs]
      rfl
    · rw [if_neg hcut, Option.bind_eq_none_iff]
      constructor
      · intro h front back heq hrun
        cases front with
        | nil =>
          refine hcut ⟨Option.some.inj hrun,
            List.isPrefixOf_iff_prefix.mpr ⟨back, heq.symm⟩⟩
        | cons d front =>
          obtain ⟨rfl, rfl⟩ := List.cons.inj heq
          obtain ⟨s', hstep, hrun⟩ := Option.bind_eq_some_iff.mp hrun
          exact ih.mp (Option.map_eq_none_iff.mp (h s' hstep)) front back
            rfl hrun
      · intro h s' hstep
        rw [Option.map_eq_none_iff, ih]
        intro front back heq hrun
        refine h (c :: front) back (by rw [heq]; rfl) ?_
        show (s.step c).bind _ = _
        rw [hstep, Option.bind_some, hrun]

/-- Where no cut begins in a text, the first one is that of what follows. -/
theorem cutTop_append {op : Connective} {s : Nesting} {g rest : Text}
    (hrun : s.run g = some {})
    (hfree : ∀ front back, g = front ++ back → back ≠ [] →
      s.run front = some {} → ¬op.spaced <+: back ++ rest) :
    cutTop op s (g ++ rest) = (cutTop op {} rest).map fun parts =>
      (g ++ parts.1, parts.2) := by
  induction g generalizing s with
  | nil =>
    rw [Option.some.inj hrun]
    exact (Option.map_id_apply (x := cutTop op {} rest)).symm
  | cons c g ih =>
    obtain ⟨s', hstep, hrun'⟩ := Option.bind_eq_some_iff.mp hrun
    have hcut : ¬(s = {} ∧ op.spaced.isPrefixOf (c :: (g ++ rest)) = true) := by
      rintro ⟨rfl, hprefix⟩
      exact hfree [] (c :: g) rfl (List.cons_ne_nil _ _) rfl
        (List.isPrefixOf_iff_prefix.mp hprefix)
    rw [List.cons_append, cutTop, if_neg hcut, hstep, Option.bind_some,
      ih hrun' ?_, Option.map_map]
    · rfl
    · intro front back heq hback hfront
      refine hfree (c :: front) back (by rw [heq]; rfl) hback ?_
      show (s.step c).bind _ = _
      rw [hstep, Option.bind_some, hfront]

private theorem cutTop_spaced (op : Connective) (rest : Text) :
    cutTop op {} (op.spaced ++ rest) = some ([], rest) := by
  cases op <;> rfl

/-- Cutting at a connective gives shorter parts. -/
theorem length_cutTop {op : Connective} {s : Nesting} {t : Text}
    {parts : Text × Text} (h : cutTop op s t = some parts) :
    parts.1.length < t.length ∧ parts.2.length < t.length := by
  induction t generalizing s parts with
  | nil => exact absurd h (by simp [cutTop])
  | cons c rest ih =>
    rw [cutTop] at h
    split at h
    · cases h
      have hspaced : 0 < op.spaced.length := by cases op <;> decide
      rw [List.length_drop]
      simp only [List.length_cons, List.length_nil]
      omega
    · obtain ⟨s', -, h⟩ := Option.bind_eq_some_iff.mp h
      obtain ⟨parts', hparts, rfl⟩ := Option.map_eq_some_iff.mp h
      have hshort := ih hparts
      simp only [List.length_cons]
      omega

/-! ## Solid texts -/

/-- Behind a blank in the text of a connective, other than its first character,
nothing is left. -/
theorem Connective.eq_nil_of_blank {op : Connective} {y back : Text}
    (h : y ++ ' ' :: back = op.name ++ [' ']) :
    back = [] := by
  rcases List.append_eq_append_iff.mp h with ⟨u, hu, hrest⟩ | ⟨u, -, hrest⟩
  · cases u with
    | nil => exact (List.cons.inj hrest).2
    | cons d u =>
      obtain ⟨rfl, -⟩ := List.cons.inj hrest
      exact absurd (hu ▸ List.mem_append_right y List.mem_cons_self)
        op.name_cases.1
  · have hlength := congrArg List.length hrest
    simp only [List.length_cons, List.length_nil, List.length_append] at hlength
    exact List.length_eq_zero_iff.mp (by omega)

/-- A connective that begins in a text and reaches beyond the blank behind it
would be that text. -/
theorem spaced_prefix_of_blank {op : Connective} {y rest : Text} (hy : y ≠ [])
    (h : op.spaced <+: y ++ ' ' :: rest) : op.spaced <+: y ++ [' '] := by
  have hblank : y ++ [' '] <+: y ++ ' ' :: rest := ⟨rest, by simp⟩
  rcases List.prefix_or_prefix_of_prefix h hblank with hprefix | ⟨back, hback⟩
  · exact hprefix
  · -- the blank behind `y` is the last character of the connective
    cases y with
    | nil => exact absurd rfl hy
    | cons c y =>
      have hname : y ++ ' ' :: back = op.name ++ [' '] := by
        have htail := congrArg List.tail hback
        simpa [Connective.spaced] using htail
      rw [Connective.eq_nil_of_blank hname, List.append_nil] at hback
      exact ⟨[], by rw [List.append_nil, hback]⟩

/-- A closed text with no cut at `op`, not even together with a blank at its
ends. -/
def IsSolid (op : Connective) (t : Text) : Prop :=
  isClosed t = true ∧ cutTop op {} (' ' :: (t ++ [' '])) = none

section IsSolid

variable {op : Connective} {g : Text}

/-- In a solid text, or in the blank before it, no cut begins, whatever follows
behind a blank. -/
theorem IsSolid.no_cut (h : IsSolid op g) {front back : Text}
    (heq : ' ' :: g = front ++ back) (hback : back ≠ [])
    (hrun : ({} : Nesting).run front = some {}) (rest : Text) :
    ¬op.spaced <+: back ++ ' ' :: rest := by
  intro hbegins
  obtain ⟨behind, hbehind⟩ := spaced_prefix_of_blank hback hbegins
  refine cutTop_eq_none_iff.mp h.2 front behind ?_ hrun
  rw [hbehind, ← List.append_assoc, ← heq]
  rfl

private theorem IsSolid.cutTop_blank (h : IsSolid op g) (rest : Text) :
    cutTop op {} (' ' :: (g ++ ' ' :: rest)) =
      (cutTop op {} (' ' :: rest)).map fun parts =>
        (' ' :: g ++ parts.1, parts.2) :=
  @cutTop_append op {} (' ' :: g) (' ' :: rest) (isClosed_iff.mp h.1)
    fun _ _ heq hback hrun => h.no_cut heq hback hrun rest

/-- A solid text is cut nowhere. -/
theorem IsSolid.cutTop_eq_none (h : IsSolid op g) : cutTop op {} g = none := by
  rw [cutTop_eq_none_iff]
  rintro front back rfl hrun
  exact cutTop_eq_none_iff.mp h.2 (' ' :: front) (back ++ [' ']) (by simp) hrun

/-- A connective stands between blanks. -/
theorem Connective.spaced_append (op : Connective) (rest : Text) :
    op.spaced ++ rest = ' ' :: (op.name ++ ' ' :: rest) := by
  simp [Connective.spaced]

/-- The first cut of a solid text and what is joined to it. -/
theorem IsSolid.cutTop_spaced_append (h : IsSolid op g) (rest : Text) :
    cutTop op {} (g ++ (op.spaced ++ rest)) = some (g, rest) := by
  have hcut : cutTop op {} (g ++ (op.spaced ++ rest)) =
      (cutTop op {} (op.spaced ++ rest)).map fun parts =>
        (g ++ parts.1, parts.2) := by
    refine cutTop_append (isClosed_iff.mp h.1) fun front back heq hback hrun =>
      ?_
    rw [op.spaced_append]
    exact h.no_cut (by rw [heq]; rfl : ' ' :: g = (' ' :: front) ++ back)
      hback hrun _
  rw [hcut, cutTop_spaced, Option.map_some, List.append_nil]

private theorem IsSolid.append_blank {a b : Text} (ha : IsSolid op a)
    (hb : IsSolid op b) :
    IsSolid op (a ++ ' ' :: b) := by
  refine ⟨isClosed_append ha.1 (isClosed_append (show isClosed " " =
    true from rfl) hb.1), ?_⟩
  rw [List.append_assoc, List.cons_append, ha.cutTop_blank, hb.2]
  rfl

/-- What is joined by one connective is not cut at the other. -/
theorem isSolid_join {other : Connective} (hne : other ≠ op) {gs : List Text}
    (hgs : gs ≠ []) (h : ∀ g ∈ gs, IsSolid op g) :
    IsSolid op (Text.join other.spaced gs) := by
  have hword : IsSolid op other.name := by
    cases op <;> cases other <;>
        first | exact absurd rfl hne | exact ⟨by decide, by decide⟩
  induction gs with
  | nil => exact absurd rfl hgs
  | cons g gs ih =>
    cases gs with
    | nil => simpa [Text.join] using h g List.mem_cons_self
    | cons g' gs =>
      have hrest := ih (List.cons_ne_nil _ _) fun x hx =>
        h x (List.mem_cons_of_mem _ hx)
      have hjoin : Text.join other.spaced (g :: g' :: gs) =
          g ++ ' ' :: (other.name ++ ' ' ::
            Text.join other.spaced (g' :: gs)) := by
        rw [Text.join_cons_cons, Connective.spaced]
        simp
      rw [hjoin]
      exact (h g List.mem_cons_self).append_blank (hword.append_blank hrest)

/-- Without a blank outside of everything there is no room for a connective. -/
theorem isSolid_of_not_hasTop (hclosed : isClosed g = true) (hne : g ≠ op.name)
    (h : ¬HasTop (· == ' ') g) : IsSolid op g := by
  refine ⟨hclosed, cutTop_eq_none_iff.mpr fun front back heq hrun => ?_⟩
  cases front with
  | nil =>
    have heq : g ++ [' '] = op.name ++ ' ' :: back := by
      simpa [Connective.spaced] using (List.cons.inj heq).2
    rcases List.append_eq_append_iff.mp heq with ⟨u, hu, hrest⟩ | ⟨u, hu, hrest⟩
    · cases u with
      | nil => exact hne (by simpa using hu.symm)
      | cons d u => exact absurd (congrArg List.length hrest) (by simp)
    · cases u with
      | nil => exact hne (by simpa using hu)
      | cons d u =>
        obtain ⟨rfl, -⟩ := List.cons.inj hrest
        exact h ⟨op.name, ' ', u, hu, isClosed_iff.mp op.name_cases.2.2, rfl⟩
  | cons c front =>
    obtain ⟨rfl, htail⟩ := List.cons.inj heq
    have hspaced : 1 < op.spaced.length := by cases op <;> decide
    rcases List.append_eq_append_iff.mp htail with ⟨u, -, hrest⟩ |
        ⟨u, hu, hrest⟩
    · have hlength := congrArg List.length hrest
      simp only [List.length_append, List.length_singleton] at hlength
      omega
    · cases u with
      | nil =>
        have hlength := congrArg List.length hrest
        simp only [List.nil_append, List.length_append, List.length_singleton]
          at hlength
        omega
      | cons d u =>
        obtain ⟨rfl, -⟩ := List.cons.inj hrest
        exact h ⟨front, ' ', u, hu, hrun, rfl⟩

/-- A text that needs no parentheses holds no connective. -/
theorem isSolid_of_not_needsParens (hclosed : isClosed g = true)
    (h : needsParens g = false) :
    IsSolid op g := by
  refine ⟨hclosed, cutTop_eq_none_iff.mpr fun front back heq _ => ?_⟩
  have hpadded : ' ' :: (op.name ++ [' ']) <:+: ' ' :: (g ++ [' ']) :=
    ⟨front, back, by
    rw [heq]
    simp [Connective.spaced]⟩
  obtain ⟨before, behind, hg, hbefore, hbehind⟩ :=
    Text.padded_infix_iff.mp hpadded
  have hblank : ∀ c : Char, (c == ' ') = true →
      (!Text.isWordChar c) = true := by
    intro c hc
    rw [beq_iff_eq.mp hc]
    decide
  have hword : op.name.all Text.isWordChar = true := by cases op <;> decide
  have hstands : Text.Stands (fun c => !Text.isWordChar c) op.name g := by
    refine ⟨before, behind, hg, ?_, ?_⟩
    · cases hlast : before.getLast? with
      | none => rfl
      | some c =>
        rw [hlast] at hbefore
        exact hblank c hbefore
    · cases hhead : behind.head? with
      | none => rfl
      | some c =>
        rw [hhead] at hbehind
        exact hblank c hbehind
  have hmem : op.name ∈ Text.wordRuns g := by
    refine List.mem_filter.mpr
      ⟨(Text.mem_splitBy_iff fun c hc => ?_).mpr hstands, by cases op <;> rfl⟩
    rw [List.all_eq_true.mp hword c hc]
    rfl
  have hlower : op.name.asciiLower = op.name := by cases op <;> decide
  have hparens : needsParens g = true := by
    rw [needsParens, Bool.or_eq_true]
    refine .inr (List.any_eq_true.mpr ⟨op.name, hmem, ?_⟩)
    rw [hlower]
    cases op <;> decide
  rw [h] at hparens
  exact absurd hparens (by decide)

private theorem isSolid_parens (hclosed : isClosed g = true) :
    IsSolid op ("(" ++ g ++ ")") := by
  refine isSolid_of_not_hasTop (isClosed_parens hclosed) ?_
    (not_hasTop_call rfl (by decide) hclosed)
  intro heq
  have hhead : op.name.head? = some '(' := by rw [← heq]; rfl
  cases op <;> exact absurd hhead (by decide)

/-- A guarded fragment is cut by no connective. -/
theorem isSolid_guarded (hclosed : isClosed g = true) :
    IsSolid op (guarded g) := by
  unfold guarded
  split
  · exact isSolid_parens hclosed
  · rename_i hparens
    exact isSolid_of_not_needsParens hclosed (by simpa using hparens)

end IsSolid

/-! ## Truth -/

/-- What stands between `opening` and the closing parenthesis at the end. -/
def enclosed? (opening t : Text) : Option Text :=
  (Text.after? opening t).bind fun rest =>
    if rest.getLast? = some ')' ∧ isClosed rest.dropLast = true then
      some rest.dropLast
    else none

private theorem enclosed?_eq_some_iff {opening t inner : Text} :
    enclosed? opening t = some inner ↔
      t = opening ++ inner ++ ")" ∧ isClosed inner = true := by
  rw [enclosed?, Option.bind_eq_some_iff]
  constructor
  · rintro ⟨rest, hrest, h⟩
    split at h
    · rename_i hparen
      obtain ⟨hlast, hclosed⟩ := hparen
      obtain ⟨front, rfl⟩ := List.getLast?_eq_some_iff.mp hlast
      rw [List.dropLast_concat] at h hclosed
      rw [Text.after?_eq_some_iff.mp hrest, ← Option.some.inj h]
      exact ⟨(List.append_assoc _ _ _).symm, hclosed⟩
    · exact absurd h (Option.some_ne_none _).symm
  · rintro ⟨rfl, hclosed⟩
    refine ⟨inner ++ [')'],
      Text.after?_eq_some_iff.mpr (List.append_assoc _ _ _), ?_⟩
    rw [List.dropLast_concat, if_pos ⟨List.getLast?_concat, hclosed⟩]

private theorem length_enclosed? {opening t inner : Text}
    (h : enclosed? opening t = some inner) :
    inner.length < t.length := by
  rw [(enclosed?_eq_some_iff.mp h).1, List.length_append, List.length_append]
  have hparen : (")" : Text).length = 1 := rfl
  omega

/-- The truth of a predicate by the precedence of XPath, for given truth values
of the conditions in it. A text in `atoms` is a condition, whatever it looks
like; nothing is true. -/
def truth (atoms v : Text → Bool) (t : Text) : Bool :=
  if t = [] then true
  else if atoms t = true then v t
  else match _h : cutTop .or {} t with
    | some parts => truth atoms v parts.1 || truth atoms v parts.2
    | none => match _h : cutTop .and {} t with
      | some parts => truth atoms v parts.1 && truth atoms v parts.2
      | none => match _h : enclosed? "not(" t with
        | some inner => !truth atoms v inner
        | none => match _h : enclosed? "(" t with
          | some inner => truth atoms v inner
          | none => v t
termination_by t.length
decreasing_by
  · exact (length_cutTop _h).1
  · exact (length_cutTop _h).2
  · exact (length_cutTop _h).1
  · exact (length_cutTop _h).2
  · exact length_enclosed? _h
  · exact length_enclosed? _h

section Truth

variable {atoms v : Text → Bool} {t : Text}

/-- Nothing said is true. -/
theorem truth_nil : truth atoms v [] = true := by
  rw [truth, if_pos rfl]

/-- A fragment with a value of its own has this value. -/
theorem truth_of_atom (hne : t ≠ []) (h : atoms t = true) :
    truth atoms v t = v t := by
  rw [truth, if_neg hne, if_pos h]

private theorem truth_of_cut_or (hne : t ≠ []) (h : atoms t = false)
    {l r : Text} (hcut : cutTop .or {} t = some (l, r)) :
    truth atoms v t = (truth atoms v l || truth atoms v r) := by
  rw [truth, if_neg hne, if_neg (by simp [h])]
  split
  · rename_i parts hparts
    rw [hparts, Option.some.injEq] at hcut
    rw [hcut]
  · rename_i hnone
    exact absurd (hnone.symm.trans hcut) (Option.some_ne_none _).symm

private theorem truth_of_cut_and (hne : t ≠ []) (h : atoms t = false)
    (hor : cutTop .or {} t = none) {l r : Text}
    (hcut : cutTop .and {} t = some (l, r)) :
    truth atoms v t = (truth atoms v l && truth atoms v r) := by
  rw [truth, if_neg hne, if_neg (by simp [h])]
  split
  · rename_i parts hparts
    exact absurd (hor.symm.trans hparts) (Option.some_ne_none _).symm
  · split
    · rename_i parts hparts
      rw [hparts, Option.some.injEq] at hcut
      rw [hcut]
    · rename_i hnone
      exact absurd (hnone.symm.trans hcut) (Option.some_ne_none _).symm

private theorem truth_of_enclosed_not (hne : t ≠ []) (h : atoms t = false)
    (hcut : ∀ op, cutTop op {} t = none) {inner : Text}
    (hinner : enclosed? "not(" t = some inner) :
    truth atoms v t = !truth atoms v inner := by
  rw [truth, if_neg hne, if_neg (by simp [h])]
  split
  · rename_i parts hparts
    exact absurd ((hcut .or).symm.trans hparts) (Option.some_ne_none _).symm
  · split
    · rename_i parts hparts
      exact absurd ((hcut .and).symm.trans hparts) (Option.some_ne_none _).symm
    · split
      · rename_i inner' hsome
        rw [hinner, Option.some.injEq] at hsome
        rw [hsome]
      · rename_i hnone
        exact absurd (hnone.symm.trans hinner) (Option.some_ne_none _).symm

private theorem truth_of_enclosed (hne : t ≠ []) (h : atoms t = false)
    (hcut : ∀ op, cutTop op {} t = none) (hnot : enclosed? "not(" t = none)
    {inner : Text} (hinner : enclosed? "(" t = some inner) :
    truth atoms v t = truth atoms v inner := by
  rw [truth, if_neg hne, if_neg (by simp [h])]
  split
  · rename_i parts hparts
    exact absurd ((hcut .or).symm.trans hparts) (Option.some_ne_none _).symm
  · split
    · rename_i parts hparts
      exact absurd ((hcut .and).symm.trans hparts) (Option.some_ne_none _).symm
    · split
      · rename_i inner' hsome
        exact absurd (hnot.symm.trans hsome) (Option.some_ne_none _).symm
      · split
        · rename_i inner' hsome
          rw [hinner, Option.some.injEq] at hsome
          rw [hsome]
        · rename_i hnone
          exact absurd (hnone.symm.trans hinner) (Option.some_ne_none _).symm

/-- A negation has the other value than its inside. -/
theorem truth_not (h : isClosed t = true)
    (hatom : atoms ("not(" ++ t ++ ")") = false) :
    truth atoms v ("not(" ++ t ++ ")") = !truth atoms v t := by
  have hne : ("not(" ++ t ++ ")" : Text) ≠ [] := List.cons_ne_nil _ _
  have hcut : ∀ op, cutTop op {} ("not(" ++ t ++ ")") = none := by
    intro op
    refine (isSolid_of_not_hasTop (isClosed_call rfl h) ?_
      (not_hasTop_call rfl rfl h)).cutTop_eq_none
    intro heq
    have hhead : op.name.head? = some 'n' := by rw [← heq]; rfl
    cases op <;> exact absurd hhead (by decide)
  exact truth_of_enclosed_not hne hatom hcut
    (enclosed?_eq_some_iff.mpr ⟨rfl, h⟩)

private theorem truth_parens (h : isClosed t = true)
    (hatom : atoms ("(" ++ t ++ ")") = false) :
    truth atoms v ("(" ++ t ++ ")") = truth atoms v t := by
  have hne : ("(" ++ t ++ ")" : Text) ≠ [] := List.cons_ne_nil _ _
  have hcut : ∀ op, cutTop op {} ("(" ++ t ++ ")") = none :=
    fun op => (isSolid_parens h).cutTop_eq_none
  exact truth_of_enclosed hne hatom hcut rfl
    (enclosed?_eq_some_iff.mpr ⟨rfl, h⟩)

private theorem truth_guarded (h : isClosed t = true)
    (hatom : needsParens t = true → atoms ("(" ++ t ++ ")") = false) :
    truth atoms v (guarded t) = truth atoms v t := by
  unfold guarded
  split
  · rename_i hparens
    exact truth_parens h (hatom hparens)
  · rfl

/-! ## Predicates -/

/-- Solid texts that are joined are read one by one, as long as no part of the
predicate that ends where it ends is an atom. -/
theorem truth_join (op : Connective) {gs : List Text} (hgs : gs ≠ [])
    (hsolid : ∀ g ∈ gs, g ≠ [] ∧ ∀ op, IsSolid op g)
    (hatoms : ∀ back, back <:+ gs → 1 < back.length →
      atoms (Text.join op.spaced back) = false) :
    truth atoms v (Text.join op.spaced gs) =
      op.join (gs.map (truth atoms v)) := by
  induction gs with
  | nil => exact absurd rfl hgs
  | cons g gs ih =>
    cases gs with
    | nil =>
      rw [Text.join_singleton]
      cases op <;> simp [Connective.join]
    | cons g' gs =>
      have hrest := ih (List.cons_ne_nil _ _)
        (fun x hx => hsolid x (List.mem_cons_of_mem _ hx))
        fun back hback => hatoms back (hback.trans (List.suffix_cons _ _))
      have hjoin : Text.join op.spaced (g :: g' :: gs) =
          g ++ (op.spaced ++ Text.join op.spaced (g' :: gs)) := by
        rw [Text.join_cons_cons, List.append_assoc]
      obtain ⟨hne, hg⟩ := hsolid g List.mem_cons_self
      have hne : Text.join op.spaced (g :: g' :: gs) ≠ [] := by
        rw [hjoin]
        exact fun h => hne (List.append_eq_nil_iff.mp h).1
      have hatom := hatoms (g :: g' :: gs) List.suffix_rfl (by simp)
      have hcut := (hg op).cutTop_spaced_append (Text.join op.spaced (g' :: gs))
      rw [← hjoin] at hcut
      cases op with
      | or =>
        rw [truth_of_cut_or hne hatom hcut, hrest]
        rfl
      | and =>
        have hor : cutTop .or {}
            (Text.join (Connective.spaced .and) (g :: g' :: gs)) = none :=
          (isSolid_join (by decide) (List.cons_ne_nil _ _) fun x hx =>
            (hsolid x hx).2 .or).cutTop_eq_none
        rw [truth_of_cut_and hne hatom hor hcut, hrest]
        rfl

/-- Fragments that can be found again in what they are joined to: they are
closed, and no atom looks like a fragment in parentheses or like several of them
joined. Without atoms it is enough that they are closed. -/
structure IsReadable (atoms : Text → Bool) (op : Connective)
    (fragments : List Text) : Prop where
  isClosed : ∀ f ∈ fragments, isClosed f = true
  parens : ∀ f ∈ fragments, needsParens f = true →
    atoms ("(" ++ f ++ ")") = false
  join : ∀ gs : List Text, (∀ g ∈ gs, ∃ f ∈ fragments, f ≠ [] ∧ g = guarded f) →
    1 < gs.length →
    atoms (Text.join op.spaced gs) = false

section Flatten

variable {fragments : List Text}

/-- The truth of a predicate is that of its fragments joined; empty fragments
have no part in it. -/
theorem truth_flatten {op : Connective} (h : IsReadable atoms op fragments)
    (hne : fragments.filter (fun f => !f.isEmpty) ≠ []) :
    truth atoms v (flatten op fragments) =
      op.join ((fragments.filter fun f => !f.isEmpty).map (truth atoms v)) := by
  have hsaid : ∀ f ∈ fragments.filter (fun f => !f.isEmpty), f ∈ fragments ∧
      f ≠ [] := by
    intro f hf
    obtain ⟨hmem, hf⟩ := List.mem_filter.mp hf
    exact ⟨hmem, by simpa using hf⟩
  unfold flatten
  generalize fragments.filter (fun f => !f.isEmpty) = said at hne hsaid ⊢
  by_cases hmany : 1 < said.length
  · simp only [if_pos hmany]
    have hpiece : ∀ g ∈ (said.map guarded).eraseDups, ∃ f ∈ fragments,
        f ≠ [] ∧ g = guarded f := by
      intro g hg
      obtain ⟨f, hf, rfl⟩ := List.mem_map.mp (List.mem_eraseDups.mp hg)
      exact ⟨f, (hsaid f hf).1, (hsaid f hf).2, rfl⟩
    have hpieces : (said.map guarded).eraseDups ≠ [] := by
      obtain ⟨f, fs, rfl⟩ := List.exists_cons_of_ne_nil hne
      rw [List.map_cons, List.eraseDups_cons]
      exact List.cons_ne_nil _ _
    have htruth : truth atoms v
        (Text.join op.spaced (said.map guarded).eraseDups) =
        op.join ((said.map guarded).eraseDups.map (truth atoms v)) := by
      refine truth_join op hpieces (fun g hg => ?_) fun back hback =>
        h.join back fun g hg => hpiece g (hback.subset hg)
      obtain ⟨f, hf, hfne, rfl⟩ := hpiece g hg
      exact ⟨guarded_ne_nil hfne, fun op => isSolid_guarded (h.isClosed f hf)⟩
    refine htruth.trans ?_
    rw [join_eraseDups, List.map_map]
    refine congrArg op.join (List.map_congr_left fun f hf => ?_)
    exact truth_guarded (h.isClosed f (hsaid f hf).1)
      (h.parens f (hsaid f hf).1)
  · simp only [if_neg hmany]
    obtain ⟨f, fs, rfl⟩ := List.exists_cons_of_ne_nil hne
    have hfs : fs = [] := List.length_eq_zero_iff.mp
      (by simp only [List.length_cons] at hmany; omega)
    have hdups : [f].eraseDups = [f] := List.eraseDups_cons
    rw [hfs, hdups, Text.join_singleton]
    cases op <;> simp [Connective.join]

private theorem filter_ne_nil (h : ¬∀ f ∈ fragments, f = []) :
    fragments.filter (fun f => !f.isEmpty) ≠ [] := by
  rw [Ne, List.filter_eq_nil_iff]
  simpa using h

/-- Of fragments joined by `and` all are true; an empty one is. -/
theorem truth_flatten_and (h : IsReadable atoms .and fragments) :
    truth atoms v (flatten .and fragments) = true ↔
      ∀ f ∈ fragments, truth atoms v f = true := by
  by_cases hsilent : ∀ f ∈ fragments, f = []
  · rw [(flatten_eq_nil_iff .and).mpr hsilent]
    refine iff_of_true truth_nil fun f hf => ?_
    rw [hsilent f hf]
    exact truth_nil
  · rw [truth_flatten h (filter_ne_nil hsilent)]
    show (List.all _ id) = true ↔ _
    simp only [List.all_map, List.all_eq_true, List.mem_filter,
      Function.id_comp]
    constructor
    · intro hall f hf
      by_cases hf' : f = []
      · rw [hf']
        exact truth_nil
      · exact hall f ⟨hf, by simpa using hf'⟩
    · exact fun hall f hf => hall f hf.1

/-- Of fragments joined by `or` one that is not empty is true, unless all are
empty. -/
theorem truth_flatten_or (h : IsReadable atoms .or fragments) :
    truth atoms v (flatten .or fragments) = true ↔
      (∀ f ∈ fragments, f = []) ∨ ∃ f ∈ fragments,
        f ≠ [] ∧ truth atoms v f = true := by
  by_cases hsilent : ∀ f ∈ fragments, f = []
  · rw [(flatten_eq_nil_iff .or).mpr hsilent]
    exact iff_of_true truth_nil (.inl hsilent)
  · rw [truth_flatten h (filter_ne_nil hsilent), or_iff_right hsilent]
    show (List.any _ id) = true ↔ _
    simp

end Flatten

end Truth

end SelectorPath.XPath
