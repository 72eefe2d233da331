import SelectorPath.Proofs.PlainTokens

/-!
# Grammar of the output

Out  ::= Path | '(' Path ('|' Path)+ ')' Path ::= ('/*' Pred? | '//' Step) (('/'
| '//' | '/following-sibling::') Step)* Step ::= Test Pred? Test ::= Name | '*'
| 'comment()' Pred ::= '[' closed text ']'

To show that a text is not in the grammar, `outline` leaves out what stands
inside its predicates. In the outline of a text of the grammar, no node test
follows another node test or a predicate directly, and that can be seen from
neighbouring characters (`clashes`).

## Main results

* `IsOutput`: the grammar.
* `smooth_of_isOutput`: neighbouring characters in the outline of an output do
  not clash.
-/

namespace SelectorPath.XPath

/-! ## The grammar -/

/-- A predicate, or none. -/
inductive IsPredicate : Text → Prop
  | none : IsPredicate []
  | some {condition : Text} (hne : condition ≠ [])
    (hclosed : isClosed condition = true) :
    IsPredicate ("[" ++ condition ++ "]")

/-- A node test. -/
inductive IsTest : Text → Prop
  | name {name : Text} (hne : name ≠ []) (hplain : name.isPlain = true) :
    IsTest name
  | star : IsTest "*"
  | comment : IsTest "comment()"

/-- A node test with its predicate. -/
inductive IsStep : Text → Prop
  | mk {test predicate : Text} (htest : IsTest test)
    (hpredicate : IsPredicate predicate) : IsStep (test ++ predicate)

/-- A location path. -/
inductive IsPath : Text → Prop
  | root {predicate : Text} (hpredicate : IsPredicate predicate) :
    IsPath ("/*" ++ predicate)
  | top {step : Text} (hstep : IsStep step) : IsPath ("//" ++ step)
  | child {path step : Text} (hpath : IsPath path) (hstep : IsStep step) :
    IsPath (path ++ "/" ++ step)
  | descendant {path step : Text} (hpath : IsPath path) (hstep : IsStep step) :
    IsPath (path ++ "//" ++ step)
  | sibling {path step : Text} (hpath : IsPath path) (hstep : IsStep step) :
    IsPath (path ++ "/following-sibling::" ++ step)

/-- One location path, or several in parentheses. -/
inductive IsOutput : Text → Prop
  | path {path : Text} (hpath : IsPath path) : IsOutput path
  | union {paths : List Text} (hmany : 1 < paths.length)
    (hpaths : ∀ p ∈ paths, IsPath p) :
    IsOutput ("(" ++ Text.join "|" paths ++ ")")

/-! ## Outlines -/

/-- The text without what stands inside its predicates, `inside` being what a
predicate that is open waits for. -/
def outlineFrom (inside : Option Nesting) : Text → Text
  | [] => []
  | c :: rest =>
    match inside with
    | none => c :: outlineFrom (if c = '[' then some {} else none) rest
    | some s =>
      if s = {} ∧ c = ']' then c :: outlineFrom none rest
      else match s.step c with
        | some s' => outlineFrom (some s') rest
        | none => []

/-- Whether a text has the given outline and leaves no predicate open, whatever
follows. -/
def HasOutline (t o : Text) : Prop :=
  ∀ rest, outlineFrom none (t ++ rest) = o ++ outlineFrom none rest

/-- Outlines can be put together. -/
theorem HasOutline.append {a b oa ob : Text} (ha : HasOutline a oa)
    (hb : HasOutline b ob) :
    HasOutline (a ++ b) (oa ++ ob) := by
  intro rest
  rw [List.append_assoc, ha, hb, List.append_assoc]

/-- A text without predicates is its own outline. -/
theorem hasOutline_self {t : Text} (h : '[' ∉ t) : HasOutline t t := by
  intro rest
  induction t with
  | nil => rfl
  | cons c t ih =>
    have hc : c ≠ '[' := fun heq => h (heq ▸ List.mem_cons_self ..)
    rw [List.cons_append, outlineFrom, if_neg hc,
      ih fun ht => h (List.mem_cons_of_mem _ ht)]
    rfl

/-- Inside a predicate, a run is left out. -/
theorem outlineFrom_run {s s' : Nesting} {t : Text} (h : s.run t = some s')
    (rest : Text) :
    outlineFrom (some s) (t ++ rest) = outlineFrom (some s') rest := by
  induction t generalizing s with
  | nil =>
    cases h
    rfl
  | cons c t ih =>
    obtain ⟨s₁, hstep, hrun⟩ := Option.bind_eq_some_iff.mp h
    have hopen : ¬(s = {} ∧ c = ']') := by
      rintro ⟨rfl, rfl⟩
      exact absurd hstep (by simp [Nesting.step, Nesting.stepOutside])
    rw [List.cons_append, outlineFrom, if_neg hopen, hstep]
    exact ih hrun

/-- A predicate is empty in the outline. -/
theorem hasOutline_predicate {condition : Text}
    (h : isClosed condition = true) :
    HasOutline ("[" ++ condition ++ "]") "[]" := by
  intro rest
  have hrun := outlineFrom_run (isClosed_iff.mp h) (']' :: rest)
  show '[' :: outlineFrom (some {}) (condition ++ "]" ++ rest) =
      '[' :: ']' :: outlineFrom none rest
  rw [List.append_assoc]
  show '[' :: outlineFrom (some {}) (condition ++ ']' :: rest) = _
  rw [hrun]
  rfl

/-! ## Neighbouring characters -/

/-- Whether a node test would begin with `c` directly behind a node test or
predicate that ends with `d`. Two names in a row are one name, so they do not
clash. -/
def clashes (d c : Char) : Bool :=
  (d == '*' || d == ']' || d == ')') && (isPlainChar c || c == '*') ||
    isPlainChar d && c == '*'

/-- Whether no two neighbouring characters of a text clash, the first one coming
behind `d`. -/
def smoothFrom (d : Char) : Text → Bool
  | [] => true
  | c :: rest => !clashes d c && smoothFrom c rest

/-- A text is smooth if its parts are, each behind the last character of the one
before. -/
theorem smoothFrom_append (d : Char) (a b : Text) :
    smoothFrom d (a ++ b) =
      (smoothFrom d a && smoothFrom (a.getLastD d) b) := by
  induction a generalizing d with
  | nil => rfl
  | cons c a ih =>
    have hlast : (c :: a).getLastD d = a.getLastD c := List.getLastD_cons
    rw [List.cons_append, smoothFrom, smoothFrom, ih, hlast, Bool.and_assoc]

/-- Only a name or `*` can clash with what stands in front of it. -/
theorem clashes_eq_false {c : Char} (hplain : isPlainChar c = false)
    (hstar : c ≠ '*') (d : Char) :
    clashes d c = false := by
  simp [clashes, hplain, hstar]

/-- Behind a character that ends no node test or predicate, nothing clashes. -/
theorem clashes_behind {d : Char} (hplain : isPlainChar d = false)
    (hend : d ∉ ("*])" : Text)) (c : Char) : clashes d c = false := by
  have hne : d ≠ '*' ∧ d ≠ ']' ∧ d ≠ ')' := by simpa using hend
  simp [clashes, hplain, hne]

private theorem smoothFrom_plain {d : Char} {t : Text}
    (hd : isPlainChar d = true) (h : t.isPlain = true) :
    smoothFrom d t = true := by
  induction t generalizing d with
  | nil => rfl
  | cons c t ih =>
    rw [Text.isPlain, List.all_cons, Bool.and_eq_true] at h
    have hclash : clashes d c = false := by
      have hc : c ≠ '*' := by
        rintro rfl
        exact absurd h.1 (by decide)
      have hd' : d ≠ '*' ∧ d ≠ ']' ∧ d ≠ ')' := by
        refine ⟨?_, ?_, ?_⟩ <;> rintro rfl <;> exact absurd hd (by decide)
      simp [clashes, hc, hd']
    rw [smoothFrom, hclash, ih h.1 h.2]
    rfl

/-- A node test is its own outline. -/
theorem hasOutline_isTest {t : Text} (h : IsTest t) : HasOutline t t := by
  apply hasOutline_self
  cases h with
  | name hne hplain => exact not_mem_of_isPlain hplain (by decide)
  | star => decide
  | comment => decide

private theorem smoothFrom_isTest {t : Text} (h : IsTest t) {d : Char}
    (hplain : isPlainChar d = false) (hend : d ∉ ("*])" : Text)) :
    smoothFrom d t = true := by
  have hfirst := clashes_behind hplain hend
  cases h with
  | name hne hname =>
    cases t with
    | nil => exact absurd rfl hne
    | cons c t =>
      rw [Text.isPlain, List.all_cons, Bool.and_eq_true] at hname
      rw [smoothFrom, hfirst, smoothFrom_plain hname.1 hname.2]
      rfl
  | star =>
    show (!clashes d '*' && true) = true
    rw [hfirst]
    rfl
  | comment =>
    show (!clashes d 'c' && smoothFrom 'c' "omment()") = true
    rw [hfirst]
    decide

private theorem exists_outline_predicate {t : Text} (h : IsPredicate t)
    (d : Char) :
    ∃ o, HasOutline t o ∧ smoothFrom d o = true := by
  cases h with
  | none => exact ⟨[], fun rest => rfl, rfl⟩
  | some hne hclosed =>
    refine ⟨_, hasOutline_predicate hclosed, ?_⟩
    show (!clashes d '[' && smoothFrom '[' "]") = true
    rw [clashes_eq_false (by decide) (by decide)]
    decide

private theorem exists_outline_step {t : Text} (h : IsStep t) {d : Char}
    (hplain : isPlainChar d = false) (hend : d ∉ ("*])" : Text)) :
    ∃ o, HasOutline t o ∧ smoothFrom d o = true := by
  cases h with
  | @mk test predicate htest hpredicate =>
    obtain ⟨o, houtline, hsmooth⟩ :=
      exists_outline_predicate hpredicate (test.getLastD d)
    refine ⟨test ++ o, (hasOutline_isTest htest).append houtline, ?_⟩
    rw [smoothFrom_append, smoothFrom_isTest htest hplain hend, hsmooth]
    rfl

/-- A step behind something else and a slash; `tail` is what stands between the
slash and the step. -/
theorem exists_outline_link {front step : Text} {d : Char} (tail : Text)
    (hfront : ∃ o, HasOutline front o ∧ smoothFrom d o = true)
    (hbracket : '[' ∉ '/' :: tail) (htail : smoothFrom '/' tail = true)
    (hplain : isPlainChar (tail.getLastD '/') = false)
    (hend : tail.getLastD '/' ∉ ("*])" : Text)) (hstep : IsStep step) :
    ∃ o, HasOutline (front ++ '/' :: tail ++ step) o ∧
      smoothFrom d o = true := by
  obtain ⟨o, houtline, ho⟩ := hfront
  obtain ⟨o', houtline', ho'⟩ := exists_outline_step hstep hplain hend
  refine ⟨o ++ '/' :: tail ++ o',
    (houtline.append (hasOutline_self hbracket)).append houtline', ?_⟩
  have hlink : smoothFrom (o.getLastD d) ('/' :: tail ++ o') = true := by
    rw [List.cons_append, smoothFrom, clashes_eq_false (by decide) (by decide),
      smoothFrom_append, htail, ho']
    rfl
  rw [List.append_assoc, smoothFrom_append, ho, hlink]
  rfl

/-- The outline of a path clashes with nothing in front of it, nor in itself. -/
theorem exists_outline_path {t : Text} (h : IsPath t) (d : Char) :
    ∃ o, HasOutline t o ∧ smoothFrom d o = true := by
  induction h with
  | root hpredicate =>
    obtain ⟨o, houtline, ho⟩ := exists_outline_predicate hpredicate '*'
    refine ⟨"/*" ++ o, (hasOutline_self (by decide)).append houtline, ?_⟩
    show (!clashes d '/' && (!clashes '/' '*' && smoothFrom '*' o)) = true
    rw [clashes_eq_false (by decide) (by decide), ho]
    decide
  | top hstep =>
    have hnone : ∃ o, HasOutline [] o ∧ smoothFrom d o = true :=
      ⟨[], fun rest => rfl, rfl⟩
    exact exists_outline_link "/" hnone (by decide) (by decide) (by decide)
      (by decide) hstep
  | child hpath hstep ih =>
    exact exists_outline_link "" ih (by decide) (by decide) (by decide)
      (by decide) hstep
  | descendant hpath hstep ih =>
    exact exists_outline_link "/" ih (by decide) (by decide) (by decide)
      (by decide) hstep
  | sibling hpath hstep ih =>
    exact exists_outline_link "following-sibling::" ih (by decide) (by decide)
      (by decide) (by decide) hstep

/-- The outlines of texts with bars between them. -/
theorem hasOutline_join {ts : List Text} {outline : Text → Text}
    (h : ∀ t ∈ ts, HasOutline t (outline t)) :
    HasOutline (Text.join "|" ts) (Text.join "|" (ts.map outline)) := by
  match ts with
  | [] => exact fun rest => rfl
  | [t] =>
    rw [Text.join, Text.join, List.map_cons, List.map_nil,
      List.intercalate_singleton, List.intercalate_singleton]
    exact h t (List.mem_cons_self ..)
  | t :: u :: ts =>
    rw [Text.join, Text.join, List.map_cons, List.map_cons,
      List.intercalate_cons_cons, List.intercalate_cons_cons]
    have hrest := hasOutline_join fun v hv => h v (List.mem_cons_of_mem t hv)
    exact ((h t (List.mem_cons_self ..)).append
      (hasOutline_self (by decide))).append hrest

/-- Whether a text may stand behind any character. -/
def Detached (t : Text) : Prop :=
  ∀ d, smoothFrom d t = smoothFrom '/' t

/-- What starts with a slash is detached. -/
theorem detached_slash (t : Text) : Detached ('/' :: t) := by
  intro d
  rw [smoothFrom, smoothFrom, clashes_eq_false (by decide) (by decide),
    clashes_eq_false (by decide) (by decide)]

/-- Bars keep texts apart. -/
theorem smoothFrom_join {ts : List Text} (h : ∀ t ∈ ts, Detached t) (d : Char) :
    smoothFrom d (Text.join "|" ts) = ts.all (smoothFrom '/') := by
  match ts with
  | [] => rfl
  | [t] =>
    rw [Text.join, List.intercalate_singleton, h t (List.mem_cons_self ..),
      List.all_cons, List.all_nil, Bool.and_true]
  | t :: u :: ts =>
    have hrest :=
      smoothFrom_join (fun v hv => h v (List.mem_cons_of_mem t hv)) '|'
    have hbar : smoothFrom (t.getLastD d) ("|" ++ Text.join "|" (u :: ts)) =
        smoothFrom '|' (Text.join "|" (u :: ts)) := by
      show (!clashes (t.getLastD d) '|' &&
          smoothFrom '|' (Text.join "|" (u :: ts))) = _
      rw [clashes_eq_false (by decide) (by decide)]
      rfl
    have hjoin : Text.join "|" (t :: u :: ts) =
        t ++ ("|" ++ Text.join "|" (u :: ts)) := by
      rw [Text.join, List.intercalate_cons_cons, List.append_assoc]
      rfl
    rw [hjoin, smoothFrom_append, hbar, hrest, h t (List.mem_cons_self ..)]
    rfl

/-- Parentheses around texts with bars between them. -/
theorem smoothFrom_union {ts : List Text} (h : ∀ t ∈ ts, Detached t)
    (d : Char) :
    smoothFrom d ("(" ++ Text.join "|" ts ++ ")") =
      ts.all (smoothFrom '/') := by
  have hclose : ∀ e, smoothFrom e ")" = true := by
    intro e
    show (!clashes e ')' && true) = true
    rw [clashes_eq_false (by decide) (by decide)]
    rfl
  rw [smoothFrom_append, hclose, Bool.and_true]
  show (!clashes d '(' && smoothFrom '(' (Text.join "|" ts)) = _
  rw [clashes_eq_false (by decide) (by decide), smoothFrom_join h]
  rfl

/-- The outline of a text. -/
def outline (t : Text) : Text :=
  outlineFrom none t

/-- A text has one outline. -/
theorem HasOutline.eq {t o : Text} (h : HasOutline t o) : outline t = o := by
  have heq := h []
  rw [List.append_nil] at heq
  rw [outline, heq]
  exact List.append_nil o

/-- The outline of a union is the union of the outlines. -/
theorem hasOutline_union {ts : List Text}
    (h : ∀ t ∈ ts, HasOutline t (outline t)) :
    HasOutline ("(" ++ Text.join "|" ts ++ ")")
      ("(" ++ Text.join "|" (ts.map outline) ++ ")") :=
  ((hasOutline_self (by decide)).append (hasOutline_join h)).append
    (hasOutline_self (by decide))

/-- Neighbouring characters in the outline of an output do not clash. -/
theorem smooth_of_isOutput {t : Text} (h : IsOutput t) :
    smoothFrom '/' (outline t) = true := by
  cases h with
  | path hpath =>
    obtain ⟨o, houtline, ho⟩ := exists_outline_path hpath '/'
    rw [houtline.eq]
    exact ho
  | @union paths hmany hpaths =>
    have houtline : ∀ p ∈ paths, HasOutline p (outline p) := by
      intro p hp
      obtain ⟨o, houtline, -⟩ := exists_outline_path (hpaths p hp) '/'
      rw [houtline.eq]
      exact houtline
    have hsmooth : ∀ p ∈ paths, ∀ d, smoothFrom d (outline p) = true := by
      intro p hp d
      obtain ⟨o, houtline, ho⟩ := exists_outline_path (hpaths p hp) d
      rw [houtline.eq]
      exact ho
    have hdetached : ∀ o ∈ paths.map outline, Detached o := by
      intro o ho d
      obtain ⟨p, hp, rfl⟩ := List.mem_map.mp ho
      rw [hsmooth p hp, hsmooth p hp]
    rw [(hasOutline_union houtline).eq, smoothFrom_union hdetached,
      List.all_map, List.all_eq_true]
    exact fun p hp => hsmooth p hp '/'

end SelectorPath.XPath
