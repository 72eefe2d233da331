import SelectorPath.Proofs.Evaluation
import SelectorPath.Proofs.Reading

/-!
# Reading location paths

A path is read by a machine around the one for expressions: it knows the steps
that are complete and the step under way, and hands the lexemes of a predicate
on. A step is tied to the one in front of it by `//`, `/` or
`/following-sibling::`, and `//` stands for a step of its own.

## Main results

* `readsPath_step`, `ReadsPath.append_step`: a path that is written step by step
  is read so.
* `readPath_of_readsPath`: what the reader understands is what `readPath` gives.
-/

namespace SelectorPath.XPath

/-! ## The machine for location paths -/

/-- The step that `//` stands for. -/
def descend : Step :=
  ⟨.descendantOrSelf, .node, []⟩

/-- Where the reader of a path stands: `done` are the steps that are
complete. -/
inductive Reader where
  | start
  /-- In front of a node test or the name of an axis. -/
  | slash (done : List Step)
  /-- Behind the name of an axis. -/
  | axis (done : List Step) (a : Axis)
  /-- Behind a node test or a predicate. -/
  | test (done : List Step) (s : Step)
  /-- Inside a predicate. -/
  | predicate (done : List Step) (s : Step) (m : Machine)

namespace Reader

/-- Read a lexeme. -/
def step : Reader → Lexeme → Option Reader
  | start, .slash => some (slash [])
  | start, .slashes => some (slash [descend])
  | slash done, .star => some (test done ⟨.child, .anyElement, []⟩)
  | slash done, .name n => some (test done ⟨.child, .named n, []⟩)
  | axis done a, .star => some (test done ⟨a, .anyElement, []⟩)
  | axis done a, .name n => some (test done ⟨a, .named n, []⟩)
  | test done s, .slash => some (slash (done ++ [s]))
  | test done s, .slashes => some (slash (done ++ [s, descend]))
  | test done s, .bracket => some (predicate done s ⟨[], .operand⟩)
  | test done s, .separator =>
    if s = ⟨.child, .named "following-sibling", []⟩ then
      some (axis done .followingSibling)
    else none
  | predicate done s m, .endBracket =>
    m.finish.map fun e => test done { s with predicates := s.predicates ++ [e] }
  | predicate done s m, l => (m.step l).map (predicate done s)
  | _, _ => none

/-- Read lexemes. -/
def run (r : Reader) : List Lexeme → Option Reader
  | [] => some r
  | l :: rest => (r.step l).bind fun r' => r'.run rest

/-- The path that was read. -/
def finish : Reader → Option (List Step)
  | test done s => some (done ++ [s])
  | _ => none

/-- A reader of paths goes through the parts of a list one after the other. -/
theorem run_append (r : Reader) (front back : List Lexeme) :
    r.run (front ++ back) = (r.run front).bind fun r' => r'.run back := by
  induction front generalizing r with
  | nil => rfl
  | cons l rest ih =>
    rw [List.cons_append, run, run]
    cases r.step l with
    | none => rfl
    | some r' => exact ih r'

/-- No expression has a closing bracket, so what the inner machine reads belongs
to it. -/
theorem run_predicate {m m' : Machine} {ls : List Lexeme} (done : List Step)
    (s : Step) (h : m.run ls = some m') :
    (predicate done s m).run ls = some (predicate done s m') := by
  induction ls generalizing m with
  | nil =>
    cases h
    rfl
  | cons l rest ih =>
    rw [Machine.run] at h
    cases hstep : m.step l with
    | none => simp [hstep] at h
    | some next =>
      have hinner : (predicate done s m).step l =
          some (predicate done s next) := by
        cases l with
        | endBracket =>
          have hnone : m.step .endBracket = none := by
            obtain ⟨stack, focus⟩ := m
            cases focus <;> rfl
          simp [hnone] at hstep
        | _ => simp [step, hstep]
      rw [hstep, Option.bind_some] at h
      rw [run, hinner, Option.bind_some, ih h]

private theorem run_bracketed {e : Expr} (h : e.isReadable = true)
    (done : List Step) (s : Step) :
    (test done s).run (.bracket :: e.lexemes ++ [.endBracket]) =
      some (test done { s with predicates := s.predicates ++ [e] }) := by
  obtain ⟨m, hrun, hfinish⟩ := run_lexemes h
  show (predicate done s ⟨[], .operand⟩).run (e.lexemes ++ [.endBracket]) = _
  rw [run_append, run_predicate done s hrun, Option.bind_some]
  show (m.finish.map _).bind _ = _
  rw [hfinish]
  rfl

end Reader

/-- The location path that a text writes. -/
def readPath (t : Text) : Option (List Step) :=
  (lex t).bind fun ls => (Reader.start.run ls).bind Reader.finish

/-! ## Paths written step by step -/

/-- How a step is tied to the one in front of it. -/
inductive Link where
  | descendant
  | child
  | sibling
deriving DecidableEq, Repr

namespace Link

/-- The text in front of the node test. -/
def text : Link → Text
  | descendant => "//"
  | child => "/"
  | sibling => "/following-sibling::"

/-- The steps that a tied step adds to a path. -/
def steps : Link → NodeTest → List Expr → List Step
  | descendant, test, es => [descend, ⟨.child, test, es⟩]
  | child, test, es => [⟨.child, test, es⟩]
  | sibling, test, es => [⟨.followingSibling, test, es⟩]

end Link

/-- The text of a node test for elements. -/
def elementTest : Option Text → Text
  | none => "*"
  | some name => name

/-- The node test for elements, of one name or of all. -/
def NodeTest.ofName? : Option Text → NodeTest
  | none => .anyElement
  | some name => .named name

/-- The text of predicates. -/
def bracketed : List Expr → Text
  | [] => []
  | e :: es => "[" ++ e.render ++ "]" ++ bracketed es

/-- The lexemes of predicates. -/
def bracketedLexemes : List Expr → List Lexeme
  | [] => []
  | e :: es => .bracket :: e.lexemes ++ [.endBracket] ++ bracketedLexemes es

private theorem cuts_bracketed {es : List Expr}
    (h : ∀ e ∈ es, e.isReadable = true) :
    Cuts (bracketed es) (bracketedLexemes es) := by
  induction es with
  | nil => exact fun found => rfl
  | cons e es ih =>
    have hopen : Cuts "[" [.bracket] := fun found => rfl
    have hclose : Cuts "]" [.endBracket] := fun found => rfl
    have he := spells_render e (h e (List.mem_cons_self ..))
    have hes := ih fun e he => h e (List.mem_cons_of_mem _ he)
    exact ((hopen.append_spells he).append_cuts hclose rfl).append hes

private theorem startsApart_bracketed {es : List Expr} (h : es ≠ []) :
    startsApart (bracketed es) = true := by
  cases es with
  | nil => exact absurd rfl h
  | cons e es => rfl

private theorem run_bracketedLexemes {es : List Expr}
    (h : ∀ e ∈ es, e.isReadable = true) (done : List Step) (s : Step) :
    (Reader.test done s).run (bracketedLexemes es) =
      some (.test done { s with predicates := s.predicates ++ es }) := by
  induction es generalizing s with
  | nil => simp [bracketedLexemes, Reader.run]
  | cons e es ih =>
    rw [bracketedLexemes, Reader.run_append,
      Reader.run_bracketed (h e (List.mem_cons_self ..)),
      Option.bind_some, ih fun e he => h e (List.mem_cons_of_mem _ he)]
    simp

/-- The lexemes of a node test for elements. -/
def testLexeme : Option Text → Lexeme
  | none => .star
  | some name => .name name

/-- The lexemes in front of a node test. -/
def Link.lexemes : Link → List Lexeme
  | descendant => [.slashes]
  | child => [.slash]
  | sibling => [.slash, .name "following-sibling", .separator]

private theorem spells_elementTest {name : Option Text}
    (h : name.all isName = true) :
    Spells (elementTest name) [testLexeme name] := by
  cases name with
  | none => exact Cuts.spells fun found => rfl
  | some name => exact spells_name h

/-- One slash is complete in front of any character but a slash. -/
theorem spells_slash {t : Text} {ls : List Lexeme} (h : Spells t ls)
    (ht : t.head?.any (· != '/') = true) :
    Spells ('/' :: t) (.slash :: ls) := by
  intro found
  obtain ⟨s, hs, hfinish⟩ := h (.slash :: found)
  refine ⟨s, ?_, ?_⟩
  · rw [← hs]
    cases t with
    | nil => simp at ht
    | cons c rest =>
      have hc : c ≠ '/' := by simpa using ht
      show ((if c = '/' then some (⟨.slashes :: found, .idle⟩ : Scan)
        else Scan.start (.slash :: found) c).bind fun s' => s'.run rest) = _
      rw [if_neg hc]
      rfl
  · rw [hfinish]
    simp

private theorem head_elementTest {name : Option Text}
    (h : name.all isName = true) :
    (elementTest name).head?.any (· != '/') = true := by
  cases name with
  | none => rfl
  | some name =>
    cases name with
    | nil => exact absurd h (by decide)
    | cons c rest =>
      have hc : beginsName c = true := by
        simp only [Option.all_some, isName, Bool.and_eq_true] at h
        exact h.1
      have hne : c ≠ '/' := by
        rintro rfl
        exact absurd hc (by decide)
      simpa [elementTest] using hne

private theorem spells_link (link : Link) {name : Option Text}
    (h : name.all isName = true) :
    Spells (link.text ++ elementTest name)
      (link.lexemes ++ [testLexeme name]) := by
  have htest := spells_elementTest h
  cases link with
  | descendant =>
    have hslashes : Cuts "//" [.slashes] := fun found => rfl
    exact hslashes.append_spells htest
  | child => exact spells_slash htest (head_elementTest h)
  | sibling =>
    have haxis : Cuts "/following-sibling::" [.slash, .name "following-sibling",
        .separator] :=
      fun found => rfl
    exact haxis.append_spells htest

/-- The text of a step behind a link. -/
def Link.stepText (link : Link) (name : Option Text) (es : List Expr) : Text :=
  link.text ++ elementTest name ++ bracketed es

/-- The lexemes of a step behind a link. -/
def Link.stepLexemes (link : Link) (name : Option Text) (es : List Expr) :
    List Lexeme :=
  link.lexemes ++ [testLexeme name] ++ bracketedLexemes es

private theorem spells_stepText (link : Link) {name : Option Text}
    {es : List Expr} (hname : name.all isName = true)
    (hes : ∀ e ∈ es, e.isReadable = true) :
    Spells (link.stepText name es) (link.stepLexemes name es) := by
  have hlink := spells_link link hname
  by_cases hnil : es = []
  · subst hnil
    simpa [Link.stepText, Link.stepLexemes, bracketed, bracketedLexemes]
      using hlink
  · exact (hlink.append_cuts (cuts_bracketed hes)
      (startsApart_bracketed hnil)).spells

private theorem startsApart_stepText (link : Link) (name : Option Text)
    (es : List Expr) :
    startsApart (link.stepText name es) = true := by
  cases link <;> rfl

/-- The steps that a reader has behind it where a step may follow. -/
def Reader.behind : Reader → Option (List Step)
  | start => some []
  | test done s => some (done ++ [s])
  | _ => none

private theorem run_stepLexemes {r : Reader} {path : List Step} (link : Link)
    (name : Option Text) {es : List Expr} (hes : ∀ e ∈ es, e.isReadable = true)
    (hr : r.behind = some path) :
    ∃ done s, r.run (link.stepLexemes name es) = some (.test done s) ∧
      done ++ [s] = path ++ link.steps (.ofName? name) es := by
  -- The reader stands behind the node test, with the steps in front of it
  -- complete.
  have htest : ∃ done axis, r.run (link.lexemes ++ [testLexeme name]) =
      some (.test done ⟨axis, .ofName? name, []⟩) ∧
        done ++ [⟨axis, .ofName? name, es⟩] =
          path ++ link.steps (.ofName? name) es := by
    cases r with
    | start =>
      cases hr
      cases link with
      | descendant => cases name <;> exact ⟨[descend], .child, rfl, rfl⟩
      | child => cases name <;> exact ⟨[], .child, rfl, rfl⟩
      | sibling => cases name <;> exact ⟨[], .followingSibling, rfl, rfl⟩
    | test done s =>
      cases hr
      cases link with
      | descendant =>
        cases name <;> exact ⟨done ++ [s, descend], .child, rfl,
            by simp [Link.steps]⟩
      | child =>
        cases name <;> exact ⟨done ++ [s], .child, rfl, by simp [Link.steps]⟩
      | sibling =>
        cases name <;> exact ⟨done ++ [s], .followingSibling, rfl,
            by simp [Link.steps]⟩
    | _ => simp [Reader.behind] at hr
  obtain ⟨done, axis, hrun, hpath⟩ := htest
  refine ⟨done, ⟨axis, .ofName? name, es⟩, ?_, hpath⟩
  rw [Link.stepLexemes, Reader.run_append, hrun, Option.bind_some,
    run_bracketedLexemes hes]
  rfl

/-- Whether the reader understands a text as a path. -/
def ReadsPath (t : Text) (path : List Step) : Prop :=
  ∃ ls done s, Spells t ls ∧ Reader.start.run ls = some (.test done s) ∧
    done ++ [s] = path

/-- A path that is read step by step is read. -/
theorem readPath_of_readsPath {t : Text} {path : List Step}
    (h : ReadsPath t path) :
    readPath t = some path := by
  obtain ⟨ls, done, s, hspells, hrun, hpath⟩ := h
  rw [readPath, lex_of_spells hspells, Option.bind_some, hrun, Option.bind_some,
    Reader.finish, hpath]

/-- A step by itself is a path. -/
theorem readsPath_step (link : Link) {name : Option Text} {es : List Expr}
    (hname : name.all isName = true) (hes : ∀ e ∈ es, e.isReadable = true) :
    ReadsPath (link.stepText name es) (link.steps (.ofName? name) es) := by
  have hstart : Reader.start.behind = some [] := rfl
  obtain ⟨done, s, hrun, hpath⟩ := run_stepLexemes link name hes hstart
  exact ⟨_, done, s, spells_stepText link hname hes, hrun, hpath⟩

/-- A step behind a path continues it. -/
theorem ReadsPath.append_step {t : Text} {path : List Step}
    (h : ReadsPath t path) (link : Link) {name : Option Text} {es : List Expr}
    (hname : name.all isName = true) (hes : ∀ e ∈ es, e.isReadable = true) :
    ReadsPath (t ++ link.stepText name es)
      (path ++ link.steps (.ofName? name) es) := by
  obtain ⟨ls, done, s, hspells, hrun, hpath⟩ := h
  have hbehind : (Reader.test done s).behind = some path := by
    rw [Reader.behind, hpath]
  obtain ⟨done', s', hrun', hpath'⟩ := run_stepLexemes link name hes hbehind
  refine ⟨ls ++ link.stepLexemes name es, done', s', ?_, ?_, hpath'⟩
  · exact hspells.append_apart (spells_stepText link hname hes)
      (startsApart_stepText link name es)
  · rw [Reader.run_append, hrun, Option.bind_some, hrun']

end SelectorPath.XPath
