import SelectorPath.Proofs.Lexing

/-!
# Reading expressions

An expression is read by a machine with a stack. While it looks for an operand,
the stack holds what waits for it: operators with their left operands, groups,
and function calls with the arguments read so far. Behind an operand, an
operator first takes to the left every waiting operator that binds at least as
tightly.

## Main results

* `readExpr_render`: reading what `Expr.render` writes gives the expression
  back, if every operand binds tightly enough for its place (`Expr.isReadable`).
* `render_injective`: two such expressions are written alike only if they are
  equal.
-/

namespace SelectorPath.XPath

/-! ## Binding -/

/-- How tightly an operator binds. -/
def Operator.level : Operator → Nat
  | or => 1
  | and => 2
  | equal | unequal => 3
  | atMost | atLeast => 4
  | modulo => 6

/-- How tightly an expression binds: as its operator, and without one most
tightly. -/
def Expr.level : Expr → Nat
  | binary op _ _ => op.level
  | minus _ _ => 5
  | _ => 7

/-- What stands between two operands. -/
inductive Joint where
  | minus
  | operator (op : Operator)
deriving DecidableEq, Repr

namespace Joint

def level : Joint → Nat
  | minus => 5
  | operator op => op.level

def apply : Joint → Expr → Expr → Expr
  | minus, l, r => .minus l r
  | operator op, l, r => .binary op l r

/-- The operator that a lexeme is behind an operand. -/
def ofLexeme? : Lexeme → Option Joint
  | .minus => some minus
  | .relation op => some (operator op)
  | .name t =>
    if t = "and" then some (operator .and)
    else if t = "or" then some (operator .or)
    else if t = "mod" then some (operator .modulo)
    else none
  | _ => none

end Joint

/-! ## The machine for expressions -/

/-- Something that waits for an operand. -/
inductive Frame where
  | left (l : Expr) (j : Joint)
  | group
  /-- A function call, with its arguments so far. -/
  | call (f : Text) (args : List Expr)

/-- Where the machine stands. -/
inductive Focus where
  /-- In front of an operand. -/
  | operand
  /-- Behind the mark of an attribute. -/
  | attribute
  /-- Behind the name of a function. -/
  | callee (f : Text)
  /-- Behind the sign of a number. -/
  | negative
  /-- Behind an operand. -/
  | value (e : Expr)

/-- The machine: what waits, innermost first, and where it stands. -/
structure Machine where
  stack : List Frame
  focus : Focus

/-- The call of a function. -/
def call? (f : Text) : List Expr → Option Expr
  | [] =>
    if f = "name" then some .elementName
    else if f = "position" then some .position
    else if f = "last" then some .last
    else if f = "normalize-space" then some .ownText
    else if f = "string-length" then some .ownLength
    else none
  | [e] =>
    if f = "normalize-space" then some (.normalizeSpace e)
    else if f = "string-length" then some (.stringLength e)
    else if f = "not" then some (.not e)
    else none
  | [e, part] =>
    if f = "contains" then some (.contains e part)
    else if f = "starts-with" then some (.startsWith e part)
    else if f = "substring" then some (.substring e part)
    else none
  | [a, b, c] =>
    if f = "concat" then some (.concat a b c)
    else if f = "translate" then some (.translate a b c)
    else none
  | _ => none

/-- Take an operand to the waiting operators that bind at least as tightly as
`level`. -/
def settle (level : Nat) : List Frame → Expr → List Frame × Expr
  | .left l j :: stack, e =>
    if level ≤ j.level then settle level stack (j.apply l e)
    else (.left l j :: stack, e)
  | stack, e => (stack, e)

namespace Machine

/-- A closing parenthesis behind an operand. -/
def close (stack : List Frame) (e : Expr) : Option Machine :=
  match settle 0 stack e with
  | (.group :: stack, e) => some ⟨stack, .value (.group e)⟩
  | (.call f args :: stack, e) =>
    (call? f (args ++ [e])).map fun e => ⟨stack, .value e⟩
  | _ => none

/-- A comma behind an operand. -/
def next (stack : List Frame) (e : Expr) : Option Machine :=
  match settle 0 stack e with
  | (.call f args :: stack, e) =>
    some ⟨.call f (args ++ [e]) :: stack, .operand⟩
  | _ => none

/-- An operator behind an operand. -/
def join (stack : List Frame) (e : Expr) (j : Joint) : Machine :=
  match settle j.level stack e with
  | (stack, e) => ⟨.left e j :: stack, .operand⟩

/-- A closing parenthesis in front of an operand ends a call without
arguments. -/
def closeEmpty : List Frame → Option Machine
  | .call f [] :: stack => (call? f []).map fun e => ⟨stack, .value e⟩
  | _ => none

/-- Read a lexeme. -/
def step (m : Machine) (l : Lexeme) : Option Machine :=
  match m.focus with
  | .operand =>
    match l with
    | .literal quote body => some ⟨m.stack, .value (.literal quote body)⟩
    | .number t => some ⟨m.stack, .value (.number t)⟩
    | .star => some ⟨m.stack, .value .children⟩
    | .at => some ⟨m.stack, .attribute⟩
    | .minus => some ⟨m.stack, .negative⟩
    | .name f => some ⟨m.stack, .callee f⟩
    | .paren => some ⟨.group :: m.stack, .operand⟩
    | .endParen => closeEmpty m.stack
    | _ => none
  | .attribute =>
    match l with
    | .name n => some ⟨m.stack, .value (.attr n)⟩
    | _ => none
  | .callee f =>
    match l with
    | .paren => some ⟨.call f [] :: m.stack, .operand⟩
    | _ => none
  | .negative =>
    match l with
    | .number t => some ⟨m.stack, .value (.number ('-' :: t))⟩
    | _ => none
  | .value e =>
    match l with
    | .endParen => close m.stack e
    | .comma => next m.stack e
    | l => (Joint.ofLexeme? l).map (join m.stack e)

/-- Read lexemes. -/
def run (m : Machine) : List Lexeme → Option Machine
  | [] => some m
  | l :: rest => (m.step l).bind fun m' => m'.run rest

/-- The expression that was read, if nothing waits. -/
def finish (m : Machine) : Option Expr :=
  match m.focus with
  | .value e =>
    match settle 0 m.stack e with
    | ([], e) => some e
    | _ => none
  | _ => none

/-- A machine goes through the parts of a list one after the other. -/
theorem run_append (m : Machine) (front back : List Lexeme) :
    m.run (front ++ back) = (m.run front).bind fun m' => m'.run back := by
  induction front generalizing m with
  | nil => rfl
  | cons l rest ih =>
    rw [List.cons_append, run, run]
    cases m.step l with
    | none => rfl
    | some m' => exact ih m'

end Machine

/-- The expression that a text writes. -/
def readExpr (t : Text) : Option Expr :=
  (lex t).bind fun ls => ((⟨[], .operand⟩ : Machine).run ls).bind Machine.finish

/-! ## Lexemes of an expression -/

/-- An operator between its operands. -/
def Operator.lexeme : Operator → Lexeme
  | and => .name "and"
  | or => .name "or"
  | modulo => .name "mod"
  | op => .relation op

/-- The lexemes of a number, its sign being one of its own. -/
def numeralLexemes : Text → List Lexeme
  | '-' :: t => [.minus, .number t]
  | t => [.number t]

/-- The lexemes of a function call, from those of its arguments. -/
def callLexemes (f : Text) (args : List (List Lexeme)) : List Lexeme :=
  .name f :: .paren :: [Lexeme.comma].intercalate args ++ [.endParen]

namespace Expr

/-- The lexemes that an expression is written with. -/
def lexemes : Expr → List Lexeme
  | attr n => [.at, .name n]
  | children => [.star]
  | literal quote body => [.literal quote body]
  | number t => numeralLexemes t
  | elementName => callLexemes "name" []
  | position => callLexemes "position" []
  | last => callLexemes "last" []
  | ownText => callLexemes "normalize-space" []
  | ownLength => callLexemes "string-length" []
  | normalizeSpace e => callLexemes "normalize-space" [e.lexemes]
  | stringLength e => callLexemes "string-length" [e.lexemes]
  | not e => callLexemes "not" [e.lexemes]
  | contains e part => callLexemes "contains" [e.lexemes, part.lexemes]
  | startsWith e part => callLexemes "starts-with" [e.lexemes, part.lexemes]
  | substring e start => callLexemes "substring" [e.lexemes, start.lexemes]
  | concat a b c => callLexemes "concat" [a.lexemes, b.lexemes, c.lexemes]
  | translate e source target =>
    callLexemes "translate" [e.lexemes, source.lexemes, target.lexemes]
  | minus l r => l.lexemes ++ .minus :: r.lexemes
  | binary op l r => l.lexemes ++ op.lexeme :: r.lexemes
  | group e => .paren :: e.lexemes ++ [.endParen]

/-- Whether a text is a number with an optional sign. -/
def isSigned : Text → Bool
  | '-' :: t => isNumeral t
  | t => isNumeral t

/-- Whether the text of an expression can be read again: names, numbers and
literals are such, and an operand binds tightly enough for its place, a right
one more tightly than the operator. -/
def isReadable : Expr → Bool
  | attr n => isName n
  | literal quote body =>
    (quote == '\'' || quote == '"') && !body.contains quote
  | number t => isSigned t
  | normalizeSpace e | stringLength e | not e | group e => e.isReadable
  | contains e part | startsWith e part | substring e part =>
    e.isReadable && part.isReadable
  | concat a b c | translate a b c =>
    a.isReadable && b.isReadable && c.isReadable
  | minus l r =>
    l.isReadable && r.isReadable && decide (5 ≤ l.level) && decide (5 < r.level)
  | binary op l r =>
    l.isReadable && r.isReadable && decide (op.level ≤ l.level) &&
      decide (op.level < r.level)
  | _ => true

end Expr

/-! ## Reading back -/

/-- Whether the innermost operator that waits binds less tightly than
`level`. -/
def waitsBelow (level : Nat) : List Frame → Bool
  | .left _ j :: _ => j.level < level
  | _ => true

private theorem settle_of_waitsBelow {level : Nat} {stack : List Frame}
    (e : Expr) (h : waitsBelow level stack = true) :
    settle level stack e = (stack, e) := by
  unfold settle
  split
  · rename_i l j rest
    have hlt : j.level < level := by simpa [waitsBelow] using h
    rw [if_neg (by omega)]
  · rfl

private theorem waitsBelow_mono {low high : Nat} {stack : List Frame}
    (hle : low ≤ high) (h : waitsBelow low stack = true) :
    waitsBelow high stack = true := by
  unfold waitsBelow at h ⊢
  split at h
  · have hlt := of_decide_eq_true h
    simp only [decide_eq_true_eq]
    omega
  · rfl

/-- Whether the machine reads the lexemes as the expression: what then waits
comes to the same as the expression with what waited before, for every operator
that may follow. -/
def Reads (ls : List Lexeme) (e : Expr) : Prop :=
  ∀ stack, waitsBelow e.level stack = true →
    ∃ stack' e', (⟨stack, .operand⟩ : Machine).run ls =
      some ⟨stack', .value e'⟩ ∧
      ∀ level ≤ e.level, settle level stack' e' = settle level stack e

private theorem reads_operand {ls : List Lexeme} {e : Expr}
    (h : ∀ stack, (⟨stack, .operand⟩ : Machine).run ls =
      some ⟨stack, .value e⟩) :
    Reads ls e :=
  fun stack _ => ⟨stack, e, h stack, fun _ _ => rfl⟩

private theorem step_joint {m : Lexeme} {j : Joint}
    (h : Joint.ofLexeme? m = some j) (stack : List Frame) (e : Expr) :
    (⟨stack, .value e⟩ : Machine).step m = some (Machine.join stack e j) := by
  cases m with
  | minus => cases h; rfl
  | relation op => cases h; rfl
  | name t => simp [Machine.step, h]
  | _ => simp [Joint.ofLexeme?] at h

/-- An operator takes what was read to its left as its operand, because what
waits there binds less tightly, and its right operand before that meets an
operator of the same level. -/
theorem reads_joint {ls ms : List Lexeme} {m : Lexeme} {l r : Expr} {j : Joint}
    (hl : Reads ls l) (hr : Reads ms r) (hm : Joint.ofLexeme? m = some j)
    (hlevel : (j.apply l r).level = j.level) (hleft : j.level ≤ l.level)
    (hright : j.level < r.level) : Reads (ls ++ m :: ms) (j.apply l r) := by
  intro stack hstack
  rw [hlevel] at hstack ⊢
  obtain ⟨stackL, eL, hrunL, hsettleL⟩ :=
    hl stack (waitsBelow_mono hleft hstack)
  have hjoin : Machine.join stackL eL j = ⟨.left l j :: stack, .operand⟩ := by
    rw [Machine.join, hsettleL j.level hleft, settle_of_waitsBelow l hstack]
  have hwaits : waitsBelow r.level (.left l j :: stack) = true := by
    simpa [waitsBelow] using hright
  obtain ⟨stackR, eR, hrunR, hsettleR⟩ := hr (.left l j :: stack) hwaits
  refine ⟨stackR, eR, ?_, ?_⟩
  · rw [Machine.run_append, hrunL, Option.bind_some, Machine.run, step_joint hm,
      Option.bind_some, hjoin, hrunR]
  · intro level hle
    rw [hsettleR level (by omega), settle, if_pos hle]

/-- An operand in front of a comma or a closing parenthesis is complete. -/
theorem settle_zero_of_reads {ls : List Lexeme} {e : Expr} (frame : Frame)
    (stack : List Frame) (h : Reads ls e) (hframe : ∀ l j, frame ≠ .left l j) :
    ∃ stack' e', (⟨frame :: stack, .operand⟩ : Machine).run ls =
      some ⟨stack', .value e'⟩ ∧
      settle 0 stack' e' = (frame :: stack, e) := by
  have hbelow : ∀ level, waitsBelow level (frame :: stack) = true := by
    intro level
    cases frame with
    | left l j => exact absurd rfl (hframe l j)
    | group => rfl
    | call f args => rfl
  obtain ⟨stack', e', hrun, hsettle⟩ := h (frame :: stack) (hbelow e.level)
  refine ⟨stack', e', hrun, ?_⟩
  rw [hsettle 0 (Nat.zero_le _), settle_of_waitsBelow e (hbelow 0)]

private theorem reads_group {ls : List Lexeme} {e : Expr} (h : Reads ls e) :
    Reads (.paren :: ls ++ [.endParen]) (.group e) := by
  apply reads_operand
  intro stack
  obtain ⟨stack', e', hrun, hsettle⟩ :=
    settle_zero_of_reads .group stack h (by simp)
  show (⟨.group :: stack, .operand⟩ : Machine).run (ls ++ [.endParen]) = _
  rw [Machine.run_append, hrun, Option.bind_some]
  show (Machine.close stack' e').bind _ = _
  rw [Machine.close, hsettle]
  rfl

/-- The arguments of a call are read one after the other, those in `args` being
read already. -/
theorem run_arguments (f : Text) (stack : List Frame) (args : List Expr)
    (e : Expr) (es : List Expr) (h : ∀ x ∈ e :: es, Reads x.lexemes x) :
    (⟨.call f args :: stack, .operand⟩ : Machine).run
        ([Lexeme.comma].intercalate ((e :: es).map Expr.lexemes) ++
          [.endParen]) =
      (call? f (args ++ e :: es)).map fun v => ⟨stack, .value v⟩ := by
  induction es generalizing args e with
  | nil =>
    obtain ⟨stack', e', hrun, hsettle⟩ :=
      settle_zero_of_reads (.call f args) stack (h e (by simp)) (by simp)
    have hone : [Lexeme.comma].intercalate ([e].map Expr.lexemes) =
        e.lexemes := by
      simp [List.intercalate]
    rw [hone, Machine.run_append, hrun, Option.bind_some]
    show (Machine.close stack' e').bind _ = _
    rw [Machine.close, hsettle]
    show ((call? f (args ++ [e])).map _).bind _ = _
    cases call? f (args ++ [e]) with
    | none => rfl
    | some v => rfl
  | cons e₂ es ih =>
    obtain ⟨stack', e', hrun, hsettle⟩ :=
      settle_zero_of_reads (.call f args) stack (h e (by simp)) (by simp)
    have hmore :
        [Lexeme.comma].intercalate ((e :: e₂ :: es).map Expr.lexemes) ++
            [.endParen] =
          e.lexemes ++ .comma ::
            ([Lexeme.comma].intercalate ((e₂ :: es).map Expr.lexemes) ++
              [.endParen]) := by
      simp [List.intercalate]
    rw [hmore, Machine.run_append, hrun, Option.bind_some, Machine.run]
    show (Machine.next stack' e').bind _ = _
    rw [Machine.next, hsettle, Option.bind_some, ih (args ++ [e]) e₂ fun x hx =>
      h x (.tail _ hx)]
    simp

private theorem reads_call (f : Text) (args : List Expr) {v : Expr}
    (hcall : call? f args = some v) (h : ∀ x ∈ args, Reads x.lexemes x) :
    Reads (callLexemes f (args.map Expr.lexemes)) v := by
  apply reads_operand
  intro stack
  cases args with
  | nil =>
    show (Machine.closeEmpty (.call f [] :: stack)).bind _ = _
    rw [Machine.closeEmpty, hcall]
    rfl
  | cons e es =>
    show (⟨.call f [] :: stack, .operand⟩ : Machine).run
      ([Lexeme.comma].intercalate ((e :: es).map Expr.lexemes) ++ [.endParen]) =
        _
    rw [run_arguments f stack [] e es h, List.nil_append, hcall]
    rfl

/-- The machine reads the lexemes of an expression as that expression. -/
theorem reads_lexemes (e : Expr) (h : e.isReadable = true) :
    Reads e.lexemes e := by
  induction e with
  | attr n => exact reads_operand fun stack => rfl
  | children => exact reads_operand fun stack => rfl
  | literal quote body => exact reads_operand fun stack => rfl
  | number t =>
    apply reads_operand
    intro stack
    rw [Expr.lexemes]
    unfold numeralLexemes
    split
    · rfl
    · rfl
  | elementName => exact reads_call "name" [] rfl (by simp)
  | position => exact reads_call "position" [] rfl (by simp)
  | last => exact reads_call "last" [] rfl (by simp)
  | ownText => exact reads_call "normalize-space" [] rfl (by simp)
  | ownLength => exact reads_call "string-length" [] rfl (by simp)
  | normalizeSpace e ih =>
    exact reads_call "normalize-space" [e] rfl (by simpa using ih h)
  | stringLength e ih =>
    exact reads_call "string-length" [e] rfl (by simpa using ih h)
  | not e ih => exact reads_call "not" [e] rfl (by simpa using ih h)
  | contains e part ihe ihp =>
    rw [Expr.isReadable, Bool.and_eq_true] at h
    exact reads_call "contains" [e, part] rfl
      (by simpa using ⟨ihe h.1, ihp h.2⟩)
  | startsWith e part ihe ihp =>
    rw [Expr.isReadable, Bool.and_eq_true] at h
    exact reads_call "starts-with" [e, part] rfl
      (by simpa using ⟨ihe h.1, ihp h.2⟩)
  | substring e start ihe ihs =>
    rw [Expr.isReadable, Bool.and_eq_true] at h
    exact reads_call "substring" [e, start] rfl
      (by simpa using ⟨ihe h.1, ihs h.2⟩)
  | concat a b c iha ihb ihc =>
    rw [Expr.isReadable, Bool.and_eq_true, Bool.and_eq_true] at h
    exact reads_call "concat" [a, b, c] rfl
      (by simpa using ⟨iha h.1.1, ihb h.1.2, ihc h.2⟩)
  | translate e source target ihe ihs iht =>
    rw [Expr.isReadable, Bool.and_eq_true, Bool.and_eq_true] at h
    exact reads_call "translate" [e, source, target] rfl
      (by simpa using ⟨ihe h.1.1, ihs h.1.2, iht h.2⟩)
  | minus l r ihl ihr =>
    simp only [Expr.isReadable, Bool.and_eq_true, decide_eq_true_eq] at h
    obtain ⟨⟨⟨hl, hr⟩, hleft⟩, hright⟩ := h
    have hm : Joint.ofLexeme? .minus = some .minus := rfl
    exact reads_joint (ihl hl) (ihr hr) hm rfl hleft hright
  | binary op l r ihl ihr =>
    simp only [Expr.isReadable, Bool.and_eq_true, decide_eq_true_eq] at h
    obtain ⟨⟨⟨hl, hr⟩, hleft⟩, hright⟩ := h
    have hm : Joint.ofLexeme? op.lexeme = some (.operator op) := by
      cases op <;> rfl
    exact reads_joint (ihl hl) (ihr hr) hm rfl hleft hright
  | group e ih => exact reads_group (ih h)

/-! ## Spelling -/

/-- The text of an operator between its operands. -/
theorem cuts_symbol (op : Operator) :
    Cuts (" " ++ op.symbol ++ " ") [op.lexeme] := by
  cases op <;> exact fun found => rfl

private theorem startsApart_symbol (op : Operator) :
    startsApart (" " ++ op.symbol ++ " ") = true := rfl

private theorem spells_numeral {t : Text} (h : Expr.isSigned t = true) :
    Spells t (numeralLexemes t) := by
  unfold Expr.isSigned at h
  unfold numeralLexemes
  split at h
  · rename_i digits
    have hsign : Cuts ['-'] [.minus] := fun found => rfl
    exact hsign.append_spells (spells_number h)
  · exact spells_number h

private theorem cuts_endParen : Cuts ")" [.endParen] := fun _ => rfl

private theorem cuts_comma : Cuts ", " [.comma] := fun _ => rfl

private theorem cuts_callee {f : Text} (hf : isName f = true) :
    Cuts (f ++ "(") [.name f, .paren] := by
  have hopen : Cuts "(" [.paren] := fun found => rfl
  exact (spells_name hf).append_cuts hopen rfl

/-! A function call is cut into the name, the arguments and the marks between
them. -/

private theorem spells_call₀ {f : Text} (hf : isName f = true) :
    Spells (f ++ "(" ++ ")") (callLexemes f []) :=
  ((cuts_callee hf).append cuts_endParen).spells

private theorem cuts_call₁ {f a : Text} {ls : List Lexeme}
    (hf : isName f = true) (ha : Spells a ls) :
    Cuts (f ++ "(" ++ a ++ ")") (callLexemes f [ls]) := by
  have h := ((cuts_callee hf).append_spells ha).append_cuts cuts_endParen rfl
  simpa [callLexemes, List.intercalate] using h

private theorem spells_call₂ {f a b : Text} {ls ms : List Lexeme}
    (hf : isName f = true) (ha : Spells a ls) (hb : Spells b ms) :
    Spells (f ++ "(" ++ a ++ ", " ++ b ++ ")") (callLexemes f [ls, ms]) := by
  have hcomma := ((cuts_callee hf).append_spells ha).append_cuts cuts_comma rfl
  have h := (hcomma.append_spells hb).append_cuts cuts_endParen rfl
  simpa [callLexemes, List.intercalate] using h.spells

private theorem spells_call₃ {f a b c : Text} {ls ms ns : List Lexeme}
    (hf : isName f = true) (ha : Spells a ls) (hb : Spells b ms)
    (hc : Spells c ns) :
    Spells (f ++ "(" ++ a ++ ", " ++ b ++ ", " ++ c ++ ")")
      (callLexemes f [ls, ms, ns]) := by
  have hcomma := ((cuts_callee hf).append_spells ha).append_cuts cuts_comma rfl
  have hcomma₂ := (hcomma.append_spells hb).append_cuts cuts_comma rfl
  have h := (hcomma₂.append_spells hc).append_cuts cuts_endParen rfl
  simpa [callLexemes, List.intercalate] using h.spells

/-- A difference is written with blanks around its sign, except from a string
length. -/
theorem render_minus (l r : Expr) :
    (∃ e, l = .stringLength e ∧ (Expr.minus l r).render =
      l.render ++ "-" ++ r.render) ∨
      (Expr.minus l r).render = l.render ++ " - " ++ r.render := by
  cases l with
  | stringLength e =>
    left
    refine ⟨e, rfl, ?_⟩
    have hend : ")-".toList = ")".toList ++ "-".toList := by decide
    show "string-length(" ++ e.render ++ ")-" ++ r.render =
      "string-length(" ++ e.render ++ ")" ++ "-" ++ r.render
    rw [hend]
    simp only [List.append_assoc]
  | _ => exact .inr rfl

private theorem cuts_stringLength {e : Expr} (h : Spells e.render e.lexemes) :
    Cuts (Expr.stringLength e).render (Expr.stringLength e).lexemes := by
  have hf : isName "string-length" = true := by decide
  exact cuts_call₁ hf h

/-- An expression that can be read back spells its lexemes. -/
theorem spells_render (e : Expr) (h : e.isReadable = true) :
    Spells e.render e.lexemes := by
  cases e with
  | attr n =>
    have hat : Cuts ['@'] [.at] := fun found => rfl
    exact hat.append_spells (spells_name h)
  | children => exact Cuts.spells fun found => rfl
  | literal quote body =>
    simp only [Expr.isReadable, Bool.and_eq_true, Bool.or_eq_true, beq_iff_eq,
      Bool.not_eq_true', List.contains_eq_mem, decide_eq_false_iff_not] at h
    exact (cuts_literal h.1 h.2).spells
  | number t => exact spells_numeral h
  | elementName =>
    have hf : isName "name" = true := by decide
    exact spells_call₀ hf
  | position =>
    have hf : isName "position" = true := by decide
    exact spells_call₀ hf
  | last =>
    have hf : isName "last" = true := by decide
    exact spells_call₀ hf
  | ownText =>
    have hf : isName "normalize-space" = true := by decide
    exact spells_call₀ hf
  | ownLength =>
    have hf : isName "string-length" = true := by decide
    exact spells_call₀ hf
  | normalizeSpace e =>
    have hf : isName "normalize-space" = true := by decide
    exact (cuts_call₁ hf (spells_render e h)).spells
  | stringLength e => exact (cuts_stringLength (spells_render e h)).spells
  | not e =>
    have hf : isName "not" = true := by decide
    exact (cuts_call₁ hf (spells_render e h)).spells
  | contains e part =>
    rw [Expr.isReadable, Bool.and_eq_true] at h
    have hf : isName "contains" = true := by decide
    exact spells_call₂ hf (spells_render e h.1) (spells_render part h.2)
  | startsWith e part =>
    rw [Expr.isReadable, Bool.and_eq_true] at h
    have hf : isName "starts-with" = true := by decide
    exact spells_call₂ hf (spells_render e h.1) (spells_render part h.2)
  | substring e start =>
    rw [Expr.isReadable, Bool.and_eq_true] at h
    have hf : isName "substring" = true := by decide
    exact spells_call₂ hf (spells_render e h.1) (spells_render start h.2)
  | concat a b c =>
    rw [Expr.isReadable, Bool.and_eq_true, Bool.and_eq_true] at h
    have hf : isName "concat" = true := by decide
    exact spells_call₃ hf (spells_render a h.1.1) (spells_render b h.1.2)
      (spells_render c h.2)
  | translate e source target =>
    rw [Expr.isReadable, Bool.and_eq_true, Bool.and_eq_true] at h
    have hf : isName "translate" = true := by decide
    exact spells_call₃ hf (spells_render e h.1.1) (spells_render source h.1.2)
      (spells_render target h.2)
  | minus l r =>
    simp only [Expr.isReadable, Bool.and_eq_true] at h
    have hr := spells_render r h.1.1.2
    rw [Expr.lexemes]
    rcases render_minus l r with ⟨e, rfl, hrender⟩ | hrender
    · -- The parenthesis in front of the sign is a lexeme of its own.
      have hsign : Cuts "-" [.minus] := fun found => rfl
      have hall := ((cuts_stringLength (spells_render e h.1.1.1)).append
        hsign).append_spells hr
      rw [hrender]
      simpa only [List.append_assoc, List.singleton_append] using hall
    · have hsign : Cuts " - " [.minus] := fun found => rfl
      have hall :=
        ((spells_render l h.1.1.1).append_cuts hsign rfl).append_spells hr
      rw [hrender]
      simpa only [List.append_assoc, List.singleton_append] using hall
  | binary op l r =>
    simp only [Expr.isReadable, Bool.and_eq_true] at h
    have hleft := (spells_render l h.1.1.1).append_cuts (cuts_symbol op)
      (startsApart_symbol op)
    have hop := hleft.append_spells (spells_render r h.1.1.2)
    show Spells (l.render ++ " " ++ op.symbol ++ " " ++ r.render)
        (l.lexemes ++ op.lexeme :: r.lexemes)
    simpa only [List.append_assoc, List.singleton_append] using hop
  | group e =>
    have hopen : Cuts "(" [.paren] := fun found => rfl
    exact ((hopen.append_spells (spells_render e h)).append_cuts cuts_endParen
      rfl).spells

/-- From the start, the machine reads an expression and nothing else waits. -/
theorem run_lexemes {e : Expr} (h : e.isReadable = true) :
    ∃ m, (⟨[], .operand⟩ : Machine).run e.lexemes = some m ∧
      m.finish = some e := by
  obtain ⟨stack, e', hrun, hsettle⟩ := reads_lexemes e h [] rfl
  refine ⟨⟨stack, .value e'⟩, hrun, ?_⟩
  show (match settle 0 stack e' with | ([], e) => some e | _ => none) = some e
  rw [hsettle 0 (Nat.zero_le _)]
  rfl

/-- Reading what an expression is written as gives the expression back. -/
theorem readExpr_render {e : Expr} (h : e.isReadable = true) :
    readExpr e.render = some e := by
  obtain ⟨m, hrun, hfinish⟩ := run_lexemes h
  rw [readExpr, lex_of_spells (spells_render e h), Option.bind_some, hrun,
    Option.bind_some, hfinish]

/-- Expressions that can be read back are told by their texts. -/
theorem render_injective {e e' : Expr} (h : e.isReadable = true)
    (h' : e'.isReadable = true) (heq : e.render = e'.render) : e = e' := by
  have hread := readExpr_render h
  rw [heq, readExpr_render h'] at hread
  exact (Option.some.inj hread).symm

end SelectorPath.XPath
