import SelectorPath.Pattern.Class
import SelectorPath.Pattern.Place
import SelectorPath.Text.Alphanumeric

/-!
# Lexemes of a pattern

A pattern is written as literal characters, escapes, classes in brackets, groups
in parentheses, and counts behind the part they repeat.

## Main results

* `readLexeme_length`: reading a lexeme takes at least its first character.
-/

namespace SelectorPath.Pattern

/-! ## Lexemes -/

/-- A setting that a pattern can change on its way. -/
inductive Flag where
  | ignoreCase
  /-- The signs for the ends of the text also stand for the ends of its
  lines. -/
  | lines
  /-- The dot accepts a newline, too. -/
  | dotAll
  /-- Counts are lazy, and greedy with a question mark. -/
  | swapGreed
deriving DecidableEq, Repr

/-- Changes of settings, in order. -/
abbrev Settings := List (Flag × Bool)

/-- What an opening parenthesis begins. -/
inductive Opener where
  | plain (settings : Settings)
  | capture (name : Option Text)
  | ahead (isNegative : Bool)
  | behind (isNegative : Bool)
  | commit
deriving DecidableEq, Repr

/-- How often a part is repeated. -/
structure Count where
  least : Nat
  most : Option Nat
  isLazy : Bool := false
  /-- Whether no turn is given up once all are taken. -/
  isPossessive : Bool := false
deriving DecidableEq, Repr

/-- A piece of the text of a pattern. -/
inductive Lexeme where
  /-- A character of a set. -/
  | one (set : CharSet)
  | dot
  | caret
  | dollar
  | place (condition : Condition)
  | opening (opener : Opener)
  | closing
  | bar
  | count (count : Count)
  /-- The text of a group again; the group has this name or number. -/
  | again (name : Text)
  /-- Settings from here on. -/
  | settings (settings : Settings)

/-- The lexeme of one character. -/
def Lexeme.char (c : Char) : Lexeme :=
  .one (.bracket false (.char c))

/-- Whether a count can follow a lexeme; where it cannot, a brace stands for
itself. -/
def Lexeme.canBeCounted : Lexeme → Bool
  | .opening _ => false
  | .bar => false
  | .count _ => false
  | _ => true

/-! ## Names -/

/-- Whether a character can stand in the name of a group. -/
def isNameChar (c : Char) : Bool :=
  Text.isAlphanumeric c || c == '_'

/-- A name up to the character that closes it. -/
def readGroupName (close : Char) (ahead : Text) : Except Fault (Text × Text) :=
  let name := ahead.takeWhile isNameChar
  match ahead.dropWhile isNameChar with
  | c :: left =>
    if c = close ∧ name ≠ [] then .ok (name, left) else .error .badGroupName
  | [] => .error .badGroupName

/-- The lexeme made of the name ahead. -/
def readNamed (close : Char) (make : Text → Lexeme) (ahead : Text) :
    Except Fault (Lexeme × Text) :=
  (readGroupName close ahead).map fun (name, left) => (make name, left)

/-- The lexeme of a group with the name ahead. -/
def readNamedGroup (close : Char) (ahead : Text) :
    Except Fault (Lexeme × Text) :=
  readNamed close (fun name => .opening (.capture (some name))) ahead

/-! ## Settings -/

/-- The setting that a letter changes, if it is one that can be changed. -/
def flagOf? (c : Char) : Option Flag :=
  if c = 'i' then some .ignoreCase
  else if c = 'm' then some .lines
  else if c = 's' then some .dotAll
  else if c = 'U' then some .swapGreed
  else none

/-- The settings up to a parenthesis, which ends them, or a colon, which opens a
group; `on` tells whether they are switched on, and `isBare` that there is no
letter yet. -/
def readSettings (on isBare : Bool) (settings : Settings) :
    Text → Except Fault (Lexeme × Text)
  | [] => .error .unclosedGroup
  | c :: rest =>
    if c = ')' then
      if isBare then .error .unknownGroup
      else .ok (.settings settings.reverse, rest)
    else if c = ':' then
      if isBare && !on then .error .unknownGroup
      else .ok (.opening (.plain settings.reverse), rest)
    else if c = '-' then
      if on then readSettings false isBare settings rest
      else .error .unknownGroup
    else if c = 'u' ∧ on then readSettings on false settings rest
    else match flagOf? c with
      | some flag => readSettings on false ((flag, on) :: settings) rest
      | none => .error .unknownGroup

/-! ## Groups -/

/-- What an opening parenthesis begins, or what stands in it. -/
def readOpening : Text → Except Fault (Lexeme × Text)
  | '?' :: '=' :: left => .ok (.opening (.ahead false), left)
  | '?' :: '!' :: left => .ok (.opening (.ahead true), left)
  | '?' :: '<' :: '=' :: left => .ok (.opening (.behind false), left)
  | '?' :: '<' :: '!' :: left => .ok (.opening (.behind true), left)
  | '?' :: '>' :: left => .ok (.opening .commit, left)
  | '?' :: 'P' :: '=' :: rest => readNamed ')' .again rest
  | '?' :: 'P' :: '<' :: rest => readNamedGroup '>' rest
  | '?' :: '<' :: rest => readNamedGroup '>' rest
  | '?' :: '\'' :: rest => readNamedGroup '\'' rest
  | '?' :: rest => readSettings true true [] rest
  | left => .ok (.opening (.capture none), left)

/-! ## Counts -/

/-- The count with the signs behind it, a question mark and a plus sign. -/
def readCountSigns (count : Count) (ahead : Text) : Count × Text :=
  let (count, rest) := match ahead with
    | '?' :: rest => ({ count with isLazy := true }, rest)
    | _ => (count, ahead)
  match rest with
  | '+' :: left => ({ count with isPossessive := true }, left)
  | _ => (count, rest)

/-- One more than the largest number in a count. -/
def countBound : Nat := 0x10000000000000000

/-- The number written ahead, if there is one that a count can have, and what
follows it. -/
def readNumber (ahead : Text) : Option Nat × Text :=
  match Text.natBelow? countBound (ahead.takeWhile Char.isDigit) with
  | some n => (some n, ahead.dropWhile Char.isDigit)
  | none => (none, ahead)

/-- A count behind its opening brace. -/
def readBraces? (ahead : Text) : Option (Count × Text) :=
  let (least, rest) := readNumber ahead
  match rest with
  | '}' :: left => least.map fun n => ({ least := n, most := some n }, left)
  | ',' :: rest =>
    let (most, rest) := readNumber rest
    match rest with
    | '}' :: left => some ({ least := least.getD 0, most }, left)
    | _ => none
  | _ => none

/-- The count that a sign behind a part sets. -/
def countOfSign? (c : Char) : Option Count :=
  if c = '*' then some { least := 0, most := none }
  else if c = '+' then some { least := 1, most := none }
  else if c = '?' then some { least := 0, most := some 1 }
  else none

/-! ## Escapes -/

/-- The condition that a letter behind a backslash stands for. -/
def conditionOfEscape? (c : Char) : Option Condition :=
  if c = 'A' then some .start
  else if c = 'z' then some .finish
  else if c = 'Z' then some .lastLine
  else if c = 'B' then some .noBoundary
  else if c = '<' then some .wordStart
  else if c = '>' then some .wordEnd
  else none

/-- The boundary that `\b` stands for; a word in braces tells which end of a
word is meant. -/
def readBoundary (ahead : Text) : Except Fault (Lexeme × Text) :=
  match ahead with
  | '{' :: rest =>
    match Text.cutAt? '}' rest with
    | some (name, left) =>
      if name = "start".toList then .ok (.place .wordStart, left)
      else if name = "end".toList then .ok (.place .wordEnd, left)
      else .error .badEscape
    | none => .error .badEscape
  | _ => .ok (.place .boundary, ahead)

/-- The lexeme of a backslash in front of what lies ahead. -/
def readEscape : Text → Except Fault (Lexeme × Text)
  | [] => .error .badEscape
  | 'k' :: '<' :: rest => readNamed '>' .again rest
  | 'k' :: '\'' :: rest => readNamed '\'' .again rest
  | c :: left =>
    if c.isDigit then .error .numberedReference
    else if c = 'b' then readBoundary left
    else match conditionOfEscape? c with
      | some condition => .ok (.place condition, left)
      | none =>
        match readEscaped c left with
        | .ok (.char x, left) => .ok (.char x, left)
        | .ok (.set set, left) => .ok (.one set, left)
        | .error fault => .error fault

/-! ## Reading -/

/-- The lexeme of a character that stands alone. -/
def lexemeOfChar (c : Char) : Lexeme :=
  if c = ')' then .closing
  else if c = '|' then .bar
  else if c = '.' then .dot
  else if c = '^' then .caret
  else if c = '$' then .dollar
  else .char c

/-- The lexeme that starts with `c`, and what follows it. -/
def readLexeme (canBeCounted : Bool) (c : Char) (rest : Text) :
    Except Fault (Lexeme × Text) :=
  if c = '\\' then readEscape rest
  else if c = '[' then (readClass rest).map fun (set, left) => (.one set, left)
  else if c = '(' then readOpening rest
  else if c = '{' ∧ canBeCounted then
    match readBraces? rest with
    | some (count, left) =>
      .ok (.count (readCountSigns count left).1, (readCountSigns count left).2)
    | none => .ok (.char c, rest)
  else match countOfSign? c with
    | some count =>
      .ok (.count (readCountSigns count rest).1, (readCountSigns count rest).2)
    | none => .ok (lexemeOfChar c, rest)

/-! ## Progress -/

private theorem readGroupName_length {close : Char} {ahead name left : Text}
    (h : readGroupName close ahead = .ok (name, left)) :
    left.length ≤ ahead.length := by
  unfold readGroupName at h
  have hle := Text.length_dropWhile_le isNameChar ahead
  simp only at h
  split at h
  · rename_i c left' hdrop
    rw [hdrop] at hle
    simp only [List.length_cons] at hle
    split at h
    · simp only [Except.ok.injEq, Prod.mk.injEq] at h
      rw [← h.2]
      omega
    · simp at h
  · simp at h

private theorem readNamed_length {close : Char} {make : Text → Lexeme}
    {ahead left : Text} {x : Lexeme}
    (h : readNamed close make ahead = .ok (x, left)) :
    left.length ≤ ahead.length := by
  unfold readNamed at h
  cases hr : readGroupName close ahead with
  | error e => simp [hr, Except.map] at h
  | ok r =>
    have hle := readGroupName_length hr
    simp only [hr, Except.map, Except.ok.injEq, Prod.mk.injEq] at h
    rwa [← h.2]

private theorem readSettings_length {on isBare : Bool} {settings : Settings}
    {ahead left : Text} {x : Lexeme}
    (h : readSettings on isBare settings ahead = .ok (x, left)) :
    left.length ≤ ahead.length := by
  fun_induction readSettings on isBare settings ahead with
  | case1 => simp at h
  | case2 => simp at h
  | case3 =>
    simp only [Except.ok.injEq, Prod.mk.injEq] at h
    simp [← h.2]
  | case4 => simp at h
  | case5 =>
    simp only [Except.ok.injEq, Prod.mk.injEq] at h
    simp [← h.2]
  | case6 =>
    rename_i ih
    have hi := ih h
    simp only [List.length_cons]
    omega
  | case7 => simp at h
  | case8 =>
    rename_i ih
    have hi := ih h
    simp only [List.length_cons]
    omega
  | case9 =>
    rename_i ih
    have hi := ih h
    simp only [List.length_cons]
    omega
  | case10 => simp at h

private theorem readOpening_length {ahead left : Text} {x : Lexeme}
    (h : readOpening ahead = .ok (x, left)) :
    left.length ≤ ahead.length := by
  unfold readOpening at h
  split at h
  case h_6 =>
    have hle := readNamed_length h
    simp only [List.length_cons]
    omega
  case h_7 =>
    have hle := readNamed_length h
    simp only [List.length_cons]
    omega
  case h_8 =>
    have hle := readNamed_length h
    simp only [List.length_cons]
    omega
  case h_9 =>
    have hle := readNamed_length h
    simp only [List.length_cons]
    omega
  case h_10 =>
    have hle := readSettings_length h
    simp only [List.length_cons]
    omega
  all_goals
    simp only [Except.ok.injEq, Prod.mk.injEq] at h
    simp only [← h.2, List.length_cons]
    omega

private theorem length_readCountSigns_le (count : Count) (ahead : Text) :
    (readCountSigns count ahead).2.length ≤ ahead.length := by
  unfold readCountSigns
  simp only
  split
  · split
    · simp_all
      omega
    · simp_all
  · split
    · simp_all
    · simp_all

private theorem length_readNumber_le (ahead : Text) :
    (readNumber ahead).2.length ≤ ahead.length := by
  unfold readNumber
  split
  · exact Text.length_dropWhile_le _ _
  · exact Nat.le_refl _

private theorem readBraces?_length {ahead left : Text} {count : Count}
    (h : readBraces? ahead = some (count, left)) :
    left.length ≤ ahead.length := by
  have hle := length_readNumber_le ahead
  unfold readBraces? at h
  simp only at h
  split at h
  · rename_i left' hrest
    simp only [Option.map_eq_some_iff, Prod.mk.injEq] at h
    obtain ⟨_, _, _, rfl⟩ := h
    rw [hrest] at hle
    simp only [List.length_cons] at hle
    omega
  · rename_i rest hrest
    have hle' := length_readNumber_le rest
    rw [hrest] at hle
    simp only [List.length_cons] at hle
    split at h
    · rename_i left' hrest'
      simp only [Option.some.injEq, Prod.mk.injEq] at h
      rw [hrest'] at hle'
      simp only [List.length_cons] at hle'
      rw [← h.2]
      omega
    · simp at h
  · simp at h

private theorem readBoundary_length {ahead left : Text} {x : Lexeme}
    (h : readBoundary ahead = .ok (x, left)) :
    left.length ≤ ahead.length := by
  unfold readBoundary at h
  split at h
  · split at h
    · rename_i rest _ name left' hcut
      have hlt := Text.length_cutAt? hcut
      repeat' split at h
      all_goals simp_all
      all_goals omega
    · simp at h
  · simp only [Except.ok.injEq, Prod.mk.injEq] at h
    simp [← h.2]

private theorem readEscape_length {ahead left : Text} {x : Lexeme}
    (h : readEscape ahead = .ok (x, left)) :
    left.length ≤ ahead.length := by
  unfold readEscape at h
  split at h
  · simp at h
  · have hle := readNamed_length h
    simp only [List.length_cons]
    omega
  · have hle := readNamed_length h
    simp only [List.length_cons]
    omega
  · split at h
    · simp at h
    split at h
    · have hle := readBoundary_length h
      simp only [List.length_cons]
      omega
    split at h
    · simp only [Except.ok.injEq, Prod.mk.injEq] at h
      simp [← h.2]
    split at h
    · rename_i hread
      have hle := readEscaped_length hread
      simp only [Except.ok.injEq, Prod.mk.injEq] at h
      simp only [← h.2, List.length_cons]
      omega
    · rename_i hread
      have hle := readEscaped_length hread
      simp only [Except.ok.injEq, Prod.mk.injEq] at h
      simp only [← h.2, List.length_cons]
      omega
    · simp at h

/-- Reading a lexeme takes at least its first character. -/
theorem readLexeme_length {canBeCounted : Bool} {c : Char} {rest left : Text}
    {x : Lexeme} (h : readLexeme canBeCounted c rest = .ok (x, left)) :
    left.length ≤ rest.length := by
  unfold readLexeme at h
  split at h
  · exact readEscape_length h
  split at h
  · cases hr : readClass rest with
    | error e => simp [hr, Except.map] at h
    | ok r =>
      have hle := readClass_length hr
      simp only [hr, Except.map, Except.ok.injEq, Prod.mk.injEq] at h
      rwa [← h.2]
  split at h
  · exact readOpening_length h
  split at h
  · split at h
    · rename_i count left' hbraces
      have hle := readBraces?_length hbraces
      have hsigns := length_readCountSigns_le count left'
      simp only [Except.ok.injEq, Prod.mk.injEq] at h
      rw [← h.2]
      omega
    · simp only [Except.ok.injEq, Prod.mk.injEq] at h
      simp [h.2]
  · split at h
    · rename_i count _
      simp only [Except.ok.injEq, Prod.mk.injEq] at h
      rw [← h.2]
      exact length_readCountSigns_le count rest
    · simp only [Except.ok.injEq, Prod.mk.injEq] at h
      simp [h.2]

/-- The lexemes of a pattern. -/
def lexemes (canBeCounted : Bool) : Text → Except Fault (List Lexeme)
  | [] => .ok []
  | c :: rest =>
    match _h : readLexeme canBeCounted c rest with
    | .error fault => .error fault
    | .ok (x, left) => do
      let others ← lexemes x.canBeCounted left
      .ok (x :: others)
termination_by t => t.length
decreasing_by
  have hle := readLexeme_length _h
  simp only [List.length_cons]
  omega

end SelectorPath.Pattern
