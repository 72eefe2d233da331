import SelectorPath.Selector.Lexeme
import SelectorPath.Token.Weight

/-!
# Items of a selector list

A selector list is read item by item: blanks, commas, combinators and simple
selectors. Reading an item looks only at the text ahead. A pseudo-class whose
argument is itself a selector list is an item that still holds the text of that
list.

A fault is located by the number of characters left behind it, so that a reader
need not know how much was read before it.

## Main results

* `readItem_weight`: an item weighs no more than the characters it was read
  from, and at least one character is taken.
-/

namespace SelectorPath.Selector

open SelectorPath.Text (isSelectorBlank skipBlank trimBy)

/-- A problem found with `left` characters still ahead. -/
structure Fault where
  left : Nat
  problem : Problem
deriving DecidableEq, Repr

/-- A step in reading a selector list. -/
inductive Item where
  /-- Blanks that mean nothing. -/
  | blank
  /-- The end of an alternative. -/
  | comma
  /-- A combinator, which is refused, if it is, with `left` characters ahead. -/
  | combinator (c : Combinator) (left : Nat)
  /-- A simple selector. -/
  | token (t : Token)
  /-- A pseudo-class with a selector list, behind which `left` characters
  follow. -/
  | nested (name : Text) (inner : Text) (left : Nat)
deriving Repr

/-- The weight of the token that an item becomes, if its selector list weighs
what it is long. -/
def Item.weight : Item → Nat
  | blank => 0
  | comma => 0
  | combinator _ _ => 1
  | token t => t.weight
  | nested _ inner _ => 1 + inner.length

/-! ## Attribute tests -/

/-- The test written by a character and `=`. -/
def testOfSymbol? (c : Char) : Option AttributeTest :=
  if c = '~' then some .hasWord
  else if c = '|' then some .hyphenated
  else if c = '^' then some .startsWith
  else if c = '$' then some .endsWith
  else if c = '*' then some .contains
  else if c = '!' then some .differs
  else none

/-- The name of an attribute. -/
def readAttributeName (ahead : Text) : Except Fault (Text × Text) :=
  let (name, left) := takeName (skipBlank ahead)
  if name.isEmpty then .error ⟨left.length, .missingAttribute⟩
  else .ok (name, left)

/-- The operator between an attribute and its value. -/
def readTest : Text → Except Fault (AttributeTest × Text)
  | [] => .error ⟨0, .unclosedAttribute⟩
  | '=' :: left => .ok (.equals, left)
  | c :: left =>
    match testOfSymbol? c with
    | none => .error ⟨left.length, .unexpectedInAttribute c⟩
    | some test =>
      match left with
      | '=' :: left => .ok (test, left)
      | _ => .error ⟨left.length - 1, .missingEquals c⟩

/-- Whether a value without quotes goes on with the character. -/
def isBareValueChar (c : Char) : Bool :=
  !isSelectorBlank c && c != ']'

/-- The value of the attribute `name`: a quoted string, or everything up to a
blank or bracket. -/
def readValue (name : Text) (ahead : Text) : Except Fault (Text × Text) :=
  match ahead with
  | [] => .error ⟨0, .missingValue name⟩
  | c :: left =>
    if c = '"' ∨ c = '\'' then
      match takeString c left with
      | (.ok value, left) => .ok (value, left)
      | (.error fault, _) => .error ⟨left.length + 1, .string fault⟩
    else
      let value := (c :: left).takeWhile isBareValueChar
      let left := (c :: left).dropWhile isBareValueChar
      if value.isEmpty then .error ⟨left.length, .missingValue name⟩
      else .ok (value, left)

/-- The flag in front of the closing bracket, where one is written, and what
follows it. -/
def takeFlag : Text → Option Char × Text
  | [] => (none, [])
  | c :: left =>
    if c.toLower = 'i' ∨ c.toLower = 's' then (some c.toLower, left)
    else (none, c :: left)

/-- The bracket that closes an attribute test. -/
def readClosing : Text → Except Fault Text
  | [] => .error ⟨0, .unclosedAttribute⟩
  | ']' :: left => .ok left
  | c :: left => .error ⟨left.length, .expectedBracket c⟩

/-- An attribute test behind its opening bracket. A flag has no effect on it. -/
def readAttribute (ahead : Text) : Except Fault (Token × Text) := do
  let (name, left) ← readAttributeName ahead
  match skipBlank left with
  | ']' :: left => .ok (.attr name .present none, left)
  | left =>
    let (test, left) ← readTest left
    let (value, left) ← readValue name (skipBlank left)
    let left ← readClosing (skipBlank (takeFlag (skipBlank left)).2)
    .ok (.attr name test (some value), left)

/-- The flag of the attribute test behind its opening bracket; the test itself
may still turn out to be wrong behind the flag. -/
def attributeFlag? (ahead : Text) : Option Char := do
  let (name, left) ← (readAttributeName ahead).toOption
  let (_, left) ← (readTest (skipBlank left)).toOption
  let (_, left) ← (readValue name (skipBlank left)).toOption
  (takeFlag (skipBlank left)).1

/-! ## Pseudo-classes and pseudo-elements -/

/-- Whether the argument of the pseudo-class is a selector list. -/
def takesSelectors (name : Text) : Bool :=
  [("not" : Text), "is", "where", "matches", "has"].contains name

/-- The number of blanks at the end of an argument that is not blank
altogether. -/
def trailingBlanks (raw : Text) : Nat :=
  (skipBlank raw).length - (trimBy isSelectorBlank raw).length

/-- A pseudo-class or pseudo-element behind its first colon. -/
def readPseudo (ahead : Text) : Except Fault (Item × Text) :=
  let isElement := ahead.head? == some ':'
  let ahead := if isElement then ahead.tail else ahead
  if !startsName ahead then .error ⟨ahead.length, .missingPseudo⟩
  else
    let name := (takeName ahead).1.asciiLower
    let token :=
      if isElement then Token.pseudoElement name else Token.pseudoClass name
    match (takeName ahead).2 with
    | '(' :: left =>
      match takeArgument left with
      | (.error fault, _) => .error ⟨left.length + 1, .argument fault⟩
      | (.ok raw, behind) =>
        let inner := trimBy isSelectorBlank raw
        if !isElement && takesSelectors name then
          .ok (.nested name inner (trailingBlanks raw + 1 + behind.length),
            behind)
        else .ok (.token (token (some (.text inner))), behind)
    | left => .ok (.token (token none), left)

/-! ## Items -/

/-- The combinator written by a character. -/
def combinatorOfSymbol? (c : Char) : Option Combinator :=
  if c = '>' then some .child
  else if c = '+' then some .adjacent
  else if c = '~' then some .sibling
  else none

/-- Whether blanks in front of this text separate two compounds. -/
def startsCompound : Text → Bool
  | [] => false
  | c :: _ => c != ',' && (combinatorOfSymbol? c).isNone

/-- The item that starts with `c`, and what follows it. -/
def readItem (c : Char) (rest : Text) : Except Fault (Item × Text) :=
  if isSelectorBlank c then
    let left := skipBlank rest
    if startsCompound left then .ok (.combinator .descendant left.length, left)
    else .ok (.blank, left)
  else if c = ',' then .ok (.comma, skipBlank rest)
  else if c = '*' then .ok (.token .universal, rest)
  else if c = '#' then
    let (id, left) := takeName rest
    if id.isEmpty then .error ⟨left.length, .missingId⟩
    else .ok (.token (.attr "id" .equals (some id)), left)
  else if c = '.' then
    if startsName rest then
      .ok (.token (.attr "class" .hasWord (some (takeName rest).1)),
        (takeName rest).2)
    else .error ⟨rest.length, .missingClass⟩
  else if c = '[' then do
    let (token, left) ← readAttribute rest
    .ok (.token token, left)
  else if c = ':' then readPseudo rest
  else match combinatorOfSymbol? c with
    | some combinator =>
      .ok (.combinator combinator (rest.length + 1), skipBlank rest)
    | none =>
      if startsName (c :: rest) then
        .ok (.token (.tag (takeName (c :: rest)).1), (takeName (c :: rest)).2)
      else .error ⟨rest.length + 1, .unexpected c⟩

/-! ## Progress -/

/-- An attribute test takes at least its sign. -/
theorem readTest_length {ahead left : Text} {test : AttributeTest}
    (h : readTest ahead = .ok (test, left)) : left.length < ahead.length := by
  unfold readTest at h
  split at h
  · simp at h
  · simp only [Except.ok.injEq, Prod.mk.injEq] at h
    simp [h.2]
  · split at h
    · simp at h
    · split at h
      · simp only [Except.ok.injEq, Prod.mk.injEq] at h
        simp only [h.2, List.length_cons]
        omega
      · simp at h

/-- A value takes no more than what lies ahead. -/
theorem readValue_length {name ahead value left : Text}
    (h : readValue name ahead = .ok (value, left)) :
    left.length ≤ ahead.length := by
  unfold readValue at h
  split at h
  · simp at h
  · rename_i c rest
    split at h
    · split at h
      · rename_i value' left' hs
        simp only [Except.ok.injEq, Prod.mk.injEq] at h
        have hl := length_takeString_le c rest
        rw [hs] at hl
        simp only [h.2] at hl
        simp only [List.length_cons]
        omega
      · simp at h
    · simp only at h
      split at h
      · simp at h
      · simp only [Except.ok.injEq, Prod.mk.injEq] at h
        rw [← h.2]
        exact Text.length_dropWhile_le _ _

private theorem readClosing_length {ahead left : Text}
    (h : readClosing ahead = .ok left) :
    left.length < ahead.length := by
  unfold readClosing at h
  split at h
  · simp at h
  · simp only [Except.ok.injEq] at h
    simp [h]
  · simp at h

/-- A flag takes no more than what lies ahead. -/
theorem length_takeFlag_le (ahead : Text) :
    (takeFlag ahead).2.length ≤ ahead.length := by
  cases ahead with
  | nil => simp [takeFlag]
  | cons c left =>
    rw [takeFlag]
    split <;> simp

/-- The name of an attribute takes no more than what lies ahead. -/
theorem readAttributeName_length {ahead name left : Text}
    (h : readAttributeName ahead = .ok (name, left)) :
    left.length ≤ ahead.length := by
  unfold readAttributeName at h
  simp only at h
  split at h
  · simp at h
  · simp only [Except.ok.injEq, Prod.mk.injEq] at h
    rw [← h.2]
    exact Nat.le_trans (length_takeName_le _) (Text.length_skipBlank_le _)

private theorem readAttribute_weight {ahead left : Text} {token : Token}
    (h : readAttribute ahead = .ok (token, left)) :
    token.weight = 1 ∧ left.length < ahead.length := by
  unfold readAttribute at h
  cases hname : readAttributeName ahead with
  | error fault => simp [hname, bind, Except.bind] at h
  | ok r =>
    obtain ⟨name, left1⟩ := r
    have h1 := readAttributeName_length hname
    have h2 := Text.length_skipBlank_le left1
    simp only [hname, bind, Except.bind] at h
    split at h
    · rename_i left' heq
      simp only [Except.ok.injEq, Prod.mk.injEq] at h
      obtain ⟨rfl, rfl⟩ := h
      rw [heq] at h2
      simp only [List.length_cons] at h2
      exact ⟨rfl, by omega⟩
    · cases htest : readTest (skipBlank left1) with
      | error fault => simp [htest] at h
      | ok r =>
        obtain ⟨test, left2⟩ := r
        have h3 := readTest_length htest
        have h4 := Text.length_skipBlank_le left2
        simp only [htest] at h
        cases hvalue : readValue name (skipBlank left2) with
        | error fault => simp [hvalue] at h
        | ok r =>
          obtain ⟨value, left3⟩ := r
          have h5 := readValue_length hvalue
          have h6 := Text.length_skipBlank_le left3
          have h7 := length_takeFlag_le (skipBlank left3)
          have h8 := Text.length_skipBlank_le (takeFlag (skipBlank left3)).2
          simp only [hvalue] at h
          cases hclose : readClosing
              (skipBlank (takeFlag (skipBlank left3)).2) with
          | error fault => simp [hclose] at h
          | ok left4 =>
            have h9 := readClosing_length hclose
            simp only [hclose, Except.ok.injEq, Prod.mk.injEq] at h
            obtain ⟨rfl, rfl⟩ := h
            exact ⟨rfl, by omega⟩

private theorem readPseudo_weight {ahead left : Text} {item : Item}
    (h : readPseudo ahead = .ok (item, left)) :
    item.weight + left.length ≤ ahead.length := by
  unfold readPseudo at h
  simp only at h
  generalize (ahead.head? == some ':') = isElement at h
  have hle : (if isElement = true then ahead.tail else ahead).length ≤
      ahead.length := by
    split <;> simp
  generalize (if isElement = true then ahead.tail else ahead) = start at h hle
  by_cases hstart : startsName start = true
  · have hname := length_takeName_lt hstart
    simp only [hstart, Bool.not_true, Bool.false_eq_true, if_false] at h
    split at h
    · rename_i left' hleft
      rw [hleft] at hname
      simp only [List.length_cons] at hname
      split at h
      · simp at h
      · rename_i raw behind harg
        have hraw := length_takeArgument harg
        have htrim := Text.length_trimBy_le isSelectorBlank raw
        split at h
        · simp only [Except.ok.injEq, Prod.mk.injEq] at h
          obtain ⟨rfl, rfl⟩ := h
          simp only [Item.weight]
          omega
        · simp only [Except.ok.injEq, Prod.mk.injEq] at h
          obtain ⟨rfl, rfl⟩ := h
          cases isElement <;>
            simp only [Item.weight, Token.weight, Token.pseudoClass,
              Token.pseudoElement, weightArgument?, weightArgument, if_true,
              Bool.false_eq_true, if_false] <;>
            omega
    · simp only [Except.ok.injEq, Prod.mk.injEq] at h
      obtain ⟨rfl, rfl⟩ := h
      cases isElement <;>
        simp only [Item.weight, Token.weight, Token.pseudoClass,
          Token.pseudoElement, weightArgument?, if_true, Bool.false_eq_true,
          if_false] <;>
        omega
  · simp [hstart] at h

/-- An item weighs no more than the characters it was read from, and reading it
takes a character. -/
theorem readItem_weight {c : Char} {rest left : Text} {item : Item}
    (h : readItem c rest = .ok (item, left)) :
    item.weight + left.length ≤ rest.length + 1 ∧
      left.length ≤ rest.length := by
  have hskip := Text.length_skipBlank_le rest
  have hname := length_takeName_le rest
  unfold readItem at h
  split at h
  · simp only at h
    split at h <;>
    · simp only [Except.ok.injEq, Prod.mk.injEq] at h
      obtain ⟨rfl, rfl⟩ := h
      simp only [Item.weight]
      omega
  split at h
  · simp only [Except.ok.injEq, Prod.mk.injEq] at h
    obtain ⟨rfl, rfl⟩ := h
    simp only [Item.weight]
    omega
  split at h
  · simp only [Except.ok.injEq, Prod.mk.injEq] at h
    obtain ⟨rfl, rfl⟩ := h
    simp [Item.weight, Token.universal, Token.weight, weightArgument?,
      Nat.add_comm]
  split at h
  · simp only at h
    split at h
    · simp at h
    · simp only [Except.ok.injEq, Prod.mk.injEq] at h
      obtain ⟨rfl, rfl⟩ := h
      simp only [Item.weight, Token.attr, Token.weight, weightArgument?]
      omega
  split at h
  · split at h
    · simp only [Except.ok.injEq, Prod.mk.injEq] at h
      obtain ⟨rfl, rfl⟩ := h
      simp only [Item.weight, Token.attr, Token.weight, weightArgument?]
      omega
    · simp at h
  split at h
  · cases hattr : readAttribute rest with
    | error fault => simp [hattr, bind, Except.bind] at h
    | ok r =>
      obtain ⟨token, left'⟩ := r
      have hw := readAttribute_weight hattr
      simp only [hattr, bind, Except.bind, Except.ok.injEq, Prod.mk.injEq] at h
      obtain ⟨rfl, rfl⟩ := h
      simp only [Item.weight]
      omega
  split at h
  · have hw := readPseudo_weight h
    omega
  split at h
  · simp only [Except.ok.injEq, Prod.mk.injEq] at h
    obtain ⟨rfl, rfl⟩ := h
    simp only [Item.weight]
    omega
  · split at h
    · rename_i hstart
      have hlt := length_takeName_lt hstart
      simp only [List.length_cons] at hlt
      simp only [Except.ok.injEq, Prod.mk.injEq] at h
      obtain ⟨rfl, rfl⟩ := h
      simp only [Item.weight, Token.tag, Token.weight, weightArgument?]
      omega
    · simp at h

end SelectorPath.Selector
