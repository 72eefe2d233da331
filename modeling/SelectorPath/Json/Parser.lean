import SelectorPath.Entries
import SelectorPath.Json.Basic
import SelectorPath.Text.Hex

/-!
# Reading JSON

A text is cut into lexemes, and the lexemes are put together with a stack of
open arrays and objects. A field that is repeated keeps its first place and
takes its last value. Containers may be nested up to a depth of 127, and a
number has to lie in the range of double precision, as far as its first digits
tell: those that make a number below two to the 64.

## Main results

* `readLexeme_length`: reading a lexeme takes at least its first character.
-/

namespace SelectorPath.Json

/-! ## Lexemes -/

/-- A piece of a JSON text. -/
inductive Lexeme where
  | opening (isObject : Bool)
  | closing (isObject : Bool)
  | comma
  | colon
  | scalar (value : Json)
deriving Repr

/-- Whether a character may stand between lexemes. -/
def isSpace (c : Char) : Bool :=
  c == ' ' || c == '\n' || c == '\r' || c == '\t'

/-- The number written by four hexadecimal digits. -/
def unit? (a b c d : Char) : Option Nat :=
  let digits : Text := [a, b, c, d]
  if digits.all Text.isHexDigit then some (Text.hexNumber digits) else none

/-- The character of a short escape. -/
def shortEscape? (c : Char) : Option Char :=
  if c = '"' ∨ c = '\\' ∨ c = '/' then some c
  else if c = 'n' then some '\n'
  else if c = 'r' then some '\r'
  else if c = 't' then some '\t'
  else if c = 'b' then some '\x08'
  else if c = 'f' then some '\x0c'
  else none

/-- Put a character in front of what was read. -/
def consChar (c : Char) (r : Option (Text × Text)) : Option (Text × Text) :=
  r.map fun (t, left) => (c :: t, left)

/-- A string behind its opening quote, and what follows it. An escape beyond the
sixteen-bit range is written as a pair of units. -/
def readString : Text → Option (Text × Text)
  | [] => none
  | '"' :: rest => some ([], rest)
  | '\\' :: 'u' :: a :: b :: c :: d :: rest =>
    match unit? a b c d with
    | none => none
    | some high =>
      if 0xD800 ≤ high ∧ high ≤ 0xDBFF then
        match rest with
        | '\\' :: 'u' :: e :: f :: g :: h :: rest =>
          match unit? e f g h with
          | none => none
          | some low =>
            if 0xDC00 ≤ low ∧ low ≤ 0xDFFF then
              let n := 0x10000 + (high - 0xD800) * 0x400 + (low - 0xDC00)
              consChar (Char.ofNat n) (readString rest)
            else none
        | _ => none
      else if 0xDC00 ≤ high ∧ high ≤ 0xDFFF then none
      else consChar (Char.ofNat high) (readString rest)
  | '\\' :: c :: rest =>
    match shortEscape? c with
    | some x => consChar x (readString rest)
    | none => none
  | c :: rest => if c.toNat < 0x20 then none else consChar c (readString rest)

/-! ## Numbers -/

/-- Natural numbers are known by their value below this bound, two to the 64. -/
def naturalBound : Nat :=
  0x10000000000000000

/-- Digits read behind the digits of `n` as long as the number stays below the
bound, and how many digits are left out. -/
def significand (n : Nat) : Text → Nat × Nat
  | [] => (n, 0)
  | c :: rest =>
    let next := 10 * n + (c.toNat - '0'.toNat)
    if next < naturalBound then significand next rest else (n, rest.length + 1)

/-- The number rounded to 53 binary digits, to an even last digit from the
middle. -/
def roundDouble (n : Nat) : Nat :=
  let unit := Nat.pow 2 (n.log2 - 52)
  let rest := n % unit
  let isUp := unit < 2 * rest || (unit == 2 * rest && n / unit % 2 == 1)
  if isUp then n - rest + unit else n - rest

/-- Whether a number scaled by a power of ten has a finite double. The number
and the power are rounded first, and then their product. -/
def isFinite (n : Nat) (scale : Int) : Bool :=
  n == 0 || scale < 0 ||
    (scale ≤ 308 &&
      (roundDouble (roundDouble n *
        roundDouble (Nat.pow 10 scale.toNat))).log2 < 1024)

/-- The digits ahead, at least one, and what follows them. -/
def readDigits? (ahead : Text) : Option (Text × Text) :=
  let digits := ahead.takeWhile Char.isDigit
  if digits.isEmpty then none else some (digits, ahead.dropWhile Char.isDigit)

/-- The digits behind a point, none where there is no point. -/
def readFraction? : Text → Option (Text × Text)
  | '.' :: rest => readDigits? rest
  | rest => some ([], rest)

/-- The exponent, zero where there is none, whether there is one, and what
follows it. -/
def readExponent? (ahead : Text) : Option (Int × Bool × Text) :=
  match ahead with
  | [] => some (0, false, ahead)
  | c :: rest =>
    if c = 'e' ∨ c = 'E' then
      let isNegative := rest.head? == some '-'
      let isSigned := isNegative || rest.head? == some '+'
      (readDigits? (if isSigned then rest.tail else rest)).map
        fun (digits, left) =>
          let n := Int.ofNat (Text.toNat digits)
          (if isNegative then -n else n, true, left)
    else some (0, false, ahead)

/-- A number and what follows it. -/
def readNumber? (isNegative : Bool) (ahead : Text) :
    Option (Number × Text) := do
  let (whole, rest) ← readDigits? ahead
  if 1 < whole.length ∧ whole.head? = some '0' then none
  else
    let (fraction, rest) ← readFraction? rest
    let (exponent, isScaled, left) ← readExponent? rest
    let (start, skipped) := significand 0 whole
    let (n, unread) := significand start fraction
    if !isNegative && fraction.isEmpty && !isScaled && skipped == 0 then
      some (.natural n, left)
    else if
        isFinite n (exponent + skipped - (fraction.length - unread : Nat)) then
      let numeral := ahead.take (ahead.length - left.length)
      some (.other (if isNegative then '-' :: numeral else numeral), left)
    else none

/-! ## Cutting -/

/-- The value written by a word behind its first character. -/
def readWord? (c : Char) (rest : Text) : Option (Json × Text) :=
  if c = 't' then (Text.after? "rue" rest).map (bool true, ·)
  else if c = 'f' then (Text.after? "alse" rest).map (bool false, ·)
  else if c = 'n' then (Text.after? "ull" rest).map (null, ·)
  else none

/-- The lexeme that starts with `c`, and what follows it. -/
def readLexeme (c : Char) (rest : Text) : Option (Lexeme × Text) :=
  if c = '{' then some (.opening true, rest)
  else if c = '}' then some (.closing true, rest)
  else if c = '[' then some (.opening false, rest)
  else if c = ']' then some (.closing false, rest)
  else if c = ',' then some (.comma, rest)
  else if c = ':' then some (.colon, rest)
  else if c = '"' then (readString rest).map fun (t, left) =>
    (.scalar (.string t), left)
  else if c = '-' then (readNumber? true rest).map fun (n, left) =>
    (.scalar (.number n), left)
  else if c.isDigit then
    (readNumber? false (c :: rest)).map fun (n, left) =>
      (.scalar (.number n), left)
  else (readWord? c rest).map fun (j, left) => (.scalar j, left)

/-! ## Progress -/

private theorem consChar_eq_some {c : Char} {r : Option (Text × Text)}
    {t left : Text} (h : consChar c r = some (t, left)) :
    ∃ t', r = some (t', left) := by
  cases r with
  | none => simp [consChar] at h
  | some r =>
    obtain ⟨t', left'⟩ := r
    simp only [consChar, Option.map_some, Option.some.injEq, Prod.mk.injEq] at h
    exact ⟨t', by rw [h.2]⟩

private theorem readString_length {ahead t left : Text}
    (h : readString ahead = some (t, left)) :
    left.length ≤ ahead.length := by
  fun_induction readString ahead generalizing t with
  | case2 =>
    simp only [Option.some.injEq, Prod.mk.injEq] at h
    simp [h.2]
  | case1 | case3 | case4 | case6 | case7 | case8 | case11 | case12 => simp at h
  | case5 | case9 | case10 | case13 =>
    rename_i ih
    obtain ⟨t', hr⟩ := consChar_eq_some h
    have hi := ih hr
    simp only [List.length_cons]
    omega

private theorem readDigits?_length {ahead digits left : Text}
    (h : readDigits? ahead = some (digits, left)) :
    left.length < ahead.length := by
  unfold readDigits? at h
  simp only at h
  split at h
  · simp at h
  · rename_i hne
    simp only [Option.some.injEq, Prod.mk.injEq] at h
    have hlen := congrArg List.length
      (List.takeWhile_append_dropWhile (p := Char.isDigit) (l := ahead))
    have hpos : 0 < (ahead.takeWhile Char.isDigit).length := by
      cases htake : ahead.takeWhile Char.isDigit with
      | nil => simp [htake] at hne
      | cons c rest => simp
    rw [List.length_append] at hlen
    rw [← h.2]
    omega

private theorem readFraction?_length {ahead digits left : Text}
    (h : readFraction? ahead = some (digits, left)) :
    left.length ≤ ahead.length := by
  unfold readFraction? at h
  split at h
  · have hlt := readDigits?_length h
    simp only [List.length_cons]
    omega
  · simp only [Option.some.injEq, Prod.mk.injEq] at h
    simp [h.2]

private theorem readExponent?_length {ahead left : Text} {exponent : Int}
    {isScaled : Bool}
    (h : readExponent? ahead = some (exponent, isScaled, left)) :
    left.length ≤ ahead.length := by
  unfold readExponent? at h
  split at h
  · simp only [Option.some.injEq, Prod.mk.injEq] at h
    simp [h.2.2]
  · rename_i c rest
    split at h
    · simp only at h
      generalize (rest.head? == some '-' || rest.head? == some '+') =
        isSigned at h
      have hstart : (if isSigned = true then rest.tail else rest).length ≤
          rest.length := by
        split <;> simp
      simp only [Option.map_eq_some_iff, Prod.mk.injEq] at h
      obtain ⟨⟨digits, left'⟩, hdigits, _, _, rfl⟩ := h
      have hle := readDigits?_length hdigits
      simp only [List.length_cons]
      omega
    · simp only [Option.some.injEq, Prod.mk.injEq] at h
      simp [← h.2.2]

private theorem readNumber?_length {isNegative : Bool} {ahead left : Text}
    {n : Number} (h : readNumber? isNegative ahead = some (n, left)) :
    left.length < ahead.length := by
  unfold readNumber? at h
  simp only [Option.bind_eq_bind, Option.bind_eq_some_iff] at h
  obtain ⟨⟨whole, rest⟩, hwhole, h⟩ := h
  have h1 := readDigits?_length hwhole
  split at h
  · simp at h
  · simp only [Option.bind_eq_some_iff] at h
    obtain ⟨⟨fraction, rest'⟩, hfraction, ⟨exponent, isScaled, left'⟩,
        hexponent, h⟩ := h
    have h2 := readFraction?_length hfraction
    have h3 := readExponent?_length hexponent
    simp only at h h3
    split at h
    · simp only [Option.some.injEq, Prod.mk.injEq] at h
      rw [← h.2]
      omega
    · split at h
      · simp only [Option.some.injEq, Prod.mk.injEq] at h
        rw [← h.2]
        omega
      · cases h

private theorem readWord?_length {c : Char} {rest left : Text} {j : Json}
    (h : readWord? c rest = some (j, left)) : left.length ≤ rest.length := by
  have hafter : ∀ {start : Text} {value : Json},
      (Text.after? start rest).map (value, ·) = some (j, left) →
        left.length ≤ rest.length := by
    intro start value hs
    simp only [Option.map_eq_some_iff, Prod.mk.injEq] at hs
    obtain ⟨left', hs, _, rfl⟩ := hs
    have hle := Text.length_after? hs
    omega
  unfold readWord? at h
  split at h
  · exact hafter h
  split at h
  · exact hafter h
  split at h
  · exact hafter h
  · simp at h

/-- Reading a lexeme takes at least its first character. -/
theorem readLexeme_length {c : Char} {rest left : Text} {x : Lexeme}
    (h : readLexeme c rest = some (x, left)) : left.length ≤ rest.length := by
  unfold readLexeme at h
  split at h
  · simp only [Option.some.injEq, Prod.mk.injEq] at h
    simp [h.2]
  split at h
  · simp only [Option.some.injEq, Prod.mk.injEq] at h
    simp [h.2]
  split at h
  · simp only [Option.some.injEq, Prod.mk.injEq] at h
    simp [h.2]
  split at h
  · simp only [Option.some.injEq, Prod.mk.injEq] at h
    simp [h.2]
  split at h
  · simp only [Option.some.injEq, Prod.mk.injEq] at h
    simp [h.2]
  split at h
  · simp only [Option.some.injEq, Prod.mk.injEq] at h
    simp [h.2]
  split at h
  · simp only [Option.map_eq_some_iff, Prod.mk.injEq] at h
    obtain ⟨⟨t, left'⟩, hs, _, rfl⟩ := h
    exact readString_length hs
  split at h
  · simp only [Option.map_eq_some_iff, Prod.mk.injEq] at h
    obtain ⟨⟨n, left'⟩, hn, _, rfl⟩ := h
    exact Nat.le_of_lt (readNumber?_length hn)
  split at h
  · simp only [Option.map_eq_some_iff, Prod.mk.injEq] at h
    obtain ⟨⟨n, left'⟩, hn, _, rfl⟩ := h
    exact Nat.le_of_lt_succ (readNumber?_length hn)
  · simp only [Option.map_eq_some_iff, Prod.mk.injEq] at h
    obtain ⟨⟨j, left'⟩, hj, _, rfl⟩ := h
    exact readWord?_length hj

/-- The lexemes of a text. -/
def lexemes : Text → Option (List Lexeme)
  | [] => some []
  | c :: rest =>
    if isSpace c then lexemes rest
    else match _h : readLexeme c rest with
      | none => none
      | some (x, left) => (lexemes left).map (x :: ·)
termination_by t => t.length
decreasing_by
  · simp
  · have hle := readLexeme_length _h
    simp only [List.length_cons]
    omega

/-! ## Putting values together -/

/-- An array or object that is open. -/
inductive Frame where
  /-- The items read, latest first. -/
  | array (items : List Json)
  /-- The fields read, and the name of the one whose value comes next. -/
  | object (fields : List (Text × Json)) (name : Text)

/-- What may come next. -/
inductive Expectation where
  | value
  | itemOrClosing
  | field
  | fieldOrClosing
  | colon
  | commaOrClosing
  | nothing (value : Json)

/-- The state of reading. -/
structure Reading where
  /-- The open containers, innermost first. -/
  frames : List Frame
  next : Expectation

/-- The deepest nesting of containers. -/
def maxDepth : Nat :=
  127

namespace Reading

/-- A value is complete. -/
def complete (value : Json) : List Frame → Reading
  | [] => ⟨[], .nothing value⟩
  | .array items :: outer => ⟨.array (value :: items) :: outer, .commaOrClosing⟩
  | .object fields name :: outer =>
    ⟨.object (Entries.put name value fields) name :: outer, .commaOrClosing⟩

/-- A container begins. -/
def enter (isObject : Bool) (frames : List Frame) : Option Reading :=
  if maxDepth ≤ frames.length then none
  else if isObject then some ⟨.object [] [] :: frames, .fieldOrClosing⟩
  else some ⟨.array [] :: frames, .itemOrClosing⟩

/-- A container ends. -/
def leave (isObject : Bool) : List Frame → Option Reading
  | .array items :: outer =>
    if isObject then none else some (complete (.array items.reverse) outer)
  | .object fields _ :: outer =>
    if isObject then some (complete (.object fields) outer) else none
  | [] => none

/-- The name of the next field is known. -/
def name (field : Text) : List Frame → Option Reading
  | .object fields _ :: outer => some ⟨.object fields field :: outer, .colon⟩
  | _ => none

/-- Read one lexeme. -/
def step (r : Reading) (x : Lexeme) : Option Reading :=
  match r.next, x with
  | .value, .scalar value | .itemOrClosing, .scalar value =>
    some (complete value r.frames)
  | .value, .opening isObject | .itemOrClosing, .opening isObject =>
    enter isObject r.frames
  | .itemOrClosing, .closing isObject | .fieldOrClosing, .closing isObject
  | .commaOrClosing, .closing isObject => leave isObject r.frames
  | .field, .scalar (.string t) | .fieldOrClosing, .scalar (.string t) =>
    name t r.frames
  | .colon, .colon => some ⟨r.frames, .value⟩
  | .commaOrClosing, .comma =>
    match r.frames with
    | .array _ :: _ => some ⟨r.frames, .value⟩
    | .object _ _ :: _ => some ⟨r.frames, .field⟩
    | [] => none
  | _, _ => none

end Reading

/-- The value that a text writes. -/
def ofText? (t : Text) : Option Json := do
  let xs ← lexemes t
  let reading ← xs.foldlM Reading.step ⟨[], .value⟩
  match reading.next with
  | .nothing value => some value
  | _ => none

end SelectorPath.Json
