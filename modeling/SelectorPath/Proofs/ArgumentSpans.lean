import Mathlib
import SelectorPath.Proofs.Spans

/-!
# Where arguments stand

An argument stands in the text between the parentheses of its pseudo-class or
pseudo-element, so at least a colon, one character of a name and an opening
parenthesis are in front of it and a closing one is behind it. That holds for
the text of a nested selector list as well, and what is read from such a text
stands in it in the same way. So an argument at any depth is shorter than the
text by four characters or more.

## Main results

* `readItem_suffix`: reading an item leaves less than there was.
* `argumentFrom_of_parse`: where the argument of a token was read.
* `argumentFrom_of_inside`: the same for tokens at any depth.
-/

namespace SelectorPath

open SelectorPath.Text (isSelectorBlank skipBlank trimBy)
open SelectorPath.Selector

/-! ## Enclosed texts -/

/-- Whether a text holds another one behind three characters or more and in
front of at least one. -/
def Text.Encloses (t inner : Text) : Prop :=
  ∃ before behind : Text, t = before ++ inner ++ behind ∧ 3 ≤ before.length ∧
    1 ≤ behind.length

/-- What is enclosed is shorter by four characters at least. -/
theorem Text.Encloses.length_le {t inner : Text} (h : t.Encloses inner) :
    inner.length + 4 ≤ t.length := by
  obtain ⟨before, behind, rfl, hbefore, hbehind⟩ := h
  rw [List.length_append, List.length_append]
  omega

private theorem Text.Encloses.append_left {t inner : Text}
    (h : t.Encloses inner) (front : Text) :
    Text.Encloses (front ++ t) inner := by
  obtain ⟨before, behind, rfl, hbefore, hbehind⟩ := h
  refine ⟨front ++ before, behind, by simp, ?_, hbehind⟩
  rw [List.length_append]
  omega

/-- What is enclosed in something enclosed is enclosed. -/
theorem Text.Encloses.trans {t inner innermost : Text} (h : t.Encloses inner)
    (h' : inner.Encloses innermost) : t.Encloses innermost := by
  obtain ⟨before, behind, rfl, hbefore, hbehind⟩ := h
  obtain ⟨before', behind', rfl, hbefore', hbehind'⟩ := h'
  refine ⟨before ++ before', behind' ++ behind, by simp, ?_, ?_⟩
  · rw [List.length_append]
    omega
  · rw [List.length_append]
    omega

/-- The argument of a pseudo-class or pseudo-element, trimmed, in the text that
starts with its colon. -/
theorem encloses_argument (isElement : Bool) {ahead inside raw left : Text}
    (hname : startsName ahead = true)
    (hopen : (takeName ahead).2 = '(' :: inside)
    (hraw : takeArgument inside = (.ok raw, left)) :
    Text.Encloses (':' :: marked isElement ahead)
      (trimBy isSelectorBlank raw) := by
  obtain ⟨name, hahead, -⟩ := takeName_takes ahead
  obtain ⟨hinside, -⟩ := takeArgument_eq_ok_iff.mp hraw
  obtain ⟨w, w', -, -, htrim⟩ := Text.exists_trimBy isSelectorBlank raw
  have hlength : 1 ≤ name.length := by
    have hlt := length_takeName_lt hname
    have heq := congrArg List.length hahead
    rw [List.length_append] at heq
    omega
  have hmarked : ':' :: marked isElement ahead =
      (':' :: marked isElement (name ++ '(' :: w)) ++
        trimBy isSelectorBlank raw ++ (w' ++ ')' :: left) := by
    have htext : ahead =
        (name ++ '(' :: w) ++
        (trimBy isSelectorBlank raw ++ (w' ++ ')' :: left)) := by
      rw [hopen, hinside] at hahead
      rw [hahead]
      conv_lhs => rw [htrim]
      simp
    rw [htext]
    cases isElement with
    | true => simp [marked]
    | false => simp [marked]
  refine ⟨_, _, hmarked, ?_, ?_⟩
  · cases isElement with
    | true => simp [marked]; omega
    | false => simp [marked]; omega
  · rw [List.length_append, List.length_cons]
    omega

/-! ## Items -/

private theorem takeName_suffix (t : Text) : (takeName t).2 <:+ t := by
  obtain ⟨taken, ht, -⟩ := takeName_takes t
  exact ⟨taken, ht.symm⟩

private theorem skipBlank_suffix (t : Text) : skipBlank t <:+ t :=
  List.dropWhile_suffix _

private theorem takeArgument_suffix {ahead inside raw left : Text}
    (hopen : (takeName ahead).2 = '(' :: inside)
    (hraw : takeArgument inside = (.ok raw, left)) : left <:+ ahead := by
  have hname := takeName_suffix ahead
  rw [hopen, (takeArgument_eq_ok_iff.mp hraw).1] at hname
  have hleft : left <:+ raw ++ ')' :: left :=
    (List.suffix_cons ')' left).trans (List.suffix_append _ _)
  exact (hleft.trans (List.suffix_cons '(' _)).trans hname

private theorem marked_suffix (isElement : Bool) (ahead : Text) :
    ahead <:+ marked isElement ahead := by
  cases isElement with
  | true => exact List.suffix_cons _ _
  | false => exact List.suffix_rfl

private theorem readsPseudo_suffix {rest left : Text} {item : Item}
    (h : ReadsPseudo rest item left) :
    left <:+ rest := by
  cases h with
  | bare hname hbare => exact (takeName_suffix _).trans (marked_suffix _ _)
  | text hname hopen hraw hkind =>
    exact (takeArgument_suffix hopen hraw).trans (marked_suffix _ _)
  | nested hname hopen hraw hkind => exact takeArgument_suffix hopen hraw

/-- The character at which an item is read is taken, and what is left is an end
of the rest. -/
theorem readItem_suffix {c : Char} {rest left : Text} {item : Item}
    (h : readItem c rest = .ok (item, left)) : left <:+ rest := by
  cases readItem_eq_ok_iff.mp h with
  | blank hc hend => exact skipBlank_suffix rest
  | descendant hc hgap => exact skipBlank_suffix rest
  | comma => exact skipBlank_suffix rest
  | combinator hk => exact skipBlank_suffix rest
  | universal => exact List.suffix_rfl
  | id hname => exact takeName_suffix rest
  | ofClass hname => exact takeName_suffix rest
  | attr hattr =>
    obtain ⟨body, hrest, -⟩ := readAttribute_closed hattr
    rw [hrest]
    exact (List.suffix_cons ']' left).trans (List.suffix_append _ _)
  | pseudo hpseudo => exact readsPseudo_suffix hpseudo
  | tag hname =>
    -- The name takes `c` at least.
    rcases List.suffix_cons_iff.mp (takeName_suffix (c :: rest)) with hall
      | hrest
    · have hlt := length_takeName_lt hname
      rw [hall] at hlt
      exact absurd hlt (lt_irrefl _)
    · exact hrest

/-! ## Where an argument was read -/

/-- Where the argument of a token stands in a text, if it has one. -/
inductive ArgumentFrom (s : Text) (t : Token) : Prop
  | none (hargument : t.argument = none)
  | text {a : Text} (hargument : t.argument =
    some (.text a)) (hspan : s.Encloses a)
  | selectors {u : Text} {inner : List Stream} (hargument : t.argument =
    some (.selectors inner))
    (hspan : s.Encloses u) (hread : parse u = .ok inner)

private theorem ArgumentFrom.of_encloses {s inner : Text} {t : Token}
    (h : ArgumentFrom inner t)
    (hinner : ∀ {a : Text}, inner.Encloses a → s.Encloses a) :
    ArgumentFrom s t := by
  cases h with
  | none hargument => exact .none hargument
  | text hargument hspan => exact .text hargument (hinner hspan)
  | selectors hargument hspan hread =>
    exact .selectors hargument (hinner hspan) hread

private theorem ArgumentFrom.of_suffix {s left : Text} {t : Token}
    (h : ArgumentFrom left t) (hleft : left <:+ s) :
    ArgumentFrom s t := by
  obtain ⟨front, rfl⟩ := hleft
  exact h.of_encloses fun hspan => hspan.append_left front

private theorem argumentFrom_of_readItem {c : Char} {rest left : Text}
    {t : Token} (h : readItem c rest = .ok (.token t, left)) :
    ArgumentFrom (c :: rest) t := by
  cases readItem_eq_ok_iff.mp h with
  | universal => exact .none rfl
  | id hname => exact .none rfl
  | ofClass hname => exact .none rfl
  | attr hattr =>
    cases readAttribute_eq_ok_iff.mp hattr with
    | present hname hclose => exact .none rfl
    | compares hname htest hvalue hclose => exact .none rfl
  | pseudo hpseudo =>
    cases hpseudo with
    | bare hname hbare =>
      rename_i isElement ahead
      cases isElement with
      | true => exact .none rfl
      | false => exact .none rfl
    | text hname hopen hraw hkind =>
      rename_i isElement ahead inside raw
      have hspan := encloses_argument isElement hname hopen hraw
      cases isElement with
      | true => exact .text rfl hspan
      | false => exact .text rfl hspan
  | tag hname => exact .none rfl

/-- The inside of a nested item is enclosed in the text that it was read from.
-/
theorem encloses_of_readItem {c : Char} {rest left name inner : Text}
    {behind : Nat}
    (h : readItem c rest = .ok (.nested name inner behind, left)) :
    Text.Encloses (c :: rest) inner := by
  cases readItem_eq_ok_iff.mp h with
  | pseudo hpseudo =>
    cases hpseudo with
    | nested hname hopen hraw hkind =>
      exact encloses_argument false hname hopen hraw

/-- A token in front of the first alternative. -/
theorem argumentFrom_cons {s : Text} {t : Token} {stream : Stream}
    {streams : List Stream} (ht : ArgumentFrom s t)
    (h : ∀ alternative ∈ stream :: streams, ∀ t ∈
      alternative, ArgumentFrom s t) :
    ∀ alternative ∈ (t :: stream) :: streams, ∀ t ∈ alternative,
      ArgumentFrom s t := by
  rw [List.forall_mem_cons] at h ⊢
  exact ⟨List.forall_mem_cons.mpr ⟨ht, h.1⟩, h.2⟩

private theorem argumentFrom_of_parseFrom {ending : Ending} {ahead : Text}
    {stream : Stream} {streams : List Stream}
    (h : parseFrom ending ahead = .ok (stream, streams)) :
    ∀ alternative ∈ stream :: streams, ∀ t ∈ alternative,
      ArgumentFrom ahead t := by
  -- What is read behind an item stands in the whole text as well.
  have hwiden :
      ∀ {c : Char} {rest left : Text} {item : Item} {streams : List Stream},
      readItem c rest = .ok (item, left) →
        (∀ stream ∈ streams, ∀ t ∈ stream, ArgumentFrom left t) →
        ∀ stream ∈ streams, ∀ t ∈ stream, ArgumentFrom (c :: rest) t :=
    fun hitem h stream hs t ht =>
      (h stream hs t ht).of_suffix
        ((readItem_suffix hitem).trans (List.suffix_cons _ _))
  fun_induction parseFrom ending ahead generalizing stream streams with
  | case1 => cases h
  | case2 ending hend =>
    cases h
    exact List.forall_mem_singleton.mpr (List.forall_mem_nil _)
  | case3 => cases h
  | case4 ending c rest left hitem ih => exact hwiden hitem (ih h)
  | case5 => cases h
  | case6 ending c rest left hitem hend ih =>
    obtain ⟨⟨stream', streams'⟩, hrec, h⟩ := bind_eq_ok_iff.mp h
    cases h
    exact List.forall_mem_cons.mpr ⟨List.forall_mem_nil _,
      hwiden hitem (ih hrec)⟩
  | case7 => cases h
  | case8 ending c rest k place left hitem hproblem ih =>
    obtain ⟨⟨stream', streams'⟩, hrec, h⟩ := bind_eq_ok_iff.mp h
    cases h
    exact argumentFrom_cons (.none rfl) (hwiden hitem (ih hrec))
  | case9 ending c rest token left hitem ih =>
    obtain ⟨⟨stream', streams'⟩, hrec, h⟩ := bind_eq_ok_iff.mp h
    cases h
    exact argumentFrom_cons (argumentFrom_of_readItem hitem)
      (hwiden hitem (ih hrec))
  | case10 => cases h
  | case11 ending c rest name inner behind left hitem first others hinner
    ihInner ih =>
    obtain ⟨⟨stream', streams'⟩, hrec, h⟩ := bind_eq_ok_iff.mp h
    cases h
    have hread : parse inner = .ok (first :: others) :=
      parse_eq_ok_iff.mpr ⟨_, hinner, rfl⟩
    exact argumentFrom_cons (.selectors rfl (encloses_of_readItem hitem) hread)
      (hwiden hitem (ih hrec))

/-- Every token of a selector has its argument from the text of the selector. -/
theorem argumentFrom_of_parse {s : Text} {streams : List Stream}
    (h : parse s = .ok streams) :
    ∀ stream ∈ streams, ∀ t ∈ stream, ArgumentFrom s t := by
  obtain ⟨⟨first, others⟩, hfrom, rfl⟩ := parse_eq_ok_iff.mp h
  exact fun stream hs t ht =>
    (argumentFrom_of_parseFrom hfrom stream hs t ht).of_suffix
    (skipBlank_suffix s)

/-! ## Tokens at any depth -/

/-- Whether a token stands in one of the streams or, at any depth, in an
argument of their tokens. -/
inductive Token.Inside (t : Token) : List Stream → Prop
  | here {stream : Stream} {streams : List Stream} (hstream : stream ∈ streams)
    (ht : t ∈ stream) : Inside t streams
  | deeper {outer : Token} {stream : Stream} {streams inner : List Stream}
    (hstream : stream ∈ streams) (houter : outer ∈ stream)
    (hargument : outer.argument = some (.selectors inner))
    (ht : Inside t inner) : Inside t streams

/-- The argument of a token at any depth stands in the text that was read, with
four characters around it. -/
theorem argumentFrom_of_inside {s : Text} {streams : List Stream} {t : Token}
    (h : parse s = .ok streams) (ht : t.Inside streams) : ArgumentFrom s t := by
  induction ht generalizing s with
  | here hstream ht => exact argumentFrom_of_parse h _ hstream t ht
  | deeper hstream houter hargument ht ih =>
    cases argumentFrom_of_parse h _ hstream _ houter with
    | none hnone =>
      rw [hargument] at hnone
      cases hnone
    | text htext hspan =>
      rw [hargument] at htext
      cases htext
    | selectors hselectors hspan hread =>
      rw [hargument] at hselectors
      cases hselectors
      exact (ih hread).of_encloses hspan.trans

end SelectorPath
