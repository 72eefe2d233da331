import Mathlib
import SelectorPath.Proofs.NodeTests

/-!
# Well-formed output

A selector with plain names has a well-formed output exactly if every node test
of its streams leads: a type selector or `*` begins its compound, and `:comment`
does not stand directly behind `~` or `+`. The reader also accepts selectors of
the other kind, such as `*a` and `a~:comment`, and what is written for them has
a step with two node tests.

## Main results

* `isPathOf_locationPath`: the path of a stream is in the grammar, or two of its
  node tests clash.
* `isOutput_compile`: the selectors whose output is in the grammar.
-/

namespace SelectorPath.XPath

/-! ## Paths -/

/-- The run over a stream that was read, from the top of the document. -/
theorem stands_of_locationPath {stream : Stream} {out : Text}
    (hparsed : IsParsed stream) (hplain : ∀ t ∈ stream, t.isPlain = true)
    (h : locationPath stream = .ok out) :
    ∃ d last, d.render = out ∧ Draft.Stands d last (nodeTestsLead stream) ∧
      last.isTested = true := by
  obtain ⟨htyped, d, hrun, hout⟩ := locationPath_eq_ok_iff.mp h
  obtain ⟨token, rest, rfl, hsimple⟩ := isJoined_cons hparsed.joined
  rw [fromTop] at htyped hrun
  split at htyped
  · rename_i hroot
    rw [if_pos hroot] at hrun
    have htail := tagsApart_tail hparsed.apart
    have hjoined : joinsFrom false rest = true := by
      have hjoined := hparsed.joined
      simp only [isJoined, joinsFrom, hsimple, Bool.and_eq_true] at hjoined
      exact hjoined.2
    have hrest : Continues .root none rest :=
      ⟨hjoined, htail.1, by rintro ⟨⟩,
        fun t ht => hparsed.named t (List.mem_cons_of_mem _ ht),
        fun t ht => hplain t (List.mem_cons_of_mem _ ht), rfl, htyped⟩
    have hstart : Draft.Stands ⟨[.root], []⟩ .root true :=
      ⟨rfl, by decide, List.forall_mem_nil _, rfl, rfl⟩
    have hrests : Rests .root [] .root := ⟨rfl, fun _ _ => rfl⟩
    obtain ⟨last, hlast, htested⟩ := hstart.advanceAll hrests hrest hrun
    refine ⟨d, last, hout, ?_, htested⟩
    have hlead : nodeTestsLead (token :: rest) = leadsFrom .root rest := by
      have hkind := kind_of_pseudo? hroot
      rw [nodeTestsLead, leadsFrom, leads, hkind, hroot]
      cases rest <;> rfl
    rwa [hlead, ← Bool.and_true (leadsFrom .root rest)]
  · rename_i hroot
    rw [if_neg hroot] at hrun
    have hstream : Continues (.combinator .descendant) none (token :: rest) :=
      ⟨hparsed.joined, hparsed.apart, by rintro ⟨⟩, hparsed.named, hplain, rfl,
        htyped⟩
    have hstart : Draft.Stands ⟨[.descendant], []⟩ .descendant true :=
      ⟨rfl, by decide, List.forall_mem_nil _, rfl, rfl⟩
    have hrests : Rests (.combinator .descendant) [] .descendant := ⟨rfl, rfl⟩
    obtain ⟨last, hlast, htested⟩ := hstart.advanceAll hrests hstream hrun
    exact ⟨d, last, hout,
      by rwa [nodeTestsLead, ← Bool.and_true (leadsFrom _ _)], htested⟩

/-- The outline of pieces starts with a slash. -/
theorem exists_outlineText {related : Piece → Piece → Bool}
    {pieces : List Piece} (hne : pieces ≠ [])
    (h : linked related pieces = true) :
    ∃ rest, outlineText pieces = '/' :: rest := by
  induction pieces with
  | nil => exact absurd rfl hne
  | cons piece pieces ih =>
    cases pieces with
    | nil =>
      cases piece with
      | root => exact ⟨_, rfl⟩
      | descendant => exact ⟨_, rfl⟩
      | _ => exact absurd h (by simp [linked, Piece.isStart])
    | cons previous pieces =>
      rw [linked, Bool.and_eq_true] at h
      obtain ⟨rest, hrest⟩ := ih (List.cons_ne_nil previous pieces) h.2
      refine ⟨rest ++ piece.outline, ?_⟩
      rw [outlineText_cons, hrest]
      rfl

/-- What is known of the text of a path: where it is in the grammar, and that it
clashes elsewhere. -/
structure IsPathOf (stream : Stream) (out : Text) : Prop where
  isPath : nodeTestsLead stream = true → IsPath out
  hasOutline : HasOutline out (outline out)
  detached : Detached (outline out)
  smooth : smoothFrom '/' (outline out) = true → nodeTestsLead stream = true

/-- A plain stream that was parsed has a path of the grammar. -/
theorem isPathOf_locationPath {stream : Stream} {out : Text}
    (hparsed : IsParsed stream) (hplain : ∀ t ∈ stream, t.isPlain = true)
    (h : locationPath stream = .ok out) :
    IsPathOf stream out := by
  obtain ⟨d, piece, hrender, hstands, htested⟩ :=
    stands_of_locationPath hparsed hplain h
  obtain ⟨last, hlast, haxis, -⟩ := hstands.commit htested
  have hpieces := hlast.pieces_eq
  have houtline := hasOutline_text hlast.sound
  rw [← Draft.render_eq_text, hrender] at houtline
  obtain ⟨rest, hslash⟩ :=
    exists_outlineText (by rw [hpieces]; simp) hlast.admitted
  refine ⟨fun hleads => ?_, houtline.eq.symm ▸ houtline, ?_, fun hsmooth => ?_⟩
  · have hfits := hlast.fitting.trans hleads
    have hsound := hlast.sound
    rw [← hrender, Draft.render_eq_text]
    rw [hpieces] at hfits hsound ⊢
    exact isPath_of_linked hfits hsound haxis
  · rw [houtline.eq, hslash]
    exact detached_slash rest
  · cases hleads : nodeTestsLead stream with
    | true => rfl
    | false =>
      have hfits := hlast.fitting.trans hleads
      rw [houtline.eq, smoothFrom_of_not_linked hlast.sound hlast.admitted
        hfits] at hsmooth
      exact absurd hsmooth (by decide)

/-! ## Outputs -/

/-- The path of a stream that has one. -/
def pathOf (stream : Stream) : Text :=
  (locationPath stream).toOption.getD []

/-- The paths of streams can be written if each of them can. -/
theorem mapM_locationPath {streams : List Stream} {paths : List Text}
    (h : streams.mapM locationPath = .ok paths) :
    paths = streams.map pathOf ∧ ∀ stream ∈ streams,
      locationPath stream = .ok (pathOf stream) := by
  induction streams generalizing paths with
  | nil =>
    cases h
    exact ⟨rfl, List.forall_mem_nil _⟩
  | cons stream streams ih =>
    rw [List.mapM_cons] at h
    obtain ⟨path, hpath, h⟩ := bind_eq_ok_iff.mp h
    obtain ⟨others, hothers, h⟩ := bind_eq_ok_iff.mp h
    cases h
    obtain ⟨rfl, hall⟩ := ih hothers
    have hpathOf : pathOf stream = path := by
      rw [pathOf, hpath]
      rfl
    refine ⟨by rw [List.map_cons, hpathOf], List.forall_mem_cons.mpr ⟨?_, hall⟩⟩
    rw [hpathOf]
    exact hpath

/-- The output for streams that were read is in the grammar exactly if all their
node tests lead. -/
theorem isOutput_union {streams : List Stream} (hne : streams ≠ [])
    (h : ∀ stream ∈ streams, IsPathOf stream (pathOf stream)) :
    IsOutput (union (streams.map pathOf)) ↔
      ∀ stream ∈ streams, nodeTestsLead stream = true := by
  match streams with
  | [] => exact absurd rfl hne
  | [stream] =>
    have hstream := h stream (List.mem_singleton_self _)
    have hunion : union ([stream].map pathOf) = pathOf stream := by
      simp [union]
    rw [hunion, List.forall_mem_singleton]
    constructor
    · intro hout
      exact hstream.smooth (smooth_of_isOutput hout)
    · intro hleads
      exact .path (hstream.isPath hleads)
  | first :: second :: rest =>
    have hmany : 1 < ((first :: second :: rest).map pathOf).length := by
      simp
    rw [union, if_pos hmany]
    constructor
    · intro hout
      have hsmooth := smooth_of_isOutput hout
      have houtline : ∀ p ∈ (first :: second :: rest).map pathOf,
          HasOutline p (outline p) := by
        intro p hp
        obtain ⟨stream, hstream, rfl⟩ := List.mem_map.mp hp
        exact (h stream hstream).hasOutline
      have hdetached : ∀ o ∈ ((first :: second :: rest).map pathOf).map outline,
          Detached o := by
        intro o ho
        obtain ⟨p, hp, rfl⟩ := List.mem_map.mp ho
        obtain ⟨stream, hstream, rfl⟩ := List.mem_map.mp hp
        exact (h stream hstream).detached
      rw [(hasOutline_union houtline).eq, smoothFrom_union hdetached,
        List.all_eq_true] at hsmooth
      intro stream hstream
      exact (h stream hstream).smooth
        (hsmooth _ (List.mem_map_of_mem (List.mem_map_of_mem hstream)))
    · intro hleads
      refine .union hmany fun p hp => ?_
      obtain ⟨stream, hstream, rfl⟩ := List.mem_map.mp hp
      exact (h stream hstream).isPath (hleads stream hstream)

/-- With plain names and values, and no text in a literal that its own quote
would end, the output is in the grammar exactly if every node test leads: a type
selector or `*` begins its compound, and `:comment` does not stand directly
behind `~` or `+`. -/
theorem isOutput_compile {registry : Registry} {selector : Text}
    {streams : List Stream} {out : Text}
    (hstreams : tokenStreams registry selector = .ok streams)
    (hplain : areAllPlain streams = true)
    (hout : compile registry selector = .ok out) :
    IsOutput out ↔ ∀ stream ∈ streams, nodeTestsLead stream = true := by
  rw [compile, hstreams] at hout
  have hunion : streamsPath streams = .ok out := hout
  obtain ⟨paths, hpaths, hunion⟩ := bind_eq_ok_iff.mp hunion
  cases hunion
  obtain ⟨rfl, hpath⟩ := mapM_locationPath hpaths
  obtain ⟨hne, hparsed⟩ := isParsed_of_tokenStreams hstreams
  apply isOutput_union hne
  intro stream hstream
  have htokens := arePlain_iff.mp (areAllPlain_iff.mp hplain stream hstream)
  exact isPathOf_locationPath (hparsed stream hstream) htokens
    (hpath stream hstream)

/-- The stream of `a~:comment`. -/
def besideComment : Stream :=
  [.tag "a", .combinator .sibling, .pseudoClass "comment" none]

private theorem tokenStreams_besideComment :
    tokenStreams {} "a~:comment" = .ok [besideComment] := by
  have hcomment : Selector.readItem ':' "comment" =
      .ok (.token (.pseudoClass "comment" none), []) := by
    cbv
  have hsibling : Selector.readItem '~' (':' :: "comment".toList) =
      .ok (.combinator .sibling 9, ':' :: "comment".toList) := by
    cbv
  have htag : Selector.readItem 'a' ('~' :: ':' :: "comment".toList) =
      .ok (.token (.tag "a"), '~' :: ':' :: "comment".toList) := by
    cbv
  have hend : Selector.parseFrom .simple [] = .ok ([], []) := by
    rw [Selector.parseFrom]
    rfl
  have hexpand : ({} : Registry).expand "a~:comment" = .ok "a~:comment" := by
    cbv
  have hfrom : Selector.parseFrom .nothing
      ('a' :: '~' :: ':' :: "comment".toList) =
      .ok (besideComment, []) := by
    rw [Selector.parseFrom_of_adds htag .token,
      Selector.parseFrom_of_adds hsibling (.combinator rfl),
      Selector.parseFrom_of_adds hcomment .token, hend]
    rfl
  have hparse : Selector.parse "a~:comment" = .ok [besideComment] :=
    Selector.parse_eq_ok_iff.mpr ⟨_, hfrom, rfl⟩
  rw [tokenStreams, hexpand]
  show ((Selector.parse "a~:comment").mapError SelectorError.malformed >>=
    fun streams => .ok (unaliasAll streams)) = _
  rw [hparse]
  rfl

/-- The step to siblings writes a node test of its own, and `:comment` a second
one. -/
theorem isOutput_compile_besideComment :
    tokenStreams {} "a~:comment" = .ok [besideComment] ∧
      areAllPlain [besideComment] = true ∧
      compile {} "a~:comment" =
        .ok ("//a/following-sibling::*comment()" : Text) ∧
      ¬IsOutput "//a/following-sibling::*comment()" := by
  have hplain : areAllPlain [besideComment] = true := rfl
  have hout : compile {} "a~:comment" =
      .ok ("//a/following-sibling::*comment()" : Text) := by
    rw [compile, tokenStreams_besideComment]
    rfl
  refine ⟨tokenStreams_besideComment, hplain, hout, fun hgrammar => ?_⟩
  have hleads :=
    (isOutput_compile tokenStreams_besideComment hplain hout).mp hgrammar
  exact absurd (hleads besideComment (List.mem_singleton_self _)) (by decide)

end SelectorPath.XPath
