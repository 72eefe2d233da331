import Mathlib
import SelectorPath.Proofs.FirstOccurrences
import SelectorPath.Proofs.SelfMatching

/-!
# Tables of letters

The small letters of a table are those of the text, each once. Their capitals
are made from all of them together, so they stand side by side with them unless
a letter has several capitals. Only one letter that can be listed has (`ΰ`), and
it moves everything behind it.

A translation goes by places and takes the first one of a character. From small
letters to capitals each letter has one place. From capitals to small letters a
capital of two letters has two, and leads back to the letter that occurs first:
there is one such capital (`Σ`).

## Main results

* `exchanges_iff_nodup`: a translation between lists of one length takes each
  character to its counterpart exactly if none is repeated.
* `nodup_capitals_iff`: which capitals are repeated.
* `letters_aligned_iff`: when a table does what it is made for.
-/

namespace SelectorPath.XPath

/-! ## Translation by places -/

/-- Translating takes each character of the source to the one in the same place
of the target, and nothing is removed from any text. -/
structure Exchanges (source target : Text) : Prop where
  counterpart : ∀ (i : Nat) (c d : Char), source[i]? = some c →
    target[i]? = some d → translated source target [c] = [d]
  removes_nothing : ∀ t, (translated source target t).length = t.length

section Exchanges

variable {source target : Text}

private theorem translated_place {i : Nat} {c d : Char}
    (hc : source.idxOf? c = some i) (hd : target[i]? = some d) :
    translated source target [c] = [d] := by
  simp [translated, hc, hd]

/-- Nothing is removed where the target has a character for each place. -/
theorem length_translated (hle : source.length ≤ target.length) (t : Text) :
    (translated source target t).length = t.length := by
  refine List.filterMap_length_eq_length.mpr fun c _ => ?_
  cases hplace : source.idxOf? c with
  | none => rfl
  | some i =>
    obtain ⟨hi, -⟩ := List.idxOf?_eq_some_iff.mp hplace
    have hi : i < target.length := by omega
    simp [hi]

private theorem exchanges_of_nodup (hsource : source.Nodup)
    (hle : source.length ≤ target.length) :
    Exchanges source target where
  counterpart := by
    intro i c d hc hd
    obtain ⟨hi, rfl⟩ := List.getElem?_eq_some_iff.mp hc
    refine translated_place
      (List.idxOf?_eq_some_iff.mpr ⟨hi, rfl, fun j hj heq => ?_⟩) hd
    have hplace : j = i := hsource.getElem_inj_iff.mp heq
    omega
  removes_nothing := length_translated hle

/-- A character in two places cannot be taken to two counterparts. -/
theorem Exchanges.nodup (h : Exchanges source target)
    (hlength : source.length = target.length) (htarget : target.Nodup) :
    source.Nodup := by
  refine List.pairwise_iff_getElem.mpr fun i j hi hj hlt heq => ?_
  have hfirst := h.counterpart i source[i] target[i]
    (List.getElem?_eq_getElem hi) (List.getElem?_eq_getElem _)
  have hsecond := h.counterpart j source[j] target[j]
    (List.getElem?_eq_getElem hj) (List.getElem?_eq_getElem _)
  rw [heq, hsecond, List.cons.injEq] at hfirst
  have hplace : j = i := htarget.getElem_inj_iff.mp hfirst.1
  omega

/-- With distinct targets, columns of one length are exchanged if the sources
are distinct. -/
theorem exchanges_iff_nodup (hlength : source.length = target.length)
    (htarget : target.Nodup) :
    Exchanges source target ↔ source.Nodup :=
  ⟨fun h => h.nodup hlength htarget, fun h => exchanges_of_nodup h hlength.le⟩

end Exchanges

/-! ## Capitals of the listed letters -/

/-- As many capitals as letters, each the capital form of the letter in its
place. -/
structure Letters.IsAligned (letters : Letters) : Prop where
  length_eq : letters.upper.length = letters.lower.length
  capital : ∀ (i : Nat) (c d : Char), letters.lower[i]? = some c →
    letters.upper[i]? = some d → Text.upperChar c = [d]

section Table

variable {t : Text}

private theorem listsOnce_letters (t : Text) :
    ListsOnce ((Text.lower t).filter isFoldable) (Letters.ofText t).lower :=
  listsOnce_eraseDups _

/-- The letter with several capitals is listed where the text has it. -/
theorem mem_letters_iff_mem : 'ΰ' ∈ (Letters.ofText t).lower ↔ 'ΰ' ∈ t :=
  ⟨fun h => mem_of_mem_lowerAfter (mem_lower_letters.mp h).1,
    fun h => mem_letters_of_isFoldable h (by decide)⟩

/-- Capitals are never fewer than letters. -/
theorem length_lower_le_upper (t : Text) :
    (Letters.ofText t).lower.length ≤ (Letters.ofText t).upper.length := by
  show _ ≤ (Text.upper (Letters.ofText t).lower).length
  generalize (Letters.ofText t).lower = lower
  induction lower with
  | nil => exact Nat.le_refl 0
  | cons c lower ih =>
    have hpos := List.length_pos_iff.mpr (Text.upperChar_ne_nil c)
    rw [Text.upper, List.flatMap_cons, List.length_append, List.length_cons]
    rw [Text.upper] at ih
    omega

private theorem isAligned_iff :
    (Letters.ofText t).IsAligned ↔ 'ΰ' ∉ (Letters.ofText t).lower := by
  constructor
  · intro haligned hmany
    obtain ⟨i, hi, hletter⟩ := List.mem_iff_getElem.mp hmany
    have hcapital : i < (Letters.ofText t).upper.length := by
      rwa [haligned.length_eq]
    have hform := haligned.capital i _ _ (List.getElem?_eq_getElem hi)
      (List.getElem?_eq_getElem hcapital)
    have hthree : (Text.upperChar 'ΰ').length = 3 := rfl
    rw [← hletter, hform, List.length_singleton] at hthree
    exact absurd hthree (by decide)
  · intro hsingle
    have hupper := upper_letters hsingle
    refine ⟨by rw [hupper, List.length_map], fun i c d hc hd => ?_⟩
    have hmem := List.mem_of_getElem? hc
    rw [hupper, List.getElem?_map, hc, Option.map_some, Option.some.injEq] at hd
    rw [← hd]
    refine upperChar_of_isFoldable (mem_lower_letters.mp hmem).2 ?_
    rintro rfl
    exact hsingle hmem

/-- Only the two forms of sigma share a capital. -/
theorem nodup_capitals_iff (hsingle : 'ΰ' ∉ (Letters.ofText t).lower) :
    (Letters.ofText t).upper.Nodup ↔
      ¬('σ' ∈ (Letters.ofText t).lower ∧ 'ς' ∈ (Letters.ofText t).lower) := by
  have hback : ∀ {c}, c ∈ (Letters.ofText t).lower → c ≠ 'ς' →
      Text.lowerChar (capital c) = [c] := by
    intro c hc hfinal
    refine lowerChar_capital (mem_lower_letters.mp hc).2 ?_ hfinal
    rintro rfl
    exact hsingle hc
  -- a letter with the capital of the final sigma is the other sigma
  have hsigma : ∀ {c}, c ∈ (Letters.ofText t).lower → c ≠ 'ς' →
      capital c = capital 'ς' → c = 'σ' := by
    intro c hc hfinal heq
    have hc := hback hc hfinal
    rw [heq] at hc
    exact (List.singleton_inj.mp hc).symm
  rw [upper_letters hsingle,
    List.nodup_map_iff_inj_on (listsOnce_letters t).nodup]
  constructor
  · rintro hinj ⟨hsmall, hfinal⟩
    exact absurd (hinj _ hsmall _ hfinal (by decide)) (by decide)
  · intro hapart c hc d hd heq
    by_cases hcfinal : c = 'ς'
    · by_cases hdfinal : d = 'ς'
      · rw [hcfinal, hdfinal]
      · rw [hcfinal] at hc heq
        rw [hsigma hd hdfinal heq.symm] at hd
        exact absurd ⟨hd, hc⟩ hapart
    · by_cases hdfinal : d = 'ς'
      · rw [hdfinal] at hd heq
        rw [hsigma hc hcfinal heq] at hc
        exact absurd ⟨hc, hd⟩ hapart
      · have hforms := hback hc hcfinal
        rw [heq, hback hd hdfinal] at hforms
        exact (List.singleton_inj.mp hforms).symm

end Table

/-- A table lists the letters of the text in small form that can be listed, each
once, in order of first occurrence, and translating small letters to what stands
beside them removes nothing. What stands beside them are their capitals exactly
if the text has no letter with several; and then translating back takes each
capital to its letter exactly if the two forms of sigma are not both in the
text. -/
theorem letters_aligned_iff (t : Text) :
    ListsOnce ((Text.lower t).filter isFoldable) (Letters.ofText t).lower ∧
    Exchanges (Letters.ofText t).lower (Letters.ofText t).upper ∧
    ((Letters.ofText t).IsAligned ↔ 'ΰ' ∉ t) ∧
    ('ΰ' ∉ t → (Exchanges (Letters.ofText t).upper (Letters.ofText t).lower ↔
      ¬('σ' ∈ Text.lower t ∧ 'ς' ∈ Text.lower t))) := by
  have honce := listsOnce_letters t
  refine ⟨honce, exchanges_of_nodup honce.nodup (length_lower_le_upper t), ?_,
    fun hsingle => ?_⟩
  · rw [isAligned_iff, mem_letters_iff_mem]
  · have hsingle : 'ΰ' ∉ (Letters.ofText t).lower :=
      mt mem_letters_iff_mem.mp hsingle
    have hlisted : ∀ c, isFoldable c = true →
        (c ∈ (Letters.ofText t).lower ↔ c ∈ Text.lower t) := fun c hc =>
      mem_lower_letters.trans (and_iff_left hc)
    rw [exchanges_iff_nodup (isAligned_iff.mpr hsingle).length_eq honce.nodup,
      nodup_capitals_iff hsingle, hlisted 'σ' (by decide),
      hlisted 'ς' (by decide)]

/-- A letter with three capitals in front of another one; and a word that ends
in one form of sigma with the other form behind it. -/
theorem letters_aligned_iff_sigmas :
    Letters.ofText "ΰα" = ⟨"ΰα", "Υ\u0308\u0301Α"⟩ ∧
      ¬(Letters.ofText "ΰα").IsAligned ∧
      Letters.ofText "ΑΣ Σ" = ⟨"αςσ", "ΑΣΣ"⟩ ∧
        (Letters.ofText "ΑΣ Σ").IsAligned ∧
      ¬Exchanges (Letters.ofText "ΑΣ Σ").upper
        (Letters.ofText "ΑΣ Σ").lower := by
  have hsingle : 'ΰ' ∉ ("ΑΣ Σ" : Text) := by decide
  have hlower : Text.lower "ΑΣ Σ" = "ας σ" := by decide +kernel
  obtain ⟨-, -, hmany, -⟩ := letters_aligned_iff "ΰα"
  obtain ⟨-, -, haligned, hback⟩ := letters_aligned_iff "ΑΣ Σ"
  refine ⟨by decide +kernel, fun h => hmany.mp h (by decide), by decide +kernel,
    haligned.mpr hsingle, ?_⟩
  rw [hback hsingle, not_not, hlower]
  exact ⟨by decide, by decide⟩

end SelectorPath.XPath
