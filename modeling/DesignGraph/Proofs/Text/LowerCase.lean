import DesignGraph.Text.LowerCase

/-! # Texts whose lower case is plain

Two characters outside of ASCII have an ASCII letter in their lower case: the Kelvin sign, whose lower case
is a k, and the dotted I, whose lower case has an accent besides. So a text whose lower case has ASCII letters
only and no k is made of ASCII letters itself, and it has the same upper case as its lower case
(`map_toUpper_of_lowerCaseText`). The other way round, capitals for its small ASCII letters do not change the
lower case of a text, unless it has a sigma (`lowerCaseText_map_toUpper`). -/

namespace DesignGraph.Text

/-- An ASCII character other than the small k. -/
def isPlain (c : Char) : Bool := c.toNat < 128 && c != 'k'

theorem capitalRanges_valid : ∀ r ∈ capitalRanges,
    r.lower + (r.last - r.first) < 0xd800 ∨
      0xdfff < r.lower ∧ r.lower + (r.last - r.first) < 0x110000 := by
  decide +kernel

theorem capitalRanges_ascii : ∀ r ∈ capitalRanges, r.lower < 128 →
    r.first = 0x41 ∧ r.last = 0x5a ∧ r.lower = 0x61 ∨
      r.first = 0x212a ∧ r.last = 0x212a ∧ r.lower = 0x6b := by
  decide +kernel

theorem toUpper_shift : ∀ n ∈ List.range 128, 0x41 ≤ n → n ≤ 0x5a →
    (Char.ofNat (0x61 + (n - 0x41))).toUpper = (Char.ofNat n).toUpper := by
  decide +kernel

theorem capitalRanges_small : ∀ r ∈ capitalRanges, r.last < 0x61 ∨ 0x7a < r.first := by
  decide +kernel

variable {c d : Char} {before l m : List Char}

theorem toUpper_of_lowerCase (h : lowerCase c = [d]) (hd : isPlain d) : d.toUpper = c.toUpper := by
  simp only [isPlain, Bool.and_eq_true, decide_eq_true_eq, bne_iff_ne] at hd
  unfold lowerCase at h
  split at h
  · simp at h
  split at h
  · rename_i r hr
    have hmem := List.mem_of_find?_eq_some hr
    have hholds := List.find?_some hr
    simp only [CapitalRange.holds, Bool.and_eq_true, decide_eq_true_eq] at hholds
    obtain rfl := List.singleton_inj.1 h
    have hvalid : (r.lower + (c.toNat - r.first)).isValidChar := by
      rcases capitalRanges_valid r hmem with hlt | hlt
      · exact .inl (by omega)
      · exact .inr ⟨by omega, by omega⟩
    have hnat : (Char.ofNat (r.lower + (c.toNat - r.first))).toNat = r.lower + (c.toNat - r.first) := by
      rw [Char.ofNat, dif_pos hvalid]
      rfl
    rw [hnat] at hd
    obtain ⟨⟨hfirst, hlast⟩, -⟩ := hholds
    rcases capitalRanges_ascii r hmem (by omega) with ⟨h1, h2, h3⟩ | ⟨h1, h2, h3⟩
    · have hshift := toUpper_shift c.toNat (List.mem_range.2 (by omega)) (by omega) (by omega)
      rwa [Char.ofNat_toNat, ← h1, ← h3] at hshift
    · have hk : Char.ofNat (r.lower + (c.toNat - r.first)) = 'k' := by
        rw [show r.lower + (c.toNat - r.first) = 0x6b by omega]
      exact absurd hk hd.2
  · rw [List.singleton_inj.1 h]

theorem lowerCase_cases (c : Char) : (∃ d, lowerCase c = [d]) ∨ lowerCase c = ['i', '\u0307'] := by
  unfold lowerCase
  split
  · exact .inr rfl
  · split <;> exact .inl ⟨_, rfl⟩

theorem map_toUpper_of_lowerCaseFrom (hm : ∀ d ∈ m, isPlain d) (h : lowerCaseFrom before l = m) :
    l.map Char.toUpper = m.map Char.toUpper := by
  induction l generalizing before m with
  | nil => rw [← h, lowerCaseFrom]
  | cons c l ih =>
    subst h
    rw [lowerCaseFrom] at hm ⊢
    have htail : l.map Char.toUpper = (lowerCaseFrom (c :: before) l).map Char.toUpper :=
      ih (fun d hd => hm d (List.mem_append_right _ hd)) rfl
    split at hm
    · -- the final sigma is not plain
      exact absurd (hm 'ς' (by simp)) (by decide)
    · rename_i hsigma
      rw [if_neg hsigma]
      rcases lowerCase_cases c with ⟨d, hd⟩ | hdotted
      · have hplain : isPlain d := hm d (by simp [hd])
        simp [hd, toUpper_of_lowerCase hd hplain, htail]
      · exact absurd (hm '\u0307' (by simp [hdotted])) (by decide)

/-- **A plain lower case** has the upper case of the text. -/
theorem map_toUpper_of_lowerCaseText (hm : ∀ d ∈ m, isPlain d) (h : lowerCaseText l = m) :
    l.map Char.toUpper = m.map Char.toUpper :=
  map_toUpper_of_lowerCaseFrom hm h

/-! ### Texts in capitals -/

theorem toNat_toUpper (hfirst : 0x61 ≤ c.toNat) (hlast : c.toNat ≤ 0x7a) :
    c.toUpper.toNat = c.toNat - 0x20 := by
  have hall : ∀ n ∈ List.range 128, 0x61 ≤ n → n ≤ 0x7a → (Char.ofNat n).toUpper.toNat = n - 0x20 := by
    decide +kernel
  have hc := hall c.toNat (List.mem_range.2 (by omega)) hfirst hlast
  rwa [Char.ofNat_toNat] at hc

theorem toUpper_cases (c : Char) : 0x61 ≤ c.toNat ∧ c.toNat ≤ 0x7a ∨ c.toUpper = c := by
  by_cases hsmall : 0x61 ≤ c.toNat ∧ c.toNat ≤ 0x7a
  · exact .inl hsmall
  · exact .inr (dif_neg fun h => hsmall h)

/-- A small letter is its own lower case and that of its capital. -/
theorem lowerCase_of_small (hfirst : 0x61 ≤ c.toNat) (hlast : c.toNat ≤ 0x7a) :
    lowerCase c = [c] ∧ lowerCase c.toUpper = [c] := by
  have hupper := toNat_toUpper hfirst hlast
  have hcode : 'İ'.toNat = 0x130 := rfl
  constructor
  · have hne : c ≠ 'İ' := by
      rintro rfl
      omega
    have hnone : capitalRanges.find? (·.holds c.toNat) = none := by
      refine List.find?_eq_none.2 fun r hr hholds => ?_
      simp only [CapitalRange.holds, Bool.and_eq_true, decide_eq_true_eq] at hholds
      rcases capitalRanges_small r hr with h | h <;> omega
    rw [lowerCase, if_neg hne, hnone]
  · have hne : c.toUpper ≠ 'İ' := by
      intro heq
      rw [heq] at hupper
      omega
    -- the first range holds the capitals
    have hfind : capitalRanges.find? (·.holds c.toUpper.toNat) = some ⟨0x41, 0x5a, 1, 0x61⟩ := by
      refine List.find?_cons_of_pos ?_
      simp only [CapitalRange.holds, Bool.and_eq_true, decide_eq_true_eq, Nat.mod_one, beq_self_eq_true,
        and_true]
      omega
    have hback : 0x61 + (c.toUpper.toNat - 0x41) = c.toNat := by omega
    rw [lowerCase, if_neg hne, hfind]
    simp only [hback, Char.ofNat_toNat]

theorem lowerCase_toUpper (c : Char) : lowerCase c.toUpper = lowerCase c := by
  rcases toUpper_cases c with ⟨hfirst, hlast⟩ | hsame
  · obtain ⟨hsmall, hcapital⟩ := lowerCase_of_small hfirst hlast
    rw [hsmall, hcapital]
  · rw [hsame]

theorem toUpper_ne_sigma (hc : c ≠ 'Σ') : c.toUpper ≠ 'Σ' := by
  rcases toUpper_cases c with ⟨hfirst, hlast⟩ | hsame
  · intro heq
    have hupper := toNat_toUpper hfirst hlast
    have hcode : 'Σ'.toNat = 0x3a3 := rfl
    rw [heq] at hupper
    omega
  · rwa [hsame]

theorem lowerCaseFrom_map_toUpper (hl : 'Σ' ∉ l) : ∀ before before' : List Char,
    lowerCaseFrom before (l.map Char.toUpper) = lowerCaseFrom before' l := by
  induction l with
  | nil => exact fun _ _ => rfl
  | cons c l ih =>
    intro before before'
    rw [List.mem_cons, not_or] at hl
    have hc : c ≠ 'Σ' := Ne.symm hl.1
    simp only [List.map_cons, lowerCaseFrom, toUpper_ne_sigma hc, hc, decide_false, Bool.false_and,
      Bool.false_eq_true, if_false, lowerCase_toUpper, ih hl.2 (c.toUpper :: before) (c :: before')]

/-- **Capitals do not show** in the lower case of a text. -/
theorem lowerCaseText_map_toUpper (hl : 'Σ' ∉ l) : lowerCaseText (l.map Char.toUpper) = lowerCaseText l :=
  lowerCaseFrom_map_toUpper hl [] []

end DesignGraph.Text
