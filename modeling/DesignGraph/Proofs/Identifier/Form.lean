import DesignGraph.Proofs.Identifier
import Mathlib.Data.List.Chain
import Mathlib.Data.List.Pairwise

/-! # The form of identifiers

Every identifier that is made of a text has the form of a basic identifier, and a text that has this form
already is left as it is: `ofText` is a retraction onto the basic identifiers (`ofText_retraction`). All but
the letter in front is a matter of words with single underscores between them (`IsSpaced`). Such texts stay so
when they are joined by an underscore (`IsSpaced.join`), and are put together again from their words
(`IsSpaced.intercalate_words`); the names of parts, ports and signals are joined in this way. -/

namespace DesignGraph.Identifier

variable {c : Char} {l r w : List Char} {ws : List (List Char)} {p q : String}

/-! ### Single underscores -/

/-- No underscore stands at the end or behind another one. -/
theorem spaced_iff : spaced l ↔ l.getLast? ≠ some '_' ∧ l.IsChain fun c d => ¬ (c = '_' ∧ d = '_') := by
  induction l using spaced.induct with
  | case1 => simp [spaced]
  | case2 c => simp [spaced]
  | case3 c d r ih =>
    rw [spaced, Bool.and_eq_true, ih, List.getLast?_cons_cons, List.isChain_cons_cons]
    simp only [Bool.not_eq_true', Bool.and_eq_false_iff, beq_eq_false_iff_ne]
    grind

theorem ne_underscore (hc : c.isAlphanum) : c ≠ '_' := by
  rintro rfl
  revert hc
  decide

theorem isAlphanum_of_isAlpha (hc : c.isAlpha) : c.isAlphanum := by
  rw [Char.isAlphanum, hc, Bool.true_or]

/-- Letters, digits and single underscores, none of them at an end. -/
structure IsSpaced (l : List Char) : Prop where
  chars : ∀ c ∈ l, c.isAlphanum ∨ c = '_'
  front : ∃ c r, l = c :: r ∧ c.isAlphanum
  spaced : spaced l

namespace IsSpaced

theorem ne_nil (h : IsSpaced l) : l ≠ [] := by
  obtain ⟨c, r, rfl, -⟩ := h.front
  exact List.cons_ne_nil c r

/-- A word is spaced. -/
theorem word (hw : w ≠ []) (h : ∀ c ∈ w, c.isAlphanum) : IsSpaced w where
  chars c hc := .inl (h c hc)
  front := by
    obtain ⟨c, r, rfl⟩ := List.exists_cons_of_ne_nil hw
    exact ⟨c, r, rfl, h c List.mem_cons_self⟩
  spaced := by
    refine spaced_iff.2 ⟨fun hlast => ne_underscore (h _ (List.mem_of_getLast? hlast)) rfl, ?_⟩
    refine (List.pairwise_of_forall_mem_list fun c hc d _ => ?_).isChain
    exact fun hboth => ne_underscore (h c hc) hboth.1

/-- Spaced texts are joined by an underscore. -/
theorem join (hl : IsSpaced l) (hr : IsSpaced r) : IsSpaced (l ++ '_' :: r) where
  chars c hc := by
    rcases List.mem_append.1 hc with hc | hc
    · exact hl.chars c hc
    · rcases List.mem_cons.1 hc with rfl | hc
      · exact .inr rfl
      · exact hr.chars c hc
  front := by
    obtain ⟨c, l, rfl, hc⟩ := hl.front
    exact ⟨c, l ++ '_' :: r, rfl, hc⟩
  spaced := by
    obtain ⟨hlastl, hchainl⟩ := spaced_iff.1 hl.spaced
    obtain ⟨hlastr, hchainr⟩ := spaced_iff.1 hr.spaced
    obtain ⟨d, r, rfl, hd⟩ := hr.front
    refine spaced_iff.2 ⟨?_, hchainl.append (hchainr.cons fun e he => ?_) fun c hc e he => ?_⟩
    · rwa [List.getLast?_append_cons, List.getLast?_cons_cons]
    · obtain rfl : d = e := by simpa using he
      exact fun hboth => ne_underscore hd hboth.2
    · exact fun hboth => hlastl (hboth.1 ▸ hc)

/-- Words are joined to a spaced text. -/
theorem intercalate (hne : ws ≠ []) (h : ∀ w ∈ ws, IsSpaced w) : IsSpaced (List.intercalate ['_'] ws) := by
  induction ws with
  | nil => exact absurd rfl hne
  | cons w ws ih =>
    obtain ⟨hw, hws⟩ := List.forall_mem_cons.1 h
    cases ws with
    | nil => simpa using hw
    | cons v ws =>
      rw [List.intercalate_cons_cons, List.append_assoc]
      exact hw.join (ih (List.cons_ne_nil v ws) hws)

/-- A letter in front of a spaced text. -/
theorem cons (hc : c.isAlpha) (hl : IsSpaced l) : IsSpaced (c :: l) where
  chars := List.forall_mem_cons.2 ⟨.inl (isAlphanum_of_isAlpha hc), hl.chars⟩
  front := ⟨c, l, rfl, isAlphanum_of_isAlpha hc⟩
  spaced := by
    obtain ⟨hlast, hchain⟩ := spaced_iff.1 hl.spaced
    obtain ⟨d, r, rfl, -⟩ := hl.front
    have hne := ne_underscore (isAlphanum_of_isAlpha hc)
    exact spaced_iff.2 ⟨by rwa [List.getLast?_cons_cons], hchain.cons fun e _ hboth => hne hboth.1⟩

end IsSpaced

/-- A basic identifier is spaced and has a letter in front. -/
theorem isBasic_iff : IsBasic p ↔ IsSpaced p.toList ∧ ∃ c r, p.toList = c :: r ∧ c.isAlpha := by
  constructor
  · rintro ⟨⟨c, r, hp, hc⟩, hchars, hspaced⟩
    exact ⟨⟨hchars, ⟨c, r, hp, isAlphanum_of_isAlpha hc⟩, hspaced⟩, c, r, hp, hc⟩
  · rintro ⟨h, hfront⟩
    exact ⟨hfront, h.chars, h.spaced⟩

/-! ### The identifier of a text -/

theorem ne_nil_of_mem_words (hw : w ∈ words l) : w ≠ [] := by
  fun_induction words l <;> grind

/-- The guard against digits gives a spaced text a letter in front. -/
theorem isSpaced_guardDigit (hl : IsSpaced l) :
    IsSpaced (guardDigit l) ∧ ∃ c r, guardDigit l = c :: r ∧ c.isAlpha := by
  obtain ⟨c, r, rfl, hc⟩ := hl.front
  by_cases hd : c.isDigit
  · have hx : 'x'.isAlpha := by decide
    rw [guardDigit, if_pos hd]
    exact ⟨hl.cons hx, 'x', c :: r, rfl, hx⟩
  · have hletter : c.isAlpha := by simpa [Char.isAlphanum, hd] using hc
    rw [guardDigit, if_neg hd]
    exact ⟨hl, c, r, rfl, hletter⟩

theorem isBasic_ofText (text : String) : IsBasic (ofText text) := by
  rw [isBasic_iff, ofText, String.toList_ofList, Identifier.join]
  split
  · have hx : 'x'.isAlphanum := by decide
    exact ⟨.word (List.cons_ne_nil _ _) (List.forall_mem_singleton.2 hx), 'x', [], rfl, by decide⟩
  · rename_i hne
    refine isSpaced_guardDigit (.intercalate (by simpa using hne) fun w hw => ?_)
    exact .word (ne_nil_of_mem_words hw) (isAlphanum_of_mem_words w hw)

/-! ### Texts of the form -/

/-- What stands behind the first character of a spaced text: nothing, or a spaced text, perhaps behind an
underscore. -/
theorem IsSpaced.tail (h : IsSpaced (c :: l)) : l = [] ∨ IsSpaced l ∨ ∃ r, l = '_' :: r ∧ IsSpaced r := by
  have hchars := (List.forall_mem_cons.1 h.chars).2
  match l, h.spaced with
  | [], _ => exact .inl rfl
  | d :: l, hs =>
    rw [Identifier.spaced, Bool.and_eq_true] at hs
    rcases (List.forall_mem_cons.1 hchars).1 with hd | rfl
    · exact .inr (.inl ⟨hchars, ⟨d, l, rfl, hd⟩, hs.2⟩)
    · match l, hs.2 with
      | [], hs => exact absurd hs (by decide)
      | e :: r, hs =>
        rw [Identifier.spaced, Bool.and_eq_true] at hs
        have hr := (List.forall_mem_cons.1 hchars).2
        have he : e.isAlphanum := (hr e List.mem_cons_self).resolve_right (by simpa using hs.1)
        exact .inr (.inr ⟨e :: r, rfl, hr, ⟨e, r, rfl, he⟩, hs.2⟩)

theorem words_cons_of_not (hc : ¬ c.isAlphanum) : words (c :: l) = words l := by
  rw [words.eq_def]
  simp [hc]

/-- A character in front of a word makes it longer. -/
theorem words_cons_of_word {d : Char} (hc : c.isAlphanum) (hd : d.isAlphanum) (h : words (d :: r) = w :: ws) :
    words (c :: d :: r) = (c :: w) :: ws := by
  rw [words.eq_def]
  simp [hc, hd, h]

/-- A character in front of a gap is a word of its own. -/
theorem words_cons_of_gap {d : Char} (hc : c.isAlphanum) (hd : ¬ d.isAlphanum) (h : words (d :: r) = w :: ws) :
    words (c :: d :: r) = [c] :: w :: ws := by
  rw [words.eq_def]
  simp [hc, hd, h]

/-- A spaced text is put together again from its words. -/
theorem IsSpaced.intercalate_words : ∀ {l : List Char}, IsSpaced l → List.intercalate ['_'] (words l) = l
  | [], h => absurd rfl h.ne_nil
  | c :: l, h => by
    have hc : c.isAlphanum := by
      obtain ⟨d, r, hl, hd⟩ := h.front
      rwa [(List.cons.inj hl).1]
    have hexists : ∀ {r}, IsSpaced r → List.intercalate ['_'] (words r) = r → ∃ w ws, words r = w :: ws := by
      intro r hr hjoined
      refine List.exists_cons_of_ne_nil fun hnil => hr.ne_nil ?_
      rw [← hjoined, hnil, List.intercalate_nil]
    rcases h.tail with rfl | hl | ⟨r, rfl, hr⟩
    · simp [words, hc]
    · -- the first character belongs to the first word of the rest
      have ih := hl.intercalate_words
      obtain ⟨w, ws, hwords⟩ := hexists hl ih
      obtain ⟨d, r, rfl, hd⟩ := hl.front
      rw [words_cons_of_word hc hd hwords]
      rw [hwords] at ih
      cases ws with
      | nil => simpa using ih
      | cons v ws =>
        rw [List.intercalate_cons_cons] at ih ⊢
        rw [List.cons_append, List.cons_append, ih]
    · -- it is a word of its own, with an underscore behind it
      have ih := hr.intercalate_words
      obtain ⟨w, ws, hwords⟩ := hexists hr ih
      have hgap : ¬ '_'.isAlphanum := by decide
      rw [words_cons_of_gap hc hgap ((words_cons_of_not hgap).trans hwords), List.intercalate_cons_cons,
        ← hwords, ih]
      rfl

theorem not_isDigit_of_isAlpha (hc : c.isAlpha) : ¬ c.isDigit := by
  intro hd
  have hletter := toNat_of_isAlpha hc
  have hdigit := toNat_of_isDigit hd
  omega

theorem ofText_eq_self (h : IsBasic p) : ofText p = p := by
  obtain ⟨hspaced, c, r, hp, hc⟩ := isBasic_iff.1 h
  have hjoined := hspaced.intercalate_words
  have hwords : ¬ (words p.toList).isEmpty := by
    intro hempty
    rw [List.isEmpty_iff.1 hempty] at hjoined
    exact hspaced.ne_nil hjoined.symm
  rw [ofText, Identifier.join, if_neg hwords, hjoined, hp, guardDigit, if_neg (not_isDigit_of_isAlpha hc),
    ← hp, String.ofList_toList]

theorem ofText_eq_self_iff : ofText p = p ↔ IsBasic p := ⟨fun h => h ▸ isBasic_ofText p, ofText_eq_self⟩

/-! ### Names that are joined -/

theorem IsBasic.join (hp : IsBasic p) (hq : IsBasic q) : IsBasic (p ++ "_" ++ q) := by
  obtain ⟨hpspaced, c, r, hpl, hc⟩ := isBasic_iff.1 hp
  have hl : (p ++ "_" ++ q).toList = p.toList ++ '_' :: q.toList := by
    rw [String.toList_append, String.toList_append, List.append_assoc]
    rfl
  rw [isBasic_iff, hl]
  refine ⟨hpspaced.join (isBasic_iff.1 hq).1, c, r ++ '_' :: q.toList, ?_, hc⟩
  rw [hpl, List.cons_append]

/-- Letters are enough. -/
theorem isBasic_of_letters (hne : p.toList ≠ []) (h : p.toList.all Char.isAlpha) : IsBasic p := by
  have hletters := List.all_eq_true.1 h
  obtain ⟨c, r, hp⟩ := List.exists_cons_of_ne_nil hne
  refine isBasic_iff.2 ⟨.word hne fun d hd => isAlphanum_of_isAlpha (hletters d hd), c, r, hp, ?_⟩
  exact hletters c (hp ▸ List.mem_cons_self)

theorem isBasic_ofPart (part : String) : IsBasic (ofPart part) :=
  (isBasic_of_letters (p := "component") (by decide) (by decide)).join (isBasic_ofText part)

theorem isBasic_ofInput (label : String) : IsBasic (ofInput label) :=
  (isBasic_of_letters (p := "input") (by decide) (by decide)).join (isBasic_ofText label)

theorem isBasic_ofOutput (label : String) : IsBasic (ofOutput label) :=
  (isBasic_of_letters (p := "output") (by decide) (by decide)).join (isBasic_ofText label)

theorem isBasic_ofSignal (part : String) {port : String} (hport : IsBasic port) :
    IsBasic (ofSignal part port) :=
  (isBasic_ofPart part).join hport

/-- **A retraction**: the identifier of a text is basic, and the basic identifiers are the texts that are their
own identifiers. The names of parts, of inputs and outputs, and of the signals that carry them are basic too. -/
theorem ofText_retraction :
    (∀ text, IsBasic (ofText text)) ∧
    (∀ text, ofText text = text ↔ IsBasic text) ∧
    (∀ text, ofText (ofText text) = ofText text) ∧
    (∀ part, IsBasic (ofPart part)) ∧
    (∀ label, IsBasic (ofInput label)) ∧
    (∀ label, IsBasic (ofOutput label)) ∧
    ∀ part label, IsBasic (ofSignal part (ofInput label)) ∧ IsBasic (ofSignal part (ofOutput label)) :=
  ⟨isBasic_ofText, fun _ => ofText_eq_self_iff, fun text => ofText_eq_self (isBasic_ofText text),
    isBasic_ofPart, isBasic_ofInput, isBasic_ofOutput, fun part label =>
      ⟨isBasic_ofSignal part (isBasic_ofInput label), isBasic_ofSignal part (isBasic_ofOutput label)⟩⟩

end DesignGraph.Identifier
