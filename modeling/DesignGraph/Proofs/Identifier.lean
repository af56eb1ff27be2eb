import DesignGraph.Identifier

/-! # The characters of names

The names of a hardware description are made of ASCII letters, digits and underscores only
(`Identifier.IsName`), whatever the uids and labels are that they are made from. -/

namespace DesignGraph.Identifier

/-- A character that may stand in a name. -/
def isNameChar (c : Char) : Bool := c.isAlphanum || c == '_'

/-- A text that has no other characters than a name. -/
def IsName (text : String) : Prop := ∀ c ∈ text.toList, isNameChar c

instance (text : String) : Decidable (IsName text) :=
  decidable_of_iff (text.toList.all isNameChar) List.all_eq_true

theorem isName_append {p q : String} (hp : IsName p) (hq : IsName q) : IsName (p ++ q) := by
  intro c hc
  rw [String.toList_append, List.mem_append] at hc
  exact hc.elim (hp c) (hq c)

/-! ### Letters and digits -/

theorem toNat_of_isAlpha {c : Char} (hc : c.isAlpha) :
    0x41 ≤ c.toNat ∧ c.toNat ≤ 0x5a ∨ 0x61 ≤ c.toNat ∧ c.toNat ≤ 0x7a := by
  rcases Bool.or_eq_true_iff.1 hc with hupper | hlower
  · have hrange : c.val ≥ 'A'.val ∧ c.val ≤ 'Z'.val := of_decide_eq_true hupper
    exact .inl (hrange.imp UInt32.le_iff_toNat_le.1 UInt32.le_iff_toNat_le.1)
  · have hrange : c.val ≥ 'a'.val ∧ c.val ≤ 'z'.val :=
      (Bool.and_eq_true_iff.1 hlower).imp of_decide_eq_true of_decide_eq_true
    exact .inr (hrange.imp UInt32.le_iff_toNat_le.1 UInt32.le_iff_toNat_le.1)

theorem toNat_of_isDigit {c : Char} (hc : c.isDigit) : 0x30 ≤ c.toNat ∧ c.toNat ≤ 0x39 := by
  have hrange : c.val ≥ '0'.val ∧ c.val ≤ '9'.val :=
    (Bool.and_eq_true_iff.1 hc).imp of_decide_eq_true of_decide_eq_true
  exact hrange.imp UInt32.le_iff_toNat_le.1 UInt32.le_iff_toNat_le.1

/-! ### The identifier of a text -/

theorem isAlphanum_of_mem_words {l : List Char} : ∀ w ∈ words l, ∀ c ∈ w, c.isAlphanum := by
  -- a word is started by a letter or digit, and goes on with the first word of the rest if that follows at once
  fun_induction words l with
  | case1 => simp
  | case2 c hc d r w ws hd hwords ih => grind
  | case3 c hc d r w ws hd hwords ih => grind
  | case4 c r hc hother ih => grind
  | case5 c r hc ih => exact ih

theorem mem_of_mem_intercalate {separator : List Char} {c : Char} : ∀ {ws : List (List Char)},
    c ∈ List.intercalate separator ws → c ∈ separator ∨ ∃ w ∈ ws, c ∈ w
  | [], h => by simp [List.intercalate] at h
  | [w], h => .inr ⟨w, List.mem_singleton_self w, by simpa [List.intercalate] using h⟩
  | w :: v :: ws, h => by
    have hsplit : List.intercalate separator (w :: v :: ws) =
        w ++ separator ++ List.intercalate separator (v :: ws) := by
      simp [List.intercalate, List.intersperse]
    rw [hsplit, List.mem_append, List.mem_append] at h
    rcases h with (h | h) | h
    · exact .inr ⟨w, List.mem_cons_self, h⟩
    · exact .inl h
    · exact (mem_of_mem_intercalate h).imp_right fun ⟨x, hx, hc⟩ => ⟨x, List.mem_cons_of_mem w hx, hc⟩

theorem isNameChar_of_mem_guardDigit {l : List Char} (hl : ∀ c ∈ l, isNameChar c) :
    ∀ c ∈ guardDigit l, isNameChar c := by
  cases l with
  | nil => exact hl
  | cons d r =>
    have hx : isNameChar 'x' := by decide
    by_cases hd : d.isDigit
    · rw [guardDigit, if_pos hd]
      exact List.forall_mem_cons.2 ⟨hx, hl⟩
    · rw [guardDigit, if_neg hd]
      exact hl

theorem isName_ofText (text : String) : IsName (ofText text) := by
  have hjoined : ∀ c ∈ List.intercalate ['_'] (words text.toList), isNameChar c := by
    intro c hc
    rcases mem_of_mem_intercalate hc with hc | ⟨w, hw, hc⟩
    · obtain rfl := List.mem_singleton.1 hc
      decide
    · rw [isNameChar, isAlphanum_of_mem_words w hw c hc, Bool.true_or]
  rw [IsName, ofText, String.toList_ofList, join]
  split
  · exact List.forall_mem_singleton.2 (by decide)
  · exact isNameChar_of_mem_guardDigit hjoined

/-! ### Names of parts, ports and signals -/

theorem isName_ofPart (part : String) : IsName (ofPart part) :=
  isName_append (by decide +kernel) (isName_ofText part)

theorem isName_ofInput (label : String) : IsName (ofInput label) :=
  isName_append (by decide +kernel) (isName_ofText label)

theorem isName_ofOutput (label : String) : IsName (ofOutput label) :=
  isName_append (by decide +kernel) (isName_ofText label)

theorem isName_ofSignal (part : String) {port : String} (hport : IsName port) :
    IsName (ofSignal part port) :=
  isName_append (isName_append (isName_ofPart part) (by decide +kernel)) hport

end DesignGraph.Identifier
