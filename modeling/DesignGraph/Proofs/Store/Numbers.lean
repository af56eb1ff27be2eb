import DesignGraph.Proofs.Store.Growth
import Mathlib.Order.Bounds.Basic

/-! # Numbers without gaps

A fresh uid is looked for above the last number handed out for its base, one number after the other
(`Probes`). As long as an edge is stored under each uid that is handed out, all numbers up to the last one
are taken (`Gapless`), whatever else is stored under uids of this form. So nothing free lies below the
place where the search starts, and it ends at the least number of all that is free.

* `probes_iff_firstUnused`: the search ends, at the number that `firstUnused` gives and at no other.
* `Gapless.insert`, `Gapless.setLabel`, `Gapless.insert_nextFree`: the steps that leave no gap.
* `Gapless.isLeast_firstUnused`: without gaps, the least free number is handed out. -/

namespace DesignGraph.Store

variable {g : Store} {base : Uid} {e : Hyperedge} {n m k : Nat} {taken : List Uid}

/-! ### The search for a number -/

theorem taken_of_lt_firstUnused (hn : n ≤ k) (hk : k < firstUnused base taken n) :
    numbered base k ∈ taken := by
  fun_induction firstUnused base taken n with
  | case1 taken n h _ ih =>
    rcases Nat.eq_or_lt_of_le hn with rfl | hlt
    · exact h
    · exact List.mem_of_mem_erase (ih hlt hk)
  | case2 taken n h => omega

/-- The search for a free number, one after the other: from the one it looks at first to the one where it
ends. -/
inductive Probes (g : Store) (base : Uid) : Nat → Nat → Prop
  | found {n : Nat} (hn : numbered base n ∉ g) : Probes g base n n
  | next {n m : Nat} (hn : numbered base n ∈ g) (hm : Probes g base (n + 1) m) : Probes g base n m

/-- A search passes over what is taken, up to the first number that is free. -/
theorem probes_iff : g.Probes base n m ↔
    n ≤ m ∧ numbered base m ∉ g ∧ ∀ k, n ≤ k → k < m → numbered base k ∈ g := by
  constructor
  · intro h
    induction h with
    | found hn => exact ⟨Nat.le_refl _, hn, fun k h₁ h₂ => absurd h₂ (by omega)⟩
    | next hn _ ih =>
      obtain ⟨hle, hfree, htaken⟩ := ih
      refine ⟨by omega, hfree, fun k h₁ h₂ => ?_⟩
      rcases Nat.eq_or_lt_of_le h₁ with rfl | hlt
      · exact hn
      · exact htaken k hlt h₂
  · rintro ⟨hle, hfree, htaken⟩
    obtain ⟨d, rfl⟩ := Nat.exists_eq_add_of_le hle
    induction d generalizing n with
    | zero => exact .found hfree
    | succ d ih =>
      have hd : n + (d + 1) = n + 1 + d := by omega
      rw [hd] at hfree htaken
      rw [hd]
      exact .next (htaken n (Nat.le_refl n) (by omega))
        (ih (by omega) hfree fun k h₁ h₂ => htaken k (by omega) h₂)

/-- **The search ends**, and at the least unused number only. -/
theorem probes_iff_firstUnused : g.Probes base n m ↔ m = firstUnused base g.uidList n := by
  have hfree : numbered base (firstUnused base g.uidList n) ∉ g := numbered_firstUnused_not_mem base g.uidList n
  have hle := le_firstUnused base g.uidList n
  constructor
  · intro h
    obtain ⟨hnm, hm, htaken⟩ := probes_iff.1 h
    rcases Nat.lt_trichotomy m (firstUnused base g.uidList n) with hlt | heq | hlt
    · exact absurd (taken_of_lt_firstUnused hnm hlt) hm
    · exact heq
    · exact absurd (htaken _ hle hlt) hfree
  · rintro rfl
    exact probes_iff.2 ⟨hle, hfree, fun k h₁ h₂ => taken_of_lt_firstUnused h₁ h₂⟩

/-! ### Stores without gaps -/

/-- Every uid with a number up to the last one handed out for its base is known. -/
def Gapless (g : Store) : Prop := ∀ base k, 1 ≤ k → k ≤ g.issued base → numbered base k ∈ g

theorem gapless_renumbered (g : Store) : Gapless g.renumbered := by
  intro base k h₁ h₂
  have : k ≤ 0 := h₂
  omega

theorem issued_insert (g : Store) (e : Hyperedge) : (g.insert e).issued = g.issued := by
  unfold insert
  split <;> rfl

theorem Gapless.insert (hg : Gapless g) (e : Hyperedge) : Gapless (g.insert e) := by
  intro base k h₁ h₂
  rw [issued_insert] at h₂
  exact mem_insert.2 (.inl (hg base k h₁ h₂))

theorem Gapless.setLabel (hg : Gapless g) (u : Uid) (label : String) : Gapless (g.setLabel u label) := by
  have hgrown : Extends g (g.setLabel u label) := grows_setLabel _ g u label
  exact fun base k h₁ h₂ => hgrown.mem (hg base k h₁ h₂)

/-- A number that is handed out leaves no gap once an edge is stored under its uid: the numbers that the
search passed over are taken. -/
theorem Gapless.insert_nextFree (hg : Gapless g) (hu : e.uid = (g.nextFree base).1) :
    Gapless ((g.nextFree base).2.insert e) := by
  intro base' k h₁ h₂
  rw [issued_insert] at h₂
  have h₂ : k ≤ if base' = base then firstUnused base g.uidList (g.issued base + 1) else g.issued base' :=
    h₂
  split at h₂
  · rename_i hbase
    rw [hbase]
    by_cases hold : k ≤ g.issued base
    · exact mem_insert.2 (.inl (hg base k h₁ hold))
    · rcases Nat.eq_or_lt_of_le h₂ with rfl | hlt
      · have hself := mem_insert_self (g.nextFree base).2 e
        rw [hu] at hself
        exact hself
      · exact mem_insert.2 (.inl (taken_of_lt_firstUnused (by omega) hlt))
  · exact mem_insert.2 (.inl (hg base' k h₁ h₂))

/-- **No free number is passed over.** -/
theorem Gapless.isLeast_firstUnused (hg : Gapless g) (base : Uid) :
    IsLeast {n | 1 ≤ n ∧ numbered base n ∉ g} (firstUnused base g.uidList (g.issued base + 1)) := by
  have hle := le_firstUnused base g.uidList (g.issued base + 1)
  refine ⟨⟨by omega, numbered_firstUnused_not_mem base g.uidList _⟩, fun n ⟨h₁, hfree⟩ => ?_⟩
  by_contra hlt
  by_cases hold : n ≤ g.issued base
  · exact hfree (hg base n h₁ hold)
  · exact hfree (taken_of_lt_firstUnused (Nat.lt_of_not_le hold) (Nat.lt_of_not_le hlt))

end DesignGraph.Store
