/-! # Sets of uids

A `UidSet` is a finite set of uids, kept as the list of its members in strictly ascending order of
code points. Equal sets are therefore equal lists (`UidSet.ext`), every set has one written form, and
the order in which members were found never shows. Each operation has one lemma that says which uids
its result holds (`mem_insert`, `mem_union`, `mem_filter`, …). -/

namespace DesignGraph

/-- A globally unique identifier of a hyperedge. -/
abbrev Uid := String

/-- A finite set of uids. -/
structure UidSet where
  toList : List Uid
  ascending : toList.Pairwise (· < ·)
  deriving DecidableEq

namespace UidSet

instance : Membership Uid UidSet := ⟨fun s u => u ∈ s.toList⟩

instance (u : Uid) (s : UidSet) : Decidable (u ∈ s) := inferInstanceAs (Decidable (u ∈ s.toList))

theorem mem_def {u : Uid} {s : UidSet} : u ∈ s ↔ u ∈ s.toList := Iff.rfl

/-! ### One more member -/

/-- Puts `u` in its place in an ascending list, unless it is there already. -/
def insertSorted (u : Uid) : List Uid → List Uid
  | [] => [u]
  | v :: r => if u = v then v :: r else if u < v then u :: v :: r else v :: insertSorted u r

theorem mem_insertSorted {u v : Uid} : ∀ {l : List Uid}, v ∈ insertSorted u l ↔ v = u ∨ v ∈ l
  | [] => by simp [insertSorted]
  | w :: r => by
    unfold insertSorted
    split
    · simp_all
    · split
      · simp
      · simp only [List.mem_cons, mem_insertSorted (l := r)]
        grind

theorem lt_of_not_lt {u v : Uid} (hne : u ≠ v) (h : ¬ u < v) : v < u := by
  rcases String.le_total u v with h' | h'
  · exact absurd (String.le_antisymm h' (String.not_lt.1 h)) hne
  · exact Decidable.byContradiction fun hn => hne (String.le_antisymm (String.not_lt.1 hn) h')

theorem pairwise_insertSorted (u : Uid) :
    ∀ l : List Uid, l.Pairwise (· < ·) → (insertSorted u l).Pairwise (· < ·)
  | [], _ => by simp [insertSorted]
  | v :: r, h => by
    have hr := List.pairwise_cons.1 h
    unfold insertSorted
    split
    · exact h
    · rename_i hne
      split
      · rename_i hlt
        refine List.pairwise_cons.2 ⟨fun w hw => ?_, h⟩
        rcases List.mem_cons.1 hw with rfl | hw
        · exact hlt
        · exact String.lt_trans hlt (hr.1 w hw)
      · rename_i hlt
        refine List.pairwise_cons.2 ⟨fun w hw => ?_, pairwise_insertSorted u r hr.2⟩
        rcases mem_insertSorted.1 hw with rfl | hw
        · exact lt_of_not_lt hne hlt
        · exact hr.1 w hw

/-- The set with `u` added. -/
def insert (u : Uid) (s : UidSet) : UidSet :=
  ⟨insertSorted u s.toList, pairwise_insertSorted u s.toList s.ascending⟩

@[simp] theorem mem_insert {u v : Uid} {s : UidSet} : v ∈ s.insert u ↔ v = u ∨ v ∈ s :=
  mem_insertSorted

/-! ### Building sets -/

/-- The set without members. -/
def empty : UidSet := ⟨[], List.Pairwise.nil⟩

instance : EmptyCollection UidSet := ⟨empty⟩

instance : Inhabited UidSet := ⟨empty⟩

@[simp] theorem not_mem_empty (u : Uid) : u ∉ (∅ : UidSet) := List.not_mem_nil

/-- The set with one member. -/
def single (u : Uid) : UidSet := ⟨[u], List.pairwise_singleton _ _⟩

@[simp] theorem mem_single {u v : Uid} : v ∈ single u ↔ v = u := List.mem_singleton

/-- The members of a list, added to `s`. -/
def insertAll (s : UidSet) (l : List Uid) : UidSet := l.foldl (fun s u => s.insert u) s

@[simp] theorem mem_insertAll {u : Uid} : ∀ {l : List Uid} {s : UidSet},
    u ∈ s.insertAll l ↔ u ∈ l ∨ u ∈ s
  | [], s => by simp [insertAll]
  | v :: r, s => by
    have ih := mem_insertAll (u := u) (l := r) (s := s.insert v)
    simp only [insertAll, List.foldl_cons] at ih ⊢
    simp only [ih, mem_insert, List.mem_cons]
    grind

/-- The set of the members of a list. -/
def ofList (l : List Uid) : UidSet := empty.insertAll l

@[simp] theorem mem_ofList {u : Uid} {l : List Uid} : u ∈ ofList l ↔ u ∈ l := by
  show u ∈ empty.insertAll l ↔ u ∈ l
  rw [mem_insertAll]
  exact or_iff_left (not_mem_empty u)

@[simp] theorem mem_toList {u : Uid} {s : UidSet} : u ∈ s.toList ↔ u ∈ s := Iff.rfl

/-! ### Set operations -/

/-- The members that satisfy `p`. -/
def filter (p : Uid → Bool) (s : UidSet) : UidSet := ⟨s.toList.filter p, s.ascending.filter p⟩

@[simp] theorem mem_filter {p : Uid → Bool} {u : Uid} {s : UidSet} :
    u ∈ s.filter p ↔ u ∈ s ∧ p u := List.mem_filter

/-- The uids in `s` or in `t`. -/
def union (s t : UidSet) : UidSet := s.insertAll t.toList

instance : Union UidSet := ⟨union⟩

@[simp] theorem mem_union {u : Uid} {s t : UidSet} : u ∈ s ∪ t ↔ u ∈ s ∨ u ∈ t :=
  mem_insertAll.trans Or.comm

/-- The uids in `s` and in `t`. -/
def inter (s t : UidSet) : UidSet := s.filter fun u => decide (u ∈ t)

instance : Inter UidSet := ⟨inter⟩

@[simp] theorem mem_inter {u : Uid} {s t : UidSet} : u ∈ s ∩ t ↔ u ∈ s ∧ u ∈ t :=
  mem_filter.trans (by simp)

/-- The uids in `s` and not in `t`. -/
def diff (s t : UidSet) : UidSet := s.filter fun u => !decide (u ∈ t)

instance : SDiff UidSet := ⟨diff⟩

@[simp] theorem mem_diff {u : Uid} {s t : UidSet} : u ∈ s \ t ↔ u ∈ s ∧ u ∉ t :=
  mem_filter.trans (by simp)

/-- The set without `u`. -/
def erase (s : UidSet) (u : Uid) : UidSet := s.filter (· != u)

@[simp] theorem mem_erase {u v : Uid} {s : UidSet} : v ∈ s.erase u ↔ v ∈ s ∧ v ≠ u :=
  mem_filter.trans (by simp)

/-- The union of the sets that `f` gives for the members. -/
def flatMap (s : UidSet) (f : Uid → UidSet) : UidSet :=
  s.toList.foldl (fun t u => t ∪ f u) empty

theorem mem_foldl_union {f : Uid → UidSet} {v : Uid} : ∀ {l : List Uid} {t : UidSet},
    v ∈ l.foldl (fun t u => t ∪ f u) t ↔ v ∈ t ∨ ∃ u ∈ l, v ∈ f u
  | [], t => by simp
  | u :: l, t => by
    simp only [List.foldl_cons, mem_foldl_union (l := l), mem_union, List.mem_cons]
    grind

@[simp] theorem mem_flatMap {f : Uid → UidSet} {s : UidSet} {v : Uid} :
    v ∈ s.flatMap f ↔ ∃ u ∈ s, v ∈ f u :=
  mem_foldl_union.trans (or_iff_right (not_mem_empty v))

/-- No members. -/
def isEmpty (s : UidSet) : Bool := s.toList.isEmpty

/-- The number of members. -/
def size (s : UidSet) : Nat := s.toList.length

/-- What all the sets have in common; nothing if there is no set at all. -/
def intersectAll : List UidSet → UidSet
  | [] => ∅
  | s :: r => r.foldl (· ∩ ·) s

/-- The uids of any of the sets. -/
def uniteAll (l : List UidSet) : UidSet := l.foldl (· ∪ ·) ∅

/-! ### Equality -/

theorem eq_of_mem_iff : ∀ {l m : List Uid}, l.Pairwise (· < ·) → m.Pairwise (· < ·) →
    (∀ u, u ∈ l ↔ u ∈ m) → l = m
  | [], [], _, _, _ => rfl
  | [], v :: m, _, _, h => absurd ((h v).2 (by simp)) (by simp)
  | u :: l, [], _, _, h => absurd ((h u).1 (by simp)) (by simp)
  | u :: l, v :: m, hl, hm, h => by
    have hl' := List.pairwise_cons.1 hl
    have hm' := List.pairwise_cons.1 hm
    have huv : u = v := by
      rcases List.mem_cons.1 ((h u).1 (by simp)) with e | hu
      · exact e
      · rcases List.mem_cons.1 ((h v).2 (by simp)) with e | hv
        · exact e.symm
        · exact absurd (String.lt_trans (hl'.1 v hv) (hm'.1 u hu)) (String.lt_irrefl u)
    subst huv
    refine congrArg (u :: ·) (eq_of_mem_iff hl'.2 hm'.2 fun w => ⟨fun hw => ?_, fun hw => ?_⟩)
    · rcases List.mem_cons.1 ((h w).1 (by simp [hw])) with e | hw'
      · exact absurd (e ▸ hl'.1 w hw) (String.lt_irrefl _)
      · exact hw'
    · rcases List.mem_cons.1 ((h w).2 (by simp [hw])) with e | hw'
      · exact absurd (e ▸ hm'.1 w hw) (String.lt_irrefl _)
      · exact hw'

/-- Sets with the same members are equal. -/
@[ext] theorem ext {s t : UidSet} (h : ∀ u, u ∈ s ↔ u ∈ t) : s = t := by
  have e := eq_of_mem_iff s.ascending t.ascending h
  cases s
  cases t
  cases e
  rfl

end UidSet

end DesignGraph
