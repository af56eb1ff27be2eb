import DesignGraph.Storage.Tree
import Mathlib.Logic.Basic

/-! # Writing changes one place

A path leads to one place, or through none (`Tree.place?`), and wherever a file can be written there is such a
place (`Tree.exists_place`). A file that is written there changes what is at this place and nowhere else
(`Tree.changesOnly_write`), and since the directories on the way stay directories the path still leads there
afterwards, where it finds the bytes written (`Tree.look_write`). -/

namespace DesignGraph.Storage

namespace Tree

variable {t u : Tree} {place place' : List String} {content : Option (List UInt8)} {p : Path}
  {bytes : List UInt8} {found : Found}

/-- The place that a path leads to. -/
def place? (t : Tree) (p : Path) : Option (List String) := (t.resolve (t.start p) p.parts).getLeft?

/-- The trees differ at most in what is at the place that a path leads to. -/
def ChangesOnly (p : Path) (t u : Tree) : Prop :=
  u.here = t.here ∧ ∀ place, t.place? p ≠ some place → u.entry? place = t.entry? place

/-! ### One entry -/

@[simp] theorem entry?_nil (t : Tree) : t.entry? [] = some none := rfl

theorem entry?_of_ne_nil (hplace : place ≠ []) (t : Tree) : t.entry? place = t.entries.lookup place :=
  if_neg (by simpa using hplace)

theorem lookup_replace (entries : List (List String × Option (List UInt8))) :
    (entries.map fun e => if e.1 = place then (place, content) else e).lookup place' =
      if place' = place then (entries.lookup place).map fun _ => content else entries.lookup place' := by
  induction entries with
  | nil => simp
  | cons e entries ih =>
    obtain ⟨key, old⟩ := e
    have hother : ∀ {q q' : List String}, q ≠ q' → (q == q') = false := beq_eq_false_iff_ne.2
    rw [List.map_cons, List.lookup_cons, List.lookup_cons, List.lookup_cons]
    by_cases hkey : key = place
    · subst hkey
      by_cases hplace : place' = key
      · simp [hplace]
      · simp [hplace, hother hplace, ih]
    · by_cases hplace : place' = place
      · subst hplace
        simp [hkey, hother (Ne.symm hkey), ih]
      · simp [hkey, hplace, ih]

/-- What is put at a place is found there, and all other places stay as they are. -/
theorem entry?_put (hplace : place ≠ []) :
    Tree.entry? (t.put place content) place' = if place' = place then some content else t.entry? place' := by
  by_cases hempty : place' = []
  · subst hempty
    simp [hplace.symm]
  rw [entry?_of_ne_nil hempty, entry?_of_ne_nil hempty, put, entry?_of_ne_nil hplace]
  split
  · rename_i hsome
    obtain ⟨old, hold⟩ := Option.isSome_iff_exists.1 hsome
    rw [lookup_replace, hold]
    rfl
  · rename_i hnone
    rw [Option.not_isSome_iff_eq_none] at hnone
    rw [List.lookup_append]
    by_cases h : place' = place
    · simp [h, hnone]
    · simp [h, List.lookup_cons, beq_eq_false_iff_ne.2 h]

theorem here_put : (t.put place content).here = t.here := by
  rw [put]
  split <;> rfl

/-! ### Where paths lead -/

/-- A path that leads to no place names nothing that can be written. -/
theorem writeFault?_of_resolve {parts : List String} :
    ∀ {start : List String}, t.resolve start parts = .inr found → found.writeFault? ≠ none := by
  induction parts with
  | nil => exact fun h => nomatch h
  | cons part rest ih =>
    intro start h
    rw [resolve] at h
    split at h
    · cases h
      exact Option.some_ne_none _
    · cases h
      exact Option.some_ne_none _
    · split at h
      · exact ih h
      · split at h
        · cases h
          exact Option.some_ne_none _
        · exact ih h

/-- A path leads to the same place as long as directories stay directories. -/
theorem resolve_of_directories (hdir : ∀ place, t.entry? place = some none → u.entry? place = some none)
    {parts : List String} :
    ∀ {start : List String}, t.resolve start parts = .inl place → u.resolve start parts = .inl place := by
  induction parts with
  | nil => exact fun h => h
  | cons part rest ih =>
    intro start h
    rw [resolve] at h ⊢
    split at h
    · cases h
    · cases h
    · rename_i hstart
      rw [hdir start hstart]
      simp only
      split at h
      · rename_i hup
        rw [if_pos hup]
        exact ih h
      · rename_i hup
        rw [if_neg hup]
        split at h
        · cases h
        · rename_i hlong
          rw [if_neg hlong]
          exact ih h

theorem place?_eq_some : t.place? p = some place ↔ t.resolve (t.start p) p.parts = .inl place :=
  Sum.getLeft?_eq_some_iff

/-! ### Files -/

section

variable (hfree : (t.look p).writeFault? = none)

include hfree

/-- **What can be written has a place**. -/
theorem exists_place : ∃ place, t.place? p = some place := by
  unfold look at hfree
  split at hfree
  · cases hfree
  split at hfree
  · cases hfree
  split at hfree
  · rename_i found hfound
    exact absurd hfree (writeFault?_of_resolve hfound)
  · rename_i place hplace
    exact ⟨place, place?_eq_some.2 hplace⟩

/-- Where a file can be written there is no directory. -/
theorem entry?_ne_directory (h : t.place? p = some place) : t.entry? place ≠ some none := by
  intro hdir
  unfold look at hfree
  split at hfree
  · cases hfree
  split at hfree
  · cases hfree
  simp [place?_eq_some.1 h, hdir, Found.writeFault?] at hfree

omit hfree in
theorem write_of_place (h : t.place? p = some place) : t.write p bytes = t.put place (some bytes) := by
  simp [write, place?_eq_some.1 h]

/-- After a file is written there are its bytes at its place, and all else is as it was. -/
theorem entry?_write (h : t.place? p = some place) : Tree.entry? (t.write p bytes) place' =
    if place' = place then some (some bytes) else t.entry? place' := by
  have hplace : place ≠ [] := by
    rintro rfl
    exact entry?_ne_directory hfree h (entry?_nil t)
  rw [write_of_place h, entry?_put hplace]

/-- **Nothing else changes** when a file is written. -/
theorem changesOnly_write : ChangesOnly p t (t.write p bytes) := by
  obtain ⟨place, h⟩ := exists_place hfree
  refine ⟨by rw [write_of_place h, here_put], fun place' hne => ?_⟩
  rw [entry?_write hfree h, if_neg]
  rintro rfl
  exact hne h

/-- **What is written is found** under the path. -/
theorem look_write : (t.write p bytes).look p = .file bytes := by
  obtain ⟨place, h⟩ := exists_place hfree
  have hstart : (t.write p bytes).start p = t.start p := by
    rw [start, start, (changesOnly_write hfree).1]
  have hagain : (t.write p bytes).resolve (t.start p) p.parts = .inl place :=
    resolve_of_directories (fun q hq => by
      rw [entry?_write hfree h, if_neg]
      · exact hq
      · rintro rfl
        exact entry?_ne_directory hfree h hq) (place?_eq_some.1 h)
  have hentry : Tree.entry? (t.write p bytes) place = some (some bytes) := by
    rw [entry?_write hfree h, if_pos rfl]
  unfold look at hfree ⊢
  split at hfree
  · cases hfree
  rename_i hname
  split at hfree
  · cases hfree
  rename_i hlong
  simp only [hname, hlong, hstart, hagain, hentry, Bool.false_eq_true, if_false]

end

example : Tree.look (Tree.write ⟨["w"], [(["w"], none), (["w", "d"], none)]⟩ (.ofText "/w/d/../x.yml") [1])
    (.ofText "../w/x.yml") = .file [1] := by
  decide +kernel

end Tree

end DesignGraph.Storage
