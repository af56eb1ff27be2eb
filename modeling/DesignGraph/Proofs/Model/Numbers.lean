import DesignGraph.Proofs.Model.Action

/-! # Fresh uids of a graph in use

A graph starts with no number handed out, so without a gap among them, and every action that takes a fresh
uid stores an edge under it, a plain request for one excepted. So no gap ever arises (`gapless_since`), and
the next fresh uid is the one with the least unused number, as if no number had been handed out before
(`Ontology.numbers_gapless`). -/

namespace DesignGraph

open Store

namespace Ontology

theorem gapless_ofStore (level : Level) (g : Store) : Gapless (ofStore level g).store :=
  (fills_bootstrap (fun _ => False) level g.renumbered).gapless (gapless_renumbered g)

/-- **The step** for the numbers: an action leaves no gap, unless it is a plain request for a fresh uid. -/
theorem gapless_apply {o : Ontology} (ho : Gapless o.store) {a : Action} (ha : ∀ base, a ≠ .nextFree base) :
    Gapless (a.apply o).store :=
  (a.fills o ha).gapless ho

/-- **The run** for the numbers. -/
theorem gapless_since {o : Ontology} (ho : Gapless o.store) {history : List Action}
    (hhistory : ∀ base, .nextFree base ∉ history) : Gapless (o.since history).store := by
  induction history generalizing o with
  | nil => exact ho
  | cons a history ih =>
    have ha : ∀ base, a ≠ .nextFree base := by
      rintro base rfl
      exact hhistory base List.mem_cons_self
    exact ih (gapless_apply ho ha) fun base hmem => hhistory base (List.mem_cons_of_mem a hmem)

/-- **Numbers without gaps.** Take any graph that was opened and has a history without plain requests for
fresh uids. Concepts and other edges may have been stored under any uids in it, such as those that look like
a base with a number. Of every base, all uids with a number up to the last one handed out are stored. The
search for a fresh uid, which tries the numbers behind that one in turn, ends, and it ends at the least
number of all from one on whose uid is not stored. The uid with this number is handed out. -/
theorem numbers_gapless (level : Level) (g : Store) (history : List Action)
    (hhistory : ∀ base, .nextFree base ∉ history) (base : Uid) :
    let o := (ofStore level g).since history
    (∀ k, 1 ≤ k → k ≤ o.store.issued base → numbered base k ∈ o.store) ∧
    ∃ n, IsLeast {n | 1 ≤ n ∧ numbered base n ∉ o.store} n ∧
      (∀ m, o.store.Probes base (o.store.issued base + 1) m ↔ m = n) ∧
      (o.store.nextFree base).1 = numbered base n := by
  intro o
  have ho : Gapless o.store := gapless_since (gapless_ofStore level g) hhistory
  exact ⟨ho base, _, ho.isLeast_firstUnused base, fun m => probes_iff_firstUnused, rfl⟩

/-- Instances of `A` and of `A1`, with concepts made in between under uids that look like those of the next
ones, and a deep copy that makes one of each. -/
def lookalikes : List Action := [
  .call (.create "A" "Amplifier"),
  .call (.create "A1" "Attenuator"),
  .change (.instantiate (.single "A") "") trivial,
  .call (.create "A4" ""),
  .change (.instantiate (.single "A1") "") trivial,
  .call (.create "A12" ""),
  .change (.instantiate (.single "A") "") trivial,
  .call (.relateFrom Vocabulary.hasA (.single "A") (.single "A1")),
  .instantiateDeep (.single "A")]

theorem numbers_gapless_lookalikes :
    let o := (ofStore .concepts .empty).since lookalikes
    (∀ base, .nextFree base ∉ lookalikes) ∧
      o.store.issued "A" = 5 ∧ (o.store.nextFree "A").1 = "A6" ∧
      o.store.issued "A1" = 3 ∧ (o.store.nextFree "A1").1 = "A14" ∧
      IsLeast {n | 1 ≤ n ∧ numbered "A" n ∉ o.store} 6 ∧ o.store.Probes "A" 6 6 := by
  intro o
  have hhistory : ∀ base, .nextFree base ∉ lookalikes := by simp [lookalikes]
  have hrun : o.store.issued "A" = 5 ∧ (o.store.nextFree "A").1 = "A6" ∧
      o.store.issued "A1" = 3 ∧ (o.store.nextFree "A1").1 = "A14" := by decide +kernel
  obtain ⟨-, n, hleast, hsearch, hn⟩ := numbers_gapless .concepts .empty lookalikes hhistory "A"
  obtain ⟨hlast, hnext, hlast', hnext'⟩ := hrun
  obtain rfl : n = 6 := numbered_inj (hn.symm.trans hnext)
  have hends := (hsearch 6).2 rfl
  rw [hlast] at hends
  exact ⟨hhistory, hlast, hnext, hlast', hnext', hleast, hends⟩

end Ontology

end DesignGraph
