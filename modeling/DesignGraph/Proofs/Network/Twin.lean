import DesignGraph.Network.Assertion
import DesignGraph.Network.Factory
import DesignGraph.Proofs.Store.Twin

/-! # Classes and assertions on twins

Making a class and every typed assertion do the same on stores with the same edges: the same result, the
same rejections in the same order, and twins again (`Outcome.Alike`). Which endpoints are admitted is read
off the edges, so one lemma (`Twin.assertBetween`) serves all assertions. -/

namespace DesignGraph

open Store (Twin)

/-- Two outcomes with the same result and the same rejections, on twins. -/
structure Outcome.Alike (o o' : Outcome) : Prop where
  result : o'.result = o.result
  rejected : o'.rejected = o.rejected
  store : Twin o.store o'.store

namespace Outcome.Alike

variable {o o' : Outcome} (ho : Alike o o')

include ho

theorem andThen {next next' : Store → Outcome} (hnext : ∀ g h, Twin g h → Alike (next g) (next' h)) :
    Alike (o.andThen next) (o'.andThen next') := by
  have hrest := hnext _ _ ho.store
  unfold Outcome.andThen
  rw [ho.result]
  split
  · exact ho
  · exact ⟨hrest.result, congrArg₂ (· ++ ·) ho.rejected hrest.rejected, hrest.store⟩

theorem after (rejected : List Rejection) : Alike (o.after rejected) (o'.after rejected) :=
  ⟨ho.result, congrArg (rejected ++ ·) ho.rejected, ho.store⟩

end Outcome.Alike

namespace Store.Twin

variable {g h : Store} (hgh : Twin g h)

include hgh

theorem sift_eq (relation : Uid) (role : Role) (valid : UidSet) (expected : String) (uids : List Uid) :
    h.sift relation role valid expected uids = g.sift relation role valid expected uids :=
  hgh.reads (·.sift relation role valid expected uids) fun _ => rfl

/-- An assertion whose sides are read off the edges. -/
theorem assertBetween (relation : Uid) (source target : Store → Side)
    (hsource : ∀ g, source g = source g.renumbered) (htarget : ∀ g, target g = target g.renumbered)
    (sources targets : List Uid) :
    (g.assertBetween relation (source g) (target g) sources targets).Alike
      (h.assertBetween relation (source h) (target h) sources targets) := by
  unfold Store.assertBetween
  rw [hgh.reads source hsource, hgh.reads target htarget, hgh.sift_eq, hgh.sift_eq]
  have hfact := hgh.relateFrom relation
    (g.sift relation .source (source g).valid (source g).expected sources).1
    (g.sift relation .target (target g).valid (target g).expected targets).1
  exact ⟨hfact.1, rfl, hfact.2⟩

theorem hasInterface (components interfaces : List Uid) :
    (g.hasInterface components interfaces).Alike (h.hasInterface components interfaces) :=
  hgh.assertBetween _ .component .interfaceInstance (fun _ => rfl) (fun _ => rfl) components interfaces

theorem connectInterface (sources targets : List Uid) :
    (g.connectInterface sources targets).Alike (h.connectInterface sources targets) :=
  hgh.assertBetween _ .interfaceInstance .interfaceInstance (fun _ => rfl) (fun _ => rfl) sources targets

theorem partOfNetwork (components networks : List Uid) :
    (g.partOfNetwork components networks).Alike (h.partOfNetwork components networks) :=
  hgh.assertBetween _ .componentInstance .network (fun _ => rfl) (fun _ => rfl) components networks

theorem dependsOn (inputs outputs : List Uid) :
    (g.dependsOn inputs outputs).Alike (h.dependsOn inputs outputs) :=
  hgh.assertBetween _ .inputInstance .outputInstance (fun _ => rfl) (fun _ => rfl) inputs outputs

theorem realizes (implementations algorithms : List Uid) :
    (g.realizes implementations algorithms).Alike (h.realizes implementations algorithms) :=
  hgh.assertBetween _ .implementationClass .algorithmClass (fun _ => rfl) (fun _ => rfl) implementations algorithms

theorem exportInterfaces (networks : UidSet) (interfaces : List Uid) :
    (g.exportInterfaces networks interfaces).Alike (h.exportInterfaces networks interfaces) := by
  have hvalid : h.interfacesOf (h.componentsOf networks "" .forward) "" .forward =
      g.interfacesOf (g.componentsOf networks "" .forward) "" .forward :=
    hgh.reads (fun g => g.interfacesOf (g.componentsOf networks "" .forward) "" .forward) fun _ => rfl
  unfold Store.exportInterfaces
  rw [hvalid, hgh.reads Side.network fun _ => rfl]
  dsimp only
  rw [hgh.sift_eq, hgh.sift_eq]
  split
  · exact ⟨rfl, rfl, hgh⟩
  · exact (hgh.hasInterface _ _).after _

/-- The interfaces are checked against what the second assertion admits before the first one is made. -/
theorem hasInterfaceAs (relation : Uid) (target : Store → Side)
    (htarget : ∀ g, target g = target g.renumbered) (algorithms interfaces : UidSet) :
    (g.hasInterfaceAs relation (target g) algorithms interfaces).Alike
      (h.hasInterfaceAs relation (target h) algorithms interfaces) := by
  refine (hgh.hasInterface _ _).andThen fun k k' hk => ?_
  rw [hgh.reads target htarget]
  exact hk.assertBetween relation .algorithm (fun _ => target g) (fun _ => rfl) (fun _ => rfl) _ _

theorem needsInterface (algorithms inputs : UidSet) :
    (g.needsInterface algorithms inputs).Alike (h.needsInterface algorithms inputs) :=
  hgh.hasInterfaceAs _ .inputInstance (fun _ => rfl) algorithms inputs

theorem providesInterface (algorithms outputs : UidSet) :
    (g.providesInterface algorithms outputs).Alike (h.providesInterface algorithms outputs) :=
  hgh.hasInterfaceAs _ .outputInstance (fun _ => rfl) algorithms outputs

theorem createClass (root : ClassRoot) (u : Uid) (label : String) (superclasses : UidSet) :
    (g.createClass root u label superclasses).Alike (h.createClass root u label superclasses) := by
  have hnames : h.canNameClass u = g.canNameClass u := hgh.reads (·.canNameClass u) fun _ => rfl
  have hadmitted : root.admitted h = root.admitted g :=
    hgh.reads root.admitted fun _ => by cases root <;> rfl
  unfold Store.createClass
  rw [hnames, hadmitted, hgh.sift_eq]
  dsimp only
  split
  · split
    · exact ⟨rfl, rfl, hgh⟩
    · have hfact := (hgh.create u label).2.relateFrom Vocabulary.isA (.single u)
        ((g.sift Vocabulary.isA .superclass (root.admitted g) root.expected
          (superclasses.insert root.uid).toList).1.erase u)
      exact ⟨congrArg (Option.map fun _ => u) hfact.1, rfl, hfact.2⟩
  · exact ⟨rfl, rfl, hgh⟩

end Store.Twin

end DesignGraph
