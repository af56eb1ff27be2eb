import DesignGraph.UidSet

/-! # Hyperedges

A hyperedge is a concept (without endpoints), a relation kind (its endpoints are the classes it is meant
for) or a fact: an instance of a relation kind that leads from a set of concepts to a set of concepts.
Endpoints are lists without repetitions (`Tidy`); their order is kept, so that a written model reads back
as it was. Only a fact that names its relation kind takes part in reasoning (`asserts?`). -/

namespace DesignGraph

/-- What a hyperedge stands for. -/
inductive Kind where
  | concept
  | relation
  | fact
  deriving DecidableEq, Repr

namespace Kind

/-- The written name of a kind. -/
def name : Kind → String
  | concept => "concept"
  | relation => "relation"
  | fact => "fact"

/-- The kind with this written name. -/
def ofName? (s : String) : Option Kind := [concept, relation, fact].find? fun k => k.name == s

theorem ofName?_name (k : Kind) : ofName? k.name = some k := by cases k <;> decide

end Kind

/-- A node or an edge of the graph. -/
structure Hyperedge where
  uid : Uid
  label : String
  kind : Kind
  sources : List Uid
  targets : List Uid
  /-- The relation kind that a fact is an instance of. -/
  relation : Option Uid
  deriving DecidableEq, Repr

namespace Hyperedge

/-- A concept: a label and no endpoints. -/
def concept (uid : Uid) (label : String) : Hyperedge := ⟨uid, label, .concept, [], [], none⟩

/-- A fact of a relation kind, which lends it its label. -/
def fact (uid : Uid) (label : String) (sources targets : List Uid) (relation : Uid) : Hyperedge :=
  ⟨uid, label, .fact, sources, targets, some relation⟩

/-- The relation kind that the edge asserts something of: it is a fact and names one. -/
def asserts? (e : Hyperedge) : Option Uid :=
  if e.kind = .fact then e.relation.filter (· != "") else none

/-- Neither list of endpoints repeats a uid. -/
def Tidy (e : Hyperedge) : Prop := e.sources.Nodup ∧ e.targets.Nodup

instance (e : Hyperedge) : Decidable e.Tidy := by unfold Tidy; infer_instance

/-- The edge with each endpoint at its first place only. -/
def tidied (e : Hyperedge) : Hyperedge :=
  { e with sources := e.sources.eraseDups, targets := e.targets.eraseDups }

theorem nodup_eraseDups : ∀ (n : Nat) (l : List Uid), l.length ≤ n → l.eraseDups.Nodup
  | _, [], _ => by simp
  | 0, a :: l, h => by simp at h
  | n + 1, a :: l, h => by
    rw [List.eraseDups_cons]
    refine List.nodup_cons.2 ⟨fun hm => ?_, nodup_eraseDups n _ ?_⟩
    · simpa using List.mem_eraseDups.1 hm
    · exact Nat.le_trans (List.length_filter_le _ _) (Nat.le_of_succ_le_succ h)

theorem tidy_tidied (e : Hyperedge) : e.tidied.Tidy :=
  ⟨nodup_eraseDups _ _ (Nat.le_refl _), nodup_eraseDups _ _ (Nat.le_refl _)⟩

theorem eraseDups_eq_self : ∀ {l : List Uid}, l.Nodup → l.eraseDups = l
  | [], _ => rfl
  | a :: l, h => by
    have h' := List.nodup_cons.1 h
    have hf : l.filter (fun b => !b == a) = l :=
      List.filter_eq_self.2 fun b hb => by
        have : b ≠ a := fun e => h'.1 (e ▸ hb)
        simp [this]
    rw [List.eraseDups_cons, hf, eraseDups_eq_self h'.2]

theorem tidied_eq_self {e : Hyperedge} (h : e.Tidy) : e.tidied = e := by
  cases e
  simp only [tidied, eraseDups_eq_self h.1, eraseDups_eq_self h.2]

/-- All uids that the edge mentions as endpoints. -/
def endpoints (e : Hyperedge) : List Uid := e.sources ++ e.targets

end Hyperedge

end DesignGraph
