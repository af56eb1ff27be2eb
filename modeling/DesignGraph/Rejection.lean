import DesignGraph.Store
import DesignGraph.Text.Quoted

/-! # Rejections and outcomes

An assertion drops the endpoints of the wrong kind, goes on with the rest and leaves one `Rejection` for
every endpoint dropped. Its `Outcome` is the uid it gives, if any, the store it leaves and these
rejections in order. -/

namespace DesignGraph

/-- Where an endpoint was given. -/
inductive Role where
  | source
  | target
  | superclass
  deriving DecidableEq, Repr

/-- The written name of a role. -/
def Role.name : Role → String
  | source => "source"
  | target => "target"
  | superclass => "superclass"

/-- Why an endpoint was dropped. -/
inductive Reason where
  | unknownUid
  | notAKnown (expected : String)
  deriving DecidableEq, Repr

/-- The reason in words. -/
def Reason.message : Reason → String
  | unknownUid => "unknown uid"
  | notAKnown expected => "not a known " ++ expected

/-- An endpoint that was dropped from an assertion. -/
structure Rejection where
  uid : Uid
  /-- The relation kind that was to be asserted. -/
  relation : Uid
  role : Role
  reason : Reason
  deriving DecidableEq, Repr

/-- The rejection in words. -/
def Rejection.message (r : Rejection) : String :=
  r.relation ++ ": dropped " ++ r.role.name ++ " " ++ Text.quoted r.uid ++ " (" ++ r.reason.message ++ ")"

/-- What an operation that may reject endpoints leaves. -/
structure Outcome where
  result : Option Uid
  store : Store
  rejected : List Rejection

namespace Outcome

/-- Nothing done, nothing rejected. -/
def nothing (g : Store) : Outcome := ⟨none, g, []⟩

/-- Continues on the store that was left, if there was a result, and keeps the rejections. -/
def andThen (o : Outcome) (next : Store → Outcome) : Outcome :=
  if o.result.isNone then o
  else
    let o' := next o.store
    { o' with rejected := o.rejected ++ o'.rejected }

/-- Puts earlier rejections in front. -/
def after (rejected : List Rejection) (o : Outcome) : Outcome :=
  { o with rejected := rejected ++ o.rejected }

end Outcome

namespace Store

/-- The rejection of an endpoint, which says whether the uid is known at all. -/
def reject (g : Store) (relation : Uid) (role : Role) (expected : String) (u : Uid) : Rejection :=
  ⟨u, relation, role, if u ∈ g then .notAKnown expected else .unknownUid⟩

/-- Parts a list of endpoints into those that are valid and the rejections of the others, one for each
time an endpoint is given. -/
def sift (g : Store) (relation : Uid) (role : Role) (valid : UidSet) (expected : String)
    (uids : List Uid) : UidSet × List Rejection :=
  (.ofList (uids.filter fun u => decide (u ∈ valid)),
    (uids.filter fun u => !decide (u ∈ valid)).map (g.reject relation role expected))

end Store

end DesignGraph
