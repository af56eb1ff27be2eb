import DesignGraph.UidSet

/-! # Notices

What a generator run reports on its way, each notice with its level. -/

namespace DesignGraph.Entity

/-- One notice of a run. -/
inductive Notice where
  /-- The entity of an algorithm was stored. -/
  | generated (name : String) (parts : Nat)
  /-- The run is over. -/
  | finished (made lost : Nat)
  /-- The entity of an algorithm could not be stored. -/
  | failed (algorithm : Uid) (message : String)
  /-- The composition of a target has a cycle. -/
  | skipped (algorithm : Uid) (message : String)
  /-- No datatype realizes an interface class. -/
  | noDatatype (interfaceClass : Uid) (name : String)
  /-- More than one datatype realizes an interface class. -/
  | manyDatatypes (count : Nat) (interfaceClass : Uid) (name : String)
  deriving DecidableEq, Repr

namespace Notice

/-- The level of a notice. -/
def level : Notice → String
  | .generated _ _ | .finished _ _ => "INFO"
  | .failed _ _ | .skipped _ _ => "ERROR"
  | .noDatatype _ _ | .manyDatatypes _ _ _ => "WARNING"

/-- The notice in words. -/
def message : Notice → String
  | .generated name parts =>
    "Generated entity " ++ name ++ " (" ++ (if parts = 0 then "atomic" else "composite") ++ ", " ++
      toString parts ++ " parts)"
  | .finished made lost =>
    "Generated " ++ toString made ++ " entities, " ++ toString lost ++ " failed"
  | .failed algorithm message => "Generation failed for " ++ algorithm ++ ": " ++ message
  | .skipped algorithm message => "Skipping " ++ algorithm ++ ": " ++ message
  | .noDatatype interfaceClass name =>
    "No datatype found for interface class " ++ interfaceClass ++ " of " ++ name
  | .manyDatatypes count interfaceClass name =>
    toString count ++ " datatypes found for interface class " ++ interfaceClass ++ " of " ++ name

end Notice

end DesignGraph.Entity
