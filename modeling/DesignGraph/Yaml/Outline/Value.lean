import DesignGraph.Yaml.Outline
import DesignGraph.Yaml.Value

/-! # What an outline says

The value that a written document stands for: `Outline.value` takes an outline to it part by part. -/

namespace DesignGraph.Yaml.Outline

mutual

/-- The value that an outline stands for. -/
def value : Outline → Value
  | null => .null
  | bool b => .atom (.bool b)
  | int n => .atom (.int n)
  | text s => .text s
  | list items => .list (values items)
  | map entries => .map (entryValues entries)

/-- The values that the items of a list stand for. -/
def values : List Outline → List Value
  | [] => []
  | o :: os => value o :: values os

/-- The entries that those of a mapping stand for. -/
def entryValues : List (String × Outline) → List (Atom × Value)
  | [] => []
  | (k, o) :: es => (.text k, value o) :: entryValues es

end

theorem values_eq_map (items : List Outline) : values items = items.map value := by
  induction items with
  | nil => simp [values]
  | cons o os ih => simp [values, ih]

end DesignGraph.Yaml.Outline
