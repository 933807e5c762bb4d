/-!
# Types of attributes, and their errors
-/

namespace LiveGraph

/-- The type of the values in an attribute table. -/
inductive AttributeType
  | text
  | integer
  | float
deriving DecidableEq, Repr, Inhabited

/-- The type as it stands in messages. -/
def AttributeType.label : AttributeType → String
  | text => "text"
  | integer => "integer"
  | float => "float"

/-- The type with a given label. -/
def AttributeType.ofLabel? : String → Option AttributeType
  | "text" => some text
  | "integer" => some integer
  | "float" => some float
  | _ => none

/-- Why an attribute operation is refused. -/
inductive AttributeError
  /-- The table holds values of another type. -/
  | typeMismatch (table : String) (expected actual : AttributeType)
  /-- A table of this name exists. -/
  | duplicate (name : String)
  /-- There is no table of this name. -/
  | unknown (name : String)
deriving DecidableEq, Repr

/-- The message of a refused attribute operation. -/
def AttributeError.message : AttributeError → String
  | typeMismatch table expected actual =>
    s!"attribute '{table}' holds {expected.label} values, got {actual.label}"
  | duplicate name => s!"attribute '{name}' already exists"
  | unknown name => s!"no attribute named '{name}'"

end LiveGraph
