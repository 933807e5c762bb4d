import LiveGraph.Attribute.Error
import LiveGraph.Attribute.SlotMap
import LiveGraph.Number.Double

/-!
# Attribute tables

A table gives some of the slots a value, and all its values have one type.
-/

namespace LiveGraph

/-- The value of an attribute. -/
inductive AttributeValue
  | text (s : String)
  | integer (n : Int64)
  | float (x : Double)
deriving DecidableEq, Repr, Inhabited

/-- The type of a value. -/
def AttributeValue.type : AttributeValue → AttributeType
  | text _ => .text
  | integer _ => .integer
  | float _ => .float

/-- The values of a table, all of one type. -/
inductive Column
  | text (values : SlotMap String)
  | integer (values : SlotMap Int64)
  | float (values : SlotMap Double)

namespace Column

/-- The column without values of a type. -/
def empty : AttributeType → Column
  | .text => text .empty
  | .integer => integer .empty
  | .float => float .empty

/-- The type of the values. -/
def type : Column → AttributeType
  | text _ => .text
  | integer _ => .integer
  | float _ => .float

/-- The value at a slot. -/
def get? : Column → Nat → Option AttributeValue
  | text m, slot => (m.get? slot).map .text
  | integer m, slot => (m.get? slot).map .integer
  | float m, slot => (m.get? slot).map .float

/-- The column with a value at a slot, if the value has the column's type. -/
def insert? : Column → Nat → AttributeValue → Option Column
  | text m, slot, .text v => some (text (m.insert slot v))
  | integer m, slot, .integer v => some (integer (m.insert slot v))
  | float m, slot, .float v => some (float (m.insert slot v))
  | _, _, _ => none

/-- The column without a value at a slot. -/
def erase : Column → Nat → Column
  | text m, slot => text (m.erase slot)
  | integer m, slot => integer (m.erase slot)
  | float m, slot => float (m.erase slot)

/-- The number of slots with a value. -/
def size : Column → Nat
  | text m => m.size
  | integer m => m.size
  | float m => m.size

/-- The slots with a value, in slot order. -/
def entries : Column → List (Nat × AttributeValue)
  | text m => m.entries.map fun (slot, v) => (slot, .text v)
  | integer m => m.entries.map fun (slot, v) => (slot, .integer v)
  | float m => m.entries.map fun (slot, v) => (slot, .float v)

end Column

/-- A named table. -/
structure AttributeTable where
  name : String
  column : Column

namespace AttributeTable

/-- The table without values of a name and type. -/
def new (name : String) (type : AttributeType) : AttributeTable := ⟨name, .empty type⟩

/-- The type of the table's values. -/
def type (t : AttributeTable) : AttributeType := t.column.type

/-- The value at a slot. -/
def get? (t : AttributeTable) (slot : Nat) : Option AttributeValue := t.column.get? slot

/-- The number of slots with a value. -/
def size (t : AttributeTable) : Nat := t.column.size

/-- The slots with a value, in slot order. -/
def entries (t : AttributeTable) : List (Nat × AttributeValue) := t.column.entries

/-- The table with a value at a slot; a value of another type is refused. -/
def set (t : AttributeTable) (slot : Nat) (v : AttributeValue) :
    Except AttributeError AttributeTable :=
  match t.column.insert? slot v with
  | some column => .ok { t with column }
  | none => .error (.typeMismatch t.name t.type v.type)

/-- The table without a value at a slot. -/
def erase (t : AttributeTable) (slot : Nat) : AttributeTable :=
  { t with column := t.column.erase slot }

end AttributeTable

end LiveGraph
