/-!
# Documents

A configuration is written as a JSON document. The tree keeps what the text says: members stay in
their order and may repeat a key, and a number keeps how it was written, because a size must be
written as a plain integer.
-/

namespace LiveGraph

/-- A number as it is written. -/
structure Literal where
  /-- It starts with a minus sign. -/
  negative : Bool
  /-- The integer part. -/
  whole : Nat
  /-- It has neither a fraction nor an exponent. -/
  plain : Bool
deriving DecidableEq, Repr, Inhabited

/-- A JSON document. -/
inductive Json
  | null
  | bool (b : Bool)
  | number (l : Literal)
  | string (s : String)
  | array (items : List Json)
  | object (members : List (String × Json))
deriving Repr, Inhabited

namespace Json

/-- The number of a document that is a plain integer without sign. -/
def natural? : Json → Option Nat
  | number ⟨false, n, true⟩ => some n
  | _ => none

/-- The text of a document that is a string. -/
def string? : Json → Option String
  | string s => some s
  | _ => none

/-- The members of a document that stands for a record with the given fields: an object without
unknown and repeated keys, or an array of the first fields in order. -/
def fields? (names : List String) : Json → Option (List (String × Json))
  | object members =>
    let keys := members.map (·.1)
    if keys.all (names.contains ·) ∧ keys.Nodup then some members else none
  | array items => if items.length ≤ names.length then some (names.zip items) else none
  | _ => none

/-- The value of a member read by `read`; an absent member has the value `absent`. -/
def field {α : Type} (members : List (String × Json)) (name : String) (absent : α)
    (read : Json → Option α) : Option α :=
  match members.lookup name with
  | none => some absent
  | some value => read value

end Json

end LiveGraph
