/-!
# Double precision numbers

Times and attribute values of type float are kept as their 64 bits, because they are copied bit for
bit. What is no number passes through an operation as it does with single precision numbers.
-/

namespace LiveGraph

/-- A double precision number, as its bits. -/
structure Double where
  bits : UInt64
deriving DecidableEq, Repr, Inhabited

namespace Double

/-- The bits of a computed number. -/
def ofFloat (x : Float) : Double := ⟨x.toBits⟩

/-- The number that the bits stand for. -/
def toFloat (x : Double) : Float := Float.ofBits x.bits

/-- The bits stand for no number. -/
def isNaN (x : Double) : Bool := x.bits &&& 0x7fffffffffffffff > 0x7ff0000000000000

/-- The sign bit is set. -/
def isNegative (x : Double) : Bool := x.bits &&& 0x8000000000000000 != 0

def zero : Double := ⟨0⟩

/-- The same number; every pattern that is no number becomes one pattern. -/
def canonical (x : Double) : Double := if x.isNaN then ⟨0x7ff8000000000000⟩ else x

/-- What an operation gives that has no result. -/
def undefined : Double := ⟨0xfff8000000000000⟩

/-- What is no number, as an operation passes it on. -/
def quiet (x : Double) : Double := ⟨x.bits ||| 0x0008000000000000⟩

/-- The result of an operation on `a` and `b` that was computed as `r`. -/
def result (a b : Double) (r : Float) : Double :=
  if a.isNaN then a.quiet
  else if b.isNaN then b.quiet
  else
    let x := ofFloat r
    if x.isNaN then undefined else x

instance : Add Double := ⟨fun a b => result a b (a.toFloat + b.toFloat)⟩

instance : Mul Double := ⟨fun a b => result a b (a.toFloat * b.toFloat)⟩

instance : Div Double := ⟨fun a b => result a b (a.toFloat / b.toFloat)⟩

/-- The sine. -/
def sin (x : Double) : Double := result x x x.toFloat.sin

/-- The strict order of numbers; false beside what is no number. -/
def lt (a b : Double) : Bool := a.toFloat < b.toFloat

/-- The smaller of two numbers; an operand that is no number gives way to one that is, and of two
that are none the first stands. Of two zeros the negative one is the smaller. -/
def min (a b : Double) : Double :=
  if b.isNaN then a
  else if a.isNaN then b
  else if a.lt b then a
  else if b.lt a then b
  else if a.isNegative then a else b

end Double

end LiveGraph
