import LiveGraph.Number.Double

/-!
# Single precision numbers

Coordinates, radii and widths are IEEE single precision numbers. They are kept as their 32 bits,
because a record is copied bit for bit, also where its bits stand for no number; only arithmetic
interprets them. Every operation is rounded to single precision on its own.

What is no number passes through an operation: the first operand that is none is the result, made
quiet. An operation on numbers that has no result gives `Single.undefined`.
-/

namespace LiveGraph

/-- A single precision number, as its bits. -/
structure Single where
  bits : UInt32
deriving DecidableEq, Repr, Inhabited

namespace Single

/-- The bits of a computed number. -/
def ofFloat (x : Float32) : Single := ⟨x.toBits⟩

/-- The number that the bits stand for. -/
def toFloat (x : Single) : Float32 := Float32.ofBits x.bits

/-- The bits stand for no number. -/
def isNaN (x : Single) : Bool := x.bits &&& 0x7fffffff > 0x7f800000

/-- The number is infinite, of either sign. -/
def isInfinite (x : Single) : Bool := x.bits &&& 0x7fffffff == 0x7f800000

/-- The one pattern that stands for all bits that are no number. -/
def nan : Single := ⟨0x7fc00000⟩

/-- What an operation gives that has no result. -/
def undefined : Single := ⟨0xffc00000⟩

/-- What is no number, as an operation passes it on. -/
def quiet (x : Single) : Single := ⟨x.bits ||| 0x00400000⟩

/-- The sign bit is set. -/
def isNegative (x : Single) : Bool := x.bits &&& 0x80000000 != 0

/-- The same number; every pattern that is no number becomes `nan`. -/
def canonical (x : Single) : Single := if x.isNaN then nan else x

def zero : Single := ⟨0⟩

def one : Single := ⟨0x3f800000⟩

def infinity : Single := ⟨0x7f800000⟩

/-- The distance from one to the next larger number. -/
def epsilon : Single := ⟨0x34000000⟩

/-- The result of an operation on `a` and `b` that was computed as `r`. -/
def result (a b : Single) (r : Float32) : Single :=
  if a.isNaN then a.quiet
  else if b.isNaN then b.quiet
  else
    let x := ofFloat r
    if x.isNaN then undefined else x

instance : Add Single := ⟨fun a b => result a b (a.toFloat + b.toFloat)⟩

instance : Sub Single := ⟨fun a b => result a b (a.toFloat - b.toFloat)⟩

instance : Mul Single := ⟨fun a b => result a b (a.toFloat * b.toFloat)⟩

instance : Div Single := ⟨fun a b => result a b (a.toFloat / b.toFloat)⟩

/-- A double precision number, rounded; what is no number keeps its sign and leading bits. -/
def ofDouble (x : Double) : Single :=
  if x.isNaN then
    let sign := (x.bits >>> 32).toUInt32 &&& (0x80000000 : UInt32)
    let leading := (x.bits >>> 29).toUInt32 &&& (0x003fffff : UInt32)
    ⟨sign ||| (0x7fc00000 : UInt32) ||| leading⟩
  else ofFloat x.toFloat.toFloat32

/-- The order of numbers; false beside what is no number. -/
def le (a b : Single) : Bool := a.toFloat ≤ b.toFloat

/-- The strict order of numbers; false beside what is no number. -/
def lt (a b : Single) : Bool := a.toFloat < b.toFloat

/-- The smaller of two numbers; an operand that is no number gives way to one that is, and of two
that are none the first stands. Of two zeros the negative one is the smaller. -/
def min (a b : Single) : Single :=
  if b.isNaN then a
  else if a.isNaN then b
  else if a.lt b then a
  else if b.lt a then b
  else if a.isNegative then a else b

/-- The larger of two numbers; an operand that is no number gives way to one that is, and of two
that are none the first stands. Of two zeros the negative one is the smaller. -/
def max (a b : Single) : Single :=
  if b.isNaN then a
  else if a.isNaN then b
  else if a.lt b then b
  else if b.lt a then a
  else if a.isNegative then b else a

/-- The length of the vector `(a, b)`: computed in double precision and rounded once, and infinite
as soon as one component is. -/
def hypot (a b : Single) : Single :=
  if a.isInfinite || b.isInfinite then infinity
  else
    let x := a.toFloat.toFloat
    let y := b.toFloat.toFloat
    result a b (x * x + y * y).sqrt.toFloat32

end Single

end LiveGraph
