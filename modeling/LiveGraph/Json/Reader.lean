import LiveGraph.Json.Basic

/-!
# Reading documents

A recursive reader of RFC 8259 text. Each part takes the characters that are left and returns what
it read together with the rest, or nothing if the text is not a document.
-/

namespace LiveGraph

namespace Json

/-- A reader takes characters and leaves the rest. -/
abbrev Reader (α : Type) := List Char → Option (α × List Char)

/-- Containers may stand inside each other this deep. -/
def maxDepth : Nat := 127

/-! ## Blanks, words and numbers -/

/-- The four characters that may stand between the parts of a document. -/
def isBlank (c : Char) : Bool := c == ' ' || c == '\n' || c == '\t' || c == '\r'

/-- The rest behind leading blanks. -/
def skipBlanks (cs : List Char) : List Char := cs.dropWhile isBlank

/-- The rest behind a given word. -/
def expect : List Char → List Char → Option (List Char)
  | [], cs => some cs
  | w :: ws, c :: cs => if w = c then expect ws cs else none
  | _ :: _, [] => none

/-- The number that digits denote. -/
def digitsValue (ds : List Char) : Nat :=
  ds.foldl (fun n d => 10 * n + (d.toNat - '0'.toNat)) 0

/-- One or more digits. -/
def readDigits : Reader (List Char) := fun cs =>
  match cs.takeWhile Char.isDigit with
  | [] => none
  | ds => some (ds, cs.dropWhile Char.isDigit)

/-- The integer part of a number: a zero alone, or digits that do not start with zero. -/
def readWhole : Reader Nat
  | '0' :: cs => some (0, cs)
  | cs => (readDigits cs).map fun (ds, rest) => (digitsValue ds, rest)

/-- The fraction of a number, and whether there is one. -/
def readFraction : Reader Bool
  | '.' :: cs => (readDigits cs).map fun (_, rest) => (true, rest)
  | cs => some (false, cs)

/-- The rest behind an optional sign. -/
def skipSign : List Char → List Char
  | '+' :: cs => cs
  | '-' :: cs => cs
  | cs => cs

/-- The exponent of a number, and whether there is one. -/
def readExponent : Reader Bool
  | 'e' :: cs | 'E' :: cs => (readDigits (skipSign cs)).map fun (_, rest) => (true, rest)
  | cs => some (false, cs)

/-- A number behind its sign. -/
def readUnsigned (negative : Bool) : Reader Literal := fun cs => do
  let (whole, cs) ← readWhole cs
  let (fraction, cs) ← readFraction cs
  let (exponent, cs) ← readExponent cs
  return (⟨negative, whole, !fraction && !exponent⟩, cs)

/-- A number. -/
def readNumber : Reader Literal
  | '-' :: cs => readUnsigned true cs
  | cs => readUnsigned false cs

/-! ## Strings -/

/-- The value of a hexadecimal digit. -/
def hexValue? (c : Char) : Option Nat :=
  if '0' ≤ c ∧ c ≤ '9' then some (c.toNat - '0'.toNat)
  else if 'a' ≤ c ∧ c ≤ 'f' then some (c.toNat - 'a'.toNat + 10)
  else if 'A' ≤ c ∧ c ≤ 'F' then some (c.toNat - 'A'.toNat + 10)
  else none

/-- The 16-bit unit of four hexadecimal digits. -/
def unit? (a b c d : Char) : Option Nat := do
  let a ← hexValue? a
  let b ← hexValue? b
  let c ← hexValue? c
  let d ← hexValue? d
  return ((a * 16 + b) * 16 + c) * 16 + d

/-- The character of one unit, unless the unit is half of a pair. -/
def ofUnit? (u : Nat) : Option Char :=
  if 0xd800 ≤ u ∧ u < 0xe000 then none else some (Char.ofNat u)

/-- The character of a pair of units: a high half and a low half. -/
def ofPair? (hi lo : Nat) : Option Char :=
  if 0xd800 ≤ hi ∧ hi < 0xdc00 ∧ 0xdc00 ≤ lo ∧ lo < 0xe000 then
    some (Char.ofNat (0x10000 + (hi - 0xd800) * 0x400 + (lo - 0xdc00)))
  else none

/-- The character that a backslash and a letter stand for. -/
def escape? : Char → Option Char
  | '"' => some '"'
  | '\\' => some '\\'
  | '/' => some '/'
  | 'b' => some '\x08'
  | 'f' => some '\x0c'
  | 'n' => some '\n'
  | 'r' => some '\r'
  | 't' => some '\t'
  | _ => none

/-- The characters of a string up to its closing quote, behind those already read, which stand in
reverse. A unit that is the high half of a pair needs the low half behind it, and control characters
must be escaped. -/
def readStringTail (read : List Char) : List Char → Option (String × List Char)
  | '"' :: cs => some (String.ofList read.reverse, cs)
  | '\\' :: 'u' :: a :: b :: c :: d :: '\\' :: 'u' :: e :: f :: g :: h :: cs =>
    match unit? a b c d with
    | none => none
    | some u =>
      match ofUnit? u with
      | some x => readStringTail (x :: read) ('\\' :: 'u' :: e :: f :: g :: h :: cs)
      | none =>
        match (unit? e f g h).bind (ofPair? u) with
        | some x => readStringTail (x :: read) cs
        | none => none
  | '\\' :: 'u' :: a :: b :: c :: d :: cs =>
    match (unit? a b c d).bind ofUnit? with
    | some x => readStringTail (x :: read) cs
    | none => none
  | '\\' :: e :: cs =>
    match escape? e with
    | some x => readStringTail (x :: read) cs
    | none => none
  | c :: cs => if c = '\\' ∨ c < ' ' then none else readStringTail (c :: read) cs
  | [] => none

/-- A string. -/
def readString : Reader String
  | '"' :: cs => readStringTail [] cs
  | _ => none

/-! ## Containers -/

mutual

/-- A value; blanks before it are skipped. -/
def readValue : (fuel depth : Nat) → Reader Json
  | 0, _, _ => none
  | fuel + 1, depth, cs =>
    match skipBlanks cs with
    | 'n' :: cs => (expect "ull".toList cs).map (Json.null, ·)
    | 't' :: cs => (expect "rue".toList cs).map (Json.bool true, ·)
    | 'f' :: cs => (expect "alse".toList cs).map (Json.bool false, ·)
    | '"' :: cs => (readStringTail [] cs).map fun (s, cs) => (Json.string s, cs)
    | '[' :: cs =>
      match depth, skipBlanks cs with
      | 0, _ => none
      | _ + 1, ']' :: cs => some (Json.array [], cs)
      | depth + 1, cs => (readItems fuel depth [] cs).map fun (xs, cs) => (Json.array xs, cs)
    | '\x7b' :: cs =>
      match depth, skipBlanks cs with
      | 0, _ => none
      | _ + 1, '\x7d' :: cs => some (Json.object [], cs)
      | depth + 1, cs => (readMembers fuel depth [] cs).map fun (ms, cs) => (Json.object ms, cs)
    | cs => (readNumber cs).map fun (l, cs) => (Json.number l, cs)

/-- The items of an array up to its closing bracket, behind those already read in reverse. -/
def readItems : (fuel depth : Nat) → List Json → Reader (List Json)
  | 0, _, _, _ => none
  | fuel + 1, depth, read, cs => do
    let (x, cs) ← readValue fuel depth cs
    match skipBlanks cs with
    | ',' :: cs => readItems fuel depth (x :: read) cs
    | ']' :: cs => some ((x :: read).reverse, cs)
    | _ => none

/-- The members of an object up to its closing brace, behind those already read in reverse. -/
def readMembers : (fuel depth : Nat) → List (String × Json) → Reader (List (String × Json))
  | 0, _, _, _ => none
  | fuel + 1, depth, read, cs => do
    let (key, cs) ← readString (skipBlanks cs)
    match skipBlanks cs with
    | ':' :: cs =>
      let (x, cs) ← readValue fuel depth cs
      match skipBlanks cs with
      | ',' :: cs => readMembers fuel depth ((key, x) :: read) cs
      | '\x7d' :: cs => some (((key, x) :: read).reverse, cs)
      | _ => none
    | _ => none

end

/-- The document that a text is, if it is one. Every step of the reader takes a character, so twice
the length of the text is fuel enough. -/
def parse? (text : String) : Option Json :=
  let cs := text.toList
  match readValue (2 * cs.length + 2) maxDepth cs with
  | some (doc, rest) => if skipBlanks rest = [] then some doc else none
  | none => none

end Json

end LiveGraph
