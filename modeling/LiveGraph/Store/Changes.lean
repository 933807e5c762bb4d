/-!
# Changes inside a block

Which slots of a block changed since the last flush: a mark per offset, and the marked offsets in
the order in which they were first marked. The marks are bits, 64 to a word.
-/

namespace LiveGraph

/-- The changed offsets of one block. -/
structure BlockChanges where
  /-- A bit for each offset, set if the offset changed. -/
  marks : Array UInt64
  /-- The changed offsets, each once, in the order of their first change. -/
  modified : Array UInt16
deriving Repr, Inhabited, DecidableEq

namespace BlockChanges

/-- The words with the marks of a block of so many slots. -/
def wordCount (blockSize : Nat) : Nat := (blockSize + 63) / 64

/-- No changes in a block of so many slots. -/
def none (blockSize : Nat) : BlockChanges := ⟨Array.replicate (wordCount blockSize) 0, #[]⟩

/-- The word with the mark of an offset. -/
def word (offset : UInt16) : Nat := offset.toNat / 64

/-- The mark of an offset in its word. -/
def bit (offset : UInt16) : UInt64 := 1 <<< UInt64.ofNat (offset.toNat % 64)

/-- Whether an offset changed. -/
def isMarked (c : BlockChanges) (offset : UInt16) : Bool :=
  c.marks.getD (word offset) 0 &&& bit offset != 0

/-- Notes a change. -/
def mark (c : BlockChanges) (offset : UInt16) : BlockChanges :=
  if c.isMarked offset then c
  else
    { marks := c.marks.modify (word offset) (· ||| bit offset)
      modified := c.modified.push offset }

/-- Forgets all changes. -/
def clear (c : BlockChanges) : BlockChanges :=
  { marks := c.modified.foldl (fun marks o => marks.modify (word o) (· &&& ~~~bit o)) c.marks
    modified := #[] }

end BlockChanges

end LiveGraph
