import LiveGraph.Number.Format
import LiveGraph.Number.Numeral
import LiveGraph.Store.Flush
import LiveGraph.Text.Blank
import LiveGraph.Text.Quoted

/-!
# The store console

A console on a node store. It takes one command a line:

* `add <x> <y>` adds a node;
* `set <slot> <x> <y>` moves one;
* `del <slot>` deletes one;
* `flush` publishes what changed.

It writes each event that the store publishes, and ends at the first blank line. What a user may
have got wrong is checked before the store is asked, so no command makes the store fault.
-/

namespace LiveGraph

/-- What is wrong with a command. -/
inductive CommandError
  | missingArgument
  | invalidArgument (word : String)
  | notLive (slot : Nat)
  | neverAllocated (slot : Nat)
  | unknownCommand (word : String)
deriving DecidableEq, Repr

/-- What the user is told about a command. -/
def CommandError.message : CommandError → String
  | missingArgument => "missing argument"
  | invalidArgument word => s!"invalid argument: {word}"
  | notLive slot => s!"slot {slot} is not live"
  | neverAllocated slot => s!"slot {slot} was never allocated"
  | unknownCommand word => s!"unknown command: {word}"

/-- How the numbers in commands are read. -/
structure NumberReader where
  slot? : String → Option Nat := Numeral.size?
  coordinate? : String → Option Single := Numeral.single?

/-- A line that the console writes. -/
inductive ConsoleLine
  | output (text : String)
  | error (text : String)
deriving DecidableEq, Repr

namespace Console

/-- The store that the console works on. -/
abbrev NodeTable := Store NodeRecord NodeData

/-- The work of a command on the store. -/
abbrev Work (α : Type) := Edit (Failure CommandError) NodeTable α

/-! ## Commands -/

/-- Asks the store. -/
def ask {α : Type} (edit : Edit Fault NodeTable α) : Work α := fun t =>
  match edit t with
  | .ok a t => .ok a t
  | .error f t => .error (.fault f) t

/-- Rejects the command. -/
def reject {α : Type} (e : CommandError) : Work α := throw (.error e)

/-- Reads the next argument, and leaves the others. -/
def argument {α : Type} (read? : String → Option α) : List String → Work (α × List String)
  | [] => reject .missingArgument
  | word :: words =>
    match read? word with
    | some a => return (a, words)
    | none => reject (.invalidArgument word)

/-- Reads a position. Words behind it do not matter. -/
def position (reader : NumberReader) (words : List String) : Work Point := do
  let (x, words) ← argument reader.coordinate? words
  let (y, _) ← argument reader.coordinate? words
  return ⟨x, y⟩

/-- A new node at a position. -/
def newNode (pos : Point) : NodeRecord := { pos, radius := .one, fill := ⟨255, 255, 255⟩ }

/-- Adds a node, and answers its slot. -/
def add (reader : NumberReader) (words : List String) : Work Nat := do
  let pos ← position reader words
  let slot ← ask (Store.add 1)
  ask (Store.set slot (some (newNode pos)))
  return slot

/-- Moves a node. -/
def move (reader : NumberReader) (words : List String) : Work Unit := do
  let (slot, words) ← argument reader.slot? words
  if !(← Edit.read).isLive slot then reject (.notLive slot)
  let r ← ask do Edit.ofExcept ((← Edit.read).record slot)
  let pos ← position reader words
  ask (Store.set slot (some { r with pos }))

/-- Deletes a node. -/
def delete (reader : NumberReader) (words : List String) : Work Unit := do
  let (slot, _) ← argument reader.slot? words
  if (← Edit.read).len ≤ slot then reject (.neverAllocated slot)
  ask (Store.set slot none)

/-- Carries out the command in a line, and answers what to tell the user about it. -/
def carryOut (reader : NumberReader) (line : String) : Work (Option String) := do
  match Text.words line with
  | "add" :: words =>
    let slot ← add reader words
    return some s!"added slot {slot}"
  | "set" :: words => move reader words; return none
  | "del" :: words => delete reader words; return none
  | "flush" :: _ => ask Store.flush; return none
  | word :: _ => reject (.unknownCommand word)
  | [] => return none

/-! ## What is written -/

/-- A node record as the console shows it. -/
def describeNode (r : NodeRecord) : String :=
  let c := r.fill
  s!"NodeRecord \x7b pos: [{r.pos.x.describe}, {r.pos.y.describe}], " ++
    s!"radius: {r.radius.describe}, fill: [{c.red}, {c.green}, {c.blue}], flags: {r.flags} \x7d"

/-- The node record in a slot of a snapshot, which must have the bytes of one. -/
def readNode (buffer : Snapshot) (slot : Nat) : Except Fault NodeRecord := do
  let bytes ← buffer.slotBytes slot
  if bytes.size ≠ Record.size NodeRecord then throw .recordSize
  return Record.decode bytes.toList

/-- An event as the console shows it. -/
def describeEvent (e : Event) : Except Fault String := do
  match e with
  | .replaced k capacity buffer =>
    let bytes ← buffer.byteCount
    return s!"{k.label} replaced: capacity {capacity} ({bytes} bytes)"
  | .range k start stop _ => return s!"{k.label} range {start}..{stop}"
  | .slot k slot buffer =>
    let r ← readNode buffer slot
    return s!"{k.label} slot {slot}: {describeNode r}"
  | .task (some name) => return s!"task status: Some({Text.quoted name})"
  | .task none => return "task status: None"

/-- The lines for the events of a command. -/
def eventLines (events : Array Event) : Except Fault (List ConsoleLine) :=
  events.toList.mapM fun e => do return .output ("  -> " ++ (← describeEvent e))

/-- Works on the store; answers what is written, and the store. -/
def respond (work : Work (Option String)) (store : NodeTable) :
    Except Fault (List ConsoleLine × NodeTable) := do
  let (outcome, store, events) := work.perform store
  let shown ← eventLines events
  match outcome with
  | .ok told => return (shown ++ told.toList.map .output, store)
  | .error (.error e) => return (shown ++ [.error s!"Error: {e.message}"], store)
  | .error (.fault f) => throw f

/-- How the console's store is divided. -/
def config : StoreConfig := { blockSize := 16, maxModified := 4 }

/-- What the console starts with. -/
def greeting : String :=
  "Commands: add <x> <y> | set <slot> <x> <y> | del <slot> | flush (empty line to quit)"

/-- What the console ends with. -/
def farewell (s : NodeTable) : String :=
  s!"{s.liveCount} live slots, capacity {s.capacity}, {s.freeCount} free"

/-- Takes the command in a line. -/
def takeLine (reader : NumberReader) (line : String) (store : NodeTable) :
    Except Fault (List ConsoleLine × NodeTable) :=
  respond (carryOut reader line) store

/-- Ends: what is left is published. -/
def finish (store : NodeTable) : Except Fault (List ConsoleLine) := do
  let (shown, store) ← respond (do ask Store.flush; return none) store
  return shown ++ [.output (farewell store)]

/-- What the console writes for lines of its input, and at its end. -/
def converse (reader : NumberReader) : List String → NodeTable → Except Fault (List ConsoleLine)
  | [], store => finish store
  | line :: rest, store => do
    if Text.isBlankLine line then finish store
    else
      let (shown, store) ← takeLine reader line store
      return shown ++ (← converse reader rest store)

/-- All that the console writes for the lines of its input. -/
def run (reader : NumberReader) (lines : List String) : Except Fault (List ConsoleLine) := do
  return .output greeting :: (← converse reader lines (← Store.new config))

end Console

end LiveGraph
