import LiveGraph.CommandLine.Run
import LiveGraph.Console

/-!
# Programs

`main` runs the command line: it reads the arguments and the configuration file, and prints the
report. `LiveGraph.Console.serve` is the store console on the standard streams.
-/

namespace LiveGraph

/-- Prints a line of the console where it belongs. -/
def ConsoleLine.print : ConsoleLine → IO Unit
  | .output text => IO.println text
  | .error text => IO.eprintln text

namespace Console

/-- Prints what the console writes, and answers the rest; a fault ends the program. -/
def printing {α : Type} (answer : Except Fault (List ConsoleLine × α)) : IO α := do
  match answer with
  | .ok (lines, a) =>
    lines.forM ConsoleLine.print
    return a
  | .error f => throw (IO.userError (f.message?.getD "internal fault"))

/-- Serves the store console line by line, up to a blank line or the end of the input. -/
partial def serveFrom (store : NodeTable) : IO Unit := do
  let line ← (← IO.getStdin).getLine
  if Text.isBlankLine line then printing ((finish store).map (·, ()))
  else serveFrom (← printing (takeLine {} line store))

/-- Serves the store console. -/
def serve : IO Unit := do
  IO.println greeting
  serveFrom (← printing ((Store.new config).map ([], ·)))

end Console

namespace Run

/-- How the command line is used. -/
def usage : String :=
  "Usage: [" ++ "] [".intercalate (OptionName.all.map fun o => s!"--{o.label} <value>") ++ "]"

/-- The content of a file, if it can be read. -/
def contentOf (path : String) : IO (Option ByteArray) := do
  try return some (← IO.FS.readBinFile path)
  catch _ => return none

/-- Carries out a run, and answers its exit code. -/
def serve (o : RunOptions) : IO UInt32 := do
  let file ← match o.config with
    | some path => contentOf path
    | none => pure none
  match withFile o file with
  | .ok report =>
    report.lines.forM (IO.println ·)
    return 0
  | .error e =>
    IO.eprintln s!"Error: {e.message}"
    return e.code

end Run

end LiveGraph

open LiveGraph in
/-- The command line. -/
def main (args : List String) : IO UInt32 := do
  match RunOptions.parse args with
  | .ok (.run o) => Run.serve o
  | .ok .help =>
    IO.println Run.usage
    return 0
  | .ok .version =>
    IO.println "0.1.0"
    return 0
  | .error e =>
    IO.eprintln s!"error: {e.message}"
    return usageCode
