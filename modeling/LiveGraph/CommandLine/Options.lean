import LiveGraph.Layout
import LiveGraph.Number.Numeral

/-!
# Command line options

Every option has a value, which follows it as the next argument or behind an equals sign, and is
given at most once. There are no other arguments, but that help and the version can be asked for.
-/

namespace LiveGraph

/-- What a run is asked to do. -/
structure RunOptions where
  /-- The nodes of the random graph. -/
  nodes : Nat := 200
  /-- The edges that are tried. -/
  edges : Nat := 400
  /-- The relaxations of the layout. -/
  iterations : Nat := defaultIterations
  /-- Where the configuration is. -/
  config : Option String := none
  /-- The milliseconds until the layout is asked to stop. -/
  cancelAfter : Option Nat := none
  /-- The threads that work. -/
  workers : Option Nat := none
  /-- The random seed. -/
  seed : Nat := 1
deriving DecidableEq, Repr, Inhabited

/-- The options by name. -/
inductive OptionName
  | nodes
  | edges
  | iterations
  | config
  | cancelAfter
  | workers
  | seed
deriving DecidableEq, Repr

namespace OptionName

/-- The name behind the two dashes. -/
def label : OptionName → String
  | nodes => "nodes"
  | edges => "edges"
  | iterations => "iterations"
  | config => "config"
  | cancelAfter => "cancel-after"
  | workers => "workers"
  | seed => "seed"

/-- All options. -/
def all : List OptionName := [nodes, edges, iterations, config, cancelAfter, workers, seed]

/-- The option of a name. -/
def ofLabel? (s : String) : Option OptionName := all.find? (·.label == s)

end OptionName

/-- What is wrong with the arguments. -/
inductive UsageError
  | unexpected (argument : String)
  | missingValue (option : OptionName)
  | invalidValue (option : OptionName) (value : String)
  | repeated (option : OptionName)
deriving DecidableEq, Repr

/-- What the user is told about the arguments. -/
def UsageError.message : UsageError → String
  | unexpected argument => s!"unexpected argument '{argument}' found"
  | missingValue option => s!"a value is required for '--{option.label}'"
  | invalidValue option value => s!"invalid value '{value}' for '--{option.label}'"
  | repeated option => s!"the argument '--{option.label}' cannot be used multiple times"

/-- What the arguments ask for. -/
inductive Invocation
  | run (options : RunOptions)
  | help
  | version
deriving DecidableEq, Repr

namespace RunOptions

/-- The options with a value given to one of them, if it is a value for it. -/
def assign? (o : RunOptions) (name : OptionName) (value : String) : Option RunOptions :=
  match name with
  | .nodes => (Numeral.size? value).map ({ o with nodes := · })
  | .edges => (Numeral.size? value).map ({ o with edges := · })
  | .iterations => (Numeral.size? value).map ({ o with iterations := · })
  | .config => if value.isEmpty then none else some { o with config := some value }
  | .cancelAfter => (Numeral.size? value).map fun n => { o with cancelAfter := some n }
  | .workers =>
    ((Numeral.size? value).filter (0 < ·)).map fun n => { o with workers := some n }
  | .seed => (Numeral.size? value).map ({ o with seed := · })

end RunOptions

/-- What an argument is. -/
inductive Argument
  /-- An option, with the value behind its equals sign. -/
  | option (name : OptionName) (value : Option String)
  /-- Two dashes: no options follow. -/
  | escape
  | help
  | version
  | other
deriving DecidableEq, Repr

namespace Argument

/-- Cuts characters at the first equals sign. -/
def cut (cs : List Char) : String × Option String :=
  let (name, rest) := cs.span (· != '=')
  (String.ofList name, match rest with
    | _ :: value => some (String.ofList value)
    | [] => none)

/-- An argument that starts with two dashes. -/
def ofLong (cs : List Char) : Argument :=
  let (name, value) := cut cs
  match OptionName.ofLabel? name, name, value with
  | some known, _, value => .option known value
  | none, "help", none => help
  | none, "version", none => version
  | none, "", none => escape
  | none, _, _ => other

/-- What an argument is. -/
def of (s : String) : Argument :=
  match s.toList with
  | '-' :: '-' :: cs => ofLong cs
  | '-' :: 'h' :: _ => help
  | '-' :: 'V' :: _ => version
  | _ => other

/-- The argument can be the value of an option: it does not look like one. -/
def isValue (s : String) : Bool :=
  match s.toList with
  | '-' :: _ :: _ => false
  | _ => true

end Argument

namespace RunOptions

/-- Options read so far. -/
structure Reading where
  options : RunOptions := {}
  /-- The options that have a value. -/
  given : List OptionName := []

/-- Reads a value of an option. -/
def Reading.take (r : Reading) (name : OptionName) (value : String) :
    Except UsageError Reading :=
  if name ∈ r.given then .error (.repeated name)
  else
    match r.options.assign? name value with
    | some options => .ok { options, given := name :: r.given }
    | none => .error (.invalidValue name value)

/-- Reads the arguments from left to right. -/
def Reading.parse (r : Reading) : List String → Except UsageError Invocation
  | [] => .ok (.run r.options)
  | s :: rest =>
    match Argument.of s with
    | .help => .ok .help
    | .version => .ok .version
    | .other => .error (.unexpected s)
    | .escape =>
      match rest with
      | [] => .ok (.run r.options)
      | s :: _ => .error (.unexpected s)
    | .option name (some value) =>
      match r.take name value with
      | .ok r => r.parse rest
      | .error e => .error e
    | .option name none =>
      match rest with
      | value :: rest =>
        if Argument.isValue value then
          match r.take name value with
          | .ok r => r.parse rest
          | .error e => .error e
        else .error (.missingValue name)
      | [] => .error (.missingValue name)

/-- Reads the arguments. -/
def parse (args : List String) : Except UsageError Invocation := Reading.parse {} args

end RunOptions

end LiveGraph
