import NodeGraph.CommandLine.Argument
import NodeGraph.Settings.File

/-!
# Requests on the command line

The program is called with a command, the path of a graph document, and options for the command, or
it is asked about itself. `Request.ofArguments?` gives the request that the arguments make, and
there is none if anything about them is not understood.
-/

namespace NodeGraph.CommandLine

/-- How a graph is run. Each of these has an option, and a value that stands in without it. -/
structure RunOptions where
  /-- The number of frames that are played, about a second of them at the standard length. -/
  ticks : UInt32 := 60
  /-- The length of a frame in milliseconds. It need not be a span until frames are played, so that
  a bad one is reported after a bad graph. -/
  frameMillis : Float := 16.667
  settingsPath : String := Settings.fileName

/-- What the program is asked to do. The last two are answered without looking at a file. -/
inductive Request where
  /-- Plan the graph and list the plan. -/
  | compile (path : String)
  /-- Plan the graph and play frames with it. -/
  | run (path : String) (options : RunOptions)
  /-- Tell the version. -/
  | version
  /-- Tell what the program does. -/
  | help

/-- The name of the program and its version, on one line. -/
def versionText : String :=
  "numgraph 0.1.0\n"

/-- What the program does: its commands and the options that are understood in front of them. -/
def helpText : String :=
  "Number graph compiler and interpreter\n" ++
  "\n" ++
  "Usage: numgraph <COMMAND>\n" ++
  "\n" ++
  "Commands:\n" ++
  "  compile  Compile a graph and print its action list and parameters\n" ++
  "  run      Compile a graph and run it against simulated host frames\n" ++
  "  help     Print this message or the help of the given subcommand(s)\n" ++
  "\n" ++
  "Options:\n" ++
  "  -h, --help     Print help\n" ++
  "  -V, --version  Print version\n"

/-- How the program is called, which is told when the arguments make no request. -/
def usage : String :=
  "Usage: numgraph compile <GRAPH>\n" ++
  "       numgraph run <GRAPH> [--ticks=<N>] [--frame-ms=<MS>] [--config=<PATH>]\n"

/-- The arguments after the command, taken apart. Paths and options keep their order, but it is not
known any more how they were mixed. -/
structure Arguments where
  paths : List String := []
  /-- Options by name, without the dashes. The values are still texts. -/
  options : List (String × String) := []

/-- Whether an argument is an option. A single dash is none. -/
def isOption (s : String) : Bool :=
  match s.toList with
  | '-' :: _ :: _ => true
  | _ => false

/-- The name and the value of an option that has its value after an equals sign. Only the first
equals sign counts, and the value can be empty. -/
def option? (s : String) : Option (String × String) :=
  match s.toList with
  | '-' :: '-' :: cs =>
    match cs.dropWhile (· ≠ '=') with
    | _ :: value => some (String.ofList (cs.takeWhile (· ≠ '=')), String.ofList value)
    | [] => none
  | _ => none

/-- The name of an option that has its value in the next argument. A short option has no name. -/
def optionName? (s : String) : Option String :=
  match s.toList with
  | '-' :: '-' :: cs => some (String.ofList cs)
  | _ => none

/-- Takes arguments apart. An option has its value after an equals sign or in the next argument,
which is then no option itself. After two dashes there are only paths. -/
def split? : List String → Option Arguments
  | [] => some {}
  | "--" :: rest => some { paths := rest }
  | [s] =>
    if isOption s then (option? s).map fun o => { options := [o] }
    else some { paths := [s] }
  | s :: t :: rest =>
    if isOption s then
      match option? s, optionName? s with
      | some o, _ => (split? (t :: rest)).map fun a => { a with options := o :: a.options }
      | none, some name =>
        if isOption t then none
        else (split? rest).map fun a => { a with options := (name, t) :: a.options }
      | none, none => none
    else (split? (t :: rest)).map fun a => { a with paths := s :: a.paths }

/-- A path, which is not empty. Whether there is a file is not asked here. -/
def path? (s : String) : Option String :=
  if s.isEmpty then none else some s

/-- The value of an option, read by `read`, or what stands in if the option is not there. An option
whose value cannot be read is not replaced. -/
def optionOr {α : Type} (options : List (String × String)) (name : String)
    (read : String → Option α) (standard : α) : Option α :=
  match options.lookup name with
  | none => some standard
  | some s => read s

/-- The names of the options that say how a graph is run. Any other name makes the arguments no
request. -/
def runOptionNames : List String := ["ticks", "frame-ms", "config"]

/-- How a graph is run according to options, each of which is given at most once. What is not given
is as in a `RunOptions` without options. -/
def RunOptions.ofOptions? (options : List (String × String)) : Option RunOptions := do
  let names := options.map (·.1)
  if !names.all runOptionNames.contains || !decide names.Nodup then failure
  let standard : RunOptions := {}
  return {
    ticks := ← optionOr options "ticks" count? standard.ticks
    frameMillis := ← optionOr options "frame-ms" number? standard.frameMillis
    settingsPath := ← optionOr options "config" path? standard.settingsPath }

namespace Request

/-- The question about the program itself that an argument in front asks. Of short options written
together the first one counts. -/
def question? (s : String) : Option Request :=
  match s.toList with
  | '-' :: 'V' :: _ => some .version
  | '-' :: 'h' :: _ => some .help
  | _ => if s = "--version" then some .version else if s = "--help" then some .help else none

/-- The request for a command with its arguments. There is exactly one path, and a listing has no
options. -/
def ofCommand? (command : String) (rest : List String) : Option Request := do
  let arguments ← split? rest
  let [path] := arguments.paths | failure
  let path ← path? path
  match command with
  | "compile" => if arguments.options.isEmpty then return .compile path else failure
  | "run" => return .run path (← RunOptions.ofOptions? arguments.options)
  | _ => failure

/-- The request that arguments make. A question in front is answered whatever follows it, and the
command for help is one only if nothing follows it. -/
def ofArguments? : List String → Option Request
  | [] => none
  | ["help"] => some .help
  | first :: rest =>
    match question? first with
    | some question => some question
    | none => ofCommand? first rest

/-- The paths of the files that a request reads. The graph comes first, and the settings are read
only for frames. -/
def files : Request → List String
  | .compile path => [path]
  | .run path options => [path, options.settingsPath]
  | .version | .help => []

end Request

end NodeGraph.CommandLine
