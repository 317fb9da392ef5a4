import NodeGraph.CommandLine.Request
import NodeGraph.Operation.Builtin
import NodeGraph.Session.Playback

/-!
# Replies on the command line

What the program answers to a request: texts for the two streams and an exit code. The answer is a
function of the request and of what the files hold, so that whole runs of the program can be stated
and compared. The only thing that is not known in advance is how long planning takes, and a `Reply`
is a function of that.

A listing shows a plan (`CommandLine.compile`). To play frames, a session is made from the settings
and the graph (`CommandLine.sessionOf`), and the frames in which a pass came to its end have a line
each (`CommandLine.play`).
-/

namespace NodeGraph.CommandLine

/-- Why a request cannot be met: a message, and the causes beneath it, outermost first. It is
printed to the standard error. -/
structure Complaint where
  message : String
  causes : List String := []

namespace Complaint

/-- A text with its lines after the first one moved to the right, so that they stand below the first
line of the cause. -/
def indented (width : Nat) (s : String) : String :=
  String.ofList <| s.toList.flatMap fun c =>
    if c = '\n' then '\n' :: List.replicate width ' ' else [c]

/-- A cause among several, on a line of its own with its number in front. Numbers start from
zero. -/
def numbered (index : Nat) (cause : String) : String :=
  Text.padLeft 5 (toString index) ++ ": " ++ indented 7 cause ++ "\n"

/-- The causes as text. One cause stands alone, several are numbered, and without causes there is
nothing, not even the heading. -/
def causesText : List String → String
  | [] => ""
  | [cause] => "\nCaused by:\n    " ++ indented 4 cause ++ "\n"
  | causes => "\nCaused by:\n" ++ String.join (causes.mapIdx numbered)

/-- The complaint as text: the message on the first line, and then the causes. -/
def text (c : Complaint) : String :=
  "Error: " ++ c.message ++ "\n" ++ causesText c.causes

/-- A failure as a complaint. Its message is that of the complaint, and nothing is put above it. -/
def ofFailure (f : Failure) : Complaint where
  message := f.message
  causes := f.causes

/-- A failure as the cause of a complaint. Its own causes come after it. -/
def because (message : String) (f : Failure) : Complaint where
  message
  causes := f.message :: f.causes

end Complaint

/-- The answer of the program: what it prints, and the code with which it exits. -/
structure Reply where
  /-- Zero if the request was met, one if it was not, and two if there was no request. -/
  code : UInt32 := 0
  /-- The standard output, for the number of microseconds that planning took. Only a listing says
  how many these were. -/
  output : Nat → String
  /-- The standard error. Reports of a session are no part of it. -/
  error : String := ""

/-- The answer if the arguments make no request: how the program is to be called. -/
def Reply.misuse : Reply where
  code := 2
  output _ := ""
  error := usage

/-- An answer with a complaint, after what was already printed. The lines of the frames before a
fault stay. -/
def Reply.refuse (printed : String) (c : Complaint) : Reply where
  code := 1
  output _ := printed
  error := c.text

/-- The graph in a file. The complaint about a file that cannot be read or holds no graph names the
path. -/
def loadGraph (path : String) (file : FileContent) : Except Complaint Graph :=
  (Graph.load path file).mapError (.because ("Failed to load " ++ Text.quoted path))

/-- The complaint about a graph with a defect. It names the path, and the defect is the cause. -/
def notPlanned (path : String) (defect : Defect) : Complaint where
  message := "Failed to compile " ++ Text.quoted path
  causes := [defect.message]

/-- The value of a parameter in a line, after its name. It is the value that the plan starts
with. -/
def parameterText (p : Parameter) : String :=
  p.name ++ " = " ++ p.value.text

/-! ## Listing a plan -/

/-- The line of a step: its number, the name of its operation, and what it reads and writes. An
operation that the table does not have is a question mark. -/
def stepLine (table : OpTable) (index : Nat) (s : Step) : String :=
  "  " ++ Text.padLeft 3 (toString index) ++ "  " ++
    Text.padRight 16 ((table.name? s.op).getD "?") ++ " " ++ s.text ++ "\n"

/-- The lines of the parameters, under a heading if there are any. A plan has a parameter once,
however many nodes read it. -/
def parameterLines (ps : List Parameter) : String :=
  if ps.isEmpty then ""
  else "Parameters:\n" ++ String.join (ps.map fun p => "  " ++ parameterText p ++ "\n")

/-- A plan as text: its steps in order under the number of its slots, its parameters, and how many
nodes of the graph have steps. -/
def listing (table : OpTable) (p : Plan) (micros : Nat) : String :=
  "Actions (" ++ toString p.slotCount ++ " slots):\n" ++
    String.join (p.steps.mapIdx (stepLine table)) ++ parameterLines p.parameters ++
    toString p.stats.active ++ " of " ++ toString p.stats.total ++ " nodes compiled in " ++
    toString micros ++ "us\n"

/-- The plan of the graph in a file, or the complaint about the first thing that stands in the way
of it. -/
def planOf (table : OpTable) (path : String) (file : FileContent) : Except Complaint Plan := do
  let graph ← loadGraph path file
  (table.plan graph).mapError (notPlanned path)

/-- The answer to a request for a listing. The graph is planned and not run. -/
def compile (table : OpTable) (path : String) (file : FileContent) : Reply :=
  match planOf table path file with
  | .error c => .refuse "" c
  | .ok p => { output := listing table p }

/-! ## Playing frames -/

/-- The length of a frame, which is given in milliseconds. It is rounded to a nanosecond, and the
complaint about a number that is no span shows the number. -/
def frameTime (millis : Float) : Except Complaint Duration :=
  (Duration.ofSeconds (millis / 1000)).mapError fun e =>
    { message := "Invalid frame time " ++ Decimal.Style.plain.double millis ++ "ms"
      causes := [e.message] }

/-- The session of a graph, with its plan installed. The settings are looked at first, so a rate
that cannot be used is reported also if the graph has a defect. -/
def sessionOf (table : OpTable) (entropy : Random.Stream) (settings : Settings) (path : String)
    (g : Graph) : Except Complaint Session := do
  let session ← (Session.ofSettings settings table entropy).mapError (.ofFailure <| .settings ·)
  let installed := Session.planAndInstall g session
  match installed.result with
  | .error defect => throw (notPlanned path defect)
  | .ok () => return installed.state

/-- The line of a parameter before the first frame. Every parameter of the plan has one. -/
def parameterLine (p : Parameter) : String :=
  "param " ++ parameterText p ++ "\n"

/-- The line of a frame in which a pass came to its end: the number of the frame, in four places at
least, and what was read of the sink. -/
def frameLine (frame : Nat × Readout) : String :=
  "[frame " ++ Text.padLeft 4 (toString frame.1) ++ "] " ++ frame.2.text ++ "\n"

/-- The answer of a session that plays frames. A fault in a pass ends it, and the complaint says in
which frame that was. -/
def play (session : Session) (ticks : UInt32) (time : Duration) : Reply :=
  let played := Playback.advance ticks.toNat time { session }
  let printed := String.join (session.parameters.map parameterLine) ++
    String.join (played.passes.toList.map frameLine)
  match played.faultedAt? with
  | none => { output := fun _ => printed }
  | some frame =>
    .refuse printed { message := "Interpreter faulted at frame " ++ toString frame }

/-- What is needed to play frames: a session and the length of a frame. The settings file need not
be there, but the graph has to be, and it is read before the length of a frame is looked at. -/
def prepare (table : OpTable) (entropy : Random.Stream) (path : String) (options : RunOptions)
    (files : String → FileContent) : Except Complaint (Session × Duration) := do
  let (settings, _) := Settings.loadOrDefault options.settingsPath (files options.settingsPath)
  let graph ← loadGraph path (files path)
  let time ← frameTime options.frameMillis
  let session ← sessionOf table entropy settings path graph
  return (session, time)

/-- The answer to a request to play frames. What stands in the way of it is found before the first
frame, and then nothing is printed but the complaint. -/
def run (table : OpTable) (entropy : Random.Stream) (path : String) (options : RunOptions)
    (files : String → FileContent) : Reply :=
  match prepare table entropy path options files with
  | .error c => .refuse "" c
  | .ok (session, time) => play session options.ticks time

/-- The answer to a request, with the built-in operations. `entropy` is the random stream where
there is no seed. `files` says what the files hold, of which only those in `Request.files` are
looked at. -/
def Request.reply (entropy : Random.Stream) (files : String → FileContent) : Request → Reply
  | .compile path => CommandLine.compile .builtin path (files path)
  | .run path options => CommandLine.run .builtin entropy path options files
  | .version => { output := fun _ => versionText }
  | .help => { output := fun _ => helpText }

end NodeGraph.CommandLine
