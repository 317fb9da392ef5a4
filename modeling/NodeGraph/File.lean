import NodeGraph.Graph.Document
import NodeGraph.Failure

/-!
# Files

The library does no input or output itself. It is given what reading a file gave, and for writing it
is given a function that tells whether the system took the text. Loading and saving a graph are then
functions of these, with the messages that the system's answers lead to.
-/

namespace NodeGraph

/-- What reading a file gives. That there is no file is kept apart, since settings then fall back to
the standard ones without a report. -/
inductive FileContent where
  | missing
  /-- The file is there and cannot be read, with the system's words. -/
  | unreadable (detail : String)
  | text (content : String)

/-- The system's words for a file or directory that is not there. -/
def FileContent.missingText : String :=
  "No such file or directory (os error 2)"

/-- The text of a file, or the system's words. A missing file is one that cannot be read. -/
def FileContent.read : FileContent → Except String String
  | .missing => .error missingText
  | .unreadable detail => .error detail
  | .text content => .ok content

/-- Writes a text to a file, or says why the system did not take it. The function stands for one
file at one time. -/
abbrev FileWriter := String → Except String Unit

namespace Graph

/-- The graph of a document. What exactly is wrong with a text that is none is not said. -/
def read (text : String) : Except Failure Graph :=
  match parse? text with
  | some g => .ok g
  | none => .error (.document "not a graph document")

/-- The graph of the document in a file. The path is the context of a failure to parse, and not of a
failure to read. -/
def load (path : String) (file : FileContent) : Except Failure Graph :=
  match file.read with
  | .error detail => .error (.file detail)
  | .ok text => (read text).mapError (.within path)

/-- Writes the document of a graph to a file. Nothing is checked about the graph, which need not
have a plan. -/
def save (g : Graph) (write : FileWriter) : Except Failure Unit :=
  (write g.render).mapError .file

end Graph

end NodeGraph
