import NodeGraph.CommandLine.Reply

/-!
# The program

Reads the files that a request names, and prints the answer. Everything that can be said about an
answer is said about `CommandLine.Request.reply`; here are only the parts that touch the system.
-/

namespace NodeGraph

/-- Reads a file. A file that is not there is told from one that cannot be read. -/
def readFile (path : String) : IO FileContent := do
  try
    return .text (← IO.FS.readFile path)
  catch
    | .noFileOrDirectory .. => return .missing
    | e => return .unreadable (toString e)

/-- Prints an answer and gives its exit code. The standard output comes first. -/
def printReply (reply : CommandLine.Reply) (micros : Nat) : IO UInt32 := do
  IO.print (reply.output micros)
  IO.eprint reply.error
  return reply.code

end NodeGraph

open NodeGraph in
/-- Answers the request that the arguments make. The time that planning takes is that of the whole
answer, since the answer is one function. -/
def main (args : List String) : IO UInt32 := do
  match CommandLine.Request.ofArguments? args with
  | none => printReply .misuse 0
  | some request =>
    let contents ← request.files.mapM fun path => return (path, ← readFile path)
    let files (path : String) := (contents.lookup path).getD .missing
    let entropy := Random.Stream.ofSeed (UInt64.ofNat (← IO.rand 0 (UInt64.size - 1)))
    let start ← IO.monoNanosNow
    let reply ← IO.lazyPure fun _ => request.reply entropy files
    let stop ← IO.monoNanosNow
    printReply reply ((stop - start) / 1000)
