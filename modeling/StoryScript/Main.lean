/-
  The command line: the name of a tool, then the arguments of the tool, which reads
  standard input.
-/
import StoryScript.Tool

namespace StoryScript.Tool

/-- The tool of a name. -/
def ofName? : String → Option Tool
  | "outline" => some outline
  | "run" => some run
  | _ => none

/-- Runs a tool on standard input. -/
def runOnInput (tool : Tool) (args : List String) : IO UInt32 := do
  let input ← (← IO.getStdin).readToEnd
  let outcome := tool.execute 0 args input
  IO.print outcome.output
  return outcome.code

end StoryScript.Tool

/-- Runs the tool that the first argument names. -/
def main (args : List String) : IO UInt32 := do
  match args.head?.bind StoryScript.Tool.ofName? with
  | some tool => tool.runOnInput args.tail
  | none =>
    IO.eprintln "usage: (outline | run) [verbosity]"
    return 2
