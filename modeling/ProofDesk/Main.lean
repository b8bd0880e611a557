import ProofDesk.Command.Execution

namespace ProofDesk

def namedFiles (arguments : List Text) : List Text :=
  match Command.Request.ofArguments arguments with
  | .ok (.state file _ _ _) => [file]
  | .ok (.check files) => files
  | _ => []

def readFile? (file : Text) : IO (Option Text) := do
  try
    return some (← IO.FS.readFile (String.ofList file)).toList
  catch _ => return none

def readInput : IO Text := do
  return (← (← IO.getStdin).readToEnd).toList

def runProgram (arguments : List Text) : IO UInt32 := do
  let files := namedFiles arguments
  let input ← if files.contains Command.inputName then readInput else pure []
  let contents ← (files.filter (· != Command.inputName)).mapM fun file => do
    return (file, ← readFile? file)
  let outcome := Command.outcome ⟨input, fun file => (contents.lookup file).join⟩ arguments
  IO.print (String.ofList outcome.output)
  if let some e := outcome.error then
    IO.eprintln (String.ofList ("Error: " ++ e.message))
  return UInt32.ofNat outcome.code

end ProofDesk

def main (arguments : List String) : IO UInt32 :=
  ProofDesk.runProgram (arguments.map String.toList)
