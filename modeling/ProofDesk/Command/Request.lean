import ProofDesk.Command.Arguments
import ProofDesk.Limits.Feedback

namespace ProofDesk.Command

inductive Request where
  | state (file : Text) (renderOnly : Bool) (checker : Option Text) (timeout : Nat)
  | check (files : List Text)
  | convert (sentence : Text) (fromMarkup : Bool)
  deriving DecidableEq, Repr

def isNumber (s : Text) : Bool := (Text.readNumber? 10 64 s).isSome

def isPath (s : Text) : Bool := !s.isEmpty

def renderOnlyName : Text := "render-only"

def checkerName : Text := "lean"

def timeoutName : Text := "timeout"

def fromMarkupName : Text := "from-xml"

def stateUsage : UsageForm where
  options := [
    { name := renderOnlyName },
    { name := checkerName, arity := .requiredValue },
    { name := timeoutName, arity := .requiredValue, valid := isNumber }]
  validOperand := isPath

/-- Files may be checked by several jobs at once, which makes no difference to the result. -/
def checkUsage : UsageForm where
  options := [{ name := "jobs", letter := some 'j', arity := .optionalValue, valid := isNumber }]
  manyOperands := true
  validOperand := isPath

def convertUsage : UsageForm where
  options := [{ name := fromMarkupName }]

def readState (arguments : List Text) : Except Stop Request := do
  let g ← Given.read stateUsage arguments
  match g.operands with
  | [file] =>
    let timeout := (g.value? timeoutName).bind (Text.readNumber? 10 64)
    return .state file (g.has renderOnlyName) (g.value? checkerName)
      (timeout.getD Limits.defaultTimeout)
  | _ => .error .misuse

def readCheck (arguments : List Text) : Except Stop Request := do
  let g ← Given.read checkUsage arguments
  if g.operands.isEmpty then .error .misuse else return .check g.operands

def readConvert (arguments : List Text) : Except Stop Request := do
  let g ← Given.read convertUsage arguments
  match g.operands with
  | [sentence] => return .convert sentence (g.has fromMarkupName)
  | _ => .error .misuse

def commands : List (Text × (List Text → Except Stop Request)) :=
  [("state", readState), ("check", readCheck), ("xml", readConvert)]

def helpName : Text := "help"

def readGlobal (a : Text) : Stop :=
  match Argument.classify a with
  | .long name none =>
    if name = helpName then .help else if name = "version" then .version else .misuse
  | .short 'h' _ => .help
  | .short 'V' _ => .version
  | _ => .misuse

/-- Help is given on the program, on a command or on help itself. -/
def isHelpTopic : List Text → Bool
  | [] => true
  | [topic] => topic == helpName || (commands.lookup topic).isSome
  | _ => false

def Request.ofArguments : List Text → Except Stop Request
  | [] => .error .misuse
  | command :: arguments =>
    if command = helpName then .error (if isHelpTopic arguments then .help else .misuse)
    else match commands.lookup command with
      | some read => read arguments
      | none => .error (readGlobal command)

end ProofDesk.Command
