import ProofDesk.Command.Request
import ProofDesk.Files.Feedback
import ProofDesk.Files.ProofTree
import ProofDesk.Files.Theorem
import ProofDesk.Json.Printer

namespace ProofDesk.Command

open Files (TheoremFile ProofTree)
open Limits (Checker CheckerError Response)

inductive CommandError where
  | unreadable (file : Text)
  | json
  | desk (e : Error)
  | noChecker
  | invalid (files : List Text)

def CommandError.message : CommandError → Text
  | unreadable file => "cannot read " ++ file
  | json => "not a JSON file of the expected form"
  | desk e => e.message
  | noChecker => "no Lean command given (use --lean or TRADUKO_LEAN)"
  | invalid files => "invalid proofs:" ++ files.flatMap fun file => ' ' :: file

structure Surroundings where
  input : Text
  file? : Text → Option Text

/-- The file name that stands for the standard input. -/
def inputName : Text := "-"

namespace Surroundings

def read (around : Surroundings) (file : Text) : Except CommandError Text :=
  if file = inputName then .ok around.input
  else match around.file? file with
    | some s => .ok s
    | none => .error (.unreadable file)

/-- The input can be read only once. -/
def after (around : Surroundings) (file : Text) : Surroundings :=
  if file = inputName then { around with input := [] } else around

end Surroundings

inductive Run where
  /-- It cannot be started, or what it writes cannot be read. -/
  | broken (reason : Text)
  /-- Time is over before it ends. -/
  | unfinished
  | failed (status : Text)
  | finished (output : Text)
  deriving DecidableEq, Repr

/-- A way to run programs: with arguments, on an input, for a number of seconds. -/
abbrev Runner := Text → List Text → Text → Nat → Run

def noPrograms : Runner := fun program _ _ _ => .broken ("cannot start " ++ program)

def responseOf (output : Text) (count : Nat) : Except CheckerError Response :=
  match (Json.read? output).bind Files.responseOfJson? with
  | none => .error (.unexpected "not a response")
  | some response =>
    if response.states.length = count then .ok response
    else .error (.unexpected
      ("expected " ++ Text.ofNat count ++ " states, got " ++ Text.ofNat response.states.length))

/-- The checker that a command line runs; a blank one runs nothing. -/
def checker? (run : Runner) (command : Text) (timeout : Nat) : Option Checker :=
  match Text.words command with
  | [] => none
  | program :: arguments => some fun text lines =>
    match run program arguments ((Files.requestJson text lines).print .compact) timeout with
    | .broken reason => .error (.unavailable reason)
    | .unfinished => .error (.timeout timeout)
    | .failed status => .error (.unexpected ("Lean exited with " ++ status))
    | .finished output => responseOf output lines.length

def line (s : Text) : Text := s ++ "\n"

def state (run : Runner) (around : Surroundings) (file : Text) (renderOnly : Bool)
    (command : Option Text) (timeout : Nat) : Except CommandError Text := do
  let some t := TheoremFile.read? (← around.read file) | .error .json
  let session ← t.session.mapError fun e => .desk (.session e)
  if renderOnly then
    let rendering ← session.render.mapError fun e => .desk (.session e)
    return rendering.text
  let some checker := command.bind (checker? run · timeout) | .error .noChecker
  let feedback ← (session.ask checker).mapError fun e => .desk (.ofAsk e)
  return line ((Files.feedbackJson feedback).print .lines)

def isValid (content : Text) : Except CommandError Bool := do
  let some t := ProofTree.read? content | .error .json
  let p ← t.proof.mapError .desk
  return p.errors.isEmpty

/-- The files whose proofs are not valid.  The first file that holds no proof ends the search. -/
def invalidFiles (around : Surroundings) : List Text → Except CommandError (List Text)
  | [] => .ok []
  | file :: files => do
    let valid ← isValid (← around.read file)
    let invalid ← invalidFiles (around.after file) files
    return if valid then invalid else file :: invalid

def check (around : Surroundings) (files : List Text) : Except CommandError Text := do
  match ← invalidFiles around files with
  | [] => return []
  | invalid => .error (.invalid invalid)

def convert (sentence : Text) (fromMarkup : Bool) : Except CommandError Text :=
  if fromMarkup then
    ((Markup.read sentence).map fun s => line s.print).mapError fun e => .desk (.markup e)
  else
    ((Logic.Sentence.parse sentence).map fun s => line (Markup.write s)).mapError
      fun e => .desk (.reading e)

def Request.execute (run : Runner) (around : Surroundings) : Request → Except CommandError Text
  | state file renderOnly checker timeout =>
    Command.state run around file renderOnly checker timeout
  | check files => Command.check around files
  | convert sentence fromMarkup => Command.convert sentence fromMarkup

structure Outcome where
  code : Nat
  output : Text := []
  error : Option CommandError := none

def usage : Text := Text.joinWith "\n" [
  "Usage: proofdesk <COMMAND>", "", "Commands:",
  "  state [--render-only] [--lean <COMMAND>] [--timeout <SECONDS>] <FILE>",
  "  check [-j|--jobs [<N>]] <FILE>...", "  xml [--from-xml] <SENTENCE>", ""]

def version : Text := line "proofdesk 0.1.0"

def outcome (around : Surroundings) (arguments : List Text) (run : Runner := noPrograms) : Outcome :=
  match Request.ofArguments arguments with
  | .error .help => { code := 0, output := usage }
  | .error .version => { code := 0, output := version }
  | .error .misuse => { code := 2 }
  | .ok request =>
    match request.execute run around with
    | .ok output => { code := 0, output }
    | .error e => { code := 1, error := some e }

end ProofDesk.Command
