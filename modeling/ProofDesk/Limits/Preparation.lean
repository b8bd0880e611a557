import ProofDesk.Text.Basic

/-!
Lines in natural language are prepared before they are read: content without anything in it is
dropped, blanks become single spaces, lines that are left empty disappear, and a space separates
every command from the character before it.
-/

namespace ProofDesk.Limits

def dropEmptyMath : Text → Text
  | '$' :: '$' :: s => dropEmptyMath s
  | c :: s => c :: dropEmptyMath s
  | [] => []

/-- The text with a space in front of the commands.  A blank separates them already, and a dollar
sign may stay next to a command. -/
def separateCommands : Text → Text
  | c :: '\\' :: s =>
    if Text.isBlank c || c == '$' then c :: separateCommands ('\\' :: s)
    else c :: ' ' :: '\\' :: separateCommands s
  | c :: s => c :: separateCommands s
  | [] => []

def wordedLines (s : Text) : List Text :=
  ((Text.lines s).map Text.collapse).filter fun line => !line.isEmpty

def prepare (s : Text) : Text :=
  separateCommands (Text.joinWith "\n" (wordedLines (dropEmptyMath (Text.trim s))))

end ProofDesk.Limits
