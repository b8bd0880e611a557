import ProofDesk.Limits.Formal
import ProofDesk.Limits.Natural

/-!
The texts that a checker shows.  A proof state lists the local context, one entry of names and their
type after the other, and then the goal; long entries continue on indented lines.  Goals and types
are simplified to the formal text that is read here, and told in natural language if they can be.
-/

namespace ProofDesk.Limits

def isIndented : Text → Bool
  | c :: _ => Text.isBlank c
  | [] => false

/-- What the first lines add to the entry before them, and the entries that follow. -/
def continuation : List Text → Text × List Text
  | [] => ([], [])
  | line :: lines =>
    let (more, entries) := continuation lines
    if isIndented line then (' ' :: (Text.trim line ++ more), entries)
    else ([], (Text.trim line ++ more) :: entries)

/-- The entries of a proof state.  Nothing stands before the first line that it could continue. -/
def stateEntries (state : Text) : List Text :=
  match Text.lines state with
  | [] => []
  | line :: lines => (Text.trim line ++ (continuation lines).1) :: (continuation lines).2

def goalOf? (state : Text) : Option Text :=
  (Text.splitLast? (Formal.turnstile ++ " ") state).map fun (_, goal) => Text.collapse goal

def entryType? (x entry : Text) : Option Text :=
  if Formal.turnstile.isPrefixOf entry then none
  else (Text.splitFirst? " : " entry).bind fun (names, type) =>
    if (Text.words names).contains x then some (Text.collapse type) else none

def typeOf? (state x : Text) : Option Text := (stateEntries state).findSome? (entryType? x)

/-- Whether a text has a word among its words that is bounded by other characters than those of
words. -/
def hasWord (word s : Text) : Bool := (Text.fields (fun c => !Text.isWord c) s).contains word

def errorText (message : Text) : Text :=
  Text.trim (Text.joinWith "\n" ((Text.lines message).takeWhile fun line => !hasWord "state" line))

def noGoals : Text := "no goals"

def isAccomplished (state : Text) : Bool :=
  (Text.trim state).isEmpty || Text.trim state == noGoals

def shownBoundForm : Template := ["∀ (", .name, " : ℕ), ", .name, " ≥ ", .name, " →"]

/-- The short form of a quantifier with a lower bound, if the bound is one of the quantified name.
Otherwise all of it stays as it is. -/
def boundedQuantifier? (s : Text) : Option (Text × Text) :=
  match shownBoundForm.read? s with
  | some ([x, y, bound], rest) =>
    if x = y then some (Template.fill ["∀ ", .name, " ≥ ", .name, ","] [x, bound], rest)
    else some (shownBoundForm.fill [x, y, bound], rest)
  | _ => none

def isParenthesis (c : Char) : Bool := c == '(' || c == ')'

def afterType? (s : Text) : Option Text :=
  if (s.takeWhile fun c => !isParenthesis c).isEmpty then none
  else Text.stripLeading? ")," (s.dropWhile fun c => !isParenthesis c)

def typedQuantifier? : Text → Option (Text × Text)
  | q :: s =>
    if q = '∀' ∨ q = '∃' then
      match Template.read? [" (", .name, " : "] s with
      | some ([x], rest) =>
        (afterType? rest).map fun rest => (q :: Template.fill [" ", .name, ","] [x], rest)
      | _ => none
    else none
  | [] => none

def simplify (s : Text) : Text :=
  Text.replace typedQuantifier? (Text.replace boundedQuantifier? (Text.collapse s))

def goalNatural? (ctx : Context) (goal : Text) : Option Text :=
  (readFormal? Kind.feedback ctx (simplify goal)).map fun (v, _) => v.natural false

def typeNatural? (ctx : Context) (x type : Text) : Option Text :=
  if Text.trim type = "ℝ" then some ((Statement.realDeclaration x).natural false)
  else if Text.trim type = "ℕ" then some ((Statement.naturalDeclaration x).natural false)
  else if Text.trim type = "ℕ → ℝ" then some ((Statement.sequenceDeclaration [x]).natural false)
  else goalNatural? ctx type

end ProofDesk.Limits
