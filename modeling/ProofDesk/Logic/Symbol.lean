import ProofDesk.Text.Basic

/-!
Symbols name constants, variables, functions and predicates.  Which texts are symbols is decided here
without the lexer, but so that whatever is printed with symbols can be read again.
-/

namespace ProofDesk.Logic

def reservedWords : List Text := ["true", "false", "AND", "OR", "FORALL", "EXISTS"]

def beginsSymbol (c : Char) : Bool := c.isAlphanum || c == '_'

def extendsSymbol (c : Char) : Bool := c.isAlphanum || c == '_' || c == '\''

def isSymbol : Text → Bool
  | [] => false
  | c :: s => beginsSymbol c && s.all extendsSymbol && !reservedWords.contains (c :: s)

structure Symbol where
  name : Text
  valid : isSymbol name = true
  deriving DecidableEq

theorem Symbol.ext {x y : Symbol} (same : x.name = y.name) : x = y := by
  cases x
  cases y
  cases same
  rfl

inductive FormationError where
  | malformedSymbol (s : Text)
  | noArguments
  | predicateWithoutTerms
  deriving DecidableEq, Repr

def FormationError.message : FormationError → Text
  | malformedSymbol s => "malformed symbol \"" ++ s ++ "\""
  | noArguments => "malformed term: empty argument list"
  | predicateWithoutTerms => "malformed sentence: predicate without terms"

def Symbol.ofText? (s : Text) : Except FormationError Symbol :=
  if valid : isSymbol s = true then .ok ⟨s, valid⟩ else .error (.malformedSymbol s)

end ProofDesk.Logic
