import ProofDesk.Text.Basic

namespace ProofDesk.Logic

inductive Connective where
  | conjunction
  | disjunction
  | implication
  | equivalence
  deriving DecidableEq, Repr

inductive Quantifier where
  | universal
  | existential
  deriving DecidableEq, Repr

def Connective.print : Connective → Text
  | conjunction => "AND"
  | disjunction => "OR"
  | implication => "=>"
  | equivalence => "<=>"

def Quantifier.print : Quantifier → Text
  | universal => "FORALL"
  | existential => "EXISTS"

def enclose (needed : Bool) (s : Text) : Text := if needed then "(" ++ s ++ ")" else s

end ProofDesk.Logic
