import ProofDesk.Error
import ProofDesk.Json.Reader

/-!
Proof files.  A file is a tree of nodes whose sentences, rules and terms are texts.  A proof is
built from it by adding the children of a node, one after the other with all that is below them, and
then justifying the node; so a node may cite its own children and whatever comes before it.
-/

namespace ProofDesk.Files

open Logic (Sentence Term)
open Deduction (Rule Path Proof Antecedent Justification)

inductive Citation where
  | path (p : Path)
  | sentence (text : Text)
  deriving DecidableEq, Repr

inductive ProofTree where
  /-- The names in `bound` are bound in the arguments. -/
  | node (sentence : Text) (rule : Option Text) (antecedents : List Citation)
    (arguments bound : List Text) (children : List ProofTree)
  deriving Inhabited, Repr

def Citation.ofJson? : Json.Value → Option Citation
  | .array items => (items.mapM Json.Value.index?).map path
  | v => v.text?.map sentence

def Citation.antecedent : Citation → Except Error Antecedent
  | path p => .ok (.path p)
  | sentence text => ((Sentence.parse text).map Antecedent.sentence).mapError .reading

namespace ProofTree

def sentence : ProofTree → Text
  | node s _ _ _ _ _ => s

/-- The items of a list that may be left out.  They cannot be read where no list may be opened. -/
def listOf? {α : Type} (item : Option (Json.Value → Option α)) (field : Option Json.Value) :
    Option (List α) :=
  match field with
  | none => some []
  | some v => do (← v.items?).mapM (← item)

/-- A node whose children are read by the given reader.  Without one the node has no lists. -/
def ofJsonWith? (child : Option (Json.Value → Option ProofTree)) (v : Json.Value) :
    Option ProofTree := do
  match ← v.fields? ["sentence", "rule", "antecedents", "args", "variables", "children"] 2 with
  | [some sentence, rule, antecedents, arguments, bound, children] =>
    let texts := child.map fun _ => Json.Value.text?
    return node (← sentence.text?) (← Json.Value.optionalText? rule)
      (← listOf? (child.map fun _ => Citation.ofJson?) antecedents)
      (← listOf? texts arguments) (← listOf? texts bound) (← listOf? child children)
  | _ => none

def ofJsonWithin? : Nat → Json.Value → Option ProofTree
  | 0 => ofJsonWith? none
  | levels + 1 => ofJsonWith? (some (ofJsonWithin? levels))

/-- Each level takes an object and a list, and at most 127 of both may be open. -/
def maxLevels : Nat := 63

def ofJson? (v : Json.Value) : Option ProofTree := ofJsonWithin? maxLevels v

def read? (s : Text) : Option ProofTree := (Json.read? s).bind ofJson?

def justification : ProofTree → Except Error (Option Justification)
  | node _ none _ _ _ _ => .ok none
  | node _ (some rule) antecedents arguments bound _ => do
    let rule ← (Rule.ofName? rule).mapError .rule
    let antecedents ← antecedents.mapM Citation.antecedent
    let arguments ← arguments.mapM fun t => (Term.parse t bound).mapError .reading
    return some { rule, antecedents, arguments }

mutual

/-- Add what a node has below it to a proof in which the node is the one at a path, and justify the
node. -/
def build : ProofTree → Path → Proof → Except Error Proof
  | node s rule antecedents arguments bound children, path, p => do
    let p ← buildChildren children path p
    match ← (node s rule antecedents arguments bound children).justification with
    | none => return p
    | some j => (p.justify path j).mapError .proof

def buildChildren : List ProofTree → Path → Proof → Except Error Proof
  | [], _, p => return p
  | child :: children, path, p => do
    let s ← (Sentence.parse child.sentence).mapError .reading
    let (made, p) ← (p.insert s path).mapError .proof
    let p ← child.build made p
    buildChildren children path p

end

def proof (t : ProofTree) : Except Error Proof := do
  let s ← (Sentence.parse t.sentence).mapError .reading
  t.build [] (.single s)

end ProofTree
end ProofDesk.Files
