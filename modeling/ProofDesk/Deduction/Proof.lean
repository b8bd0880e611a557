import ProofDesk.Deduction.Path
import ProofDesk.Deduction.Rule

/-!
Proof trees.  A node holds a sentence, its subproofs and, if it is justified, a rule with the
antecedents and terms the rule is applied to.  An antecedent is a sentence or the path of a node.
Whenever a node is put in or taken away, every path in the tree is renumbered, so that it keeps
leading to the same node.
-/

namespace ProofDesk.Deduction

open Logic (Symbol Term Sentence)

inductive Antecedent where
  | sentence (s : Sentence)
  | path (p : Path)
  deriving DecidableEq

structure Justification where
  rule : Rule
  antecedents : List Antecedent := []
  arguments : List Term := []
  deriving DecidableEq

inductive Proof where
  | node (sentence : Sentence) (justification : Option Justification) (children : List Proof)

inductive ProofError where
  | invalidPosition (p : Path)
  | scopeViolation (position antecedent : Path)
  | noConclusion (rule : Rule)
  | unjustified (p : Path)
  | referenced (referrer target : Path)
  | rule (e : RuleError)
  | mismatch (position : Path) (derived : Sentence)
  deriving DecidableEq

def ProofError.message : ProofError → Text
  | invalidPosition p => "invalid position " ++ p.print
  | scopeViolation position antecedent =>
    "antecedent " ++ antecedent.print ++ " is not in scope at " ++ position.print
  | noConclusion r => r.name ++ " does not derive a sentence"
  | unjustified p => p.print ++ " is not justified"
  | referenced referrer target => target.print ++ " is referenced by " ++ referrer.print
  | rule e => e.message
  | mismatch position derived =>
    "at " ++ position.print ++ ", the rule derives " ++ derived.print

namespace Antecedent

def renumber (shift : Path → Path) : Antecedent → Antecedent
  | sentence s => sentence s
  | path p => path (shift p)

def path? : Antecedent → Option Path
  | sentence _ => none
  | path p => some p

def print : Antecedent → Text
  | sentence s => "[" ++ s.print ++ "]"
  | path p => p.print

end Antecedent

namespace Justification

def renumber (shift : Path → Path) (j : Justification) : Justification :=
  { j with antecedents := j.antecedents.map (Antecedent.renumber shift) }

def citations (j : Justification) : List Path := j.antecedents.filterMap Antecedent.path?

def print (j : Justification) : Text :=
  j.rule.name ++ j.antecedents.flatMap (fun a => ' ' :: a.print) ++
    j.arguments.flatMap (fun t => ' ' :: t.print)

end Justification

namespace Proof

def single (s : Sentence) : Proof := node s none []

def sentence : Proof → Sentence
  | node s _ _ => s

def justification : Proof → Option Justification
  | node _ j _ => j

def children : Proof → List Proof
  | node _ _ ps => ps

def withSentence (s : Sentence) : Proof → Proof
  | node _ j ps => node s j ps

def withJustification (j : Justification) : Proof → Proof
  | node s _ ps => node s (some j) ps

def withChildren (ps : List Proof) : Proof → Proof
  | node s j _ => node s j ps

def citations (p : Proof) : List Path := (p.justification.map Justification.citations).getD []

def at? : Proof → Path → Option Proof
  | p, [] => some p
  | p, i :: path => p.children[i]?.bind fun child => child.at? path

def get (p : Proof) (path : Path) : Except ProofError Proof :=
  match p.at? path with
  | some found => .ok found
  | none => .error (.invalidPosition path)

/-- Change the subproof at a path; nothing changes if there is none. -/
def modify (f : Proof → Proof) : Path → Proof → Proof
  | [], p => f p
  | i :: path, p => p.withChildren (p.children.modify i (modify f path))

mutual

def renumber (shift : Path → Path) : Proof → Proof
  | node s j ps => node s (j.map (Justification.renumber shift)) (renumberAll shift ps)

def renumberAll (shift : Path → Path) : List Proof → List Proof
  | [] => []
  | p :: ps => p.renumber shift :: renumberAll shift ps

end

mutual

def nodes : Proof → List (Path × Proof)
  | node s j ps => ([], node s j ps) :: nodesFrom 0 ps

/-- The nodes of subproofs that are the children from an index on. -/
def nodesFrom : Nat → List Proof → List (Path × Proof)
  | _, [] => []
  | i, p :: ps => p.nodes.map (fun (path, q) => (i :: path, q)) ++ nodesFrom (i + 1) ps

end

def childCount (p : Proof) (path : Path) : Except ProofError Nat := do
  return (← p.get path).children.length

def setSentence (p : Proof) (path : Path) (s : Sentence) : Except ProofError Proof := do
  discard (p.get path)
  return p.modify (withSentence s) path

/-- Put a new node at an index below `parent` and shift later siblings one to the right. -/
def insertAt (p : Proof) (s : Sentence) (parent : Path) (index : Nat) :
    Except ProofError (Path × Proof) := do
  let found ← p.get parent
  let path := parent ++ [index]
  if found.children.length < index then .error (.invalidPosition path)
  else
    let renumbered := p.renumber (Path.insertShift parent index)
    let insert (q : Proof) := q.withChildren (q.children.insertIdx index (single s))
    return (path, renumbered.modify insert parent)

def insert (p : Proof) (s : Sentence) (parent : Path) : Except ProofError (Path × Proof) := do
  p.insertAt s parent (← p.childCount parent)

def resolveOne (p : Proof) (position : Path) : Antecedent → Except ProofError Sentence
  | .sentence s => .ok s
  | .path cited =>
    if cited.inScope position then (p.get cited).map sentence
    else .error (.scopeViolation position cited)

def resolve (p : Proof) (position : Path) (antecedents : List Antecedent) :
    Except ProofError (List Sentence) :=
  antecedents.mapM (p.resolveOne position)

def derive (p : Proof) (position : Path) (j : Justification) : Except ProofError Sentence := do
  let sentences ← p.resolve position j.antecedents
  match j.rule.apply sentences j.arguments with
  | .ok (some derived) => return derived
  | .ok none => .error (.noConclusion j.rule)
  | .error e => .error (.rule e)

/-- Put a node behind the children of `parent` whose sentence a justification derives there. -/
def insertDerived (p : Proof) (parent : Path) (j : Justification) :
    Except ProofError (Path × Proof) := do
  let count ← p.childCount parent
  let derived ← p.derive (parent ++ [count]) j
  let (path, extended) ← p.insert derived parent
  return (path, extended.modify (withJustification j) path)

/-- Justify a node.  The antecedents must exist and be in scope; whether the rule derives the
sentence of the node is left to `verify`. -/
def justify (p : Proof) (path : Path) (j : Justification) : Except ProofError Proof := do
  discard (p.get path)
  discard (p.resolve path j.antecedents)
  return p.modify (withJustification j) path

/-- The first citation of a node inside the subtree at `path` by a node outside of it. -/
def referenceInto? (p : Proof) (path : Path) : Option (Path × Path) :=
  p.nodes.findSome? fun (referrer, q) =>
    if path.leadsTo referrer then none
    else (q.citations.find? path.leadsTo).map fun target => (referrer, target)

/-- Take the subtree at a path away and shift later siblings one to the left.  This fails if a node
outside of the subtree cites one inside. -/
def remove (p : Proof) (path : Path) : Except ProofError (Proof × Proof) := do
  match path.getLast? with
  | none => .error (.invalidPosition [])
  | some index =>
    let found ← p.get path
    match p.referenceInto? path with
    | some (referrer, target) => .error (.referenced referrer target)
    | none =>
      let parent := path.dropLast
      let shift := Path.removeShift parent index
      let erase (q : Proof) := q.withChildren (q.children.eraseIdx index)
      return (found.renumber shift, (p.renumber shift).modify erase parent)

/-- Check that a node is justified and that its justification derives its sentence.  Assumptions
are always valid. -/
def verify (p : Proof) (path : Path) : Except ProofError Unit := do
  let found ← p.get path
  match found.justification with
  | none => .error (.unjustified path)
  | some j =>
    if j.rule.isAssumption then return ()
    let derived ← p.derive path j
    if derived = found.sentence then return () else .error (.mismatch path derived)

def isVerified (p : Proof) (path : Path) : Bool := (p.verify path).isOk

def check (p : Proof) (path : Path) : Bool :=
  let below := p.nodes.filter fun (q, _) => path.leadsTo q
  !below.isEmpty && below.all fun (q, _) => p.isVerified q

def errors (p : Proof) : List ProofError :=
  p.nodes.filterMap fun (path, _) =>
    match p.verify path with
    | .ok _ => none
    | .error e => some e

def printLine (path : Path) (p : Proof) : Text :=
  List.replicate (2 * path.length) ' ' ++ p.sentence.print ++
    (match p.justification with
      | some j => "    by " ++ j.print
      | none => []) ++ "\n"

def print (p : Proof) : Text := p.nodes.flatMap fun (path, q) => printLine path q

end Proof
end ProofDesk.Deduction
