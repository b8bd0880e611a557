import ProofDesk.Deduction.Edit

/-!
Insertions that change a stored proof in place, one step after the other.  A step that fails ends the
operation, and what has been changed before it stays changed.
-/

namespace ProofDesk.Deduction

open Logic (Sentence)

abbrev Update := ExceptT ProofError (StateM Arena)

namespace Update

variable {α : Type}

def on (u : Update α) (a : Arena) : Except ProofError α × Arena := StateT.run (ExceptT.run u) a

def ask (question : Arena → Except ProofError α) : Update α := ExceptT.mk fun a => (question a, a)

def change (f : Arena → Arena) : Update PUnit := ExceptT.mk fun a => (.ok ⟨⟩, f a)

def insertAt (s : Sentence) (parent : Path) (index : Nat) : Update Path := do
  let parentId ← ask fun a => a.find parent
  let path := parent ++ [index]
  if (← ask fun a => a.childCount parent) < index then throw (.invalidPosition path)
  change (Arena.renumber (Path.insertShift parent index))
  let id ← ask fun a => .ok a.cells.length
  change (Arena.push s)
  change (Arena.modify (Cell.insertChild index id) parentId)
  return path

def insert (s : Sentence) (parent : Path) : Update Path := do
  insertAt s parent (← ask fun a => a.childCount parent)

/-- The antecedents are resolved before the node is there, and attached when it is. -/
def insertDerived (parent : Path) (j : Justification) : Update Path := do
  let count ← ask fun a => a.childCount parent
  let derived ← ask fun a => a.derive (parent ++ [count]) j
  let path ← insert derived parent
  let id ← ask fun a => a.find path
  change (Arena.attach j id)
  return path

/-- What an operation amounts to that changes nothing if it fails. -/
def settled (a : Arena) : Except ProofError (α × Arena) → Except ProofError α × Arena
  | .ok (x, after) => (.ok x, after)
  | .error e => (.error e, a)

end Update
end ProofDesk.Deduction
