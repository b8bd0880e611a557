namespace ProofDesk.Logic

structure Stack (α : Type) where
  elements : List α := []
  deriving DecidableEq, Repr

namespace Stack

variable {α : Type}

def empty : Stack α := ⟨[]⟩

def push (s : Stack α) (x : α) : Stack α := ⟨x :: s.elements⟩

def pop (s : Stack α) : Stack α := ⟨s.elements.tail⟩

def size (s : Stack α) : Nat := s.elements.length

def isEmpty (s : Stack α) : Bool := s.elements.isEmpty

def contains [BEq α] (s : Stack α) (x : α) : Bool := s.elements.contains x

/-- An action that may change the stack and may fail; a failure too leaves a stack behind. -/
abbrev Action (α ε β : Type) := Stack α → Except ε β × Stack α

/-- Run an action with one more element on the stack.  The element is taken off again whether the
action fails or not. -/
def withPushed {ε β : Type} (x : α) (act : Action α ε β) : Action α ε β := fun s =>
  let (result, after) := act (s.push x)
  (result, after.pop)

end Stack
end ProofDesk.Logic
