import ProofDesk.Text.Number

/-!
Paths address the nodes of a proof tree: a path lists child indices from the root, so the root has
the empty path.  A node may cite its children, its earlier siblings and the earlier siblings of its
ancestors.
-/

namespace ProofDesk.Deduction

abbrev Path := List Nat

namespace Path

/-- Whether the node at the first path may be cited by the node at the second. -/
def inScope : Path → Path → Bool
  | [], _ => false
  | _ :: below, [] => below.isEmpty
  | i :: cited, j :: citing => if i = j then inScope cited citing else cited.isEmpty && i < j

/-- A path after a child has been put at an index below `parent`. -/
def insertShift : Path → Nat → Path → Path
  | [], index, i :: below => (if index ≤ i then i + 1 else i) :: below
  | p :: parent, index, i :: below =>
    if p = i then i :: insertShift parent index below else i :: below
  | _, _, [] => []

/-- A path after the child at an index below `parent` has been taken away. -/
def removeShift : Path → Nat → Path → Path
  | [], index, i :: below => (if index < i then i - 1 else i) :: below
  | p :: parent, index, i :: below =>
    if p = i then i :: removeShift parent index below else i :: below
  | _, _, [] => []

def leadsTo (p q : Path) : Bool := p.isPrefixOf q

def print (p : Path) : Text := "(" ++ p.flatMap (fun i => Text.ofNat i ++ [',']) ++ ")"

end Path
end ProofDesk.Deduction
