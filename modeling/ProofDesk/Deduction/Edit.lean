import ProofDesk.Deduction.Arena

namespace ProofDesk.Deduction

open Logic (Sentence)

inductive Edit where
  | setSentence (path : Path) (s : Sentence)
  | insert (s : Sentence) (parent : Path)
  | insertAt (s : Sentence) (parent : Path) (index : Nat)
  | insertDerived (parent : Path) (j : Justification)
  | justify (path : Path) (j : Justification)
  | remove (path : Path)

namespace Proof

def edit (p : Proof) : Edit → Except ProofError Proof
  | .setSentence path s => p.setSentence path s
  | .insert s parent => Prod.snd <$> p.insert s parent
  | .insertAt s parent index => Prod.snd <$> p.insertAt s parent index
  | .insertDerived parent j => Prod.snd <$> p.insertDerived parent j
  | .justify path j => p.justify path j
  | .remove path => Prod.snd <$> p.remove path

/-- An edit that fails changes nothing. -/
def tryEdit (p : Proof) (e : Edit) : Proof := (p.edit e).toOption.getD p

def ofHistory (s : Sentence) (history : List Edit) : Proof := history.foldl tryEdit (single s)

end Proof

namespace Arena

def edit (a : Arena) : Edit → Except ProofError Arena
  | .setSentence path s => a.setSentence path s
  | .insert s parent => Prod.snd <$> a.insert s parent
  | .insertAt s parent index => Prod.snd <$> a.insertAt s parent index
  | .insertDerived parent j => Prod.snd <$> a.insertDerived parent j
  | .justify path j => a.justify path j
  | .remove path => Prod.snd <$> a.remove path

def tryEdit (a : Arena) (e : Edit) : Arena := (a.edit e).toOption.getD a

def ofHistory (s : Sentence) (history : List Edit) : Arena := history.foldl tryEdit (single s)

end Arena
end ProofDesk.Deduction
