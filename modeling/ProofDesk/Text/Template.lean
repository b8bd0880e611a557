import ProofDesk.Text.Basic

/-!
Templates are texts with blanks for names.  Filling the blanks writes a text and reading a text
finds the names in it.  A name is read as far as word characters go, so a template that puts
something else behind each of its blanks is read back just as it was filled.
-/

namespace ProofDesk

/-- A part of a template.  The blank of an indexed name holds a name that is followed by the suffix
`_n`, as a general term of a sequence is. -/
inductive Piece where
  | lit (t : Text)
  | name
  | indexed
  deriving DecidableEq, Repr

instance : Coe Text Piece := ⟨Piece.lit⟩

abbrev Template := List Piece

def indexSuffix : Text := "_n"

namespace Template

def fill : Template → List Text → Text
  | [], _ => []
  | .lit t :: ps, xs => t ++ fill ps xs
  | .name :: ps, x :: xs => x ++ fill ps xs
  | .indexed :: ps, x :: xs => x ++ indexSuffix ++ fill ps xs
  | .name :: ps, [] => fill ps []
  | .indexed :: ps, [] => indexSuffix ++ fill ps []

def stem? (x : Text) : Option Text :=
  (Text.stripTrailing? indexSuffix x).filter fun stem => !stem.isEmpty

def read? : Template → Text → Option (List Text × Text)
  | [], s => some ([], s)
  | .lit t :: ps, s => (Text.stripLeading? t s).bind (read? ps)
  | .name :: ps, s =>
    (Text.takeName? s).bind fun (x, rest) =>
      (read? ps rest).map fun (xs, rest) => (x :: xs, rest)
  | .indexed :: ps, s =>
    (Text.takeName? s).bind fun (x, rest) =>
      (stem? x).bind fun stem =>
        (read? ps rest).map fun (xs, rest) => (stem :: xs, rest)

def match? (t : Template) (s : Text) : Option (List Text) :=
  match t.read? s with
  | some (xs, []) => some xs
  | _ => none

end Template
end ProofDesk
