import ProofDesk.Limits.Reading

/-!
Statements in natural language.  Mathematical content is written as LaTeX does it and stands between
dollar signs; inside of it one is in math mode.  Some forms may be written in more than one way, and
each statement has one way in which it is shown.
-/

namespace ProofDesk.Limits

def Operation.math : Operation → Text
  | add => "+"
  | sub => "-"
  | mul => "\\cdot"

def Relation.math : Relation → Text
  | lt => "<"
  | le => "\\leq"
  | gt => ">"
  | ge => "\\geq"

namespace Natural

def spaced (s : Text) : Text := " " ++ s ++ " "

def enclose (inMath : Bool) (s : Text) : Text := if inMath then s else "$" ++ s ++ "$"

def inside? (inMath : Bool) (s : Text) : Option Text :=
  if inMath then some s
  else (Text.between? "$" "$" s).filter fun s => !s.contains '$'

def epsilonName : Text := "ε"

def epsilonMath : Text := "\\epsilon"

def nameMath (x : Text) : Text := if x = epsilonName then epsilonMath else x

def realEnd : Text := " \\in \\mathbb\x7bR\x7d"

def realForm : Template := [.name, realEnd]

def naturalForm : Template := [.name, " \\in \\mathbb\x7bN\x7d"]

def limitForm : Template := [.indexed, " \\rightarrow ", .name]

/-- The form of a combined limit with what may stand before the closing parenthesis. -/
def composedForm (gap : Text) (op : Operation) : Template :=
  ["\\left(", .indexed, .lit (spaced op.math), .indexed, .lit (gap ++ "\\right) \\rightarrow "),
    .name, .lit (spaced op.math), .name]

def forAllHeader : Template := ["\\forall ", .name, " : "]

def forAllFromHeader : Template := ["\\forall ", .name, " \\geq ", .name, " : "]

def thereIsHeader : Template := ["\\exists ", .name, " : "]

def sequenceTerms (xs : List Text) : Text :=
  Text.joinWith ", " (xs.map fun x => x ++ indexSuffix)

def sequencesEnd : Text := " are real-valued sequences"

end Natural

def Statement.math : Statement → Text
  | identifier x => x
  | epsilon => Natural.epsilonMath
  | application seq index => seq ++ "_" ++ index
  | arithmetic l op r => l.math ++ Natural.spaced op.math ++ r.math
  | distance l r => "\\left\\lvert " ++ l.math ++ " - " ++ r.math ++ "\\right\\rvert"
  | inequality l rel r => l.math ++ Natural.spaced rel.math ++ r.math
  | conjunction l r => l.math ++ " \\wedge " ++ r.math
  | sequenceDeclaration xs => Natural.sequenceTerms xs ++ Natural.sequencesEnd
  | realDeclaration x => Natural.nameMath x ++ Natural.realEnd
  | naturalDeclaration x => Natural.naturalForm.fill [x]
  | limit seq l => Natural.limitForm.fill [seq, l]
  | composedLimit a b op l m => (Natural.composedForm [] op).fill [a, b, l, m]
  | forAll x s => Natural.forAllHeader.fill [x] ++ s.math
  | forAllFrom var bound s => Natural.forAllFromHeader.fill [var, bound] ++ s.math
  | thereIs x s => Natural.thereIsHeader.fill [x] ++ s.math

/-- A statement in natural language.  The words of a declaration of sequences stand outside of the
mathematical content. -/
def Statement.natural (inMath : Bool) : Statement → Text
  | sequenceDeclaration xs =>
    Natural.enclose inMath (Natural.sequenceTerms xs) ++ Natural.sequencesEnd
  | v => Natural.enclose inMath v.math

namespace Natural

def operations : List (Text × Operation) := [(" + ", .add), (" - ", .sub), (" \\cdot ", .mul)]

def relations : List (Text × Relation) :=
  [(" < ", .lt), (" > ", .gt), (" \\leq ", .le), (" \\geq ", .ge)]

def composedForms : List (Template × Operation) :=
  [(composedForm [] .add, .add), (composedForm " " .add, .add), (composedForm [] .mul, .mul),
    (composedForm " " .mul, .mul)]

def readEpsilon? (s : Text) : Option Statement := if s = epsilonMath then some .epsilon else none

/-- The parts of a name around its last underscore that has something on both sides. -/
def splitIndex? : Text → Option (Text × Text)
  | [] => none
  | c :: s =>
    match splitIndex? s with
    | some (seq, index) => some (c :: seq, index)
    | none =>
      match s with
      | '_' :: d :: index => some ([c], d :: index)
      | _ => none

def readApplication? (ctx : Context) (s : Text) : Option Statement :=
  if Text.isName s then (splitIndex? s).bind fun (seq, index) => application? ctx seq index
  else none

def readLeaf? (ctx : Context) (s : Text) : Option Statement :=
  (readApplication? ctx s).or ((readEpsilon? s).or (identifier? s))

def differenceSides? (s : Text) : Option (Text × Text) := do
  let s := Text.trimLeft (← Text.stripLeading? "\\left" s)
  let s ← (Text.stripLeading? "\\lvert" s).or (Text.stripLeading? "|" s)
  let s ← (Text.stripTrailing? "\\rvert" s).or (Text.stripTrailing? "|" s)
  let s ← Text.stripTrailing? "\\right" (Text.trimRight s)
  Text.splitFirst? " - " (Text.trim s)

def readDistance? (ctx : Context) (s : Text) : Option Statement := do
  let (left, right) ← differenceSides? s
  return .distance (← readLeaf? ctx left) (← readLeaf? ctx right)

def readArithmetic? (ctx : Context) (s : Text) : Option Statement :=
  arithmetic? operations (readLeaf? ctx) s

def readSide? (ctx : Context) (s : Text) : Option Statement :=
  (readDistance? ctx s).or ((readArithmetic? ctx s).or (readLeaf? ctx s))

def readInequality? (ctx : Context) (s : Text) : Option Statement :=
  inequality? relations (readSide? ctx) s

def readBodyWithin? (ctx : Context) : Nat → Text → Option Statement
  | 0, _ => none
  | n + 1, s =>
    (forAllFrom? forAllFromHeader (readBodyWithin? ctx n) s).or
      ((forAll? forAllHeader (readBodyWithin? ctx n) s).or (readInequality? ctx s))

def readBody? (ctx : Context) (s : Text) : Option Statement := readBodyWithin? ctx s.length s

def readRealDeclaration? (s : Text) : Option Statement :=
  if s = epsilonMath ++ realEnd then some (.realDeclaration epsilonName)
  else match realForm.match? s with
    | some [x] => some (.realDeclaration x)
    | _ => none

def readNaturalDeclaration? (s : Text) : Option Statement :=
  match naturalForm.match? s with
  | some [x] => some (.naturalDeclaration x)
  | _ => none

def readLimit? (s : Text) : Option Statement :=
  match limitForm.match? s with
  | some [seq, l] => some (.limit seq l)
  | _ => none

def termOf? (s : Text) : Option Text := if Text.isName s then Template.stem? s else none

def termsOf? (s : Text) : Option (List Text) :=
  match Text.fields (· == ',') s with
  | [] => none
  | first :: rest => do
    let x ← termOf? first
    let xs ← rest.mapM fun s => (Text.stripLeading? " " s).bind termOf?
    return x :: xs

/-- A declaration of sequences, which is never in math mode as a whole. -/
def readSequences? (s : Text) : Option Statement := do
  let s ← Text.between? "$" ("$" ++ sequencesEnd) s
  return .sequenceDeclaration (← termsOf? s)

end Natural

def Kind.math? (k : Kind) (ctx : Context) (s : Text) : Option Statement :=
  match k with
  | identifier => identifier? s
  | epsilon => Natural.readEpsilon? s
  | application => Natural.readApplication? ctx s
  | arithmetic => Natural.readArithmetic? ctx s
  | distance => Natural.readDistance? ctx s
  | inequality => Natural.readInequality? ctx s
  | conjunction => conjunction? " \\wedge " (Natural.readBody? ctx) s
  | sequenceDeclaration => none
  | realDeclaration => Natural.readRealDeclaration? s
  | naturalDeclaration => Natural.readNaturalDeclaration? s
  | limit => Natural.readLimit? s
  | composedLimit => composedLimit? Natural.composedForms s
  | forAll => forAll? Natural.forAllHeader (Natural.readBody? ctx) s
  | forAllFrom => forAllFrom? Natural.forAllFromHeader (Natural.readBody? ctx) s
  | thereIs => thereIs? Natural.thereIsHeader (Natural.readBody? ctx) s

def Kind.natural? (k : Kind) (ctx : Context) (inMath : Bool) (s : Text) : Option Statement :=
  if k = sequenceDeclaration then Natural.readSequences? s
  else (Natural.inside? inMath s).bind (k.math? ctx)

def Kind.readNatural? (k : Kind) (ctx : Context) (inMath : Bool) (s : Text) :
    Option (Statement × Context) :=
  (k.natural? ctx inMath s).map (declared ctx)

def readNatural? (kinds : List Kind) (ctx : Context) (inMath : Bool) (s : Text) :
    Option (Statement × Context) :=
  kinds.findSome? fun k => k.readNatural? ctx inMath s

end ProofDesk.Limits
