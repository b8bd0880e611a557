import ProofDesk.Limits.Reading

/-!
The formal text of statements, as the Lean checker reads and prints it, and the reader of that text.
Formal text has no brackets around compound statements; the reader finds the tree again because
operators occur only between sides and sides only inside of bodies.
-/

namespace ProofDesk.Limits

def Operation.formal : Operation → Text
  | add => "+"
  | sub => "-"
  | mul => "*"

def Relation.formal : Relation → Text
  | lt => "<"
  | le => "≤"
  | gt => ">"
  | ge => "≥"

namespace Formal

def turnstile : Text := "⊢"

def spaced (s : Text) : Text := " " ++ s ++ " "

def applicationForm : Template := [.name, " ", .name]

def limitForm : Template := ["is_limit ", .name, " ", .name]

def realForm : Template := [.name, " : ℝ"]

def naturalForm : Template := [.name, " : ℕ"]

def composedForm (op : Operation) : Template :=
  ["is_limit (λ n, ", .name, .lit (" n" ++ spaced op.formal), .name, " n) (", .name,
    .lit (spaced op.formal), .name, ")"]

def forAllHeader : Template := ["∀ ", .name, ", "]

def forAllFromHeader : Template := ["∀ ", .name, " ≥ ", .name, ", "]

def thereIsHeader : Template := ["∃ ", .name, ", "]

def sequencesEnd : Text := ": ℕ → ℝ"

end Formal

def Statement.formal : Statement → Text
  | identifier x => x
  | epsilon => "ε"
  | application seq index => Formal.applicationForm.fill [seq, index]
  | arithmetic l op r => l.formal ++ Formal.spaced op.formal ++ r.formal
  | distance l r => "|" ++ l.formal ++ " - " ++ r.formal ++ "|"
  | inequality l rel r => l.formal ++ Formal.spaced rel.formal ++ r.formal
  | conjunction l r => l.formal ++ " ∧ " ++ r.formal
  | sequenceDeclaration xs => Text.joinWith " " xs ++ " " ++ Formal.sequencesEnd
  | realDeclaration x => Formal.realForm.fill [x]
  | naturalDeclaration x => Formal.naturalForm.fill [x]
  | limit seq l => Formal.limitForm.fill [seq, l]
  | composedLimit a b op l m => (Formal.composedForm op).fill [a, b, l, m]
  | forAll x s => Formal.forAllHeader.fill [x] ++ s.formal
  | forAllFrom var bound s => Formal.forAllFromHeader.fill [var, bound] ++ s.formal
  | thereIs x s => Formal.thereIsHeader.fill [x] ++ s.formal

namespace Statement

theorem formal_application (seq index : Text) :
    (application seq index).formal = seq ++ " " ++ index := by
  simp [formal, Formal.applicationForm, Template.fill]

theorem formal_forAll (x : Text) (s : Statement) :
    (forAll x s).formal = "∀ " ++ x ++ ", " ++ s.formal := by
  simp [formal, Formal.forAllHeader, Template.fill]

theorem formal_forAllFrom (var bound : Text) (s : Statement) :
    (forAllFrom var bound s).formal = "∀ " ++ var ++ " ≥ " ++ bound ++ ", " ++ s.formal := by
  simp [formal, Formal.forAllFromHeader, Template.fill]

theorem formal_thereIs (x : Text) (s : Statement) :
    (thereIs x s).formal = "∃ " ++ x ++ ", " ++ s.formal := by
  simp [formal, Formal.thereIsHeader, Template.fill]

end Statement

namespace Formal

def operations : List (Text × Operation) := [(" + ", .add), (" - ", .sub), (" * ", .mul)]

def relations : List (Text × Relation) := [(" < ", .lt), (" > ", .gt), (" ≤ ", .le), (" ≥ ", .ge)]

def composedForms : List (Template × Operation) :=
  [(composedForm .add, .add), (composedForm .mul, .mul)]

def readEpsilon? (s : Text) : Option Statement := if s = "ε" then some .epsilon else none

def readApplication? (ctx : Context) (s : Text) : Option Statement :=
  match applicationForm.match? s with
  | some [seq, index] => application? ctx seq index
  | _ => none

def readLeaf? (ctx : Context) (s : Text) : Option Statement :=
  (readApplication? ctx s).or ((readEpsilon? s).or (identifier? s))

def differenceSides? (s : Text) : Option (Text × Text) :=
  (Text.between? "|" "|" s).bind (Text.splitFirst? " - ")

def readDistance? (ctx : Context) (s : Text) : Option Statement := do
  let (left, right) ← differenceSides? s
  return .distance (← readLeaf? ctx left) (← readLeaf? ctx right)

def readArithmetic? (ctx : Context) (s : Text) : Option Statement :=
  arithmetic? operations (readLeaf? ctx) s

def readSide? (ctx : Context) (s : Text) : Option Statement :=
  (readDistance? ctx s).or ((readArithmetic? ctx s).or (readLeaf? ctx s))

def readInequality? (ctx : Context) (s : Text) : Option Statement :=
  inequality? relations (readSide? ctx) s

/-- A body with less quantifiers than the first argument says. -/
def readBodyWithin? (ctx : Context) : Nat → Text → Option Statement
  | 0, _ => none
  | n + 1, s =>
    (forAllFrom? forAllFromHeader (readBodyWithin? ctx n) s).or
      ((forAll? forAllHeader (readBodyWithin? ctx n) s).or (readInequality? ctx s))

/-- A body; every quantifier takes more than one character. -/
def readBody? (ctx : Context) (s : Text) : Option Statement := readBodyWithin? ctx s.length s

def spacedNames? (s : Text) : Option (List Text) := do
  let names := Text.fields (· == ' ') (← Text.stripTrailing? " " s)
  if names.all Text.isName then some names else none

def readSequences? (s : Text) : Option Statement := do
  let names ← spacedNames? (← Text.stripTrailing? sequencesEnd s)
  return .sequenceDeclaration names

def readRealDeclaration? (s : Text) : Option Statement :=
  match realForm.match? s with
  | some [x] => some (.realDeclaration x)
  | _ => none

def readNaturalDeclaration? (s : Text) : Option Statement :=
  match naturalForm.match? s with
  | some [x] => some (.naturalDeclaration x)
  | _ => none

def readLimit? (s : Text) : Option Statement :=
  match limitForm.match? s with
  | some [seq, l] => some (.limit seq l)
  | _ => none

end Formal

def Kind.formal? (k : Kind) (ctx : Context) (s : Text) : Option Statement :=
  match k with
  | identifier => identifier? s
  | epsilon => Formal.readEpsilon? s
  | application => Formal.readApplication? ctx s
  | arithmetic => Formal.readArithmetic? ctx s
  | distance => Formal.readDistance? ctx s
  | inequality => Formal.readInequality? ctx s
  | conjunction => conjunction? " ∧ " (Formal.readBody? ctx) s
  | sequenceDeclaration => Formal.readSequences? s
  | realDeclaration => Formal.readRealDeclaration? s
  | naturalDeclaration => Formal.readNaturalDeclaration? s
  | limit => Formal.readLimit? s
  | composedLimit => composedLimit? Formal.composedForms s
  | forAll => forAll? Formal.forAllHeader (Formal.readBody? ctx) s
  | forAllFrom => forAllFrom? Formal.forAllFromHeader (Formal.readBody? ctx) s
  | thereIs => thereIs? Formal.thereIsHeader (Formal.readBody? ctx) s

def Kind.readFormal? (k : Kind) (ctx : Context) (s : Text) : Option (Statement × Context) :=
  (k.formal? ctx s).map (declared ctx)

def readFormal? (kinds : List Kind) (ctx : Context) (s : Text) : Option (Statement × Context) :=
  kinds.findSome? fun k => k.readFormal? ctx s

end ProofDesk.Limits
