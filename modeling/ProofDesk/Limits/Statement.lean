import ProofDesk.Text.Basic

namespace ProofDesk.Limits

inductive Relation where
  | lt
  | le
  | gt
  | ge
  deriving DecidableEq, Repr

inductive Operation where
  | add
  | sub
  | mul
  deriving DecidableEq, Repr

inductive Statement where
  | identifier (x : Text)
  | epsilon
  | application (seq index : Text)
  | arithmetic (left : Statement) (op : Operation) (right : Statement)
  | distance (left right : Statement)
  | inequality (left : Statement) (rel : Relation) (right : Statement)
  | conjunction (left right : Statement)
  | sequenceDeclaration (names : List Text)
  | realDeclaration (x : Text)
  | naturalDeclaration (x : Text)
  | limit (seq limit : Text)
  /-- The sum or the product of two sequences converges to that of two limits. -/
  | composedLimit (seq₁ seq₂ : Text) (op : Operation) (limit₁ limit₂ : Text)
  | forAll (x : Text) (body : Statement)
  | forAllFrom (var bound : Text) (body : Statement)
  | thereIs (x : Text) (body : Statement)
  deriving DecidableEq, Repr, Inhabited

inductive Kind where
  | identifier
  | epsilon
  | application
  | arithmetic
  | distance
  | inequality
  | conjunction
  | sequenceDeclaration
  | realDeclaration
  | naturalDeclaration
  | limit
  | composedLimit
  | forAll
  | forAllFrom
  | thereIs
  deriving DecidableEq, Repr

namespace Kind

def hypotheses : List Kind := [sequenceDeclaration, realDeclaration, limit, forAll]

def goals : List Kind := [limit, composedLimit]

/-- Goals and types that a checker reports. -/
def feedback : List Kind :=
  [limit, composedLimit, thereIs, forAllFrom, forAll, conjunction, inequality]

def declarations : List Kind := [sequenceDeclaration, realDeclaration, naturalDeclaration]

def bodies : List Kind := [forAllFrom, forAll, inequality]

def sides : List Kind := [distance, arithmetic, application, epsilon, identifier]

def leaves : List Kind := [application, epsilon, identifier]

def all : List Kind :=
  [sequenceDeclaration, realDeclaration, naturalDeclaration, limit, composedLimit, thereIs,
    forAllFrom, forAll, conjunction, inequality, distance, arithmetic, application, epsilon,
    identifier]

end Kind

namespace Statement

def kind : Statement → Kind
  | identifier _ => .identifier
  | epsilon => .epsilon
  | application _ _ => .application
  | arithmetic _ _ _ => .arithmetic
  | distance _ _ => .distance
  | inequality _ _ _ => .inequality
  | conjunction _ _ => .conjunction
  | sequenceDeclaration _ => .sequenceDeclaration
  | realDeclaration _ => .realDeclaration
  | naturalDeclaration _ => .naturalDeclaration
  | limit _ _ => .limit
  | composedLimit _ _ _ _ _ => .composedLimit
  | forAll _ _ => .forAll
  | forAllFrom _ _ _ => .forAllFrom
  | thereIs _ _ => .thereIs

def isDeclaration : Statement → Bool
  | sequenceDeclaration _ | realDeclaration _ | naturalDeclaration _ => true
  | _ => false

def renameName (old new x : Text) : Text := if x = old then new else x

/-- Replace a name, except below quantifiers that bind it. -/
def rename (old new : Text) : Statement → Statement
  | identifier x => identifier (renameName old new x)
  | epsilon => epsilon
  | application seq index => application (renameName old new seq) (renameName old new index)
  | arithmetic l op r => arithmetic (l.rename old new) op (r.rename old new)
  | distance l r => distance (l.rename old new) (r.rename old new)
  | inequality l rel r => inequality (l.rename old new) rel (r.rename old new)
  | conjunction l r => conjunction (l.rename old new) (r.rename old new)
  | sequenceDeclaration xs => sequenceDeclaration (xs.map (renameName old new))
  | realDeclaration x => realDeclaration (renameName old new x)
  | naturalDeclaration x => naturalDeclaration (renameName old new x)
  | limit seq l => limit (renameName old new seq) (renameName old new l)
  | composedLimit a b op l m =>
    composedLimit (renameName old new a) (renameName old new b) op (renameName old new l)
      (renameName old new m)
  | forAll x s => if x = old then forAll x s else forAll x (s.rename old new)
  | forAllFrom var bound s =>
    if var = old then forAllFrom var bound s
    else forAllFrom var (renameName old new bound) (s.rename old new)
  | thereIs x s => if x = old then thereIs x s else thereIs x (s.rename old new)

end Statement
end ProofDesk.Limits
