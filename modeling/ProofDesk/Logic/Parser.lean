import ProofDesk.Logic.Raw
import ProofDesk.Logic.Token

/-!
The parser of sentences in text form, with one token of lookahead.

    sentence := operand [connective operand]
    operand  := '-' operand | quantifier NAME operand | '(' sentence ')'
              | 'true' | 'false' | NAME [arguments]
    term     := NAME [arguments]
    arguments := '(' term {',' term} ')'

Connectives do not chain, and the body of a quantifier ends before a connective.  Every function
gives what it read with the tokens that follow, and takes a bound on the depth of nested calls; a
token is taken at every second call, so twice the number of tokens is enough for all of them.
-/

namespace ProofDesk.Logic

inductive ParseError where
  | unknownToken
  | expectedSentence
  | expectedName
  | expectedTerm
  | expectedCommaOrClosing
  | expectedClosing
  | expectedEnd
  deriving DecidableEq, Repr

def ParseError.label : ParseError → Text
  | unknownToken => "UnknownToken"
  | expectedSentence => "ExpectedSentence"
  | expectedName => "ExpectedIdent"
  | expectedTerm => "ExpectedTerm"
  | expectedCommaOrClosing => "ExpectedCommaOrRPar"
  | expectedClosing => "ExpectedRPar"
  | expectedEnd => "ExpectedEnd"

def ParseError.message (e : ParseError) : Text := "parse error: " ++ e.label

def Token.connective? : Token → Option Connective
  | and => some .conjunction
  | or => some .disjunction
  | implies => some .implication
  | iff => some .equivalence
  | _ => none

namespace Raw

mutual

def parseTerm : Nat → List Token → Except ParseError (Term × List Token)
  | n + 1, .name f :: .opening :: ts => do
    let (arguments, rest) ← parseArguments n ts
    return (.application f arguments, rest)
  | _ + 1, .name x :: ts => .ok (.symbol x, ts)
  | _ + 1, .unknown :: _ => .error .unknownToken
  | _, _ => .error .expectedTerm

def parseArguments : Nat → List Token → Except ParseError (List Term × List Token)
  | 0, _ => .error .expectedTerm
  | n + 1, ts => do
    let (t, rest) ← parseTerm n ts
    match rest with
    | .comma :: rest => do
      let (arguments, rest) ← parseArguments n rest
      return (t :: arguments, rest)
    | .closing :: rest => return ([t], rest)
    | _ => .error .expectedCommaOrClosing

end

mutual

/-- A sentence, possibly followed by further tokens. -/
def parseSentence : Nat → List Token → Except ParseError (Sentence × List Token)
  | 0, _ => .error .expectedSentence
  | n + 1, ts => do
    let (left, rest) ← parseOperand n ts
    match rest.head?.bind Token.connective? with
    | some c => do
      let (right, rest) ← parseOperand n rest.tail
      return (.binary left c right, rest)
    | none => return (left, rest)

def parseOperand : Nat → List Token → Except ParseError (Sentence × List Token)
  | 0, _ => .error .expectedSentence
  | n + 1, .not :: ts => do
    let (s, rest) ← parseOperand n ts
    return (.negation s, rest)
  | n + 1, .forAll :: ts => parseQuantified n .universal ts
  | n + 1, .exist :: ts => parseQuantified n .existential ts
  | n + 1, .opening :: ts => do
    let (s, rest) ← parseSentence n ts
    match rest with
    | .closing :: rest => return (s, rest)
    | _ => .error .expectedClosing
  | _ + 1, .verum :: ts => .ok (.truth true, ts)
  | _ + 1, .falsum :: ts => .ok (.truth false, ts)
  | n + 1, .name p :: .opening :: ts => do
    let (arguments, rest) ← parseArguments n ts
    return (.predicate p arguments, rest)
  | _ + 1, .name p :: ts => .ok (.predicate p [], ts)
  | _ + 1, .unknown :: _ => .error .unknownToken
  | _ + 1, _ => .error .expectedSentence

def parseQuantified : Nat → Quantifier → List Token → Except ParseError (Sentence × List Token)
  | n + 1, q, .name x :: ts => do
    let (body, rest) ← parseOperand n ts
    return (.quantified q x body, rest)
  | _, _, _ => .error .expectedName

end

/-- A bound on the nesting of calls for a token list. -/
def depthOf (ts : List Token) : Nat := 2 * ts.length + 2

def Term.ofTokens? (ts : List Token) : Except ParseError (Term × List Token) :=
  parseTerm (depthOf ts) ts

def Sentence.ofTokens? (ts : List Token) : Except ParseError (Sentence × List Token) :=
  parseSentence (depthOf ts) ts

def Sentence.parse (s : Text) : Except ParseError Sentence := do
  let (sentence, rest) ← Sentence.ofTokens? (tokenize s)
  match rest with
  | [] => return sentence
  | .unknown :: _ => .error .unknownToken
  | _ :: _ => .error .expectedEnd

def Term.parse (s : Text) : Except ParseError Term := do
  let (term, rest) ← Term.ofTokens? (tokenize s)
  match rest with
  | [] => return term
  | _ :: _ => .error .expectedEnd

end Raw
end ProofDesk.Logic
