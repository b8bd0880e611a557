import ProofDesk.Markup.Reference

/-!
Tokens of XML documents.  Space, comments, declarations and blank character data say nothing about
an element tree and give no token.  Values come with their references replaced.  Where no token
begins, the lexer gives `unknown` and stops.
-/

namespace ProofDesk.Markup

inductive Token where
  | opening
  | endOpening
  | closing
  | emptyClosing
  | equals
  | name (x : Text)
  | value (v : Text)
  | data
  | unknown
  deriving DecidableEq, Repr

def isSpace (c : Char) : Bool := c == ' ' || c == '\t' || c == '\r' || c == '\n'

def startsName (c : Char) : Bool := c.isAlpha || c == '_'

def continuesName (c : Char) : Bool :=
  c.isAlphanum || c == '_' || c == '.' || c == ':' || c == '-'

def untilQuote? (quote : Char) : Text → Option (Text × Text)
  | [] => none
  | c :: s =>
    if c = quote then some ([], s)
    else if c = '<' then none
    else (untilQuote? quote s).map fun (v, rest) => (c :: v, rest)

/-- The text after a declaration, which ends at its first question mark. -/
def afterDeclaration? : Text → Option Text
  | [] => none
  | '?' :: s => Text.stripLeading? ">" s
  | _ :: s => afterDeclaration? s

def afterDoctype? : Text → Option Text
  | [] => none
  | '>' :: s => some s
  | _ :: s => afterDoctype? s

/-- The text after a comment, which ends at its first two adjacent dashes. -/
def afterComment? : Text → Option Text
  | [] => none
  | '-' :: '-' :: s => Text.stripLeading? ">" s
  | '-' :: _ :: s => afterComment? s
  | _ :: s => afterComment? s

/-- Character data and the text after it.  Its end is searched for behind every bracket that does
not belong to a pair followed by something else. -/
def untilDataEnd? : Text → Option (Text × Text)
  | [] => none
  | ']' :: ']' :: '>' :: s => some ([], s)
  | ']' :: ']' :: c :: s => (untilDataEnd? s).map fun (v, rest) => (']' :: ']' :: c :: v, rest)
  | [']', ']'] => none
  | [']'] => none
  | ']' :: c :: s => (untilDataEnd? s).map fun (v, rest) => (']' :: c :: v, rest)
  | c :: s => (untilDataEnd? s).map fun (v, rest) => (c :: v, rest)

def Token.ofQuoted (s : Text) : Token :=
  match decode s with
  | some v => value v
  | none => unknown

/-- What begins a text: the token, unless it is one that says nothing, and the text after it. -/
def firstToken? : Text → Option (Option Token × Text)
  | [] => none
  | '<' :: '/' :: s => some (some .endOpening, s)
  | '<' :: '?' :: s => (afterDeclaration? s).map fun rest => (none, rest)
  | '<' :: '!' :: '-' :: '-' :: s => (afterComment? s).map fun rest => (none, rest)
  | '<' :: '!' :: s =>
    match Text.stripLeading? "[CDATA[" s, Text.stripLeading? "DOCTYPE" s with
    | some content, _ =>
      (untilDataEnd? content).map fun (v, rest) =>
        (if (Text.trim v).isEmpty then none else some .data, rest)
    | none, some content => (afterDoctype? content).map fun rest => (none, rest)
    | none, none => some (some .opening, '!' :: s)
  | '<' :: s => some (some .opening, s)
  | '>' :: s => some (some .closing, s)
  | '/' :: '>' :: s => some (some .emptyClosing, s)
  | '=' :: s => some (some .equals, s)
  | c :: s =>
    if c = '"' ∨ c = '\'' then
      (untilQuote? c s).map fun (v, rest) => (some (Token.ofQuoted v), rest)
    else if startsName c then
      some (some (.name (c :: s.takeWhile continuesName)), s.dropWhile continuesName)
    else if isSpace c then some (none, s.dropWhile isSpace)
    else none

/-- The tokens of a text whose first characters, as many as the first argument says, belong to a
token already taken. -/
def tokensFrom : Nat → Text → List Token
  | _, [] => []
  | skip + 1, _ :: s => tokensFrom skip s
  | 0, c :: s =>
    match firstToken? (c :: s) with
    | none => [.unknown]
    | some (token, rest) => token.toList ++ tokensFrom (s.length - rest.length) s

def tokenize (s : Text) : List Token := tokensFrom 0 s

end ProofDesk.Markup
