import ProofDesk.Text.Basic

/-!
Tokens of sentences in text form.  The lexer takes the longest token at every position and skips
white space; where no token begins it gives `unknown` and stops, since nothing after that can make
the text a sentence.
-/

namespace ProofDesk.Logic

inductive Token where
  | verum
  | falsum
  | and
  | or
  | implies
  | iff
  | not
  | forAll
  | exist
  | opening
  | closing
  | comma
  | name (x : Text)
  | unknown
  deriving DecidableEq, Repr

namespace Token

def text : Token → Text
  | verum => "true"
  | falsum => "false"
  | and => "AND"
  | or => "OR"
  | implies => "=>"
  | iff => "<=>"
  | not => "-"
  | forAll => "FORALL"
  | exist => "EXISTS"
  | opening => "("
  | closing => ")"
  | comma => ","
  | name x => x
  | unknown => []

def keywords : List Token := [verum, falsum, and, or, forAll, exist]

def ofWord (w : Text) : Token := (keywords.find? fun t => t.text == w).getD (name w)

def ofChar? : Char → Option Token
  | '-' => some not
  | '(' => some opening
  | ')' => some closing
  | ',' => some comma
  | _ => none

end Token

def isSpace (c : Char) : Bool := c == ' ' || c == '\t' || c == '\r' || c == '\n' || c == '\x0c'

def startsName (c : Char) : Bool := c.isAlphanum || c == '_'

def continuesName (c : Char) : Bool := startsName c || c == '\''

def closeName (word : Text) (tokens : List Token) : List Token :=
  if word.isEmpty then tokens else Token.ofWord word :: tokens

/-- The tokens of a text that is preceded by the beginning `word` of a name. -/
def tokensAfter (word : Text) : Text → List Token
  | [] => closeName word []
  | '=' :: '>' :: s => closeName word (.implies :: tokensAfter [] s)
  | '<' :: '=' :: '>' :: s => closeName word (.iff :: tokensAfter [] s)
  | c :: s =>
    if startsName c || (c == '\'' && !word.isEmpty) then tokensAfter (word ++ [c]) s
    else if isSpace c then closeName word (tokensAfter [] s)
    else match Token.ofChar? c with
      | some token => closeName word (token :: tokensAfter [] s)
      | none => closeName word [.unknown]

def tokenize (s : Text) : List Token := tokensAfter [] s

end ProofDesk.Logic
