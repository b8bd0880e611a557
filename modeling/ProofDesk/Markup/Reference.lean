import ProofDesk.Text.Number

namespace ProofDesk.Markup

def charOfCode? (n : Nat) : Option Char := if n.isValidChar then some (Char.ofNat n) else none

/-- The character that a reference names, given the text between `&` and `;`. -/
def referenced? (name : Text) : Option Char :=
  if name = "lt" then some '<'
  else if name = "gt" then some '>'
  else if name = "amp" then some '&'
  else if name = "quot" then some '"'
  else if name = "apos" then some '\''
  else match Text.stripLeading? "#x" name with
    | some digits => (Text.readNumber? 16 32 digits).bind charOfCode?
    | none =>
      (Text.stripLeading? "#" name).bind fun digits =>
        (Text.readNumber? 10 32 digits).bind charOfCode?

/-- The value of a text inside the reference whose beginning is given, if there is one. -/
def decodeFrom : Option Text → Text → Option Text
  | none, [] => some []
  | some _, [] => none
  | none, c :: s =>
    if c = '&' then decodeFrom (some []) s else (decodeFrom none s).map fun value => c :: value
  | some name, c :: s =>
    if c = ';' then
      (referenced? name).bind fun char => (decodeFrom none s).map fun value => char :: value
    else decodeFrom (some (name ++ [c])) s

def decode (s : Text) : Option Text := decodeFrom none s

def encodeChar (c : Char) : Text :=
  if c = '&' then "&amp;" else if c = '<' then "&lt;" else if c = '"' then "&quot;" else [c]

def encode (value : Text) : Text := value.flatMap encodeChar

end ProofDesk.Markup
