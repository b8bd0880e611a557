import ProofDesk.Json.Value

namespace ProofDesk.Json

def escapeLetter? : Char → Option Char
  | '"' => some '"'
  | '\\' => some '\\'
  | '\x08' => some 'b'
  | '\x0c' => some 'f'
  | '\n' => some 'n'
  | '\r' => some 'r'
  | '\t' => some 't'
  | _ => none

/-- A character inside of a string.  Control characters are below 32, so two digits suffice. -/
def escape (c : Char) : Text :=
  match escapeLetter? c with
  | some letter => ['\\', letter]
  | none =>
    if c.toNat < 0x20 then
      "\\u00" ++ [Nat.digitChar (c.toNat / 16), Nat.digitChar (c.toNat % 16)]
    else [c]

def quote (s : Text) : Text := '"' :: s.flatMap escape ++ ['"']

inductive Layout where
  | compact
  | lines

namespace Layout

def newline : Layout → Nat → Text
  | compact, _ => []
  | lines, level => '\n' :: List.replicate (2 * level) ' '

def colon : Layout → Text
  | compact => ":"
  | lines => ": "

def surround (layout : Layout) (level : Nat) (opening closing : Char) : List Text → Text
  | [] => [opening, closing]
  | parts =>
    let placed := parts.map fun part => layout.newline (level + 1) ++ part
    opening :: Text.joinWith "," placed ++ layout.newline level ++ [closing]

end Layout

mutual

/-- A value at a level of nesting.  A string without a text is written as an empty one. -/
def Value.printAt (layout : Layout) (level : Nat) : Value → Text
  | .null => "null"
  | .boolean true => "true"
  | .boolean false => "false"
  | .number literal => literal
  | .string s => quote (s.getD [])
  | .array items => layout.surround level '[' ']' (printItems layout (level + 1) items)
  | .object members =>
    layout.surround level '\x7b' '\x7d' (printMembers layout (level + 1) members)

def printItems (layout : Layout) (level : Nat) : List Value → List Text
  | [] => []
  | v :: vs => v.printAt layout level :: printItems layout level vs

def printMembers (layout : Layout) (level : Nat) : List (Option Text × Value) → List Text
  | [] => []
  | (key, v) :: members =>
    (quote (key.getD []) ++ layout.colon ++ v.printAt layout level) ::
      printMembers layout level members

end

def Value.print (layout : Layout) (v : Value) : Text := v.printAt layout 0

end ProofDesk.Json
