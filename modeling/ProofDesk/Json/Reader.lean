import ProofDesk.Json.Value

/-!
Reading a JSON value.  The grammar is the strict one: no comments, no trailing commas, no control
characters in strings and no leading zeros.
-/

namespace ProofDesk.Json

def isSpace (c : Char) : Bool := c == ' ' || c == '\n' || c == '\r' || c == '\t'

def skipSpace (s : Text) : Text := s.dropWhile isSpace

def isLeading (unit : Nat) : Bool := 0xd800 ≤ unit && unit < 0xdc00

def isTrailing (unit : Nat) : Bool := 0xdc00 ≤ unit && unit < 0xe000

def joinHalves (leading trailing : Nat) : Char :=
  Char.ofNat (0x10000 + (leading - 0xd800) * 0x400 + (trailing - 0xdc00))

/-- The characters that code units denote; halves must come in pairs. -/
def charsOfUnits? : List Nat → Option Text
  | [] => some []
  | [unit] => if isLeading unit || isTrailing unit then none else some [Char.ofNat unit]
  | unit :: next :: units =>
    if isLeading unit then
      if isTrailing next then (charsOfUnits? units).map fun s => joinHalves unit next :: s else none
    else if isTrailing unit then none
    else (charsOfUnits? (next :: units)).map fun s => Char.ofNat unit :: s

def escaped? : Char → Option Char
  | '"' => some '"'
  | '\\' => some '\\'
  | '/' => some '/'
  | 'b' => some '\x08'
  | 'f' => some '\x0c'
  | 'n' => some '\n'
  | 'r' => some '\r'
  | 't' => some '\t'
  | _ => none

def unit? (digits : Text) : Option Nat := Text.readDigits? 16 0 digits

def readUnits? : Text → Option (List Nat × Text)
  | [] => none
  | '"' :: s => some ([], s)
  | '\\' :: 'u' :: a :: b :: c :: d :: s =>
    (unit? [a, b, c, d]).bind fun unit =>
      (readUnits? s).map fun (units, rest) => (unit :: units, rest)
  | '\\' :: c :: s =>
    (escaped? c).bind fun c => (readUnits? s).map fun (units, rest) => (c.toNat :: units, rest)
  | c :: s =>
    if c.toNat < 0x20 || c == '\\' then none
    else (readUnits? s).map fun (units, rest) => (c.toNat :: units, rest)

def readString? (s : Text) : Option (Option Text × Text) :=
  (readUnits? s).map fun (units, rest) => (charsOfUnits? units, rest)

def isDigit (c : Char) : Bool := '0' ≤ c && c ≤ '9'

def readDigits? (s : Text) : Option (Text × Text) :=
  if (s.takeWhile isDigit).isEmpty then none else some (s.takeWhile isDigit, s.dropWhile isDigit)

def readWhole? : Text → Option (Text × Text)
  | '0' :: s => if (s.head?.map isDigit).getD false then none else some (['0'], s)
  | s => readDigits? s

def readFraction? : Text → Option (Text × Text)
  | '.' :: s => (readDigits? s).map fun (digits, rest) => ('.' :: digits, rest)
  | s => some ([], s)

def readSign : Text → Text × Text
  | '+' :: s => (['+'], s)
  | '-' :: s => (['-'], s)
  | s => ([], s)

def readExponent? : Text → Option (Text × Text)
  | c :: s =>
    if c == 'e' || c == 'E' then
      (readDigits? (readSign s).2).map fun (digits, rest) => (c :: (readSign s).1 ++ digits, rest)
    else some ([], c :: s)
  | [] => some ([], [])

def readMagnitude? (s : Text) : Option (Text × Text) := do
  let (whole, s) ← readWhole? s
  let (fraction, s) ← readFraction? s
  let (exponent, s) ← readExponent? s
  return (whole ++ fraction ++ exponent, s)

def readNumber? : Text → Option (Text × Text)
  | '-' :: s => (readMagnitude? s).map fun (literal, rest) => ('-' :: literal, rest)
  | s => readMagnitude? s

def readWord? (word : Text) (v : Value) (s : Text) : Option (Value × Text) :=
  (Text.stripLeading? word s).map fun rest => (v, rest)

def readScalar? (s : Text) : Option (Value × Text) :=
  match s with
  | '"' :: s => (readString? s).map fun (s, rest) => (.string s, rest)
  | 'n' :: _ => readWord? "null" .null s
  | 't' :: _ => readWord? "true" (.boolean true) s
  | 'f' :: _ => readWord? "false" (.boolean false) s
  | _ => (readNumber? s).map fun (literal, rest) => (.number literal, rest)

def readKey? (s : Text) : Option (Option Text × Text) :=
  match skipSpace s with
  | '"' :: s => do
    let (key, s) ← readString? s
    let s ← Text.stripLeading? ":" (skipSpace s)
    return (key, s)
  | _ => none

mutual

/-- A value at the beginning of a text and the text after it.  The first argument bounds the number
of steps. -/
def readValue? : Nat → Text → Option (Value × Text)
  | 0, _ => none
  | n + 1, s =>
    match skipSpace s with
    | '[' :: s =>
      match skipSpace s with
      | ']' :: s => some (.array [], s)
      | s => (readItems? n s).map fun (items, rest) => (.array items, rest)
    | '\x7b' :: s =>
      match skipSpace s with
      | '\x7d' :: s => some (.object [], s)
      | s => (readMembers? n s).map fun (members, rest) => (.object members, rest)
    | s => readScalar? s

def readItems? : Nat → Text → Option (List Value × Text)
  | 0, _ => none
  | n + 1, s => do
    let (v, s) ← readValue? n s
    match skipSpace s with
    | ',' :: s =>
      let (vs, s) ← readItems? n s
      return (v :: vs, s)
    | ']' :: s => return ([v], s)
    | _ => none

def readMembers? : Nat → Text → Option (List (Option Text × Value) × Text)
  | 0, _ => none
  | n + 1, s => do
    let (key, s) ← readKey? s
    let (v, s) ← readValue? n s
    match skipSpace s with
    | ',' :: s =>
      let (members, s) ← readMembers? n s
      return ((key, v) :: members, s)
    | '\x7d' :: s => return ([(key, v)], s)
    | _ => none

end

def read? (s : Text) : Option Value :=
  match readValue? (2 * s.length + 2) s with
  | some (v, rest) => if (skipSpace rest).isEmpty then some v else none
  | none => none

end ProofDesk.Json
