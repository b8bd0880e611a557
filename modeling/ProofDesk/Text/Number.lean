import ProofDesk.Text.Basic

namespace ProofDesk.Text

def ofNat (n : Nat) : Text := Nat.toDigits 10 n

def digitValue? (c : Char) : Option Nat :=
  if '0' ≤ c ∧ c ≤ '9' then some (c.toNat - '0'.toNat)
  else if 'a' ≤ c ∧ c ≤ 'f' then some (c.toNat - 'a'.toNat + 10)
  else if 'A' ≤ c ∧ c ≤ 'F' then some (c.toNat - 'A'.toNat + 10)
  else none

def digitIn? (base : Nat) (c : Char) : Option Nat := (digitValue? c).filter (· < base)

/-- The number whose digits continue those of `value`. -/
def readDigits? (base : Nat) : Nat → Text → Option Nat
  | value, [] => some value
  | value, c :: s => (digitIn? base c).bind fun digit => readDigits? base (value * base + digit) s

def unsigned (s : Text) : Text :=
  match s with
  | '+' :: digits => digits
  | _ => s

def readNumber? (base bits : Nat) (s : Text) : Option Nat :=
  match unsigned s with
  | [] => none
  | c :: digits => (readDigits? base 0 (c :: digits)).filter (· < Nat.pow 2 bits)

end ProofDesk.Text
