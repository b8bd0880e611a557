import ProofDesk.Text.Number

/-!
Values in JavaScript Object Notation.  Numbers are kept as they are written, and members of objects
stay in their order, repetitions included.  A string may hold escapes that denote no character; such
a string has no text, which matters only to a reader that asks for it.
-/

namespace ProofDesk.Json

inductive Value where
  | null
  | boolean (b : Bool)
  | number (literal : Text)
  | string (s : Option Text)
  | array (items : List Value)
  | object (members : List (Option Text × Value))
  deriving Inhabited, Repr

namespace Value

def ofText (s : Text) : Value := string (some s)

def ofNat (n : Nat) : Value := number (Text.ofNat n)

def ofOption {α : Type} (value : α → Value) : Option α → Value
  | none => null
  | some a => value a

def ofList {α : Type} (value : α → Value) (xs : List α) : Value := array (xs.map value)

def ofFields (fields : List (Text × Value)) : Value :=
  object (fields.map fun (key, value) => (some key, value))

def text? : Value → Option Text
  | string s => s
  | _ => none

def items? : Value → Option (List Value)
  | array items => some items
  | _ => none

/-- A whole number below `2 ^ 64` that is written with digits only. -/
def index? : Value → Option Nat
  | number ('+' :: _) => none
  | number literal => Text.readNumber? 10 64 literal
  | _ => none

def texts? (v : Value) : Option (List Text) := v.items?.bind fun items => items.mapM text?

def optionalText? : Option Value → Option (Option Text)
  | none => some none
  | some null => some none
  | some v => v.text?.map some

/-- The only value with a key, if any: a key that occurs twice is refused. -/
def member? (members : List (Option Text × Value)) (key : Text) : Option (Option Value) :=
  match members.filter fun (k, _) => k == some key with
  | [] => some none
  | [(_, value)] => some (some value)
  | _ => none

/-- The fields of a record with the given keys.  An object names its fields, may have further
members and must not repeat a key of the record; an array lists the fields in their order, the
first `needed` of them at least. -/
def fields? (keys : List Text) (needed : Nat) : Value → Option (List (Option Value))
  | object members =>
    if members.all fun (key, _) => key.isSome then keys.mapM (member? members) else none
  | array items =>
    if needed ≤ items.length ∧ items.length ≤ keys.length then
      some (items.map some ++ List.replicate (keys.length - items.length) none)
    else none
  | _ => none

end Value
end ProofDesk.Json
