import ProofDesk.Text.Number

/-!
Command-line arguments.  Options and operands may stand in any order, the value of an option follows
it or is attached to it, no option is given twice, and all that follows `--` are operands.  A
request for help counts only if nothing before it is wrong.
-/

namespace ProofDesk.Command

inductive OptionArity where
  | flag
  | optionalValue
  | requiredValue
  deriving DecidableEq, Repr

structure OptionForm where
  name : Text
  letter : Option Char := none
  arity : OptionArity := .flag
  valid : Text → Bool := fun _ => true

structure UsageForm where
  options : List OptionForm
  manyOperands : Bool := false
  validOperand : Text → Bool := fun _ => true

inductive Stop where
  | help
  | version
  | misuse
  deriving DecidableEq, Repr

inductive Argument where
  | long (name : Text) (value : Option Text)
  | short (letter : Char) (rest : Text)
  | separator
  | plain
  deriving DecidableEq, Repr

def Argument.classify (a : Text) : Argument :=
  match a with
  | ['-', '-'] => separator
  | '-' :: '-' :: s =>
    match Text.splitFirst? "=" s with
    | some (name, value) => long name (some value)
    | none => long s none
  | '-' :: letter :: rest => short letter rest
  | _ => plain

structure Given where
  options : List (Text × Option Text) := []
  operands : List Text := []
  /-- An option whose value may come next. -/
  pending : Option OptionForm := none

namespace Given

def option (g : Given) (form : OptionForm) (value : Option Text) : Except Stop Given :=
  if g.options.any (fun (name, _) => name == form.name) || !value.all form.valid then
    .error .misuse
  else .ok { g with options := g.options ++ [(form.name, value)], pending := none }

def settle (g : Given) : Except Stop Given :=
  match g.pending with
  | none => .ok g
  | some form => if form.arity = .requiredValue then .error .misuse else g.option form none

def operand (usage : UsageForm) (g : Given) (a : Text) : Except Stop Given :=
  if !usage.validOperand a || (!usage.manyOperands && !g.operands.isEmpty) then .error .misuse
  else .ok { g with operands := g.operands ++ [a] }

def named (g : Given) (form : OptionForm) (value : Option Text) : Except Stop Given :=
  match form.arity, value with
  | .flag, none => g.option form none
  | .flag, some _ => .error .misuse
  | _, some value => g.option form (some value)
  | _, none => .ok { g with pending := some form }

def long (usage : UsageForm) (g : Given) (name : Text) (value : Option Text) :
    Except Stop Given :=
  if name = "help" then .error (if value.isNone then .help else .misuse)
  else match usage.options.find? fun form => form.name == name with
    | some form => g.named form value
    | none => .error .misuse

def short (usage : UsageForm) (g : Given) (letter : Char) (rest : Text) : Except Stop Given :=
  if letter = 'h' then .error .help
  else match usage.options.find? fun form => form.letter == some letter with
    | some form =>
      match rest with
      | [] => g.named form none
      | '=' :: value => g.named form (some value)
      | value => g.named form (some value)
    | none => .error .misuse

/-- Take an argument that is neither an option nor the separator. -/
def plain (usage : UsageForm) (g : Given) (a : Text) : Except Stop Given :=
  match g.pending with
  | some form => g.option form (some a)
  | none => g.operand usage a

def readFrom (usage : UsageForm) : Given → List Text → Except Stop Given
  | g, [] => g.settle
  | g, a :: rest =>
    match Argument.classify a with
    | .separator => do rest.foldlM (operand usage) (← g.settle)
    | .long name value => do readFrom usage (← (← g.settle).long usage name value) rest
    | .short letter tail => do readFrom usage (← (← g.settle).short usage letter tail) rest
    | .plain => do readFrom usage (← g.plain usage a) rest

def read (usage : UsageForm) (arguments : List Text) : Except Stop Given :=
  readFrom usage {} arguments

def has (g : Given) (name : Text) : Bool := g.options.any fun (n, _) => n == name

def value? (g : Given) (name : Text) : Option Text := (g.options.lookup name).join

end Given
end ProofDesk.Command
