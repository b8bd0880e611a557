import ProofDesk.Logic.Parser
import ProofDesk.Proofs.Outcome

namespace ProofDesk.Logic

def Connective.token : Connective → Token
  | conjunction => .and
  | disjunction => .or
  | implication => .implies
  | equivalence => .iff

def Quantifier.token : Quantifier → Token
  | universal => .forAll
  | existential => .exist

def truthToken : Bool → Token
  | true => .verum
  | false => .falsum

@[simp]
theorem connective?_token (c : Connective) : c.token.connective? = some c := by
  cases c <;> rfl

namespace Raw

mutual

inductive TermForm : Term → List Token → Prop where
  | symbol (x : Text) : TermForm (.symbol x) [.name x]
  | application {ts : List Term} {tokens : List Token} (f : Text) (arguments : ArgumentsForm ts tokens) :
    TermForm (.application f ts) (.name f :: .opening :: (tokens ++ [.closing]))

inductive ArgumentsForm : List Term → List Token → Prop where
  | one {t : Term} {tokens : List Token} (term : TermForm t tokens) : ArgumentsForm [t] tokens
  | cons {t : Term} {ts : List Term} {first rest : List Token} (term : TermForm t first)
    (further : ArgumentsForm ts rest) : ArgumentsForm (t :: ts) (first ++ .comma :: rest)

end

mutual

inductive SentenceForm : Sentence → List Token → Prop where
  | operand {s : Sentence} {tokens : List Token} (form : OperandForm s tokens) :
    SentenceForm s tokens
  | binary {l r : Sentence} {left right : List Token} (c : Connective) (first : OperandForm l left)
    (second : OperandForm r right) : SentenceForm (.binary l c r) (left ++ c.token :: right)

inductive OperandForm : Sentence → List Token → Prop where
  | negation {s : Sentence} {tokens : List Token} (form : OperandForm s tokens) :
    OperandForm (.negation s) (.not :: tokens)
  | quantified {s : Sentence} {tokens : List Token} (q : Quantifier) (x : Text)
    (body : OperandForm s tokens) : OperandForm (.quantified q x s) (q.token :: .name x :: tokens)
  | enclosed {s : Sentence} {tokens : List Token} (form : SentenceForm s tokens) :
    OperandForm s (.opening :: (tokens ++ [.closing]))
  | truth (b : Bool) : OperandForm (.truth b) [truthToken b]
  | proposition (p : Text) : OperandForm (.predicate p []) [.name p]
  | predicate {ts : List Term} {tokens : List Token} (p : Text) (arguments : ArgumentsForm ts tokens) :
    OperandForm (.predicate p ts) (.name p :: .opening :: (tokens ++ [.closing]))

end

/-- Tokens that are no arguments of a name before them. -/
def NoArguments (rest : List Token) : Prop := rest.head? ≠ some .opening

/-- Tokens that do not go on after an operand, either as its arguments or as a second operand. -/
def NoOperand (rest : List Token) : Prop := NoArguments rest ∧ rest.head?.bind Token.connective? = none

theorem parseTerm_symbol {x : Text} {rest : List Token} (ends : NoArguments rest) (n : Nat) :
    parseTerm (n + 1) (.name x :: rest) = .ok (.symbol x, rest) := by
  cases rest with
  | nil => rfl
  | cons next rest =>
    cases next with
    | opening => exact absurd rfl ends
    | verum | falsum | and | or | implies | iff | not | forAll | exist | closing | comma
    | name | unknown => rfl

theorem parseOperand_proposition {p : Text} {rest : List Token} (ends : NoArguments rest) (n : Nat) :
    parseOperand (n + 1) (.name p :: rest) = .ok (.predicate p [], rest) := by
  cases rest with
  | nil => rfl
  | cons next rest =>
    cases next with
    | opening => exact absurd rfl ends
    | verum | falsum | and | or | implies | iff | not | forAll | exist | closing | comma
    | name | unknown => rfl

theorem parseArguments_succ (n : Nat) (tokens : List Token) : parseArguments (n + 1) tokens =
    (parseTerm n tokens >>= fun read => match read.2 with
      | .comma :: rest => parseArguments n rest >>= fun further => pure (read.1 :: further.1, further.2)
      | .closing :: rest => pure ([read.1], rest)
      | _ => .error .expectedCommaOrClosing) := rfl

mutual

theorem TermForm.parse {t : Term} {tokens : List Token} (form : TermForm t tokens) {n : Nat}
    (enough : 2 * tokens.length ≤ n) (rest : List Token) (ends : NoArguments rest) :
    parseTerm n (tokens ++ rest) = .ok (t, rest) := by
  cases form with
  | symbol x =>
    cases n with
    | zero => simp at enough
    | succ n => exact parseTerm_symbol ends n
  | @application ts tokens f arguments =>
    cases n with
    | zero => simp at enough
    | succ n =>
      have deeper : 2 * (tokens.length + 1) ≤ n := by
        simp only [List.length_cons, List.length_append, List.length_nil] at enough
        omega
      have inside := arguments.parse deeper rest
      simp only [List.cons_append, List.append_assoc, List.nil_append]
      rw [parseTerm, inside]
      rfl

theorem ArgumentsForm.parse {ts : List Term} {tokens : List Token} (form : ArgumentsForm ts tokens)
    {n : Nat} (enough : 2 * (tokens.length + 1) ≤ n) (rest : List Token) :
    parseArguments n (tokens ++ .closing :: rest) = .ok (ts, rest) := by
  cases form with
  | one term =>
    cases n with
    | zero => simp at enough
    | succ n =>
      have ends : NoArguments (.closing :: rest) := by simp [NoArguments]
      have read := term.parse (n := n) (by omega) _ ends
      rw [parseArguments_succ, read]
      rfl
  | @cons t ts first later term further =>
    cases n with
    | zero => simp at enough
    | succ n =>
      simp only [List.length_append, List.length_cons] at enough
      have ends : NoArguments (.comma :: (later ++ .closing :: rest)) := by simp [NoArguments]
      have read := term.parse (n := n) (by omega) _ ends
      have inside := further.parse (n := n) (by omega) rest
      simp only [List.append_assoc, List.cons_append]
      rw [parseArguments_succ, read]
      change (parseArguments n _ >>= _) = _
      rw [inside]
      rfl

end

theorem parseSentence_succ (n : Nat) (tokens : List Token) : parseSentence (n + 1) tokens =
    (parseOperand n tokens >>= fun read => match read.2.head?.bind Token.connective? with
      | some c => parseOperand n read.2.tail >>= fun second =>
        pure (.binary read.1 c second.1, second.2)
      | none => pure read) := rfl

/-- Two operands around a connective are read as one sentence, whatever comes after them. -/
theorem parseSentence_binary {n : Nat} {l r : Sentence} {tokens right rest : List Token}
    {c : Connective} (first : parseOperand n tokens = .ok (l, c.token :: right))
    (second : parseOperand n right = .ok (r, rest)) :
    parseSentence (n + 1) tokens = .ok (.binary l c r, rest) := by
  rw [parseSentence_succ, first]
  change (match c.token.connective? with | some c => _ | none => _) = _
  rw [connective?_token]
  change (parseOperand n right >>= _) = _
  rw [second]
  rfl

theorem noArguments_connective (rest : List Token) (c : Connective) :
    NoArguments (c.token :: rest) := by
  cases c <;> simp [NoArguments, Connective.token]

mutual

theorem SentenceForm.parse {s : Sentence} {tokens : List Token} (form : SentenceForm s tokens)
    {n : Nat} (enough : 2 * tokens.length + 1 ≤ n) (rest : List Token) (ends : NoOperand rest) :
    parseSentence n (tokens ++ rest) = .ok (s, rest) := by
  cases form with
  | operand form =>
    cases n with
    | zero => simp at enough
    | succ n =>
      have read := form.parse (n := n) (by omega) rest ends.1
      rw [parseSentence_succ, read]
      change (match rest.head?.bind Token.connective? with | some c => _ | none => _) = _
      rw [ends.2]
      rfl
  | @binary l r left right c first second =>
    cases n with
    | zero => simp at enough
    | succ n =>
      simp only [List.length_append, List.length_cons] at enough
      have apart := noArguments_connective (right ++ rest) c
      have read := first.parse (n := n) (by omega) _ apart
      have then' := second.parse (n := n) (by omega) rest ends.1
      simp only [List.append_assoc, List.cons_append]
      exact parseSentence_binary read then'

theorem OperandForm.parse {s : Sentence} {tokens : List Token} (form : OperandForm s tokens)
    {n : Nat} (enough : 2 * tokens.length ≤ n) (rest : List Token) (ends : NoArguments rest) :
    parseOperand n (tokens ++ rest) = .ok (s, rest) := by
  cases form with
  | @negation s tokens form =>
    cases n with
    | zero => simp at enough
    | succ n =>
      simp only [List.length_cons] at enough
      have read := form.parse (n := n) (by omega) rest ends
      rw [List.cons_append, parseOperand, read]
      rfl
  | @quantified s tokens q x body =>
    simp only [List.length_cons] at enough
    -- an operand with a quantifier takes two calls to its body
    obtain ⟨n, rfl⟩ : ∃ m, n = m + 2 := ⟨n - 2, by omega⟩
    have read := body.parse (n := n) (by omega) rest ends
    have inside : parseQuantified (n + 1) q (.name x :: (tokens ++ rest)) =
        .ok (.quantified q x s, rest) := by
      rw [parseQuantified, read]
      rfl
    cases q <;> exact inside
  | @enclosed s tokens form =>
    cases n with
    | zero => simp at enough
    | succ n =>
      simp only [List.length_cons, List.length_append, List.length_nil] at enough
      have closes : NoOperand (.closing :: rest) := ⟨by simp [NoArguments], rfl⟩
      have read := form.parse (n := n) (by omega) _ closes
      simp only [List.cons_append, List.append_assoc, List.nil_append]
      rw [parseOperand, read]
      rfl
  | truth b =>
    cases n with
    | zero => simp at enough
    | succ n => cases b <;> rfl
  | proposition p =>
    cases n with
    | zero => simp at enough
    | succ n => exact parseOperand_proposition ends n
  | @predicate ts tokens p arguments =>
    cases n with
    | zero => simp at enough
    | succ n =>
      simp only [List.length_cons, List.length_append, List.length_nil] at enough
      have inside := arguments.parse (n := n) (by omega) rest
      simp only [List.cons_append, List.append_assoc, List.nil_append]
      rw [parseOperand, inside]
      rfl

end

end Raw
end ProofDesk.Logic
