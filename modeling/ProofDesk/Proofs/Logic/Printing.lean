import ProofDesk.Proofs.Logic.Grammar
import ProofDesk.Proofs.Logic.Lexing

namespace ProofDesk.Logic

/-- A text that spells tokens, whatever is spelled by a text that may stand behind it. -/
def SpelledBy (tokens : List Token) (text : Text) : Prop :=
  ∀ rest s, Apart s → Spells rest s → Spells (tokens ++ rest) (text ++ s)

theorem SpelledBy.spells {tokens : List Token} {text : Text} (spelled : SpelledBy tokens text) :
    Spells tokens text := by
  have whole := spelled [] [] (by simp [Apart]) Spells.nil
  rwa [List.append_nil, List.append_nil] at whole

theorem connective_text (c : Connective) : c.print = c.token.text := by
  cases c <;> rfl

theorem quantifier_text (q : Quantifier) : q.print = q.token.text := by
  cases q <;> rfl

theorem connective_written (c : Connective) : c.token.Written := by
  cases c <;> trivial

theorem quantifier_written (q : Quantifier) : q.token.Written := by
  cases q <;> trivial

theorem apart_cons {c : Char} {s : Text} (ends : continuesName c = false) : Apart (c :: s) := by
  intro d first
  cases first
  exact ends

theorem spells_sign {t : Token} {ts : List Token} {s : Text} (written : t.Written)
    (sign : t.isWord = false) (rest : Spells ts s) : Spells (t :: ts) (t.text ++ s) := by
  refine Spells.token written (fun word => ?_) rest
  rw [sign] at word
  cases word

namespace Raw

mutual

/-- A term with symbols for names, whose applications have arguments. -/
def Term.Named : Term → Prop
  | .symbol x => isSymbol x = true
  | .application f ts => isSymbol f = true ∧ ts ≠ [] ∧ Term.AllNamed ts

def Term.AllNamed : List Term → Prop
  | [] => True
  | t :: ts => t.Named ∧ Term.AllNamed ts

end

def Sentence.Named : Sentence → Prop
  | .truth _ => True
  | .predicate p ts => isSymbol p = true ∧ Term.AllNamed ts
  | .negation s => s.Named
  | .binary l _ r => l.Named ∧ r.Named
  | .quantified _ x s => isSymbol x = true ∧ s.Named

theorem spelled_name {x : Text} (symbol : isSymbol x = true) : SpelledBy [.name x] x :=
  fun _ _ apart rest => Spells.token symbol (fun _ => apart) rest

theorem spelled_application {f : Text} {tokens : List Token} {text : Text}
    (symbol : isSymbol f = true) (inside : SpelledBy tokens text) :
    SpelledBy (.name f :: .opening :: (tokens ++ [.closing])) (f ++ "(" ++ text ++ ")") := by
  intro rest s apart spells
  have closed : Spells (.closing :: rest) (")" ++ s) := spells_sign trivial rfl spells
  have arguments := inside _ _ (apart_cons (by decide)) closed
  have opened := spells_sign (t := .opening) trivial rfl arguments
  have whole := spelled_name symbol _ _ (apart_cons (by decide)) opened
  rw [List.cons_append, List.cons_append, List.append_assoc, List.append_assoc, List.append_assoc,
    List.append_assoc]
  exact whole

mutual

theorem Term.printed : ∀ t : Term, t.Named → ∃ tokens, TermForm t tokens ∧ SpelledBy tokens t.print
  | .symbol x, named => ⟨[.name x], .symbol x, spelled_name named⟩
  | .application f ts, named => by
    obtain ⟨tokens, form, spelled⟩ := Term.arguments_printed ts named.2.1 named.2.2
    exact ⟨_, .application f form, spelled_application named.1 spelled⟩

theorem Term.arguments_printed : ∀ ts : List Term, ts ≠ [] → Term.AllNamed ts →
    ∃ tokens, ArgumentsForm ts tokens ∧ SpelledBy tokens (Term.printArguments ts)
  | [], given, _ => absurd rfl given
  | [t], _, named => by
    obtain ⟨tokens, form, spelled⟩ := Term.printed t named.1
    refine ⟨tokens, .one form, ?_⟩
    rw [Term.printArguments, Term.printFurther, List.append_nil]
    exact spelled
  | t :: u :: us, _, named => by
    obtain ⟨first, form, spelled⟩ := Term.printed t named.1
    obtain ⟨further, forms, spells⟩ :=
      Term.arguments_printed (u :: us) (List.cons_ne_nil u us) named.2
    refine ⟨_, .cons form forms, ?_⟩
    intro rest s apart after
    have arguments := Spells.space (c := ' ') rfl (spells rest s apart after)
    have separated := spells_sign (t := .comma) trivial rfl arguments
    have whole := spelled _ _ (apart_cons (by decide)) separated
    rw [Term.printArguments] at whole ⊢
    rw [Term.printFurther, List.append_assoc, List.cons_append]
    repeat rw [List.append_assoc]
    rw [List.append_assoc] at whole
    exact whole

end

theorem enclosed_printed {s : Sentence} {tokens : List Token} {text : Text}
    (form : SentenceForm s tokens) (spelled : SpelledBy tokens text) :
    ∃ enclosed, OperandForm s enclosed ∧ SpelledBy enclosed (enclose true text) := by
  refine ⟨_, .enclosed form, ?_⟩
  intro rest s apart spells
  have closed : Spells (.closing :: rest) (")" ++ s) := spells_sign trivial rfl spells
  have inside := spelled _ _ (apart_cons (by decide)) closed
  have whole := spells_sign (t := .opening) trivial rfl inside
  rw [enclose, if_pos rfl, List.cons_append, List.append_assoc, List.append_assoc,
    List.append_assoc]
  exact whole

theorem binary_printed {l r : Sentence} {left right : List Token} {first second : Text}
    (c : Connective) (form : OperandForm l left) (form' : OperandForm r right)
    (spelled : SpelledBy left first) (spelled' : SpelledBy right second) :
    ∃ tokens, SentenceForm (.binary l c r) tokens ∧
      SpelledBy tokens (first ++ " " ++ c.print ++ " " ++ second) := by
  refine ⟨_, .binary c form form', ?_⟩
  intro rest s apart spells
  have operand := Spells.space (c := ' ') rfl (spelled' rest s apart spells)
  have connected := Spells.token (connective_written c) (fun _ => apart_cons (by decide)) operand
  have spaced := Spells.space (c := ' ') rfl connected
  have whole := spelled _ _ (apart_cons (by decide)) spaced
  rw [connective_text, List.append_assoc, List.cons_append]
  repeat rw [List.append_assoc]
  exact whole

theorem Sentence.operand_printed (s : Sentence) (named : s.Named) :
    ∃ tokens, OperandForm s tokens ∧ SpelledBy tokens (enclose s.isBinary s.print) := by
  induction s with
  | truth b =>
    refine ⟨_, .truth b, ?_⟩
    intro rest s apart spells
    cases b <;> exact Spells.token trivial (fun _ => apart) spells
  | predicate p ts =>
    cases ts with
    | nil => exact ⟨_, .proposition p, spelled_name named.1⟩
    | cons t ts =>
      obtain ⟨tokens, form, spelled⟩ :=
        Term.arguments_printed (t :: ts) (List.cons_ne_nil t ts) named.2
      exact ⟨_, .predicate p form, spelled_application named.1 spelled⟩
  | negation s ih =>
    obtain ⟨tokens, form, spelled⟩ := ih named
    refine ⟨_, .negation form, ?_⟩
    intro rest s' apart spells
    exact spells_sign (t := .not) trivial rfl (spelled rest s' apart spells)
  | binary l c r ihl ihr =>
    obtain ⟨left, form, spelled⟩ := ihl named.1
    obtain ⟨right, form', spelled'⟩ := ihr named.2
    obtain ⟨tokens, whole, spells⟩ := binary_printed c form form' spelled spelled'
    exact enclosed_printed whole spells
  | quantified q x s ih =>
    obtain ⟨tokens, form, spelled⟩ := ih named.2
    refine ⟨_, .quantified q x form, ?_⟩
    intro rest s' apart spells
    have body := Spells.space (c := ' ') rfl (spelled rest s' apart spells)
    have binder := Spells.space (c := ' ') rfl (spelled_name named.1 _ _ (apart_cons (by decide)) body)
    have whole := Spells.token (quantifier_written q) (fun _ => apart_cons (by decide)) binder
    change Spells _ (q.print ++ " " ++ x ++ " " ++ enclose s.isBinary s.print ++ s')
    rw [quantifier_text]
    repeat rw [List.append_assoc]
    exact whole

/-- A sentence that is not binary is printed as an operand is. -/
theorem Sentence.printed_of_not_binary {s : Sentence} (named : s.Named)
    (single : s.isBinary = false) : ∃ tokens, SentenceForm s tokens ∧ SpelledBy tokens s.print := by
  obtain ⟨tokens, form, spelled⟩ := Sentence.operand_printed s named
  rw [single] at spelled
  exact ⟨tokens, .operand form, spelled⟩

theorem Sentence.printed (s : Sentence) (named : s.Named) :
    ∃ tokens, SentenceForm s tokens ∧ SpelledBy tokens s.print := by
  cases s with
  | binary l c r =>
    obtain ⟨left, form, spelled⟩ := Sentence.operand_printed l named.1
    obtain ⟨right, form', spelled'⟩ := Sentence.operand_printed r named.2
    exact binary_printed c form form' spelled spelled'
  | truth | predicate | negation | quantified => exact Sentence.printed_of_not_binary named rfl

theorem Sentence.parse_of_form {s : Sentence} {tokens : List Token} {text : Text}
    (form : SentenceForm s tokens) (spells : Spells tokens text) :
    Sentence.parse text = .ok s := by
  have ends : NoOperand [] := ⟨by simp [NoArguments], rfl⟩
  have read := form.parse (Nat.le_succ _) [] ends
  rw [List.append_nil] at read
  rw [Sentence.parse, spells.tokenize, Sentence.ofTokens?, depthOf, read]
  rfl

theorem Term.parse_of_form {t : Term} {tokens : List Token} {text : Text}
    (form : TermForm t tokens) (spells : Spells tokens text) : Term.parse text = .ok t := by
  have ends : NoArguments [] := by simp [NoArguments]
  have read := form.parse (n := depthOf tokens) (Nat.le_add_right _ 2) [] ends
  rw [List.append_nil] at read
  rw [Term.parse, spells.tokenize, Term.ofTokens?, read]
  rfl

theorem Sentence.parse_print (s : Sentence) (named : s.Named) :
    Sentence.parse s.print = .ok s := by
  obtain ⟨tokens, form, spelled⟩ := Sentence.printed s named
  exact Sentence.parse_of_form form spelled.spells

theorem Term.parse_print (t : Term) (named : t.Named) : Term.parse t.print = .ok t := by
  obtain ⟨tokens, form, spelled⟩ := Term.printed t named
  exact Term.parse_of_form form spelled.spells

end Raw
end ProofDesk.Logic
