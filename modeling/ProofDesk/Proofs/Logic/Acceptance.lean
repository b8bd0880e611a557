import ProofDesk.Proofs.Logic.Grammar
import ProofDesk.Proofs.Logic.Lexing

namespace ProofDesk.Logic

theorem token_of_connective? {t : Token} {c : Connective} (read : t.connective? = some c) :
    t = c.token := by
  cases t with
  | and | or | implies | iff =>
    cases read
    rfl
  | verum | falsum | not | forAll | exist | opening | closing | comma | name | unknown => cases read

theorem unknown_ne_token (c : Connective) : Token.unknown ≠ c.token := by
  cases c <;> simp [Connective.token]

theorem unknown_ne_quantifier (q : Quantifier) : Token.unknown ≠ q.token := by
  cases q <;> simp [Quantifier.token]

theorem unknown_ne_truth (b : Bool) : Token.unknown ≠ truthToken b := by
  cases b <;> simp [truthToken]

namespace Raw

/-! Whatever is read derives from the tokens that were taken for it. -/

mutual

theorem termForm_of_parse {n : Nat} {tokens rest : List Token} {t : Term}
    (read : parseTerm n tokens = .ok (t, rest)) :
    ∃ used, tokens = used ++ rest ∧ TermForm t used := by
  unfold parseTerm at read
  split at read
  · next n f ts =>
    obtain ⟨⟨arguments, after⟩, inside, same⟩ := bind_eq_ok_iff.mp read
    cases same
    obtain ⟨used, rfl, form⟩ := argumentsForm_of_parse inside
    exact ⟨.name f :: .opening :: (used ++ [.closing]), by simp, .application f form⟩
  · next n x ts _ =>
    cases read
    exact ⟨[.name x], rfl, .symbol x⟩
  · cases read
  · cases read

theorem argumentsForm_of_parse {n : Nat} {tokens rest : List Token} {ts : List Term}
    (read : parseArguments n tokens = .ok (ts, rest)) :
    ∃ used, tokens = used ++ .closing :: rest ∧ ArgumentsForm ts used := by
  cases n with
  | zero => cases read
  | succ n =>
    rw [parseArguments_succ] at read
    obtain ⟨⟨t, after⟩, first, further⟩ := bind_eq_ok_iff.mp read
    obtain ⟨used, rfl, form⟩ := termForm_of_parse first
    dsimp only at further
    split at further
    · next after =>
      obtain ⟨⟨us, later⟩, second, same⟩ := bind_eq_ok_iff.mp further
      cases same
      obtain ⟨more, rfl, forms⟩ := argumentsForm_of_parse second
      exact ⟨used ++ .comma :: more, by simp, .cons form forms⟩
    · cases further
      exact ⟨used, rfl, .one form⟩
    · cases further

end

mutual

theorem sentenceForm_of_parse {n : Nat} {tokens rest : List Token} {s : Sentence}
    (read : parseSentence n tokens = .ok (s, rest)) :
    ∃ used, tokens = used ++ rest ∧ SentenceForm s used := by
  cases n with
  | zero => cases read
  | succ n =>
    rw [parseSentence_succ] at read
    obtain ⟨⟨left, after⟩, first, further⟩ := bind_eq_ok_iff.mp read
    obtain ⟨used, rfl, form⟩ := operandForm_of_parse first
    dsimp only at further
    split at further
    · next c found =>
      obtain ⟨⟨right, later⟩, second, same⟩ := bind_eq_ok_iff.mp further
      cases same
      obtain ⟨token, ahead, connective⟩ := Option.bind_eq_some_iff.mp found
      obtain ⟨next, rfl⟩ := List.head?_eq_some_iff.mp ahead
      cases token_of_connective? connective
      obtain ⟨more, rfl, form'⟩ := operandForm_of_parse second
      exact ⟨used ++ c.token :: more, by simp, .binary c form form'⟩
    · cases further
      exact ⟨used, rfl, .operand form⟩

theorem operandForm_of_parse {n : Nat} {tokens rest : List Token} {s : Sentence}
    (read : parseOperand n tokens = .ok (s, rest)) :
    ∃ used, tokens = used ++ rest ∧ OperandForm s used := by
  unfold parseOperand at read
  split at read
  · cases read
  · next n ts =>
    obtain ⟨⟨s, after⟩, inside, same⟩ := bind_eq_ok_iff.mp read
    cases same
    obtain ⟨used, rfl, form⟩ := operandForm_of_parse inside
    exact ⟨.not :: used, rfl, .negation form⟩
  · exact quantifiedForm_of_parse read
  · exact quantifiedForm_of_parse read
  · next n ts =>
    obtain ⟨⟨s, after⟩, inside, closes⟩ := bind_eq_ok_iff.mp read
    obtain ⟨used, rfl, form⟩ := sentenceForm_of_parse inside
    dsimp only at closes
    split at closes
    · cases closes
      exact ⟨.opening :: (used ++ [.closing]), by simp, .enclosed form⟩
    · cases closes
  · cases read
    exact ⟨[.verum], rfl, .truth true⟩
  · cases read
    exact ⟨[.falsum], rfl, .truth false⟩
  · next n p ts =>
    obtain ⟨⟨arguments, after⟩, inside, same⟩ := bind_eq_ok_iff.mp read
    cases same
    obtain ⟨used, rfl, form⟩ := argumentsForm_of_parse inside
    exact ⟨.name p :: .opening :: (used ++ [.closing]), by simp, .predicate p form⟩
  · next n p ts _ =>
    cases read
    exact ⟨[.name p], rfl, .proposition p⟩
  · cases read
  · cases read

theorem quantifiedForm_of_parse {n : Nat} {q : Quantifier} {tokens rest : List Token} {s : Sentence}
    (read : parseQuantified n q tokens = .ok (s, rest)) :
    ∃ used, q.token :: tokens = used ++ rest ∧ OperandForm s used := by
  unfold parseQuantified at read
  split at read
  · next n x ts =>
    obtain ⟨⟨body, after⟩, inside, same⟩ := bind_eq_ok_iff.mp read
    cases same
    obtain ⟨used, rfl, form⟩ := operandForm_of_parse inside
    exact ⟨q.token :: .name x :: used, rfl, .quantified q x form⟩
  · cases read

end

mutual

theorem TermForm.unknown_not_mem {t : Term} {tokens : List Token} (form : TermForm t tokens) :
    Token.unknown ∉ tokens := by
  cases form with
  | symbol x => simp
  | application f arguments => simp [arguments.unknown_not_mem]

theorem ArgumentsForm.unknown_not_mem {ts : List Term} {tokens : List Token}
    (form : ArgumentsForm ts tokens) : Token.unknown ∉ tokens := by
  cases form with
  | one term => exact term.unknown_not_mem
  | cons term further => simp [term.unknown_not_mem, further.unknown_not_mem]

end

mutual

theorem SentenceForm.unknown_not_mem :
    ∀ {s : Sentence} {tokens : List Token}, SentenceForm s tokens → Token.unknown ∉ tokens
  | _, _, .operand form => form.unknown_not_mem
  | _, _, .binary c first second => by
    have left := first.unknown_not_mem
    have right := second.unknown_not_mem
    simp [left, right, unknown_ne_token]

theorem OperandForm.unknown_not_mem :
    ∀ {s : Sentence} {tokens : List Token}, OperandForm s tokens → Token.unknown ∉ tokens
  | _, _, .negation form => by simp [form.unknown_not_mem]
  | _, _, .quantified q x body => by simp [body.unknown_not_mem, unknown_ne_quantifier]
  | _, _, .enclosed form => by simp [form.unknown_not_mem]
  | _, _, .truth b => by simp [unknown_ne_truth]
  | _, _, .proposition p => by simp
  | _, _, .predicate p arguments => by simp [arguments.unknown_not_mem]

end

/-- Taking all tokens and giving a tree is deriving it. -/
theorem ofTokens?_eq_ok_iff {tokens : List Token} {s : Sentence} :
    Sentence.ofTokens? tokens = .ok (s, []) ↔ SentenceForm s tokens := by
  constructor
  · intro read
    obtain ⟨used, whole, form⟩ := sentenceForm_of_parse read
    rwa [whole, List.append_nil]
  · intro form
    have enough : 2 * tokens.length + 1 ≤ depthOf tokens := by
      unfold depthOf
      omega
    have read := form.parse enough [] ⟨by simp [NoArguments], rfl⟩
    rwa [List.append_nil] at read

theorem SentenceForm.unique {s t : Sentence} {tokens : List Token} (first : SentenceForm s tokens)
    (second : SentenceForm t tokens) : s = t := by
  have read := ofTokens?_eq_ok_iff.mpr first
  rw [ofTokens?_eq_ok_iff.mpr second] at read
  cases read
  rfl

/-- The parser ends a binary sentence in front of a second connective. -/
theorem not_sentenceForm_chain {l m s : Sentence} {left middle right : List Token}
    (c d : Connective) (first : OperandForm l left) (second : OperandForm m middle) :
    ¬SentenceForm s (left ++ c.token :: (middle ++ d.token :: right)) := by
  intro form
  have whole := ofTokens?_eq_ok_iff.mpr form
  have apart := noArguments_connective (middle ++ d.token :: right) c
  have apart' := noArguments_connective right d
  unfold Sentence.ofTokens? depthOf at whole
  rw [parseSentence_binary (first.parse (by simp; omega) _ apart)
    (second.parse (by simp; omega) _ apart')] at whole
  cases whole

theorem parse_eq_ok_iff {text : Text} {s : Sentence} :
    Sentence.parse text = .ok s ↔ SentenceForm s (tokenize text) := by
  rw [← ofTokens?_eq_ok_iff, Sentence.parse, bind_eq_ok_iff]
  constructor
  · rintro ⟨⟨t, rest⟩, read, ends⟩
    dsimp only at ends
    split at ends
    · cases ends
      exact read
    · cases ends
    · cases ends
  · intro read
    exact ⟨(s, []), read, rfl⟩

/-- The parser accepts a text exactly if the lexer knows all of its tokens and these derive a
sentence, that is, if the text spells a derivation; and it gives the sentence derived, of which there
is only one.  A second connective never follows two operands. -/
theorem parse_iff_derives :
    (∀ (text : Text) (s : Sentence), Sentence.parse text = .ok s ↔
      Token.unknown ∉ tokenize text ∧ SentenceForm s (tokenize text)) ∧
    (∀ (text : Text) (s : Sentence), Sentence.parse text = .ok s ↔
      ∃ tokens, Spells tokens text ∧ SentenceForm s tokens) ∧
    (∀ (tokens : List Token) (s t : Sentence),
      SentenceForm s tokens → SentenceForm t tokens → s = t) ∧
    ∀ (c d : Connective) (l m s : Sentence) (left middle right : List Token),
      OperandForm l left → OperandForm m middle →
      ¬SentenceForm s (left ++ c.token :: (middle ++ d.token :: right)) := by
  refine ⟨?_, ?_, ?_, ?_⟩
  · intro text s
    rw [parse_eq_ok_iff]
    exact ⟨fun form => ⟨form.unknown_not_mem, form⟩, fun both => both.2⟩
  · intro text s
    rw [parse_eq_ok_iff]
    constructor
    · intro form
      exact ⟨tokenize text, tokenize_eq_iff.mp ⟨rfl, form.unknown_not_mem⟩, form⟩
    · rintro ⟨tokens, spells, form⟩
      rwa [spells.tokenize]
  · intro tokens s t first second
    exact first.unique second
  · intro c d l m s left middle right first second
    exact not_sentenceForm_chain c d first second

/-- One connective makes a sentence of two propositions, and a second one none of three. -/
theorem parse_iff_derives_propositions :
    Sentence.parse "A => B" = .ok (.binary (.predicate "A" []) .implication (.predicate "B" [])) ∧
      (∀ s, SentenceForm s [.name "A", .implies, .name "B"] →
        s = .binary (.predicate "A" []) .implication (.predicate "B" [])) ∧
      ∀ s, ¬SentenceForm s [.name "A", .and, .name "B", .or, .name "C"] := by
  have tokens : tokenize "A => B" = [.name "A", .implies, .name "B"] := by decide
  have form : SentenceForm (.binary (.predicate "A" []) .implication (.predicate "B" []))
      [.name "A", .implies, .name "B"] :=
    .binary .implication (.proposition "A") (.proposition "B")
  obtain ⟨accepts, _, unique, unchained⟩ := parse_iff_derives
  refine ⟨?_, ?_, ?_⟩
  · rw [accepts, tokens]
    exact ⟨by decide, form⟩
  · intro s derived
    exact unique _ _ _ derived form
  · intro s
    exact unchained .conjunction .disjunction _ _ s _ _ [.name "C"] (.proposition "A")
      (.proposition "B")

end Raw
end ProofDesk.Logic
