import ProofDesk.Proofs.Logic.Acceptance
import ProofDesk.Proofs.Logic.Printing
import ProofDesk.Proofs.Logic.Scoping

namespace ProofDesk.Logic

theorem written_of_mem_closeName {word : Text} {tokens : List Token} {t : Token}
    (begun : Begun word) (member : t ∈ closeName word tokens) : t.Written ∨ t ∈ tokens := by
  unfold closeName at member
  split at member
  · exact Or.inr member
  · next given =>
    rcases List.mem_cons.mp member with rfl | later
    · exact Or.inl (ofWord_written begun (by simpa using given)).1
    · exact Or.inr later

theorem written_of_ofChar? {c : Char} {t : Token} (sign : Token.ofChar? c = some t) :
    t.Written := by
  unfold Token.ofChar? at sign
  split at sign <;> cases sign <;> trivial

theorem written_of_mem_tokensAfter {word s : Text} {t : Token} (begun : Begun word)
    (known : t ≠ .unknown) (member : t ∈ tokensAfter word s) : t.Written := by
  fun_induction tokensAfter word s with
  | case1 word =>
    rcases written_of_mem_closeName begun member with written | none'
    · exact written
    · cases none'
  | case2 word s ih | case3 word s ih =>
    rcases written_of_mem_closeName begun member with written | member
    · exact written
    · rcases List.mem_cons.mp member with rfl | later
      · trivial
      · exact ih trivial later
  | case4 word c s _ _ continues ih => exact ih (begun.concat continues) member
  | case5 word c s _ _ ends blank ih =>
    rcases written_of_mem_closeName begun member with written | later
    · exact written
    · exact ih trivial later
  | case6 word c s _ _ ends solid token sign ih =>
    rcases written_of_mem_closeName begun member with written | member
    · exact written
    · rcases List.mem_cons.mp member with rfl | later
      · exact written_of_ofChar? sign
      · exact ih trivial later
  | case7 word c s _ _ ends solid none' =>
    rcases written_of_mem_closeName begun member with written | last
    · exact written
    · exact absurd (List.mem_singleton.mp last) known

def SymbolsOnly (tokens : List Token) : Prop := ∀ x, Token.name x ∈ tokens → isSymbol x = true

theorem symbolsOnly_tokenize (s : Text) : SymbolsOnly (tokenize s) := by
  intro x member
  have begun : Begun [] := trivial
  exact written_of_mem_tokensAfter begun (by simp) member

theorem SymbolsOnly.subset {tokens others : List Token} (symbols : SymbolsOnly tokens)
    (inside : others ⊆ tokens) : SymbolsOnly others :=
  fun x member => symbols x (inside member)

theorem isSymbol_iff_tokenize {s : Text} : isSymbol s = true ↔ tokenize s = [.name s] := by
  constructor
  · intro symbol
    exact (Raw.spelled_name symbol).spells.tokenize
  · intro single
    apply symbolsOnly_tokenize s s
    rw [single]
    exact List.mem_singleton_self _

theorem exists_ofText?_iff {s : Text} : (∃ x, Symbol.ofText? s = .ok x) ↔ isSymbol s = true := by
  constructor
  · intro formed
    rcases formed with ⟨x, formed⟩
    rw [← ofText?_eq_ok.mp formed]
    exact x.valid
  · intro symbol
    exact ⟨⟨s, symbol⟩, ofText?_eq_ok.mpr rfl⟩

namespace Raw

theorem subset_applied (f : Text) (tokens : List Token) :
    tokens ⊆ .name f :: .opening :: (tokens ++ [.closing]) := by
  intro t member
  simp [member]

mutual

theorem TermForm.named {t : Term} {tokens : List Token} (form : TermForm t tokens)
    (symbols : SymbolsOnly tokens) : t.Named := by
  cases form with
  | symbol x => exact symbols x List.mem_cons_self
  | application f arguments =>
    have inside := arguments.named (symbols.subset (subset_applied _ _))
    exact ⟨symbols f List.mem_cons_self, inside⟩

theorem ArgumentsForm.named {ts : List Term} {tokens : List Token}
    (form : ArgumentsForm ts tokens) (symbols : SymbolsOnly tokens) :
    ts ≠ [] ∧ Term.AllNamed ts := by
  cases form with
  | one term => exact ⟨List.cons_ne_nil _ _, term.named symbols, trivial⟩
  | cons term further =>
    have first := term.named (symbols.subset (by simp))
    have rest := further.named (symbols.subset (by simp))
    exact ⟨List.cons_ne_nil _ _, first, rest.2⟩

end

mutual

theorem SentenceForm.named : ∀ {s : Sentence} {tokens : List Token},
    SentenceForm s tokens → SymbolsOnly tokens → s.Named
  | _, _, .operand form, symbols => form.named symbols
  | _, _, .binary c first second, symbols =>
    ⟨first.named (symbols.subset (by simp)), second.named (symbols.subset (by simp))⟩

theorem OperandForm.named : ∀ {s : Sentence} {tokens : List Token},
    OperandForm s tokens → SymbolsOnly tokens → s.Named
  | _, _, .negation form, symbols => form.named (symbols.subset (by simp))
  | _, _, .quantified q x body, symbols =>
    ⟨symbols x (by simp), body.named (symbols.subset (by simp))⟩
  | _, _, .enclosed form, symbols => form.named (symbols.subset (by simp))
  | _, _, .truth _, _ => trivial
  | _, _, .proposition p, symbols => ⟨symbols p List.mem_cons_self, trivial⟩
  | _, _, .predicate p arguments, symbols =>
    ⟨symbols p List.mem_cons_self, (arguments.named (symbols.subset (subset_applied _ _))).2⟩

end

mutual

theorem Term.exists_raw : ∀ t : Term, t.Named → ∃ u : Logic.Term, u.raw = t
  | .symbol x, named => ⟨.const ⟨x, named⟩, rfl⟩
  | .application f ts, named => by
    rcases Term.exists_raw_arguments ts named.2.1 named.2.2 with ⟨us, rfl⟩
    exact ⟨.app ⟨f, named.1⟩ us, rfl⟩

theorem Term.exists_raw_arguments : ∀ ts : List Term, ts ≠ [] → Term.AllNamed ts →
    ∃ us : Arguments, us.raw = ts
  | [], given, _ => absurd rfl given
  | [t], _, named => by
    rcases Term.exists_raw t named.1 with ⟨u, rfl⟩
    exact ⟨.one u, rfl⟩
  | t :: next :: ts, _, named => by
    rcases Term.exists_raw t named.1 with ⟨u, rfl⟩
    rcases Term.exists_raw_arguments (next :: ts) (List.cons_ne_nil _ _) named.2 with ⟨us, rest⟩
    refine ⟨.cons u us, ?_⟩
    rw [Arguments.raw, rest]

end

theorem Sentence.exists_raw (s : Sentence) (named : s.Named) : ∃ u : Logic.Sentence, u.raw = s := by
  induction s with
  | truth b => exact ⟨.truth b, rfl⟩
  | predicate p ts =>
    cases ts with
    | nil => exact ⟨.proposition ⟨p, named.1⟩, rfl⟩
    | cons t ts =>
      rcases Term.exists_raw_arguments (t :: ts) (List.cons_ne_nil _ _) named.2 with ⟨us, same⟩
      refine ⟨.predicate ⟨p, named.1⟩ us, ?_⟩
      rw [Sentence.raw, same]
  | negation s ih =>
    rcases ih named with ⟨u, rfl⟩
    exact ⟨.negation u, rfl⟩
  | binary l c r ihl ihr =>
    rcases ihl named.1 with ⟨left, rfl⟩
    rcases ihr named.2 with ⟨right, rfl⟩
    exact ⟨.binary c left right, rfl⟩
  | quantified q x s ih =>
    rcases ih named.2 with ⟨u, rfl⟩
    exact ⟨.quantified q ⟨x, named.1⟩ u, rfl⟩

theorem Term.exists_scope {t : Term} (named : t.Named) (bound : Stack Text) :
    ∃ u, t.scope bound = (.ok u, bound) := by
  rcases Term.exists_raw t named with ⟨u, rfl⟩
  refine ⟨u.reclassify bound.elements, ?_⟩
  rw [Term.scope_eq_classify, Term.classify_raw]

theorem Sentence.exists_scope {s : Sentence} (named : s.Named) (bound : Stack Text) :
    ∃ u, s.scope bound = (.ok u, bound) := by
  rcases Sentence.exists_raw s named with ⟨u, rfl⟩
  refine ⟨u.reclassify bound.elements, ?_⟩
  rw [Sentence.scope_eq_classify, Sentence.classify_raw]

theorem Sentence.named_of_parse {text : Text} {s : Sentence} (read : Sentence.parse text = .ok s) :
    s.Named :=
  (parse_eq_ok_iff.mp read).named (symbolsOnly_tokenize text)

theorem Term.named_of_ofTokens? {text : Text} {t : Term} {rest : List Token}
    (read : Term.ofTokens? (tokenize text) = .ok (t, rest)) : t.Named := by
  rcases termForm_of_parse read with ⟨used, whole, form⟩
  apply form.named
  apply (symbolsOnly_tokenize text).subset
  rw [whole]
  exact List.subset_append_left used rest

theorem Term.ofTokens?_of_parse {text : Text} {t : Term} (read : Term.parse text = .ok t) :
    Term.ofTokens? (tokenize text) = .ok (t, []) := by
  rw [Term.parse] at read
  rcases bind_eq_ok_iff.mp read with ⟨⟨u, rest⟩, taken, ends⟩
  dsimp only at ends
  split at ends
  · cases ends
    exact taken
  · cases ends

end Raw

/-- What makes reading a sentence fail made the parser fail. -/
theorem Sentence.parse_eq_error {text : Text} {e : ReadError}
    (failed : Sentence.parse text = .error e) :
    ∃ p, e = .parse p ∧ Raw.Sentence.parse text = .error p := by
  unfold Sentence.parse at failed
  cases read : Raw.Sentence.parse text with
  | error p =>
    rw [read] at failed
    cases failed
    exact ⟨p, rfl, rfl⟩
  | ok s =>
    rcases Raw.Sentence.exists_scope (Raw.Sentence.named_of_parse read) .empty with ⟨u, found⟩
    rw [read] at failed
    dsimp only at failed
    rw [found] at failed
    cases failed

theorem Term.parse_eq_error {text : Text} {bound : List Text} {e : ReadError}
    (failed : Term.parse text bound = .error e) :
    ∃ p, e = .parse p ∧ Raw.Term.parse text = .error p := by
  unfold Term.parse at failed
  cases read : Raw.Term.parse text with
  | error p =>
    rw [read] at failed
    cases failed
    exact ⟨p, rfl, rfl⟩
  | ok t =>
    have named := Raw.Term.named_of_ofTokens? (Raw.Term.ofTokens?_of_parse read)
    rcases Raw.Term.exists_scope named (bound.foldl .push .empty) with ⟨u, found⟩
    rw [read] at failed
    dsimp only at failed
    rw [found] at failed
    cases failed

/-- A text is accepted as a symbol exactly if the lexer gives this one name for it.  So what the
parser gives can be scoped with any names bound, and reading fails in the parser only. -/
theorem symbols_are_single_names :
    (∀ s : Text, (∃ x, Symbol.ofText? s = .ok x) ↔ tokenize s = [.name s]) ∧
    (∀ (text : Text) (s : Raw.Sentence), Raw.Sentence.parse text = .ok s →
      ∀ bound, ∃ u, s.scope bound = (.ok u, bound)) ∧
    (∀ (text : Text) (t : Raw.Term) (rest : List Token),
      Raw.Term.ofTokens? (tokenize text) = .ok (t, rest) →
      ∀ bound, ∃ u, t.scope bound = (.ok u, bound)) ∧
    (∀ (text : Text) (e : ReadError), Sentence.parse text = .error e →
      ∃ p, e = .parse p ∧ Raw.Sentence.parse text = .error p) ∧
    ∀ (text : Text) (bound : List Text) (e : ReadError), Term.parse text bound = .error e →
      ∃ p, e = .parse p ∧ Raw.Term.parse text = .error p := by
  refine ⟨?_, ?_, ?_, ?_, ?_⟩
  · intro s
    rw [exists_ofText?_iff, isSymbol_iff_tokenize]
  · intro text s read bound
    exact Raw.Sentence.exists_scope (Raw.Sentence.named_of_parse read) bound
  · intro text t rest read bound
    exact Raw.Term.exists_scope (Raw.Term.named_of_ofTokens? read) bound
  · intro text e failed
    exact Sentence.parse_eq_error failed
  · intro text bound e failed
    exact Term.parse_eq_error failed

/-- A quote or a letter more makes a name of a keyword, and a keyword is none even if it is bound. -/
theorem symbols_are_single_names_likeKeywords :
    (∃ s, Raw.Sentence.parse "FORALL true' P(true', ORs)" = .ok s ∧
      ∃ u, s.scope ⟨["P"]⟩ = (.ok u, ⟨["P"]⟩)) ∧
    (Raw.Term.ofTokens? (tokenize "f(x') AND") = .ok (.application "f" [.symbol "x'"], [.and]) ∧
      ∃ u, (Raw.Term.application "f" [.symbol "x'"]).scope ⟨["x'"]⟩ = (.ok u, ⟨["x'"]⟩)) ∧
    (Sentence.parse "P()" = .error (.parse .expectedTerm) ∧
      Raw.Sentence.parse "P()" = .error .expectedTerm) ∧
    Term.parse "OR" ["OR"] = .error (.parse .expectedTerm) ∧
      Raw.Term.parse "OR" = .error .expectedTerm := by
  have read : Raw.Sentence.parse "FORALL true' P(true', ORs)" =
      .ok (.quantified .universal "true'" (.predicate "P" [.symbol "true'", .symbol "ORs"])) := by
    decide +kernel
  have taken : Raw.Term.ofTokens? (tokenize "f(x') AND") =
      .ok (.application "f" [.symbol "x'"], [.and]) := by decide +kernel
  have failed : Sentence.parse "P()" = .error (.parse .expectedTerm) := by decide +kernel
  have failed' : Term.parse "OR" ["OR"] = .error (.parse .expectedTerm) := by decide +kernel
  rcases symbols_are_single_names with ⟨-, sentences, terms, inParser, inParser'⟩
  rcases inParser _ _ failed with ⟨p, same, reason⟩
  cases same
  rcases inParser' _ _ _ failed' with ⟨p, same, reason'⟩
  cases same
  exact ⟨⟨_, read, sentences _ _ read _⟩, ⟨taken, terms _ _ _ taken _⟩, ⟨failed, reason⟩, failed',
    reason'⟩

end ProofDesk.Logic
