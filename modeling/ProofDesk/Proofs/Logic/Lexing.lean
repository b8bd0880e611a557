import ProofDesk.Logic.Symbol
import ProofDesk.Logic.Token

namespace ProofDesk.Logic

/-- Keywords and names: tokens that must not touch each other. -/
def Token.isWord : Token → Bool
  | .name _ => true
  | t => t ∈ Token.keywords

def Token.Written : Token → Prop
  | .name x => isSymbol x = true
  | .unknown => False
  | _ => True

/-- A text that may stand right behind a word. -/
def Apart (s : Text) : Prop := ∀ c ∈ s.head?, continuesName c = false

inductive Spells : List Token → Text → Prop where
  | nil : Spells [] []
  | space {c : Char} {ts : List Token} {s : Text} (blank : isSpace c = true) (rest : Spells ts s) :
    Spells ts (c :: s)
  | token {t : Token} {ts : List Token} {s : Text} (written : t.Written)
    (apart : t.isWord = true → Apart s) (rest : Spells ts s) : Spells (t :: ts) (t.text ++ s)

theorem beginsSymbol_eq_startsName : beginsSymbol = startsName := rfl

theorem extendsSymbol_eq_continuesName : extendsSymbol = continuesName := rfl

theorem reservedWords_eq_keywords : reservedWords = Token.keywords.map Token.text := rfl

theorem isSymbol_cons_iff {c : Char} {s : Text} : isSymbol (c :: s) = true ↔
    startsName c = true ∧ s.all continuesName = true ∧
      Token.keywords.find? (fun t => t.text == c :: s) = none := by
  rw [isSymbol, beginsSymbol_eq_startsName, extendsSymbol_eq_continuesName,
    reservedWords_eq_keywords]
  simp [and_assoc, List.find?_eq_none]

theorem isWord_of_written {t : Token} (written : t.Written) (word : t.isWord = true) :
    ∃ c s, t.text = c :: s ∧ startsName c = true ∧ s.all continuesName = true := by
  cases t with
  | name x =>
    cases x with
    | nil => cases written
    | cons c s =>
      have symbol := isSymbol_cons_iff.mp written
      exact ⟨c, s, rfl, symbol.1, symbol.2.1⟩
  | verum | falsum | and | or | forAll | exist => exact ⟨_, _, rfl, by decide, by decide⟩
  | implies | iff | not | opening | closing | comma | unknown => cases word

theorem ofWord_text {t : Token} (written : t.Written) (word : t.isWord = true) :
    Token.ofWord t.text = t := by
  cases t with
  | name x =>
    have absent : Token.keywords.find? (fun t => t.text == x) = none := by
      cases x with
      | nil => cases written
      | cons c s => exact (isSymbol_cons_iff.mp written).2.2
    calc Token.ofWord x = (Token.keywords.find? fun t => t.text == x).getD (.name x) := rfl
      _ = .name x := by rw [absent, Option.getD_none]
  | verum | falsum | and | or | forAll | exist => decide
  | implies | iff | not | opening | closing | comma | unknown => cases word

theorem tokensAfter_continue {c : Char} {word s : Text} (continues : continuesName c = true)
    (begun : startsName c = true ∨ word ≠ []) :
    tokensAfter word (c :: s) = tokensAfter (word ++ [c]) s := by
  have read : (startsName c || (c == '\'' && !word.isEmpty)) = true := by
    rcases begun with start | going
    · rw [start, Bool.true_or]
    · have tail : word.isEmpty = false := by simpa using going
      simpa [continuesName, tail] using continues
  rw [tokensAfter.eq_4, if_pos read]
  · rintro _ rfl
    cases continues
  · rintro _ rfl
    cases continues

theorem tokensAfter_word {w word s : Text} (continues : w.all continuesName = true)
    (begun : word ≠ []) : tokensAfter word (w ++ s) = tokensAfter (word ++ w) s := by
  induction w generalizing word with
  | nil => rw [List.append_nil, List.nil_append]
  | cons c w ih =>
    rw [List.all_cons, Bool.and_eq_true] at continues
    have further : word ++ [c] ≠ [] := by simp
    rw [List.cons_append, tokensAfter_continue continues.1 (Or.inr begun), ih continues.2 further,
      List.append_assoc]
    rfl

theorem tokensAfter_apart {word s : Text} (begun : word ≠ []) (apart : Apart s) :
    tokensAfter word s = Token.ofWord word :: tokensAfter [] s := by
  have close (ts : List Token) : closeName word ts = Token.ofWord word :: ts := by
    rw [closeName, if_neg (by simpa using begun)]
  cases s with
  | nil =>
    rw [tokensAfter, tokensAfter, close]
    rfl
  | cons c s =>
    have ends : continuesName c = false := apart c rfl
    obtain ⟨start, quote⟩ : startsName c = false ∧ (c == '\'') = false := by
      simpa only [continuesName, Bool.or_eq_false_iff] using ends
    -- the signs of several characters are tried before a single one is
    by_cases implies : ∃ rest, c = '=' ∧ s = '>' :: rest
    · rcases implies with ⟨rest, rfl, rfl⟩
      exact close _
    · by_cases iff : ∃ rest, c = '<' ∧ s = '=' :: '>' :: rest
      · rcases iff with ⟨rest, rfl, rfl⟩
        exact close _
      · have one (rest : Text) (first : c = '=') (second : s = '>' :: rest) : False :=
          implies ⟨rest, first, second⟩
        have other (rest : Text) (first : c = '<') (second : s = '=' :: '>' :: rest) : False :=
          iff ⟨rest, first, second⟩
        rw [tokensAfter.eq_4 _ _ _ one other, tokensAfter.eq_4 _ _ _ one other]
        simp only [start, quote, Bool.false_and, Bool.or_false, Bool.false_eq_true, if_false, close]
        split
        · rfl
        · split <;> rfl

theorem tokensAfter_text {t : Token} {s : Text} (written : t.Written) (word : t.isWord = true)
    (apart : Apart s) : tokensAfter [] (t.text ++ s) = t :: tokensAfter [] s := by
  obtain ⟨c, w, same, starts, continues⟩ := isWord_of_written written word
  have whole := ofWord_text written word
  have first : continuesName c = true := by rw [continuesName, starts, Bool.true_or]
  rw [same] at whole ⊢
  rw [List.cons_append, tokensAfter_continue first (Or.inl starts),
    tokensAfter_word continues (by simp), tokensAfter_apart (by simp) apart]
  exact congrArg (· :: tokensAfter [] s) whole

theorem Spells.tokenize {ts : List Token} {s : Text} (spells : Spells ts s) :
    tokenize s = ts := by
  unfold Logic.tokenize
  induction spells with
  | nil => rfl
  | @space c ts s blank rest ih =>
    rw [← ih]
    simp only [isSpace, Bool.or_eq_true, beq_iff_eq] at blank
    rcases blank with (((rfl | rfl) | rfl) | rfl) | rfl <;> rfl
  | @token t ts s written apart rest ih =>
    rw [← ih]
    by_cases word : t.isWord = true
    · exact tokensAfter_text written word (apart word)
    · cases t with
      | implies | iff | not | opening | closing | comma => rfl
      | unknown => cases written
      | name x => exact absurd rfl word
      | verum | falsum | and | or | forAll | exist => exact absurd (by decide) word

/-! Conversely, a text without an unknown token is spelled by its tokens. -/

/-- The beginning of a name that the lexer holds while it reads on. -/
def Begun : Text → Prop
  | [] => True
  | c :: s => startsName c = true ∧ s.all continuesName = true

theorem Begun.concat {word : Text} {c : Char} (begun : Begun word)
    (continues : (startsName c || (c == '\'' && !word.isEmpty)) = true) : Begun (word ++ [c]) := by
  cases word with
  | nil => exact ⟨by simpa using continues, rfl⟩
  | cons d s =>
    have tail : continuesName c = true := by simpa [continuesName] using continues
    exact ⟨begun.1, by simp [begun.2, tail]⟩

theorem ofWord_written {word : Text} (begun : Begun word) (some' : word ≠ []) :
    (Token.ofWord word).Written ∧ (Token.ofWord word).text = word := by
  unfold Token.ofWord
  cases found : Token.keywords.find? fun t => t.text == word with
  | some t =>
    have same : t.text = word := by simpa using List.find?_some found
    have member : t ∈ Token.keywords := List.mem_of_find?_eq_some found
    refine ⟨?_, same⟩
    simp only [Token.keywords, List.mem_cons, List.not_mem_nil, or_false] at member
    rcases member with rfl | rfl | rfl | rfl | rfl | rfl <;> trivial
  | none =>
    cases word with
    | nil => exact absurd rfl some'
    | cons c s => exact ⟨isSymbol_cons_iff.mpr ⟨begun.1, begun.2, found⟩, rfl⟩

theorem Spells.closeName {word s : Text} {ts : List Token} (begun : Begun word)
    (apart : word ≠ [] → Apart s) (rest : Spells ts s) :
    Spells (closeName word ts) (word ++ s) := by
  unfold Logic.closeName
  by_cases empty : word = []
  · rw [empty]
    exact rest
  · have written := ofWord_written begun empty
    have spelled := Spells.token written.1 (fun _ => apart empty) rest
    rw [written.2] at spelled
    rwa [if_neg (by simpa using empty)]

theorem unknown_not_mem_of_closeName {word : Text} {ts : List Token}
    (known : Token.unknown ∉ closeName word ts) : Token.unknown ∉ ts := by
  unfold closeName at known
  split at known
  · exact known
  · exact fun member => known (List.mem_cons_of_mem _ member)

theorem spells_ofChar? {c : Char} {t : Token} {ts : List Token} {s : Text}
    (sign : Token.ofChar? c = some t) (rest : Spells ts s) : Spells (t :: ts) (c :: s) := by
  unfold Token.ofChar? at sign
  split at sign
  · cases sign
    exact Spells.token (t := .not) trivial (fun word => nomatch word) rest
  · cases sign
    exact Spells.token (t := .opening) trivial (fun word => nomatch word) rest
  · cases sign
    exact Spells.token (t := .closing) trivial (fun word => nomatch word) rest
  · cases sign
    exact Spells.token (t := .comma) trivial (fun word => nomatch word) rest
  · cases sign

theorem apart_of_ends {word s : Text} {c : Char}
    (ends : ¬(startsName c || (c == '\'' && !word.isEmpty)) = true) (begun : word ≠ []) :
    Apart (c :: s) := by
  have going : word.isEmpty = false := by simpa using begun
  intro d first
  cases first
  simpa [continuesName, going] using ends

theorem Spells.unknown_not_mem {ts : List Token} {s : Text} (spells : Spells ts s) :
    Token.unknown ∉ ts := by
  induction spells with
  | nil => simp
  | space blank rest ih => exact ih
  | token written apart rest ih =>
    intro member
    cases member with
    | head => exact written
    | tail _ later => exact ih later

theorem spells_tokensAfter {word s : Text} (begun : Begun word)
    (known : Token.unknown ∉ tokensAfter word s) : Spells (tokensAfter word s) (word ++ s) := by
  fun_induction tokensAfter word s with
  | case1 word => exact Spells.nil.closeName begun fun _ => by simp [Apart]
  | case2 word s ih =>
    have later := unknown_not_mem_of_closeName known
    have rest := ih trivial (fun member => later (List.mem_cons_of_mem _ member))
    have sign : Spells (.implies :: tokensAfter [] s) ('=' :: '>' :: s) :=
      Spells.token (t := .implies) trivial (fun word => nomatch word) rest
    exact sign.closeName begun fun _ => by simp [Apart, continuesName, startsName]
  | case3 word s ih =>
    have later := unknown_not_mem_of_closeName known
    have rest := ih trivial (fun member => later (List.mem_cons_of_mem _ member))
    have sign : Spells (.iff :: tokensAfter [] s) ('<' :: '=' :: '>' :: s) :=
      Spells.token (t := .iff) trivial (fun word => nomatch word) rest
    exact sign.closeName begun fun _ => by simp [Apart, continuesName, startsName]
  | case4 word c s _ _ continues ih =>
    have spelled := ih (begun.concat continues) known
    rwa [List.append_assoc] at spelled
  | case5 word c s _ _ ends blank ih =>
    have rest := ih trivial (unknown_not_mem_of_closeName known)
    exact (Spells.space blank rest).closeName begun (apart_of_ends ends)
  | case6 word c s _ _ ends solid t sign ih =>
    have later := unknown_not_mem_of_closeName known
    have rest := ih trivial (fun member => later (List.mem_cons_of_mem _ member))
    exact (spells_ofChar? sign rest).closeName begun (apart_of_ends ends)
  | case7 word c s _ _ ends solid none' =>
    exact absurd List.mem_cons_self (unknown_not_mem_of_closeName known)

/-- The lexer gives tokens for exactly the texts that they spell. -/
theorem tokenize_eq_iff {s : Text} {ts : List Token} :
    tokenize s = ts ∧ Token.unknown ∉ ts ↔ Spells ts s := by
  constructor
  · rintro ⟨rfl, known⟩
    have begun : Begun [] := trivial
    exact spells_tokensAfter begun known
  · intro spells
    exact ⟨spells.tokenize, spells.unknown_not_mem⟩

end ProofDesk.Logic
