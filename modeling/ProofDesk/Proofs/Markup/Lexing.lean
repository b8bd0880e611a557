import ProofDesk.Markup.Token
import ProofDesk.Proofs.Markup.References
import ProofDesk.Proofs.Text.Cutting

/-!
The texts that spell the tokens of a document.  Every token is written as the longest of its kind,
and between two of them there may be blanks, declarations, comments and character data that is blank.
The lexer knows exactly these texts and gives back the tokens that they spell.
-/

namespace ProofDesk.Markup

open Text (Ends)

/-! Pieces of a document: a token, or something that says nothing, and what stands behind it. -/

/-- The inside of a comment: after a dash comes something else than a dash. -/
inductive CommentBody : Text → Prop where
  | nil : CommentBody []
  | char {c : Char} {s : Text} (plain : c ≠ '-') (rest : CommentBody s) : CommentBody (c :: s)
  | dash {c : Char} {s : Text} (plain : c ≠ '-') (rest : CommentBody s) :
    CommentBody ('-' :: c :: s)

def IsName : Text → Prop
  | [] => False
  | c :: s => startsName c = true ∧ s.all continuesName = true

instance : DecidablePred IsName
  | [] => inferInstanceAs (Decidable False)
  | c :: s => inferInstanceAs (Decidable (startsName c = true ∧ s.all continuesName = true))

/-- Behind an opening bracket these make another sign of it. -/
def extendsOpening (c : Char) : Bool := c == '/' || c == '?' || c == '!'

inductive Piece : Option Token → Text → Text → Prop where
  | blanks {w s : Text} (given : w ≠ []) (blank : w.all isSpace = true) (ends : Ends isSpace s) :
    Piece none w s
  | declaration {body : Text} (s : Text) (inside : '?' ∉ body) :
    Piece none ("<?" ++ body ++ "?>") s
  | doctype {body : Text} (s : Text) (inside : '>' ∉ body) :
    Piece none ("<!DOCTYPE" ++ body ++ ">") s
  | comment {body : Text} (s : Text) (inside : CommentBody body) :
    Piece none ("<!--" ++ body ++ "-->") s
  | blankData {body : Text} (s : Text) (blank : body.all Text.isBlank = true) :
    Piece none ("<![CDATA[" ++ body ++ "]]>") s
  | opening {s : Text} (ends : Ends extendsOpening s) : Piece (some .opening) "<" s
  | endOpening (s : Text) : Piece (some .endOpening) "</" s
  | closing (s : Text) : Piece (some .closing) ">" s
  | emptyClosing (s : Text) : Piece (some .emptyClosing) "/>" s
  | equals (s : Text) : Piece (some .equals) "=" s
  | name {x s : Text} (valid : IsName x) (ends : Ends continuesName s) :
    Piece (some (.name x)) x s
  | value {quote : Char} {raw v : Text} (s : Text) (quoted : quote = '"' ∨ quote = '\'')
    (inside : ∀ c ∈ raw, c ≠ quote ∧ c ≠ '<') (denotes : Denotes raw v) :
    Piece (some (.value v)) (quote :: (raw ++ [quote])) s

/-- A text that is made of pieces, with the tokens among them. -/
inductive Spells : List Token → Text → Prop where
  | nil : Spells [] []
  | piece {t : Option Token} {ts : List Token} {w s : Text} (first : Piece t w s)
    (rest : Spells ts s) : Spells (t.toList ++ ts) (w ++ s)

theorem untilQuote?_eq_some_iff {quote : Char} {s raw rest : Text} :
    untilQuote? quote s = some (raw, rest) ↔
      s = raw ++ quote :: rest ∧ ∀ c ∈ raw, c ≠ quote ∧ c ≠ '<' := by
  induction s generalizing raw with
  | nil => simp [untilQuote?]
  | cons c s ih =>
    rw [untilQuote?]
    constructor
    · intro read
      split at read
      · next closes =>
        cases read
        exact ⟨by rw [closes]; rfl, by simp⟩
      · next goes =>
        split at read
        · cases read
        · next plain =>
          obtain ⟨⟨v, after⟩, further, same⟩ := Option.map_eq_some_iff.mp read
          cases same
          obtain ⟨rfl, inside⟩ := ih.mp further
          exact ⟨rfl, List.forall_mem_cons.mpr ⟨⟨goes, plain⟩, inside⟩⟩
    · rintro ⟨whole, inside⟩
      cases raw with
      | nil =>
        cases whole
        rw [if_pos rfl]
      | cons d raw =>
        cases whole
        obtain ⟨⟨goes, plain⟩, inside⟩ := List.forall_mem_cons.mp inside
        rw [if_neg goes, if_neg plain, ih.mpr ⟨rfl, inside⟩]
        rfl

theorem first_cons_self {d : Char} {s rest : Text} :
    (∃ body, d :: s = body ++ d :: rest ∧ d ∉ body) ↔ s = rest := by
  constructor
  · rintro ⟨body, whole, inside⟩
    cases body with
    | nil =>
      cases whole
      rfl
    | cons e body =>
      cases whole
      exact absurd List.mem_cons_self inside
  · rintro rfl
    exact ⟨[], rfl, by simp⟩

theorem first_cons_other {c d : Char} (other : c ≠ d) {s rest : Text} :
    (∃ body, c :: s = body ++ d :: rest ∧ d ∉ body) ↔ ∃ body, s = body ++ d :: rest ∧ d ∉ body := by
  constructor
  · rintro ⟨body, whole, inside⟩
    cases body with
    | nil =>
      cases whole
      exact absurd rfl other
    | cons e body =>
      cases whole
      exact ⟨body, rfl, fun member => inside (List.mem_cons_of_mem _ member)⟩
  · rintro ⟨body, rfl, inside⟩
    exact ⟨c :: body, rfl, by simp [inside, Ne.symm other]⟩

theorem afterDeclaration?_eq_some_iff {s rest : Text} : afterDeclaration? s = some rest ↔
    ∃ body, s = body ++ '?' :: '>' :: rest ∧ '?' ∉ body := by
  fun_induction afterDeclaration? s with
  | case1 => simp
  | case2 s => rw [Text.stripLeading?_eq_some_iff, first_cons_self]; rfl
  | case3 c s plain ih => rw [ih, first_cons_other fun same => plain same]

theorem afterDoctype?_eq_some_iff {s rest : Text} : afterDoctype? s = some rest ↔
    ∃ body, s = body ++ '>' :: rest ∧ '>' ∉ body := by
  fun_induction afterDoctype? s with
  | case1 => simp
  | case2 s => rw [Option.some.injEq, first_cons_self]
  | case3 c s plain ih => rw [ih, first_cons_other fun same => plain same]

theorem commentBody_of_afterComment? {s rest : Text} (read : afterComment? s = some rest) :
    ∃ body, s = body ++ '-' :: '-' :: '>' :: rest ∧ CommentBody body := by
  fun_induction afterComment? s with
  | case1 => cases read
  | case2 s =>
    rw [Text.stripLeading?_eq_some_iff.mp read]
    exact ⟨[], rfl, .nil⟩
  | case3 c s plain ih =>
    obtain ⟨body, rfl, inside⟩ := ih read
    exact ⟨'-' :: c :: body, rfl, .dash (fun same => plain same) inside⟩
  | case4 c s _ single ih =>
    obtain ⟨body, rfl, inside⟩ := ih read
    have plain : c ≠ '-' := by
      rintro rfl
      cases body with
      | nil => exact single _ _ rfl rfl
      | cons d body => exact single _ _ rfl rfl
    exact ⟨c :: body, rfl, .char plain inside⟩

theorem CommentBody.afterComment? {body : Text} (inside : CommentBody body) (rest : Text) :
    afterComment? (body ++ '-' :: '-' :: '>' :: rest) = some rest := by
  induction inside with
  | nil => rfl
  | @char c s plain inside ih =>
    rw [List.cons_append, Markup.afterComment?.eq_4]
    · exact ih
    · rintro _ rfl
      exact absurd rfl plain
    · rintro _ _ rfl
      exact absurd rfl plain
  | @dash c s plain inside ih =>
    rw [List.cons_append, List.cons_append, Markup.afterComment?.eq_3]
    · exact ih
    · exact fun same => plain same

theorem afterComment?_eq_some_iff {s rest : Text} : afterComment? s = some rest ↔
    ∃ body, s = body ++ '-' :: '-' :: '>' :: rest ∧ CommentBody body := by
  constructor
  · exact commentBody_of_afterComment?
  · rintro ⟨body, rfl, inside⟩
    exact inside.afterComment? rest

/-- No bracket is blank, so blank data is read up to the first one. -/
theorem untilDataEnd?_blank {body : Text} (rest : Text) (blank : body.all Text.isBlank = true) :
    untilDataEnd? (body ++ ']' :: ']' :: '>' :: rest) = some (body, rest) := by
  induction body with
  | nil => rfl
  | cons c body ih =>
    rw [List.all_cons, Bool.and_eq_true] at blank
    have plain : c ≠ ']' := by
      rintro rfl
      exact absurd blank.1 (by decide)
    rw [List.cons_append, untilDataEnd?.eq_7, ih blank.2]
    · rfl
    -- the earlier rows all begin with a bracket
    all_goals
      intros
      contradiction

theorem eq_append_of_untilDataEnd? {s body rest : Text}
    (read : untilDataEnd? s = some (body, rest)) : s = body ++ ']' :: ']' :: '>' :: rest := by
  fun_induction untilDataEnd? s generalizing body with
  | case1 => cases read
  | case2 s =>
    cases read
    rfl
  | case3 c s _ ih =>
    obtain ⟨⟨v, after⟩, further, same⟩ := Option.map_eq_some_iff.mp read
    cases same
    rw [ih further]
    rfl
  | case4 => cases read
  | case5 => cases read
  | case6 c s _ _ _ ih =>
    obtain ⟨⟨v, after⟩, further, same⟩ := Option.map_eq_some_iff.mp read
    cases same
    rw [ih further]
    rfl
  | case7 c s _ _ _ _ _ ih =>
    obtain ⟨⟨v, after⟩, further, same⟩ := Option.map_eq_some_iff.mp read
    cases same
    rw [ih further]
    rfl

theorem isSpace_iff {c : Char} : isSpace c = true ↔ c = ' ' ∨ c = '\t' ∨ c = '\r' ∨ c = '\n' := by
  simp [isSpace, or_assoc]

/-- What begins with a character that is no sign. -/
def unsigned? (c : Char) (s : Text) : Option (Option Token × Text) :=
  if c = '"' ∨ c = '\'' then
    (untilQuote? c s).map fun (v, rest) => (some (Token.ofQuoted v), rest)
  else if startsName c then
    some (some (.name (c :: s.takeWhile continuesName)), s.dropWhile continuesName)
  else if isSpace c then some (none, s.dropWhile isSpace)
  else none

/-- What an opening bracket and an exclamation mark begin if no comment follows. -/
def marked? (s : Text) : Option (Option Token × Text) :=
  match Text.stripLeading? "[CDATA[" s, Text.stripLeading? "DOCTYPE" s with
  | some content, _ =>
    (untilDataEnd? content).map fun (v, rest) =>
      (if (Text.trim v).isEmpty then none else some .data, rest)
  | none, some content => (afterDoctype? content).map fun rest => (none, rest)
  | none, none => some (some .opening, '!' :: s)

theorem firstToken?_of_plain {c : Char} (s : Text) (plain : c ∉ ['<', '>', '/', '=']) :
    firstToken? (c :: s) = unsigned? c s := by
  simp only [List.mem_cons, List.not_mem_nil, or_false, not_or] at plain
  obtain ⟨opening, closing, slash, equals⟩ := plain
  rw [firstToken?, unsigned?]
  all_goals
    intros
    simp_all

theorem firstToken?_blanks {w s : Text} (given : w ≠ []) (blank : w.all isSpace = true)
    (ends : Ends isSpace s) : firstToken? (w ++ s) = some (none, s) := by
  cases w with
  | nil => exact absurd rfl given
  | cons c w =>
    rw [List.all_cons, Bool.and_eq_true] at blank
    have rest := (Text.span_append blank.2 ends).2
    have first := isSpace_iff.mp blank.1
    rw [List.cons_append, firstToken?_of_plain, unsigned?, rest]
    · rcases first with rfl | rfl | rfl | rfl <;> rfl
    · rcases first with rfl | rfl | rfl | rfl <;> decide

theorem firstToken?_name {x s : Text} (valid : IsName x) (ends : Ends continuesName s) :
    firstToken? (x ++ s) = some (some (.name x), s) := by
  cases x with
  | nil => cases valid
  | cons c x =>
    have split := Text.span_append valid.2 ends
    have notQuote : ¬(c = '"' ∨ c = '\'') := by
      rintro (rfl | rfl) <;> cases valid.1
    have plain : c ∉ ['<', '>', '/', '='] := by
      simp only [List.mem_cons, List.not_mem_nil, or_false]
      rintro (rfl | rfl | rfl | rfl) <;> cases valid.1
    rw [List.cons_append, firstToken?_of_plain _ plain, unsigned?, if_neg notQuote, if_pos valid.1,
      split.1, split.2]

theorem firstToken?_quoted {quote : Char} {raw : Text} (s : Text)
    (quoted : quote = '"' ∨ quote = '\'') (inside : ∀ c ∈ raw, c ≠ quote ∧ c ≠ '<') :
    firstToken? (quote :: (raw ++ quote :: s)) = some (some (Token.ofQuoted raw), s) := by
  have read : untilQuote? quote (raw ++ quote :: s) = some (raw, s) :=
    untilQuote?_eq_some_iff.mpr ⟨rfl, inside⟩
  have plain : quote ∉ ['<', '>', '/', '='] := by
    rcases quoted with rfl | rfl <;> decide
  rw [firstToken?_of_plain _ plain, unsigned?, if_pos quoted, read]
  rfl

theorem firstToken?_opening {s : Text} (ends : Ends extendsOpening s) :
    firstToken? ('<' :: s) = some (some .opening, s) := by
  cases s with
  | nil => rfl
  | cons c s =>
    have apart := Text.ends_cons.mp ends
    simp only [extendsOpening, Bool.or_eq_false_iff, beq_eq_false_iff_ne] at apart
    obtain ⟨⟨slash, question⟩, mark⟩ := apart
    rw [Markup.firstToken?.eq_6]
    all_goals
      intros
      simp_all

theorem Piece.firstToken? {t : Option Token} {w s : Text} (piece : Piece t w s) :
    firstToken? (w ++ s) = some (t, s) := by
  cases piece with
  | blanks given blank ends => exact firstToken?_blanks given blank ends
  | @declaration body s inside =>
    have read : afterDeclaration? (body ++ '?' :: '>' :: s) = some s :=
      afterDeclaration?_eq_some_iff.mpr ⟨body, rfl, inside⟩
    simp only [List.append_assoc]
    change (afterDeclaration? (body ++ '?' :: '>' :: s)).map _ = _
    rw [read]
    rfl
  | @doctype body s inside =>
    have read : afterDoctype? (body ++ '>' :: s) = some s :=
      afterDoctype?_eq_some_iff.mpr ⟨body, rfl, inside⟩
    simp only [List.append_assoc]
    change (afterDoctype? (body ++ '>' :: s)).map _ = _
    rw [read]
    rfl
  | @comment body s inside =>
    have read := inside.afterComment? s
    simp only [List.append_assoc]
    change (afterComment? (body ++ '-' :: '-' :: '>' :: s)).map _ = _
    rw [read]
    rfl
  | @blankData body s blank =>
    have read := untilDataEnd?_blank s blank
    have empty : (Text.trim body).isEmpty = true := by
      rw [List.isEmpty_iff]
      exact Text.trim_eq_nil_iff.mpr blank
    simp only [List.append_assoc]
    change (untilDataEnd? (body ++ ']' :: ']' :: '>' :: s)).map _ = _
    rw [read]
    simp only [Option.map_some, empty, if_true]
  | opening ends => exact firstToken?_opening ends
  | endOpening s => rfl
  | closing s => rfl
  | emptyClosing s => rfl
  | equals s => rfl
  | name valid ends => exact firstToken?_name valid ends
  | @value quote raw v s quoted inside denotes =>
    have token : Token.ofQuoted raw = .value v := by
      unfold Token.ofQuoted
      rw [decode_eq_some_iff.mpr denotes]
    rw [List.cons_append, List.append_assoc, List.singleton_append,
      firstToken?_quoted s quoted inside, token]

theorem Piece.ne_nil {t : Option Token} {w s : Text} (piece : Piece t w s) : w ≠ [] := by
  cases piece with
  | blanks given blank ends => exact given
  | name valid ends =>
    rintro rfl
    exact valid
  | declaration | doctype | comment | blankData | opening | endOpening | closing | emptyClosing
  | equals | value => simp

theorem tokensFrom_eq_drop (n : Nat) (s : Text) : tokensFrom n s = tokenize (s.drop n) := by
  induction n generalizing s with
  | zero => rfl
  | succ n ih =>
    cases s with
    | nil => rfl
    | cons c s => exact ih s

/-- The lexer goes on behind the piece that it has found. -/
theorem tokenize_append {w s : Text} {t : Option Token} (first : firstToken? (w ++ s) = some (t, s))
    (given : w ≠ []) : tokenize (w ++ s) = t.toList ++ tokenize s := by
  cases w with
  | nil => exact absurd rfl given
  | cons c w =>
    rw [List.cons_append] at first ⊢
    have behind : (w ++ s).drop ((w ++ s).length - s.length) = s := by simp
    rw [tokenize, tokensFrom, first]
    change t.toList ++ tokensFrom ((w ++ s).length - s.length) (w ++ s) = _
    rw [tokensFrom_eq_drop, behind]

theorem Spells.tokenize {ts : List Token} {s : Text} (spells : Spells ts s) :
    tokenize s = ts := by
  induction spells with
  | nil => rfl
  | piece first rest ih => rw [tokenize_append first.firstToken? first.ne_nil, ih]

def Known (ts : List Token) : Prop := .unknown ∉ ts ∧ .data ∉ ts

theorem Piece.known {t : Option Token} {w s : Text} (piece : Piece t w s) : Known t.toList := by
  cases piece <;> simp [Known]

theorem Spells.known {ts : List Token} {s : Text} (spells : Spells ts s) : Known ts := by
  induction spells with
  | nil => simp [Known]
  | piece first rest ih =>
    have head := first.known
    simp only [Known, List.mem_append, not_or]
    exact ⟨⟨head.1, ih.1⟩, head.2, ih.2⟩

theorem piece_of_data {v s : Text}
    (known : Known ((if (Text.trim v).isEmpty then none else some Token.data).toList ++ tokenize s)) :
    Piece (if (Text.trim v).isEmpty then none else some Token.data)
      ("<![CDATA[" ++ v ++ "]]>") s := by
  by_cases blank : (Text.trim v).isEmpty = true
  · rw [if_pos blank]
    exact .blankData s (Text.trim_eq_nil_iff.mp (List.isEmpty_iff.mp blank))
  · rw [if_neg blank] at known
    exact absurd List.mem_cons_self known.2

theorem piece_of_quoted {quote : Char} {raw s : Text} (quoted : quote = '"' ∨ quote = '\'')
    (inside : ∀ c ∈ raw, c ≠ quote ∧ c ≠ '<')
    (known : Known ((some (Token.ofQuoted raw)).toList ++ tokenize s)) :
    Piece (some (Token.ofQuoted raw)) (quote :: (raw ++ [quote])) s := by
  unfold Token.ofQuoted at known ⊢
  cases read : decode raw with
  | some v => exact .value s quoted inside (decode_eq_some_iff.mp read)
  | none =>
    rw [read] at known
    exact absurd List.mem_cons_self known.1

theorem tokenize_mark (s : Text) : tokenize ('!' :: s) = [.unknown] := rfl

theorem piece_of_unsigned? {c : Char} {u s : Text} {t : Option Token}
    (first : unsigned? c u = some (t, s)) :
    ∃ w, c :: u = w ++ s ∧ w ≠ [] ∧ (Known (t.toList ++ tokenize s) → Piece t w s) := by
  unfold unsigned? at first
  split at first
  · next quoted =>
    obtain ⟨⟨raw, rest⟩, read, same⟩ := Option.map_eq_some_iff.mp first
    cases same
    obtain ⟨rfl, inside⟩ := untilQuote?_eq_some_iff.mp read
    exact ⟨c :: (raw ++ [c]), by simp, by simp, piece_of_quoted quoted inside⟩
  · split at first
    · next starts =>
      cases first
      have whole := List.takeWhile_append_dropWhile (p := continuesName) (l := u)
      refine ⟨c :: u.takeWhile continuesName, by rw [List.cons_append, whole], by simp, ?_⟩
      intro known
      exact .name ⟨starts, List.all_takeWhile⟩ (Text.ends_dropWhile u)
    · split at first
      · next blank =>
        cases first
        have whole := List.takeWhile_append_dropWhile (p := isSpace) (l := u)
        refine ⟨c :: u.takeWhile isSpace, by rw [List.cons_append, whole], by simp, ?_⟩
        intro known
        refine .blanks (by simp) ?_ (Text.ends_dropWhile u)
        rw [List.all_cons, blank, List.all_takeWhile]
        rfl
      · cases first

theorem piece_of_marked? {u s : Text} {t : Option Token} (first : marked? u = some (t, s)) :
    ∃ w, '<' :: '!' :: u = w ++ s ∧ w ≠ [] ∧ (Known (t.toList ++ tokenize s) → Piece t w s) := by
  unfold marked? at first
  split at first
  · next content leading =>
    rw [Text.stripLeading?_eq_some_iff.mp leading]
    obtain ⟨⟨v, rest⟩, read, same⟩ := Option.map_eq_some_iff.mp first
    cases same
    rw [eq_append_of_untilDataEnd? read]
    exact ⟨"<![CDATA[" ++ v ++ "]]>", by simp, by simp, piece_of_data⟩
  · next content _ leading =>
    rw [Text.stripLeading?_eq_some_iff.mp leading]
    obtain ⟨rest, read, same⟩ := Option.map_eq_some_iff.mp first
    cases same
    obtain ⟨body, rfl, inside⟩ := afterDoctype?_eq_some_iff.mp read
    exact ⟨"<!DOCTYPE" ++ body ++ ">", by simp, by simp, fun _ => .doctype _ inside⟩
  · cases first
    refine ⟨"<", rfl, by simp, fun known => absurd ?_ known.1⟩
    rw [tokenize_mark]
    simp

/-- What the lexer finds at the beginning of a text is a piece, unless it is a token that stands for
nothing or is followed by one. -/
theorem piece_of_firstToken? {u s : Text} {t : Option Token} (first : firstToken? u = some (t, s)) :
    ∃ w, u = w ++ s ∧ w ≠ [] ∧ (Known (t.toList ++ tokenize s) → Piece t w s) := by
  unfold firstToken? at first
  split at first
  · cases first
  · next s =>
    cases first
    exact ⟨"</", rfl, by simp, fun _ => .endOpening _⟩
  · next s =>
    obtain ⟨rest, read, same⟩ := Option.map_eq_some_iff.mp first
    cases same
    obtain ⟨body, rfl, inside⟩ := afterDeclaration?_eq_some_iff.mp read
    exact ⟨"<?" ++ body ++ "?>", by simp, by simp, fun _ => .declaration _ inside⟩
  · next s =>
    obtain ⟨rest, read, same⟩ := Option.map_eq_some_iff.mp first
    cases same
    obtain ⟨body, rfl, inside⟩ := afterComment?_eq_some_iff.mp read
    exact ⟨"<!--" ++ body ++ "-->", by simp, by simp, fun _ => .comment _ inside⟩
  · exact piece_of_marked? first
  · next s slash question _ mark =>
    cases first
    refine ⟨"<", rfl, by simp, fun _ => .opening ?_⟩
    intro c ahead
    obtain ⟨rest, rfl⟩ := List.head?_eq_some_iff.mp ahead
    have notSlash : c ≠ '/' := fun same => slash rest (by rw [same])
    have notQuestion : c ≠ '?' := fun same => question rest (by rw [same])
    have notMark : c ≠ '!' := fun same => mark rest (by rw [same])
    simp [extendsOpening, notSlash, notQuestion, notMark]
  · cases first
    exact ⟨">", rfl, by simp, fun _ => .closing _⟩
  · cases first
    exact ⟨"/>", rfl, by simp, fun _ => .emptyClosing _⟩
  · cases first
    exact ⟨"=", rfl, by simp, fun _ => .equals _⟩
  · exact piece_of_unsigned? first

theorem spells_of_known {u : Text} (known : Known (tokenize u)) : Spells (tokenize u) u := by
  cases u with
  | nil => exact Spells.nil
  | cons c u =>
    cases first : firstToken? (c :: u) with
    | none =>
      have unknown : tokenize (c :: u) = [.unknown] := by
        rw [tokenize, tokensFrom, first]
      rw [unknown] at known
      exact absurd List.mem_cons_self known.1
    | some found =>
      obtain ⟨t, s⟩ := found
      obtain ⟨w, whole, given, piece⟩ := piece_of_firstToken? first
      rw [whole] at first known ⊢
      rw [tokenize_append first given] at known ⊢
      have later : Known (tokenize s) := by
        simp only [Known, List.mem_append, not_or] at known
        exact ⟨known.1.2, known.2.2⟩
      have shorter : s.length < (c :: u).length := by
        rw [whole, List.length_append]
        have positive := List.length_pos_iff.mpr given
        omega
      exact .piece (piece known) (spells_of_known later)
termination_by u.length

/-- The lexer gives tokens that stand for something for exactly the texts that they spell. -/
theorem tokenize_eq_iff {s : Text} {ts : List Token} :
    tokenize s = ts ∧ Known ts ↔ Spells ts s := by
  constructor
  · rintro ⟨rfl, known⟩
    exact spells_of_known known
  · intro spells
    exact ⟨spells.tokenize, spells.known⟩

end ProofDesk.Markup
