import ProofDesk.Proofs.Markup.Lexing
import ProofDesk.Proofs.Text.Number

namespace ProofDesk.Markup

open Text (Numeral)

/-- What stands between an ampersand and a semicolon, and the character that it refers to. -/
inductive Reference : Text → Char → Prop where
  | lt : Reference "lt" '<'
  | gt : Reference "gt" '>'
  | amp : Reference "amp" '&'
  | quot : Reference "quot" '"'
  | apos : Reference "apos" '\''
  | decimal {digits : Text} {c : Char} (numeral : Numeral 10 digits c.toNat) :
    Reference ("#" ++ digits) c
  | hexadecimal {digits : Text} {c : Char} (numeral : Numeral 16 digits c.toNat) :
    Reference ("#x" ++ digits) c

inductive SignedNumber : Text → Char → Prop where
  | decimal {digits : Text} {c : Char} (numeral : Numeral 10 digits c.toNat) :
    SignedNumber ("#+" ++ digits) c
  | hexadecimal {digits : Text} {c : Char} (numeral : Numeral 16 digits c.toNat) :
    SignedNumber ("#x+" ++ digits) c

def Replaced (name : Text) (c : Char) : Prop := Reference name c ∨ SignedNumber name c

/-- A text and what it becomes when everything between an ampersand and a semicolon is replaced by
the character that it stands for.  Replaced text is not read again. -/
inductive Decodes (standsFor : Text → Char → Prop) : Text → Text → Prop where
  | nil : Decodes standsFor [] []
  | char {c : Char} {s value : Text} (plain : c ≠ '&') (rest : Decodes standsFor s value) :
    Decodes standsFor (c :: s) (c :: value)
  | reference {name s value : Text} {c : Char} (named : standsFor name c)
    (rest : Decodes standsFor s value) : Decodes standsFor ('&' :: (name ++ ';' :: s)) (c :: value)

def Begins (standsFor : Text → Char → Prop) (s : Text) : Prop :=
  ∃ name c rest, s = name ++ ';' :: rest ∧ standsFor name c

def Signed (s : Text) : Prop := "&#+" <:+: s ∨ "&#x+" <:+: s

theorem charOfCode?_eq_some_iff {n : Nat} {c : Char} : charOfCode? n = some c ↔ c.toNat = n := by
  unfold charOfCode?
  constructor
  · intro read
    split at read
    · next valid =>
      cases read
      rw [Char.ofNat, dif_pos valid]
      rfl
    · cases read
  · rintro rfl
    have valid : c.toNat.isValidChar := c.valid
    rw [if_pos valid, Char.ofNat_toNat]

theorem readNumber?_bind_eq_some_iff {base : Nat} (small : base ≤ 16) {s : Text} {c : Char} :
    (Text.readNumber? base 32 s).bind charOfCode? = some c ↔
      Numeral base s c.toNat ∨ ∃ digits, s = '+' :: digits ∧ Numeral base digits c.toNat := by
  have fits : c.toNat < Nat.pow 2 32 := c.val.toNat_lt
  simp only [Option.bind_eq_some_iff, charOfCode?_eq_some_iff, exists_eq_right',
    Text.readNumber?_eq_some_iff small, fits, true_and]

theorem referenced?_hexadecimal (s : Text) :
    referenced? ('#' :: 'x' :: s) = (Text.readNumber? 16 32 s).bind charOfCode? := rfl

theorem referenced?_decimal {s : Text} (decimal : s.head? ≠ some 'x') :
    referenced? ('#' :: s) = (Text.readNumber? 10 32 s).bind charOfCode? := by
  have absent : Text.stripLeading? "#x" ('#' :: s) = none := by
    cases s with
    | nil => rfl
    | cons c s =>
      have other : 'x' ≠ c := by
        rintro rfl
        exact decimal rfl
      exact if_neg other
  have unnamed (name : Text) (begins : name.head? ≠ some '#') : '#' :: s ≠ name := by
    rintro rfl
    exact begins rfl
  rw [referenced?, if_neg (unnamed _ (by decide)), if_neg (unnamed _ (by decide)),
    if_neg (unnamed _ (by decide)), if_neg (unnamed _ (by decide)),
    if_neg (unnamed _ (by decide)), absent]
  rfl

theorem reference_of_named {name : Text} {c : Char} (plain : name.head? ≠ some '#')
    (named : referenced? name = some c) : Reference name c := by
  unfold referenced? at named
  split at named
  · next same =>
    cases named
    rw [same]
    exact .lt
  · split at named
    · next same =>
      cases named
      rw [same]
      exact .gt
    · split at named
      · next same =>
        cases named
        rw [same]
        exact .amp
      · split at named
        · next same =>
          cases named
          rw [same]
          exact .quot
        · split at named
          · next same =>
            cases named
            rw [same]
            exact .apos
          · split at named
            · next digits found =>
              rw [Text.stripLeading?_eq_some_iff.mp found] at plain
              exact absurd rfl plain
            · rcases Option.bind_eq_some_iff.mp named with ⟨digits, found, -⟩
              rw [Text.stripLeading?_eq_some_iff.mp found] at plain
              exact absurd rfl plain

theorem Numeral.head_ne {base n : Nat} {s : Text} (numeral : Numeral base s n) :
    s.head? ≠ some 'x' := by
  intro first
  exact absurd (numeral.mem_digits _ (List.mem_of_head? first)) (by decide)

theorem referenced?_eq_some_iff {name : Text} {c : Char} :
    referenced? name = some c ↔ Replaced name c := by
  constructor
  · intro named
    by_cases number : name.head? = some '#'
    · rcases List.head?_eq_some_iff.mp number with ⟨s, rfl⟩
      by_cases hexadecimal : s.head? = some 'x'
      · rcases List.head?_eq_some_iff.mp hexadecimal with ⟨s, rfl⟩
        rw [referenced?_hexadecimal, readNumber?_bind_eq_some_iff (by decide)] at named
        rcases named with numeral | ⟨digits, rfl, numeral⟩
        · exact Or.inl (.hexadecimal numeral)
        · exact Or.inr (.hexadecimal numeral)
      · rw [referenced?_decimal hexadecimal, readNumber?_bind_eq_some_iff (by decide)] at named
        rcases named with numeral | ⟨digits, rfl, numeral⟩
        · exact Or.inl (.decimal numeral)
        · exact Or.inr (.decimal numeral)
    · exact Or.inl (reference_of_named number named)
  · intro either
    rcases either with reference | signed
    · cases reference with
      | lt | gt | amp | quot | apos => decide
      | decimal numeral =>
        exact (referenced?_decimal (Numeral.head_ne numeral)).trans
          ((readNumber?_bind_eq_some_iff (by decide)).mpr (Or.inl numeral))
      | hexadecimal numeral =>
        exact (readNumber?_bind_eq_some_iff (by decide)).mpr (Or.inl numeral)
    · cases signed with
      | @decimal digits c numeral =>
        have decimal : ('+' :: digits).head? ≠ some 'x' := by simp
        exact (referenced?_decimal decimal).trans
          ((readNumber?_bind_eq_some_iff (by decide)).mpr (Or.inr ⟨digits, rfl, numeral⟩))
      | @hexadecimal digits c numeral =>
        exact (readNumber?_bind_eq_some_iff (by decide)).mpr (Or.inr ⟨digits, rfl, numeral⟩)

def outside : List Char := [';', '&', '<', '"', '\'', '+']

theorem not_outside_of_all {s : Text} (apart : s.all (fun c => !outside.contains c) = true) :
    ∀ c ∈ s, c ∉ outside := by
  intro c member
  simpa using List.all_eq_true.mp apart c member

theorem Numeral.not_outside {base n : Nat} {s : Text} (numeral : Numeral base s n) :
    ∀ c ∈ s, c ∉ outside := by
  intro c member
  exact not_outside_of_all (by decide) c (numeral.mem_digits c member)

theorem Reference.not_outside {name : Text} {c : Char} (reference : Reference name c) :
    ∀ d ∈ name, d ∉ outside := by
  cases reference with
  | lt | gt | amp | quot | apos => exact not_outside_of_all (by decide)
  | decimal numeral =>
    intro d member
    rcases List.mem_append.mp member with sign | digit
    · exact not_outside_of_all (by decide) d sign
    · exact Numeral.not_outside numeral d digit
  | hexadecimal numeral =>
    intro d member
    rcases List.mem_append.mp member with sign | digit
    · exact not_outside_of_all (by decide) d sign
    · exact Numeral.not_outside numeral d digit

theorem SignedNumber.closed {name : Text} {c : Char} (signed : SignedNumber name c) :
    ';' ∉ name ∧ '&' ∉ name := by
  have digits {base n : Nat} {s : Text} (numeral : Numeral base s n) : ';' ∉ s ∧ '&' ∉ s :=
    ⟨fun member => Numeral.not_outside numeral _ member (by decide),
      fun member => Numeral.not_outside numeral _ member (by decide)⟩
  cases signed with
  | decimal numeral => simpa using digits numeral
  | hexadecimal numeral => simpa using digits numeral

theorem Reference.closed {name : Text} {c : Char} (reference : Reference name c) :
    ';' ∉ name ∧ '&' ∉ name :=
  ⟨fun member => reference.not_outside _ member (by decide),
    fun member => reference.not_outside _ member (by decide)⟩

theorem Replaced.closed {name : Text} {c : Char} (known : Replaced name c) : ';' ∉ name ∧ '&' ∉ name := by
  rcases known with reference | signed
  · exact reference.closed
  · exact signed.closed

theorem exists_reference (c : Char) : ∃ name, Reference name c :=
  ⟨_, .decimal (Text.numeral_ofNat c.toNat)⟩

section Decoding

variable {standsFor other : Text → Char → Prop} {s value : Text}

theorem Decodes.mono (implies : ∀ name c, standsFor name c → other name c)
    (decodes : Decodes standsFor s value) : Decodes other s value := by
  induction decodes with
  | nil => exact .nil
  | char plain rest ih => exact .char plain ih
  | reference named rest ih => exact .reference (implies _ _ named) ih

/-- What is decoded is what denotes. -/
theorem decodes_iff_denotes : Decodes Replaced s value ↔ Denotes s value := by
  constructor
  · intro decodes
    induction decodes with
    | nil => exact .nil
    | char plain rest ih => exact .char plain ih
    | reference named rest ih =>
      exact .reference named.closed.1 (referenced?_eq_some_iff.mpr named) ih
  · intro denotes
    induction denotes with
    | nil => exact .nil
    | char plain rest ih => exact .char plain ih
    | reference ends named rest ih => exact .reference (referenced?_eq_some_iff.mp named) ih

theorem exists_later {c : Char} {l r front back : Text} (absent : c ∉ front)
    (whole : front ++ back = l ++ c :: r) : ∃ l', back = l' ++ c :: r := by
  rcases List.append_eq_append_iff.mp whole with ⟨more, rfl, rest⟩ | ⟨more, rfl, rest⟩
  · exact ⟨more, rest⟩
  · cases more with
    | nil => exact ⟨[], rest.symm⟩
    | cons d more =>
      obtain ⟨rfl, -⟩ := List.cons.inj rest
      exact absurd (List.mem_append_right l List.mem_cons_self) absent

theorem Decodes.begins (closed : ∀ name c, standsFor name c → '&' ∉ name)
    (decodes : Decodes standsFor s value) : ∀ l r, s = l ++ '&' :: r → Begins standsFor r := by
  induction decodes with
  | nil =>
    intro l r whole
    simp at whole
  | @char c s value plain rest ih =>
    intro l r whole
    have single : '&' ∉ [c] := by simpa using Ne.symm plain
    have shape : [c] ++ s = l ++ '&' :: r := whole
    rcases exists_later single shape with ⟨l', later⟩
    exact ih l' r later
  | @reference name s value c named rest ih =>
    intro l r whole
    cases l with
    | nil =>
      cases whole
      exact ⟨name, c, s, rfl, named⟩
    | cons d l =>
      have rest := (List.cons.inj whole).2
      have absent : '&' ∉ name ++ [';'] := by simpa using closed name c named
      have shape : (name ++ [';']) ++ s = l ++ '&' :: r := by simpa using rest
      rcases exists_later absent shape with ⟨l', later⟩
      exact ih l' r later

theorem exists_decodes_of_begins (every : ∀ l r, s = l ++ '&' :: r → Begins standsFor r) :
    ∃ value, Decodes standsFor s value := by
  induction hn : s.length using Nat.strongRecOn generalizing s with
  | ind n ih =>
    cases s with
    | nil => exact ⟨[], .nil⟩
    | cons c s =>
      subst hn
      by_cases ampersand : c = '&'
      · subst ampersand
        rcases every [] s rfl with ⟨name, c, rest, rfl, named⟩
        have shorter : rest.length < ('&' :: (name ++ ';' :: rest)).length := by
          simp only [List.length_cons, List.length_append]
          omega
        have later : ∀ l r, rest = l ++ '&' :: r → Begins standsFor r := by
          rintro l r rfl
          exact every ('&' :: (name ++ ';' :: l)) r (by simp)
        rcases ih _ shorter later rfl with ⟨value, decodes⟩
        exact ⟨c :: value, .reference named decodes⟩
      · have later : ∀ l r, s = l ++ '&' :: r → Begins standsFor r := by
          rintro l r rfl
          exact every (c :: l) r rfl
        rcases ih _ (Nat.lt_succ_self _) later rfl with ⟨value, decodes⟩
        exact ⟨c :: value, .char ampersand decodes⟩

/-- A text has a value exactly if there is a reference behind every ampersand. -/
theorem exists_decodes_iff (closed : ∀ name c, standsFor name c → '&' ∉ name) :
    (∃ value, Decodes standsFor s value) ↔ ∀ l r, s = l ++ '&' :: r → Begins standsFor r := by
  constructor
  · intro given
    rcases given with ⟨value, decodes⟩
    exact decodes.begins closed
  · exact exists_decodes_of_begins

end Decoding

theorem Signed.append {s : Text} (signed : Signed s) (l : Text) : Signed (l ++ s) :=
  signed.imp (fun inside => inside.trans (List.suffix_append l s).isInfix)
    fun inside => inside.trans (List.suffix_append l s).isInfix

theorem SignedNumber.signed {name : Text} {c : Char} (number : SignedNumber name c) (s : Text) :
    Signed ('&' :: (name ++ s)) := by
  cases number with
  | @decimal digits c numeral => exact Or.inl ⟨[], digits ++ s, by simp⟩
  | @hexadecimal digits c numeral => exact Or.inr ⟨[], digits ++ s, by simp⟩

theorem not_begins_of_plus {front s : Text} (open' : ';' ∉ front) (plus : '+' ∈ front) :
    ¬Begins Reference (front ++ s) := by
  intro begins
  rcases begins with ⟨name, c, rest, whole, reference⟩
  -- a reference goes on up to a semicolon, and there is none in front
  have inside : ∃ more, name = front ++ more := by
    rcases List.append_eq_append_iff.mp whole with ⟨more, same, -⟩ | ⟨more, same, ends⟩
    · exact ⟨more, same⟩
    · cases more with
      | nil => exact ⟨[], by simpa using same.symm⟩
      | cons d more =>
        rw [same, (List.cons.inj ends).1.symm] at open'
        exact absurd (List.mem_append_right name List.mem_cons_self) open'
  rcases inside with ⟨more, rfl⟩
  exact reference.not_outside '+' (List.mem_append_left more plus) (by decide)

theorem exists_not_begins {s : Text} (signed : Signed s) :
    ∃ l r, s = l ++ '&' :: r ∧ ¬Begins Reference r := by
  rcases signed with ⟨l, r, rfl⟩ | ⟨l, r, rfl⟩
  · exact ⟨l, "#+" ++ r, by simp, not_begins_of_plus (by decide) (by decide)⟩
  · exact ⟨l, "#x+" ++ r, by simp, not_begins_of_plus (by decide) (by decide)⟩

theorem decodes_reference_iff {s value : Text} :
    Decodes Reference s value ↔ decode s = some value ∧ ¬Signed s := by
  rw [decode_eq_some_iff, ← decodes_iff_denotes]
  constructor
  · intro decodes
    refine ⟨decodes.mono fun name c => Or.inl, ?_⟩
    intro signed
    rcases exists_not_begins signed with ⟨l, r, whole, absent⟩
    have every := decodes.begins fun name c known => known.closed.2
    exact absent (every l r whole)
  · intro both
    rcases both with ⟨decodes, unsigned⟩
    induction decodes with
    | nil => exact .nil
    | @char c s value plain rest ih =>
      exact .char plain (ih fun signed => unsigned (signed.append [c]))
    | @reference name s value c named rest ih =>
      have later : ¬Signed s := by
        intro signed
        have inside := signed.append ('&' :: (name ++ [';']))
        simp only [List.cons_append, List.append_assoc, List.nil_append] at inside
        exact unsigned inside
      rcases named with reference | number
      · exact .reference reference (ih later)
      · exact absurd (number.signed (';' :: s)) unsigned

/-- A value with some of its characters written as references, so that it can stand between two
quotes: an ampersand, an opening bracket and the quote are always written so. -/
inductive Written (quote : Char) : Text → Text → Prop where
  | nil : Written quote [] []
  | plain {c : Char} {value s : Text} (other : c ∉ ['&', '<', quote])
    (rest : Written quote value s) : Written quote (c :: value) (c :: s)
  | reference {c : Char} {name value s : Text} (named : Reference name c)
    (rest : Written quote value s) : Written quote (c :: value) ('&' :: (name ++ ';' :: s))

theorem Written.decodes {quote : Char} {value s : Text} (written : Written quote value s) :
    Decodes Reference s value := by
  induction written with
  | nil => exact .nil
  | plain other rest ih => exact .char (by simp_all) ih
  | reference named rest ih => exact .reference named ih

theorem Written.inside {quote : Char} (quoted : quote = '"' ∨ quote = '\'') {value s : Text}
    (written : Written quote value s) : ∀ c ∈ s, c ≠ quote ∧ c ≠ '<' := by
  have sign : ∀ c ∈ ['&', ';'], c ≠ quote ∧ c ≠ '<' := by
    rcases quoted with rfl | rfl <;> simp
  induction written with
  | nil => simp
  | plain other rest ih =>
    rw [List.forall_mem_cons]
    exact ⟨by simp_all, ih⟩
  | @reference c name value s named rest ih =>
    have apart : ∀ d ∈ name, d ≠ quote ∧ d ≠ '<' := by
      intro d member
      have other := named.not_outside d member
      rcases quoted with rfl | rfl <;> simp_all [outside]
    intro d member
    simp only [List.mem_cons, List.mem_append] at member
    rcases member with rfl | first | rfl | later
    · exact sign _ (by decide)
    · exact apart d first
    · exact sign _ (by decide)
    · exact ih d later

theorem Written.firstToken? {quote : Char} (quoted : quote = '"' ∨ quote = '\'')
    {value s : Text} (written : Written quote value s) (rest : Text) :
    firstToken? (quote :: (s ++ quote :: rest)) = some (some (.value value), rest) := by
  have denotes : Denotes s value :=
    decodes_iff_denotes.mp (written.decodes.mono fun name c => Or.inl)
  have piece := Piece.value rest quoted (written.inside quoted) denotes
  have first := piece.firstToken?
  simpa using first

theorem decode_isSome_iff (s : Text) :
    (decode s).isSome ↔ ∀ l r, s = l ++ '&' :: r → Begins Replaced r := by
  rw [← exists_decodes_iff fun name c known => (Replaced.closed known).2, Option.isSome_iff_exists]
  exact exists_congr fun value => decode_eq_some_iff.trans decodes_iff_denotes.symm

theorem decode_isSome_iff_of_not_signed {s : Text} (unsigned : ¬Signed s) :
    (decode s).isSome ↔ ∀ l r, s = l ++ '&' :: r → Begins Reference r := by
  rw [← exists_decodes_iff fun name c reference => (Reference.closed reference).2,
    Option.isSome_iff_exists]
  apply exists_congr
  intro value
  rw [decodes_reference_iff, and_iff_left unsigned]

/-- Decoding knows references and, besides them, numbers with a plus sign; it succeeds exactly if one
of these is behind every ampersand, and replaces them by their characters.  Every ampersand begins a
reference exactly if it succeeds, unless it does so with such a number.  Whatever is written with
references, as every character can be, is decoded to what it was. -/
theorem decode_iff_references (s : Text) :
    ((decode s).isSome ↔ ∀ l r, s = l ++ '&' :: r → Begins Replaced r) ∧
    (∀ value, decode s = some value ↔ Decodes Replaced s value) ∧
    (((decode s).isSome ↔ ∀ l r, s = l ++ '&' :: r → Begins Reference r) ↔
      ((decode s).isSome → ¬Signed s)) ∧
    (¬Signed s → ∀ value, decode s = some value ↔ Decodes Reference s value) ∧
    (∀ quote value, quote = '"' ∨ quote = '\'' → Written quote value s →
      decode s = some value ∧
        ∀ rest, firstToken? (quote :: (s ++ quote :: rest)) = some (some (.value value), rest)) ∧
    ∀ c, ∃ name, Reference name c := by
  refine ⟨decode_isSome_iff s, ?_, ?_, ?_, ?_, exists_reference⟩
  · intro value
    rw [decode_eq_some_iff, decodes_iff_denotes]
  · by_cases signed : Signed s
    · rcases exists_not_begins signed with ⟨l, r, whole, absent⟩
      have other : ¬∀ l r, s = l ++ '&' :: r → Begins Reference r := by
        intro every
        exact absent (every l r whole)
      rw [iff_false_intro other, iff_false, iff_false_intro (not_not_intro signed), imp_false]
    · rw [iff_true_intro (decode_isSome_iff_of_not_signed signed), true_iff]
      intro _
      exact signed
  · intro unsigned value
    rw [decodes_reference_iff]
    exact (and_iff_left unsigned).symm
  · intro quote value quoted written
    exact ⟨(decodes_reference_iff.mp written.decodes).1, written.firstToken? quoted⟩

/-- An ampersand that comes from a reference begins none; a quote is written with a leading zero. -/
theorem decode_iff_references_ampersand :
    (¬Signed "&amp;lt;&#x4C;" ∧ Decodes Reference "&amp;lt;&#x4C;" "&lt;L") ∧
    (¬Signed "a & b" ∧ ¬∀ l r, ("a & b" : Text) = l ++ '&' :: r → Begins Reference r) ∧
    Written '\'' "&'" "&amp;&#039;" ∧ decode "&amp;&#039;" = some "&'" ∧
      firstToken? "'&amp;&#039;'>" = some (some (Token.value "&'"), (">" : Text)) := by
  have unsignedIf {s : Text} (absent : '+' ∉ s) : ¬Signed s := by
    intro signed
    rcases signed with inside | inside <;> exact absent (inside.subset (by decide))
  have twice : ¬Signed "&amp;lt;&#x4C;" := unsignedIf (by decide)
  have lone : ¬Signed "a & b" := unsignedIf (by decide)
  have unread : (decode "a & b").isSome = false := by decide
  have digits : Numeral 10 "039" '\''.toNat :=
    (Text.readDigits?_eq_some_iff (by decide)).mp (by decide)
  have written : Written '\'' "&'" "&amp;&#039;" := .reference .amp (.reference (.decimal digits) .nil)
  rcases decode_iff_references "&amp;lt;&#x4C;" with ⟨-, -, -, once, -⟩
  rcases decode_iff_references "a & b" with ⟨-, -, accepts, -⟩
  rcases decode_iff_references "&amp;&#039;" with ⟨-, -, -, -, writes, -⟩
  have read := writes '\'' _ (Or.inr rfl) written
  refine ⟨⟨twice, ?_⟩, ⟨lone, ?_⟩, written, read.1, read.2 ">"⟩
  · exact (once twice _).mp (by decide)
  · rw [← accepts.mpr fun _ => lone, unread]
    decide

/-- A number with a plus sign is no reference, but it is decoded. -/
theorem not_decode_iff_references : (decode "tr&#+117;e").isSome ∧
    ¬∀ l r, ("tr&#+117;e" : Text) = l ++ '&' :: r → Begins Reference r := by
  refine ⟨by decide, ?_⟩
  intro every
  have begins : Begins Reference ("#+" ++ ("117;e" : Text)) := every "tr" _ rfl
  exact not_begins_of_plus (by decide) (by decide) begins

end ProofDesk.Markup
