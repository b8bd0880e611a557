import ProofDesk.Proofs.Limits.FormalKinds
import ProofDesk.Proofs.Limits.NaturalInverse

namespace ProofDesk.Limits

open Text (isName isName_iff isWord blanks spelled splits)
open Statement (LegibleLeaf Legible)

namespace Natural

def leafSigns : List Text := ["\\epsilon"]

def operationSigns : List Text := [" ", "+", "-", "\\cdot"]

def barSigns : List Text := ["|", "\\left", "\\lvert", "\\right", "\\rvert"]

def relationSigns : List Text := ["<", ">", "\\leq", "\\geq"]

def quantifierSigns : List Text := [":", "\\forall"]

def sideMarks : List Text := leafSigns ++ operationSigns ++ barSigns ++ blanks

def inequalityMarks : List Text := sideMarks ++ relationSigns

def bodyMarks : List Text := inequalityMarks ++ quantifierSigns

end Natural
open Natural

namespace Kind

/-- Kinds that may read one text in natural language. -/
def naturalTwins : List Kind := [application, identifier]

def mathShape : Kind → Text.Shape
  | identifier | application => ⟨[], [[]]⟩
  | epsilon => ⟨leafSigns, leafSigns⟩
  | arithmetic => ⟨leafSigns ++ operationSigns, [" "]⟩
  | distance => ⟨Natural.sideMarks, ["\\left"]⟩
  | inequality => ⟨Natural.inequalityMarks, relationSigns⟩
  | forAll | forAllFrom => ⟨Natural.bodyMarks, ["\\forall"]⟩
  | conjunction => ⟨"\\wedge" :: Natural.bodyMarks, ["\\wedge"]⟩
  | thereIs => ⟨"\\exists" :: Natural.bodyMarks, ["\\exists"]⟩
  | sequenceDeclaration => ⟨[], []⟩
  | realDeclaration =>
    ⟨[" ", "\\epsilon", "\\in", "\\mathbb\x7bR\x7d", "\x7b", "\x7d"], ["\\mathbb\x7bR\x7d"]⟩
  | naturalDeclaration =>
    ⟨[" ", "\\in", "\\mathbb\x7bN\x7d", "\x7b", "\x7d"], ["\\mathbb\x7bN\x7d"]⟩
  | limit => ⟨[" ", "\\rightarrow"], ["\\rightarrow"]⟩
  | composedLimit => ⟨[" ", "\\left", "(", "+", "\\cdot", "\\right", ")", "\\rightarrow"], ["("]⟩

def mathGroups : List (List Kind) := [naturalTwins, [forAll, forAllFrom]]

theorem mathShape_apart (k k' : Kind) : k = k' ∨ (∃ group ∈ mathGroups, k ∈ group ∧ k' ∈ group) ∨
    k.mathShape.apart k'.mathShape = true := by
  have table : ∀ k ∈ all, ∀ k' ∈ all, k = k' ∨ (∃ group ∈ mathGroups, k ∈ group ∧ k' ∈ group) ∨
      k.mathShape.apart k'.mathShape = true := by
    decide +kernel
  exact table k k.mem_all k' k'.mem_all

end Kind

namespace Natural

variable {α : Type} {ctx : Context} {marks : List Text} {s : Text} {v : Statement}

theorem spelled_of_readLeaf? (read : readLeaf? ctx s = some v) : spelled leafSigns s = true := by
  obtain ⟨leaf, rfl⟩ := readLeaf?_eq_some_iff.mp read
  rcases leaf.name_or with valid | same
  · exact Text.spelled_of_isName valid
  · rw [same]
    decide

/-- A compound text is spelled as its sides and its separator are, and the separator is in it. -/
theorem spelled_of_cut {seps : List (Text × α)} {side : Text → Option Statement}
    {join : Statement → α → Statement → Statement} (given : ∀ sep ∈ seps, sep.1 ≠ [])
    (between : ∀ sep ∈ seps, spelled marks sep.1 = true)
    (sides : ∀ t u, side t = some u → spelled marks t = true)
    (read : (splits seps s).findSome? (readAround side join) = some v) :
    spelled marks s = true ∧ ∃ sep ∈ seps, sep.1 <:+: s := by
  obtain ⟨l, r, a, sep, left, right, member, rfl, first, second, -⟩ := exists_cut_of_read given read
  constructor
  · exact Text.spelled_append (sides _ _ first)
      (Text.spelled_append (between _ member) (sides _ _ second))
  · exact ⟨(sep, a), member, left, right, List.append_assoc _ _ _⟩

theorem spelled_of_underHeader {w : Text} {ps : Template} {body : Text → Option Statement}
    {xs : List Text} (closed : Template.guarded false (.lit w :: ps) = true)
    (between : Template.spelledBetween marks (.lit w :: ps) = true)
    (inside : ∀ t u, body t = some u → spelled marks t = true)
    (read : underHeader? (.lit w :: ps) body s = some (xs, v)) :
    spelled marks s = true ∧ w <+: s := by
  obtain ⟨rest, found, -, behind⟩ := underHeader?_eq_some_iff.mp read
  refine ⟨?_, Template.prefix_of_read? found⟩
  obtain ⟨⟨-, names⟩, rfl⟩ := (Template.read?_eq_some_iff_of_closed closed).mp found
  exact Text.spelled_append (Template.spelled_fill between names) (inside _ _ behind)

theorem shape_of_readArithmetic? (read : readArithmetic? ctx s = some v) :
    Kind.arithmetic.mathShape.Has s := by
  have between : ∀ sep ∈ operations, spelled (leafSigns ++ operationSigns) sep.1 = true := by decide
  have spaces : ∀ sep ∈ operations, (" " : Text) <:+: sep.1 := by decide
  have leaves (t : Text) (u : Statement) (leaf : readLeaf? ctx t = some u) :
      spelled (leafSigns ++ operationSigns) t = true :=
    Text.spelled_mono (List.subset_append_left _ _) (spelled_of_readLeaf? leaf)
  obtain ⟨known, sep, member, inside⟩ := spelled_of_cut (by decide) between leaves read
  exact ⟨known, " ", List.mem_singleton_self _, (spaces sep member).trans inside⟩

theorem shape_of_readDistance? (read : readDistance? ctx s = some v) :
    Kind.distance.mathShape.Has s := by
  have known {w : Text} (listed : w ∈ barSigns) : spelled sideMarks w = true := by
    revert w
    decide
  have blank : blanks ⊆ sideMarks := List.subset_append_right _ _
  have leaf {t : Text} {u : Statement} (read : readLeaf? ctx t = some u) :
      spelled sideMarks t = true :=
    Text.spelled_mono (by decide) (spelled_of_readLeaf? read)
  -- from the outside to the inside: brackets, bars, and the difference between them
  obtain ⟨⟨left, right⟩, sides, read⟩ := Option.bind_eq_some_iff.mp read
  obtain ⟨l, first, read⟩ := Option.bind_eq_some_iff.mp read
  obtain ⟨r, second, -⟩ := Option.bind_eq_some_iff.mp read
  obtain ⟨afterLeft, leading, sides⟩ := Option.bind_eq_some_iff.mp sides
  obtain ⟨afterBar, opening, sides⟩ := Option.bind_eq_some_iff.mp sides
  obtain ⟨beforeBar, closing, sides⟩ := Option.bind_eq_some_iff.mp sides
  obtain ⟨inside, trailing, sides⟩ := Option.bind_eq_some_iff.mp sides
  have minus : spelled sideMarks " - " = true := by decide
  have difference : spelled sideMarks (Text.trim inside) = true := by
    rw [Text.splitFirst?_eq_some sides]
    exact Text.spelled_append (leaf first) (Text.spelled_append minus (leaf second))
  have bracketed : spelled sideMarks (Text.trimRight beforeBar) = true := by
    rw [Text.stripTrailing?_eq_some_iff.mp trailing]
    exact Text.spelled_append (Text.spelled_of_trim blank difference) (known (by decide))
  have beforeKnown := Text.spelled_of_trimRight blank bracketed
  have barred : spelled sideMarks afterBar = true := by
    rcases Option.or_eq_some_iff.mp closing with bar | ⟨-, bar⟩ <;>
      rw [Text.stripTrailing?_eq_some_iff.mp bar] <;>
      exact Text.spelled_append beforeKnown (known (by decide))
  have opened : spelled sideMarks (Text.trimLeft afterLeft) = true := by
    rcases Option.or_eq_some_iff.mp opening with bar | ⟨-, bar⟩ <;>
      rw [Text.stripLeading?_eq_some_iff.mp bar] <;>
      exact Text.spelled_append (known (by decide)) barred
  have whole := Text.stripLeading?_eq_some_iff.mp leading
  refine ⟨?_, "\\left", List.mem_singleton_self _, ?_⟩
  · rw [whole]
    exact Text.spelled_append (known (by decide)) (Text.spelled_of_trimLeft blank opened)
  · exact ⟨[], afterLeft, whole.symm⟩

theorem spelled_of_readSide? (read : readSide? ctx s = some v) : spelled sideMarks s = true := by
  rcases Option.or_eq_some_iff.mp read with distance | ⟨-, read⟩
  · exact (shape_of_readDistance? distance).1
  · rcases Option.or_eq_some_iff.mp read with arithmetic | ⟨-, leaf⟩
    · exact Text.spelled_mono (by decide) (shape_of_readArithmetic? arithmetic).1
    · exact Text.spelled_mono (by decide) (spelled_of_readLeaf? leaf)

theorem shape_of_readInequality? (read : readInequality? ctx s = some v) :
    Kind.inequality.mathShape.Has s := by
  have between : ∀ sep ∈ relations, spelled inequalityMarks sep.1 = true := by decide
  have signs : ∀ sep ∈ relations, ∃ sign ∈ relationSigns, sign <:+: sep.1 := by decide
  have sides (t : Text) (u : Statement) (side : readSide? ctx t = some u) :
      spelled inequalityMarks t = true :=
    Text.spelled_mono (List.subset_append_left _ _) (spelled_of_readSide? side)
  obtain ⟨known, sep, member, inside⟩ := spelled_of_cut (by decide) between sides read
  obtain ⟨sign, listed, within⟩ := signs sep member
  exact ⟨known, sign, listed, within.trans inside⟩

section Quantified

variable {body : Text → Option Statement}
  (bodies : ∀ t u, body t = some u → spelled bodyMarks t = true)

include bodies

theorem shape_of_forAll? (read : forAll? forAllHeader body s = some v) :
    Kind.forAll.mathShape.Has s := by
  obtain ⟨x, u, -, found⟩ := forAll?_eq_some_iff.mp read
  obtain ⟨known, begins⟩ := spelled_of_underHeader (by decide) (by decide) bodies found
  have command : ("\\forall" : Text) <+: "\\forall " := by decide
  exact ⟨known, "\\forall", List.mem_singleton_self _, (command.trans begins).isInfix⟩

theorem shape_of_forAllFrom? (read : forAllFrom? forAllFromHeader body s = some v) :
    Kind.forAllFrom.mathShape.Has s := by
  obtain ⟨var, bound, u, -, found⟩ := forAllFrom?_eq_some_iff.mp read
  obtain ⟨known, begins⟩ := spelled_of_underHeader (by decide) (by decide) bodies found
  have command : ("\\forall" : Text) <+: "\\forall " := by decide
  exact ⟨known, "\\forall", List.mem_singleton_self _, (command.trans begins).isInfix⟩

theorem shape_of_thereIs? (read : thereIs? thereIsHeader body s = some v) :
    Kind.thereIs.mathShape.Has s := by
  have further (t : Text) (u : Statement) (inside : body t = some u) :
      spelled ("\\exists" :: bodyMarks) t = true :=
    Text.spelled_mono (List.subset_cons_self _ _) (bodies t u inside)
  obtain ⟨x, u, -, found⟩ := thereIs?_eq_some_iff.mp read
  obtain ⟨known, begins⟩ := spelled_of_underHeader (by decide) (by decide) further found
  have command : ("\\exists" : Text) <+: "\\exists " := by decide
  exact ⟨known, "\\exists", List.mem_singleton_self _, (command.trans begins).isInfix⟩

theorem shape_of_conjunction? (read : conjunction? " \\wedge " body s = some v) :
    Kind.conjunction.mathShape.Has s := by
  have between : ∀ sep ∈ [((" \\wedge " : Text), ())],
      spelled ("\\wedge" :: bodyMarks) sep.1 = true := by
    decide
  have sign : ∀ sep ∈ [((" \\wedge " : Text), ())], ("\\wedge" : Text) <:+: sep.1 := by decide
  have further (t : Text) (u : Statement) (inside : body t = some u) :
      spelled ("\\wedge" :: bodyMarks) t = true :=
    Text.spelled_mono (List.subset_cons_self _ _) (bodies t u inside)
  rw [conjunction?_eq] at read
  obtain ⟨known, sep, member, inside⟩ := spelled_of_cut (by decide) between further read
  exact ⟨known, "\\wedge", List.mem_singleton_self _, (sign sep member).trans inside⟩

end Quantified

theorem spelled_of_readBodyWithin? {n : Nat} (read : readBodyWithin? ctx n s = some v) :
    spelled bodyMarks s = true := by
  induction n generalizing s v with
  | zero => cases read
  | succ n ih =>
    have bodies (t : Text) (u : Statement) (inside : readBodyWithin? ctx n t = some u) :
        spelled bodyMarks t = true := ih inside
    rcases Option.or_eq_some_iff.mp read with fromBound | ⟨-, read⟩
    · exact (shape_of_forAllFrom? bodies fromBound).1
    · rcases Option.or_eq_some_iff.mp read with quantified | ⟨-, inequality⟩
      · exact (shape_of_forAll? bodies quantified).1
      · exact Text.spelled_mono (List.subset_append_left _ _)
          (shape_of_readInequality? inequality).1

theorem spelled_of_readBody? (t : Text) (u : Statement) (read : readBody? ctx t = some u) :
    spelled bodyMarks t = true :=
  spelled_of_readBodyWithin? read

theorem shape_of_match? {shape : Text.Shape} {t : Template} {w sign : Text} {xs : List Text}
    (closed : t.guarded true = true) (between : t.spelledBetween shape.marks = true)
    (known : sign ∈ shape.signs) (inside : sign <:+: w) (part : Piece.lit w ∈ t)
    (read : t.match? s = some xs) : shape.Has s := by
  obtain ⟨⟨-, names⟩, rfl⟩ := (Template.match?_eq_some_iff closed).mp read
  exact ⟨Template.spelled_fill between names, sign, known,
    inside.trans (Template.infix_fill part xs)⟩

theorem shape_of_readRealDeclaration? (read : readRealDeclaration? s = some v) :
    Kind.realDeclaration.mathShape.Has s := by
  unfold readRealDeclaration? at read
  split at read
  · next same =>
    rw [same]
    have inside : ("\\mathbb\x7bR\x7d" : Text) <:+: epsilonMath ++ realEnd := by decide
    exact ⟨by decide, _, List.mem_singleton_self _, inside⟩
  · split at read
    · next x found =>
      exact shape_of_match? (w := realEnd) (by decide) (by decide) (List.mem_singleton_self _)
        (by decide) (by decide) found
    · cases read

theorem shape_of_readNaturalDeclaration? (read : readNaturalDeclaration? s = some v) :
    Kind.naturalDeclaration.mathShape.Has s := by
  unfold readNaturalDeclaration? at read
  split at read
  · next x found =>
    exact shape_of_match? (w := " \\in \\mathbb\x7bN\x7d") (by decide) (by decide)
      (List.mem_singleton_self _) (by decide) (by decide) found
  · cases read

theorem shape_of_readLimit? (read : readLimit? s = some v) : Kind.limit.mathShape.Has s := by
  unfold readLimit? at read
  split at read
  · next seq l found =>
    exact shape_of_match? (w := " \\rightarrow ") (by decide) (by decide) (List.mem_singleton_self _)
      (by decide) (by decide) found
  · cases read

theorem shape_of_composedLimit? (read : composedLimit? composedForms s = some v) :
    Kind.composedLimit.mathShape.Has s := by
  have forms : ∀ entry ∈ composedForms, entry.1.guarded true = true ∧
      entry.1.spelledBetween Kind.composedLimit.mathShape.marks = true ∧
        Piece.lit "\\left(" ∈ entry.1 := by
    decide
  obtain ⟨form, op, a, b, l, m, member, found, -⟩ := exists_form_of_composedLimit? read
  obtain ⟨closed, between, part⟩ := forms _ member
  exact shape_of_match? closed between (List.mem_singleton_self _) (by decide) part found

end Natural

theorem Kind.mathShape_of_math? {k : Kind} {ctx : Context} {s : Text} {v : Statement}
    (read : k.math? ctx s = some v) : k.mathShape.Has s := by
  have name (valid : isName s = true) : Text.Shape.Has ⟨[], [[]]⟩ s :=
    ⟨Text.spelled_of_isName valid, [], List.mem_singleton_self _, List.nil_infix⟩
  cases k with
  | identifier =>
    obtain ⟨-, valid⟩ := identifier?_eq_some_iff.mp read
    exact name valid
  | epsilon =>
    obtain ⟨-, rfl⟩ := readEpsilon?_eq_some_iff.mp read
    exact ⟨by decide, epsilonMath, List.mem_singleton_self _, List.infix_refl _⟩
  | application =>
    obtain ⟨valid, -⟩ := Option.ite_none_right_eq_some.mp read
    exact name valid
  | arithmetic => exact shape_of_readArithmetic? read
  | distance => exact shape_of_readDistance? read
  | inequality => exact shape_of_readInequality? read
  | conjunction => exact shape_of_conjunction? spelled_of_readBody? read
  | sequenceDeclaration => cases read
  | realDeclaration => exact shape_of_readRealDeclaration? read
  | naturalDeclaration => exact shape_of_readNaturalDeclaration? read
  | limit => exact shape_of_readLimit? read
  | composedLimit => exact shape_of_composedLimit? read
  | forAll => exact shape_of_forAll? spelled_of_readBody? read
  | forAllFrom => exact shape_of_forAllFrom? spelled_of_readBody? read
  | thereIs => exact shape_of_thereIs? spelled_of_readBody? read

namespace Natural

variable {ctx : Context} {s t : Text} {v : Statement}

/-- A name that is a term of a known sequence: `a_n`, cut at its last underscore. -/
def IsTerm (ctx : Context) (s : Text) : Prop :=
  isName s = true ∧ ∃ seq index, IndexCut s seq index ∧ ctx.is seq .sequence = true

theorem readApplication?_isSome_iff : (readApplication? ctx s).isSome ↔ IsTerm ctx s := by
  rw [Option.isSome_iff_exists]
  constructor
  · rintro ⟨v, read⟩
    obtain ⟨valid, read⟩ := Option.ite_none_right_eq_some.mp read
    obtain ⟨⟨seq, index⟩, cut, found⟩ := Option.bind_eq_some_iff.mp read
    exact ⟨valid, seq, index, splitIndex?_eq_some_iff.mp cut, (application?_eq_some_iff.mp found).2⟩
  · rintro ⟨valid, seq, index, cut, known⟩
    refine ⟨.application seq index, ?_⟩
    rw [readApplication?, if_pos valid, splitIndex?_eq_some_iff.mpr cut, Option.bind_some]
    exact application?_eq_some_iff.mpr ⟨rfl, known⟩

theorem forAllFrom?_eq_none_of_forAll? {body body' : Text → Option Statement}
    (read : forAll? forAllHeader body s = some v) :
    forAllFrom? forAllFromHeader body' s = none := by
  obtain ⟨x, u, -, found⟩ := forAll?_eq_some_iff.mp read
  obtain ⟨rest, header, -, -⟩ := underHeader?_eq_some_iff.mp found
  obtain ⟨⟨-, names⟩, rfl⟩ := (Template.read?_eq_some_iff_of_closed (by decide)).mp header
  have shape : forAllHeader.fill [x] ++ rest =
      "\\forall" ++ ' ' :: (x ++ ' ' :: ':' :: (' ' :: rest)) := by
    have filled : forAllHeader.fill [x] ++ rest = ("\\forall " ++ (x ++ " : ")) ++ rest := rfl
    rw [filled, List.append_assoc, List.append_assoc]
    rfl
  rw [shape]
  exact forAllFrom?_eq_none (read?_forAllFromHeader (names x (by simp)))

theorem getLast?_of_readSequences? (read : readSequences? s = some v) : s.getLast? = some 's' := by
  obtain ⟨inside, between, -⟩ := Option.bind_eq_some_iff.mp read
  have ending : (("$" : Text) ++ sequencesEnd).getLast? = some 's' := by decide
  rw [Text.between?_eq_some_iff.mp between, ← List.append_assoc, List.getLast?_append, ending]
  rfl

theorem math?_eq_none_of_readSequences? {k : Kind} {inMath : Bool}
    (sequences : readSequences? s = some v) (inside : inside? inMath s = some t) :
    k.math? ctx t = none := by
  cases inMath with
  | false =>
    obtain ⟨between, -⟩ := Option.filter_eq_some_iff.mp inside
    have last := getLast?_of_readSequences? sequences
    rw [Text.between?_eq_some_iff.mp between, ← List.append_assoc, List.getLast?_append] at last
    cases last
  | true =>
    obtain rfl : s = t := Option.some.inj inside
    rw [Option.eq_none_iff_forall_ne_some]
    intro w read
    have other : ∀ k ∈ Kind.all, Text.foreign k.mathShape.marks "$" = true := by decide +kernel
    obtain ⟨known, -⟩ := Kind.mathShape_of_math? read
    apply Text.not_infix_of_spelled known (other k k.mem_all)
    obtain ⟨u, between, -⟩ := Option.bind_eq_some_iff.mp sequences
    rw [Text.between?_eq_some_iff.mp between]
    exact (List.prefix_append _ _).isInfix

end Natural

namespace Kind

variable {ctx : Context} {s : Text} {k k' : Kind}

theorem not_both_quantified (quantified : (Kind.forAll.math? ctx s).isSome)
    (fromBound : (Kind.forAllFrom.math? ctx s).isSome) : False := by
  obtain ⟨v, read⟩ := Option.isSome_iff_exists.mp quantified
  have none' : Kind.forAllFrom.math? ctx s = none := forAllFrom?_eq_none_of_forAll? read
  rw [none'] at fromBound
  cases fromBound

theorem eq_or_of_math? (found : (k.math? ctx s).isSome) (found' : (k'.math? ctx s).isSome) :
    k = k' ∨ IsTerm ctx s ∧ k ∈ naturalTwins ∧ k' ∈ naturalTwins := by
  obtain ⟨v, read⟩ := Option.isSome_iff_exists.mp found
  obtain ⟨w, read'⟩ := Option.isSome_iff_exists.mp found'
  rcases mathShape_apart k k' with one | ⟨group, known, member, member'⟩ | apart
  · exact Or.inl one
  · simp only [mathGroups, List.mem_cons, List.not_mem_nil, or_false] at known
    rcases known with rfl | rfl
    · have twins : k ∈ naturalTwins ∧ k' ∈ naturalTwins := ⟨member, member'⟩
      simp only [naturalTwins, List.mem_cons, List.not_mem_nil, or_false] at member member'
      rcases member with rfl | rfl
      · exact Or.inr ⟨readApplication?_isSome_iff.mp found, twins⟩
      · rcases member' with rfl | rfl
        · exact Or.inr ⟨readApplication?_isSome_iff.mp found', twins⟩
        · exact Or.inl rfl
    · simp only [List.mem_cons, List.not_mem_nil, or_false] at member member'
      rcases member with rfl | rfl <;> rcases member' with rfl | rfl
      · exact Or.inl rfl
      · exact (not_both_quantified found found').elim
      · exact (not_both_quantified found' found).elim
      · exact Or.inl rfl
  · exact absurd (mathShape_of_math? read') ((mathShape_of_math? read).not_of_apart apart)

/-- A mathematical text is for two kinds exactly if it is a term of a sequence and they are such
terms and names. -/
theorem reads_math_both_iff (different : k ≠ k') :
    (k.math? ctx s).isSome ∧ (k'.math? ctx s).isSome ↔
      IsTerm ctx s ∧ k ∈ naturalTwins ∧ k' ∈ naturalTwins := by
  constructor
  · rintro ⟨found, found'⟩
    exact (eq_or_of_math? found found').resolve_left different
  · rintro ⟨term, member, member'⟩
    have reads : ∀ k ∈ naturalTwins, (k.math? ctx s).isSome := by
      intro k member
      simp only [naturalTwins, List.mem_cons, List.not_mem_nil, or_false] at member
      rcases member with rfl | rfl
      · exact readApplication?_isSome_iff.mpr term
      · rw [Kind.math?, identifier?, if_pos term.1]
        rfl
    exact ⟨reads k member, reads k' member'⟩

theorem natural?_of_ne {inMath : Bool} (other : k ≠ .sequenceDeclaration) :
    k.natural? ctx inMath s = (inside? inMath s).bind (k.math? ctx) :=
  if_neg other

theorem natural?_eq_none_of_sequences {inMath : Bool} (other : k ≠ .sequenceDeclaration)
    (sequences : (Kind.sequenceDeclaration.natural? ctx inMath s).isSome) :
    k.natural? ctx inMath s = none := by
  obtain ⟨v, read⟩ := Option.isSome_iff_exists.mp sequences
  rw [natural?_of_ne other, Option.bind_eq_none_iff]
  intro t inside
  exact math?_eq_none_of_readSequences? read inside

theorem reads_natural_both_iff {inMath : Bool} (different : k ≠ k') :
    (k.natural? ctx inMath s).isSome ∧ (k'.natural? ctx inMath s).isSome ↔
      (∃ t, inside? inMath s = some t ∧ IsTerm ctx t) ∧ k ∈ naturalTwins ∧ k' ∈ naturalTwins := by
  have mathematical : ∀ k ∈ naturalTwins, k ≠ .sequenceDeclaration := by decide
  constructor
  · rintro ⟨found, found'⟩
    by_cases sequences : k = .sequenceDeclaration
    · subst sequences
      rw [natural?_eq_none_of_sequences different.symm found] at found'
      cases found'
    · by_cases sequences' : k' = .sequenceDeclaration
      · subst sequences'
        rw [natural?_eq_none_of_sequences different found'] at found
        cases found
      · rw [natural?_of_ne sequences] at found
        rw [natural?_of_ne sequences'] at found'
        obtain ⟨v, read⟩ := Option.isSome_iff_exists.mp found
        obtain ⟨t, inside, -⟩ := Option.bind_eq_some_iff.mp read
        rw [inside, Option.bind_some] at found found'
        obtain ⟨term, members⟩ := (reads_math_both_iff different).mp ⟨found, found'⟩
        exact ⟨⟨t, inside, term⟩, members⟩
  · rintro ⟨⟨t, inside, term⟩, member, member'⟩
    rw [natural?_of_ne (mathematical k member), natural?_of_ne (mathematical k' member'), inside]
    exact (reads_math_both_iff different).mpr ⟨term, member, member'⟩

end Kind
end ProofDesk.Limits
