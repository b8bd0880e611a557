import ProofDesk.Limits.Natural
import ProofDesk.Proofs.Limits.Reading

namespace ProofDesk.Limits

open Text (isName isName_iff)

namespace Natural

/-- The cut of a text at its last underscore that has something on both sides. -/
def IndexCut (s seq index : Text) : Prop :=
  s = seq ++ '_' :: index ∧ seq ≠ [] ∧ index ≠ [] ∧ '_' ∉ index.dropLast

theorem splitIndex?_eq_some {s seq index : Text} (cut : splitIndex? s = some (seq, index)) :
    s = seq ++ '_' :: index ∧ seq ≠ [] ∧ index ≠ [] := by
  fun_induction splitIndex? s generalizing seq with
  | case1 => cases cut
  | case2 c s seq' index' later ih =>
    cases cut
    obtain ⟨whole, _, given⟩ := ih later
    exact ⟨by rw [whole, List.cons_append], List.cons_ne_nil _ _, given⟩
  | case3 c d index' none' ih =>
    cases cut
    exact ⟨rfl, List.cons_ne_nil _ _, List.cons_ne_nil _ _⟩
  | case4 => cases cut

theorem splitIndex?_cons_of_some {c : Char} {s seq index : Text}
    (later : splitIndex? s = some (seq, index)) : splitIndex? (c :: s) = some (c :: seq, index) := by
  unfold splitIndex?
  rw [later]

theorem splitIndex?_cons_of_none {c d : Char} {index : Text}
    (none' : splitIndex? ('_' :: d :: index) = none) :
    splitIndex? (c :: '_' :: d :: index) = some ([c], d :: index) := by
  unfold splitIndex?
  rw [none']
  rfl

theorem splitIndex?_isSome {s : Text} (inside : '_' ∈ s.tail.dropLast) : (splitIndex? s).isSome := by
  induction s with
  | nil => cases inside
  | cons c s ih =>
    rw [List.tail_cons] at inside
    cases later : splitIndex? s with
    | some cut => rw [splitIndex?_cons_of_some later, Option.isSome_some]
    | none =>
      rcases s with _ | ⟨d, _ | ⟨e, s⟩⟩
      · cases inside
      · cases inside
      · rw [List.dropLast_cons_cons, List.mem_cons] at inside
        rcases inside with rfl | inside
        · rw [splitIndex?_cons_of_none later, Option.isSome_some]
        · have found := ih inside
          rw [later] at found
          cases found

theorem splitIndex?_append {seq index : Text} (given : seq ≠ []) (givenIndex : index ≠ [])
    (last : '_' ∉ index.dropLast) : splitIndex? (seq ++ '_' :: index) = some (seq, index) := by
  have noLater : splitIndex? ('_' :: index) = none := by
    rw [Option.eq_none_iff_forall_ne_some]
    rintro ⟨seq', index'⟩ later
    obtain ⟨whole, given', givenIndex'⟩ := splitIndex?_eq_some later
    obtain ⟨c, rest, rfl⟩ := List.exists_cons_of_ne_nil given'
    have inside : index = rest ++ '_' :: index' := (List.cons.inj whole).2
    apply last
    rw [inside, List.dropLast_append_of_ne_nil (List.cons_ne_nil _ _),
      List.dropLast_cons_of_ne_nil givenIndex']
    simp
  induction seq with
  | nil => exact absurd rfl given
  | cons c seq ih =>
    cases seq with
    | nil =>
      obtain ⟨d, rest, rfl⟩ := List.exists_cons_of_ne_nil givenIndex
      exact splitIndex?_cons_of_none noLater
    | cons d seq => exact splitIndex?_cons_of_some (ih (List.cons_ne_nil _ _))

theorem splitIndex?_eq_some_iff {s seq index : Text} :
    splitIndex? s = some (seq, index) ↔ IndexCut s seq index := by
  constructor
  · intro cut
    obtain ⟨whole, given, givenIndex⟩ := splitIndex?_eq_some cut
    refine ⟨whole, given, givenIndex, ?_⟩
    clear whole givenIndex
    fun_induction splitIndex? s generalizing seq with
    | case1 => cases cut
    | case2 c s seq' index' later ih =>
      cases cut
      exact ih later (splitIndex?_eq_some later).2.1
    | case3 c d index' none' ih =>
      cases cut
      intro later
      have some' := splitIndex?_isSome (s := '_' :: d :: index') later
      rw [none'] at some'
      cases some'
    | case4 => cases cut
  · rintro ⟨rfl, given, givenIndex, last⟩
    exact splitIndex?_append given givenIndex last

end Natural

open Natural (IndexCut)

namespace Statement

/-- Operands of arithmetic and of distances that are found again. -/
inductive LegibleLeaf (ctx : Context) : Statement → Prop where
  | application {seq index : Text} (valid : isName seq = true) (validIndex : isName index = true)
    (known : ctx.is seq .sequence = true) (last : '_' ∉ index.dropLast) :
    LegibleLeaf ctx (.application seq index)
  | epsilon : LegibleLeaf ctx .epsilon
  | identifier {x : Text} (valid : isName x = true)
    (whole : ∀ seq index, IndexCut x seq index → ctx.is seq .sequence = false) :
    LegibleLeaf ctx (.identifier x)

inductive LegibleSide (ctx : Context) : Statement → Prop where
  | leaf {v : Statement} (leaf : LegibleLeaf ctx v) : LegibleSide ctx v
  | arithmetic {l r : Statement} (op : Operation) (left : LegibleLeaf ctx l)
    (right : LegibleLeaf ctx r) : LegibleSide ctx (.arithmetic l op r)
  | distance {l r : Statement} (left : LegibleLeaf ctx l) (right : LegibleLeaf ctx r) :
    LegibleSide ctx (.distance l r)

inductive LegibleBody (ctx : Context) : Statement → Prop where
  | inequality {l r : Statement} (rel : Relation) (left : LegibleSide ctx l)
    (right : LegibleSide ctx r) : LegibleBody ctx (.inequality l rel r)
  | forAll {x : Text} {v : Statement} (valid : isName x = true) (body : LegibleBody ctx v) :
    LegibleBody ctx (.forAll x v)
  | forAllFrom {var bound : Text} {v : Statement} (valid : isName var = true)
    (validBound : isName bound = true) (body : LegibleBody ctx v) :
    LegibleBody ctx (.forAllFrom var bound v)

/-- Statements that natural language expresses.  On its own, an identifier may have any name. -/
inductive Legible (ctx : Context) : Statement → Prop where
  | identifier {x : Text} (valid : isName x = true) : Legible ctx (.identifier x)
  | side {v : Statement} (side : LegibleSide ctx v) : Legible ctx v
  | body {v : Statement} (body : LegibleBody ctx v) : Legible ctx v
  | conjunction {l r : Statement} (left : LegibleBody ctx l) (right : LegibleBody ctx r) :
    Legible ctx (.conjunction l r)
  | sequenceDeclaration {xs : List Text} (given : xs ≠ []) (valid : ∀ x ∈ xs, isName x = true) :
    Legible ctx (.sequenceDeclaration xs)
  | realDeclaration {x : Text} (valid : isName x = true) : Legible ctx (.realDeclaration x)
  | naturalDeclaration {x : Text} (valid : isName x = true) : Legible ctx (.naturalDeclaration x)
  | limit {seq l : Text} (valid : isName seq = true) (validLimit : isName l = true) :
    Legible ctx (.limit seq l)
  | composedLimit {a b l m : Text} {op : Operation} (combines : op = .add ∨ op = .mul)
    (valid : ∀ x ∈ [a, b, l, m], isName x = true) : Legible ctx (.composedLimit a b op l m)
  | thereIs {x : Text} {v : Statement} (valid : isName x = true) (body : LegibleBody ctx v) :
    Legible ctx (.thereIs x v)

end Statement

open Statement (LegibleLeaf LegibleSide LegibleBody Legible)

namespace Natural

variable {ctx : Context} {s : Text} {v : Statement}

theorem isName_epsilonMath : isName epsilonMath = false := by
  decide

theorem math_application (seq index : Text) :
    (Statement.application seq index).math = seq ++ '_' :: index :=
  List.append_assoc seq ['_'] index

theorem isName_term {seq index : Text} (valid : isName seq = true) (validIndex : isName index = true) :
    isName (seq ++ '_' :: index) = true := by
  obtain ⟨given, word⟩ := isName_iff.mp valid
  obtain ⟨-, wordIndex⟩ := isName_iff.mp validIndex
  refine isName_iff.mpr ⟨List.append_ne_nil_of_left_ne_nil given _, ?_⟩
  rw [List.all_append, List.all_cons, word, wordIndex, Bool.and_true, Bool.true_and]
  decide

theorem readEpsilon?_eq_some_iff : readEpsilon? s = some v ↔ v = .epsilon ∧ s = epsilonMath := by
  unfold readEpsilon?
  split
  · next same => simp [same, eq_comm]
  · next other => simp [other]

theorem readApplication?_eq_some_iff : readApplication? ctx s = some v ↔
    v.kind = .application ∧ LegibleLeaf ctx v ∧ v.math = s := by
  unfold readApplication?
  constructor
  · intro read
    split at read
    · next valid =>
      obtain ⟨⟨seq, index⟩, cut, found⟩ := Option.bind_eq_some_iff.mp read
      obtain ⟨rfl, known⟩ := application?_eq_some_iff.mp found
      obtain ⟨rfl, given, givenIndex, last⟩ := splitIndex?_eq_some_iff.mp cut
      obtain ⟨-, word⟩ := isName_iff.mp valid
      rw [List.all_append, List.all_cons, Bool.and_eq_true, Bool.and_eq_true] at word
      refine ⟨rfl, .application (isName_iff.mpr ⟨given, word.1⟩)
        (isName_iff.mpr ⟨givenIndex, word.2.2⟩) known last, math_application seq index⟩
    · cases read
  · rintro ⟨kind, leaf, rfl⟩
    cases leaf with
    | @application seq index valid validIndex known last =>
      obtain ⟨given, -⟩ := isName_iff.mp valid
      obtain ⟨givenIndex, -⟩ := isName_iff.mp validIndex
      rw [math_application, if_pos (isName_term valid validIndex),
        splitIndex?_append given givenIndex last, Option.bind_some]
      exact application?_eq_some_iff.mpr ⟨rfl, known⟩
    | epsilon => cases kind
    | identifier _ _ => cases kind

theorem readLeaf?_eq_some_iff : readLeaf? ctx s = some v ↔ LegibleLeaf ctx v ∧ v.math = s := by
  unfold readLeaf?
  constructor
  · intro read
    rcases Option.or_eq_some_iff.mp read with application | ⟨other, read⟩
    · exact (readApplication?_eq_some_iff.mp application).2
    · rcases Option.or_eq_some_iff.mp read with tolerance | ⟨-, identifier⟩
      · obtain ⟨rfl, rfl⟩ := readEpsilon?_eq_some_iff.mp tolerance
        exact ⟨.epsilon, rfl⟩
      · obtain ⟨rfl, valid⟩ := identifier?_eq_some_iff.mp identifier
        refine ⟨.identifier valid ?_, rfl⟩
        intro seq index cut
        rw [readApplication?, if_pos valid, splitIndex?_eq_some_iff.mpr cut, Option.bind_some]
          at other
        simpa [application?] using other
  · rintro ⟨leaf, rfl⟩
    cases leaf with
    | application valid validIndex known last =>
      rw [readApplication?_eq_some_iff.mpr ⟨rfl, .application valid validIndex known last, rfl⟩]
      rfl
    | epsilon => rfl
    | @identifier x valid whole =>
      have noApplication : readApplication? ctx x = none := by
        rw [Option.eq_none_iff_forall_ne_some]
        intro v read
        rw [readApplication?, if_pos valid] at read
        obtain ⟨⟨seq, index⟩, cut, found⟩ := Option.bind_eq_some_iff.mp read
        have unknown := whole seq index (splitIndex?_eq_some_iff.mp cut)
        simp [application?, unknown] at found
      have noEpsilon : readEpsilon? x = none := by
        rw [readEpsilon?, if_neg]
        rintro rfl
        rw [isName_epsilonMath] at valid
        cases valid
      have shape : (Statement.identifier x).math = x := rfl
      rw [shape, noApplication, noEpsilon]
      exact identifier?_eq_some_iff.mpr ⟨rfl, valid⟩

theorem readArithmetic?_legible (read : readArithmetic? ctx s = some v) :
    v.kind = .arithmetic ∧ LegibleSide ctx v := by
  have given : ∀ sep ∈ operations, sep.1 ≠ [] := by decide
  rw [readArithmetic?, arithmetic?_eq] at read
  obtain ⟨l, r, op, sep, left, right, -, -, first, second, rfl⟩ := exists_cut_of_read given read
  exact ⟨rfl, .arithmetic op (readLeaf?_eq_some_iff.mp first).1 (readLeaf?_eq_some_iff.mp second).1⟩

theorem readDistance?_legible (read : readDistance? ctx s = some v) :
    v.kind = .distance ∧ LegibleSide ctx v := by
  obtain ⟨⟨left, right⟩, -, read⟩ := Option.bind_eq_some_iff.mp read
  obtain ⟨l, first, read⟩ := Option.bind_eq_some_iff.mp read
  obtain ⟨r, second, same⟩ := Option.bind_eq_some_iff.mp read
  cases same
  exact ⟨rfl, .distance (readLeaf?_eq_some_iff.mp first).1 (readLeaf?_eq_some_iff.mp second).1⟩

theorem readSide?_legible (read : readSide? ctx s = some v) : LegibleSide ctx v := by
  rcases Option.or_eq_some_iff.mp read with distance | ⟨-, read⟩
  · exact (readDistance?_legible distance).2
  · rcases Option.or_eq_some_iff.mp read with arithmetic | ⟨-, leaf⟩
    · exact (readArithmetic?_legible arithmetic).2
    · exact .leaf (readLeaf?_eq_some_iff.mp leaf).1

theorem readInequality?_legible (read : readInequality? ctx s = some v) :
    v.kind = .inequality ∧ LegibleBody ctx v := by
  have given : ∀ sep ∈ relations, sep.1 ≠ [] := by decide
  rw [readInequality?, inequality?_eq] at read
  obtain ⟨l, r, rel, sep, left, right, -, -, first, second, rfl⟩ := exists_cut_of_read given read
  exact ⟨rfl, .inequality rel (readSide?_legible first) (readSide?_legible second)⟩

section Quantified

variable {header : Template} {body : Text → Option Statement}
  (legible : ∀ t u, body t = some u → LegibleBody ctx u)

include legible

theorem underHeader?_legible {xs : List Text} (read : underHeader? header body s = some (xs, v)) :
    (∀ x ∈ xs, isName x = true) ∧ LegibleBody ctx v := by
  obtain ⟨rest, found, -, inside⟩ := underHeader?_eq_some_iff.mp read
  exact ⟨(Template.fits_of_read? found).2, legible rest v inside⟩

theorem forAll?_legible (read : forAll? header body s = some v) :
    v.kind = .forAll ∧ LegibleBody ctx v := by
  obtain ⟨x, u, rfl, found⟩ := forAll?_eq_some_iff.mp read
  obtain ⟨names, formed⟩ := underHeader?_legible legible found
  exact ⟨rfl, .forAll (names x (by simp)) formed⟩

theorem forAllFrom?_legible (read : forAllFrom? header body s = some v) :
    v.kind = .forAllFrom ∧ LegibleBody ctx v := by
  obtain ⟨var, bound, u, rfl, found⟩ := forAllFrom?_eq_some_iff.mp read
  obtain ⟨names, formed⟩ := underHeader?_legible legible found
  exact ⟨rfl, .forAllFrom (names var (by simp)) (names bound (by simp)) formed⟩

theorem thereIs?_legible (read : thereIs? header body s = some v) :
    v.kind = .thereIs ∧ Legible ctx v := by
  obtain ⟨x, u, rfl, found⟩ := thereIs?_eq_some_iff.mp read
  obtain ⟨names, formed⟩ := underHeader?_legible legible found
  exact ⟨rfl, .thereIs (names x (by simp)) formed⟩

end Quantified

theorem readBodyWithin?_legible {n : Nat} (read : readBodyWithin? ctx n s = some v) :
    LegibleBody ctx v := by
  induction n generalizing s v with
  | zero => cases read
  | succ n ih =>
    have legible (t : Text) (u : Statement) (inside : readBodyWithin? ctx n t = some u) :
        LegibleBody ctx u := ih inside
    rcases Option.or_eq_some_iff.mp read with fromBound | ⟨-, read⟩
    · exact (forAllFrom?_legible legible fromBound).2
    · rcases Option.or_eq_some_iff.mp read with quantified | ⟨-, inequality⟩
      · exact (forAll?_legible legible quantified).2
      · exact (readInequality?_legible inequality).2

theorem readBody?_legible (t : Text) (u : Statement) (read : readBody? ctx t = some u) :
    LegibleBody ctx u :=
  readBodyWithin?_legible read

theorem readConjunction?_legible {separator : Text} (given : separator ≠ [])
    (read : conjunction? separator (readBody? ctx) s = some v) :
    v.kind = .conjunction ∧ Legible ctx v := by
  rw [conjunction?_eq] at read
  obtain ⟨l, r, -, sep, left, right, -, -, first, second, rfl⟩ :=
    exists_cut_of_read (by simpa using given) read
  exact ⟨rfl, .conjunction (readBody?_legible left l first) (readBody?_legible right r second)⟩

theorem isName_termOf? {x : Text} (read : termOf? s = some x) : isName x = true := by
  unfold termOf? at read
  split at read
  · next valid => exact Template.isName_stem valid read
  · cases read

theorem forall_mem_of_mapM {α β : Type} {f : α → Option β} {P : β → Prop}
    (each : ∀ a b, f a = some b → P b) {as : List α} {bs : List β} (read : as.mapM f = some bs) :
    ∀ b ∈ bs, P b := by
  induction as generalizing bs with
  | nil =>
    cases read
    simp
  | cons a as ih =>
    rw [List.mapM_cons] at read
    obtain ⟨b, first, read⟩ := Option.bind_eq_some_iff.mp read
    obtain ⟨bs', others, same⟩ := Option.bind_eq_some_iff.mp read
    cases same
    exact List.forall_mem_cons.mpr ⟨each a b first, ih others⟩

theorem termsOf?_sound {xs : List Text} (read : termsOf? s = some xs) :
    xs ≠ [] ∧ ∀ x ∈ xs, isName x = true := by
  unfold termsOf? at read
  split at read
  · cases read
  · next first rest _ =>
    obtain ⟨x, named, read⟩ := Option.bind_eq_some_iff.mp read
    obtain ⟨ys, others, same⟩ := Option.bind_eq_some_iff.mp read
    cases same
    have each (t y : Text) (found : (Text.stripLeading? " " t).bind termOf? = some y) :
        isName y = true := by
      obtain ⟨u, -, term⟩ := Option.bind_eq_some_iff.mp found
      exact isName_termOf? term
    exact ⟨List.cons_ne_nil _ _,
      List.forall_mem_cons.mpr ⟨isName_termOf? named, forall_mem_of_mapM each others⟩⟩

theorem readSequences?_legible (read : readSequences? s = some v) :
    v.kind = .sequenceDeclaration ∧ Legible ctx v := by
  obtain ⟨t, -, read⟩ := Option.bind_eq_some_iff.mp read
  obtain ⟨xs, terms, same⟩ := Option.bind_eq_some_iff.mp read
  cases same
  obtain ⟨given, valid⟩ := termsOf?_sound terms
  exact ⟨rfl, .sequenceDeclaration given valid⟩

theorem readRealDeclaration?_legible (read : readRealDeclaration? s = some v) :
    v.kind = .realDeclaration ∧ Legible ctx v := by
  unfold readRealDeclaration? at read
  split at read
  · cases read
    exact ⟨rfl, .realDeclaration (by decide)⟩
  · split at read
    · next x found =>
      cases read
      exact ⟨rfl, .realDeclaration ((Template.fits_of_match? found).2 x (by simp))⟩
    · cases read

theorem readNaturalDeclaration?_legible (read : readNaturalDeclaration? s = some v) :
    v.kind = .naturalDeclaration ∧ Legible ctx v := by
  unfold readNaturalDeclaration? at read
  split at read
  · next x found =>
    cases read
    exact ⟨rfl, .naturalDeclaration ((Template.fits_of_match? found).2 x (by simp))⟩
  · cases read

theorem readLimit?_legible (read : readLimit? s = some v) : v.kind = .limit ∧ Legible ctx v := by
  unfold readLimit? at read
  split at read
  · next seq l found =>
    cases read
    have names := (Template.fits_of_match? found).2
    exact ⟨rfl, .limit (names seq (by simp)) (names l (by simp))⟩
  · cases read

theorem readComposedLimit?_legible (read : composedLimit? composedForms s = some v) :
    v.kind = .composedLimit ∧ Legible ctx v := by
  obtain ⟨form, op, a, b, l, m, member, found, rfl⟩ := exists_form_of_composedLimit? read
  have combines : op = .add ∨ op = .mul := by
    have known : op ∈ composedForms.map Prod.snd := List.mem_map_of_mem (f := Prod.snd) member
    simpa [composedForms] using known
  exact ⟨rfl, .composedLimit combines (Template.fits_of_match? found).2⟩

end Natural

open Natural

theorem Kind.legible_of_math? {k : Kind} {ctx : Context} {s : Text} {v : Statement}
    (read : k.math? ctx s = some v) : v.kind = k ∧ Legible ctx v := by
  cases k with
  | identifier =>
    obtain ⟨rfl, valid⟩ := identifier?_eq_some_iff.mp read
    exact ⟨rfl, .identifier valid⟩
  | epsilon =>
    obtain ⟨rfl, -⟩ := readEpsilon?_eq_some_iff.mp read
    exact ⟨rfl, .side (.leaf .epsilon)⟩
  | application =>
    obtain ⟨kind, leaf, -⟩ := readApplication?_eq_some_iff.mp read
    exact ⟨kind, .side (.leaf leaf)⟩
  | arithmetic =>
    obtain ⟨kind, side⟩ := readArithmetic?_legible read
    exact ⟨kind, .side side⟩
  | distance =>
    obtain ⟨kind, side⟩ := readDistance?_legible read
    exact ⟨kind, .side side⟩
  | inequality =>
    obtain ⟨kind, body⟩ := readInequality?_legible read
    exact ⟨kind, .body body⟩
  | conjunction => exact readConjunction?_legible (by decide) read
  | sequenceDeclaration => cases read
  | realDeclaration => exact readRealDeclaration?_legible read
  | naturalDeclaration => exact readNaturalDeclaration?_legible read
  | limit => exact readLimit?_legible read
  | composedLimit => exact readComposedLimit?_legible read
  | forAll =>
    obtain ⟨kind, body⟩ := forAll?_legible readBody?_legible read
    exact ⟨kind, .body body⟩
  | forAllFrom =>
    obtain ⟨kind, body⟩ := forAllFrom?_legible readBody?_legible read
    exact ⟨kind, .body body⟩
  | thereIs => exact thereIs?_legible readBody?_legible read

/-- A statement in natural language is of the kind asked for, and it is legible. -/
theorem Kind.legible_of_natural? {k : Kind} {ctx : Context} {inMath : Bool} {s : Text}
    {v : Statement} (read : k.natural? ctx inMath s = some v) : v.kind = k ∧ Legible ctx v := by
  unfold Kind.natural? at read
  split at read
  · next sequences =>
    subst sequences
    exact readSequences?_legible read
  · obtain ⟨t, -, found⟩ := Option.bind_eq_some_iff.mp read
    exact Kind.legible_of_math? found

end ProofDesk.Limits
