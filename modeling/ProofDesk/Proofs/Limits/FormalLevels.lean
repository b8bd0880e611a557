import Mathlib.Data.List.Basic
import ProofDesk.Proofs.Limits.Formed

/-!
The levels of formal text, from operands to bodies: the reader of each level gives a statement
exactly of the text that the statement is written as.  Several readers are tried at each level; no
text is for two of them, except the letter of the tolerance, which is not read as a name.
-/

namespace ProofDesk.Limits

open Text (isName between?_eq_some_iff not_mem_of_all)
open Statement (Leaf Side Body Formed)

namespace Formal

variable {ctx : Context} {s : Text} {v : Statement}

theorem readEpsilon?_eq_some_iff : readEpsilon? s = some v ↔ v = .epsilon ∧ s = ("ε" : Text) := by
  unfold readEpsilon?
  constructor
  · intro read
    split at read
    · next same =>
      cases read
      exact ⟨rfl, same⟩
    · cases read
  · rintro ⟨rfl, same⟩
    rw [if_pos same]

theorem readApplication?_eq_some_iff :
    readApplication? ctx s = some v ↔ v.kind = .application ∧ Leaf ctx v ∧ v.formal = s := by
  unfold readApplication?
  constructor
  · intro read
    split at read
    · next seq index found =>
      obtain ⟨rfl, known⟩ := application?_eq_some_iff.1 read
      obtain ⟨⟨-, names⟩, rfl⟩ := (Template.match?_eq_some_iff (by decide)).1 found
      obtain ⟨valid, validIndex⟩ : isName seq = true ∧ isName index = true := by
        simpa using names
      exact ⟨rfl, .application valid validIndex known, rfl⟩
    · cases read
  · rintro ⟨kind, leaf, rfl⟩
    cases leaf with
    | identifier _ _ => cases kind
    | epsilon => cases kind
    | @application seq index valid validIndex known =>
      have fits : applicationForm.Fits [seq, index] := ⟨rfl, by simp [valid, validIndex]⟩
      rw [Statement.formal, Template.match?_fill (by decide) fits]
      exact application?_eq_some_iff.2 ⟨rfl, known⟩

theorem readApplication?_eq_none (unspaced : ' ' ∉ s) : readApplication? ctx s = none := by
  rw [Option.eq_none_iff_forall_ne_some]
  intro v read
  obtain ⟨kind, leaf, rfl⟩ := readApplication?_eq_some_iff.1 read
  cases leaf with
  | identifier _ _ => cases kind
  | epsilon => cases kind
  | application _ _ _ =>
    apply unspaced
    simp [Statement.formal_application]

theorem readLeaf?_eq_some_iff : readLeaf? ctx s = some v ↔ Leaf ctx v ∧ v.formal = s := by
  unfold readLeaf?
  constructor
  · intro read
    rcases Option.or_eq_some_iff.1 read with application | ⟨-, read⟩
    · exact (readApplication?_eq_some_iff.1 application).2
    · rcases Option.or_eq_some_iff.1 read with tolerance | ⟨other, identifier⟩
      · obtain ⟨rfl, rfl⟩ := readEpsilon?_eq_some_iff.1 tolerance
        exact ⟨.epsilon, rfl⟩
      · obtain ⟨rfl, valid⟩ := identifier?_eq_some_iff.1 identifier
        refine ⟨.identifier valid ?_, rfl⟩
        rintro rfl
        rw [readEpsilon?_eq_some_iff.2 ⟨rfl, rfl⟩] at other
        cases other
  · rintro ⟨leaf, rfl⟩
    have unspaced {x : Text} (valid : isName x = true) : ' ' ∉ x :=
      not_mem_of_all (Text.isName_iff.1 valid).2 (by decide)
    cases leaf with
    | identifier valid other =>
      rw [Statement.formal, readApplication?_eq_none (unspaced valid), Option.none_or, readEpsilon?,
        if_neg other, Option.none_or]
      exact identifier?_eq_some_iff.2 ⟨rfl, valid⟩
    | epsilon =>
      have name : isName Statement.epsilon.formal = true := isName_epsilon
      rw [readApplication?_eq_none (unspaced name), Option.none_or]
      rfl
    | application valid validIndex known =>
      rw [readApplication?_eq_some_iff.2 ⟨rfl, .application valid validIndex known, rfl⟩]
      rfl

theorem readLeaf?_all (t : Text) (u : Statement) (read : readLeaf? ctx t = some u) :
    t.all (among leafMarks) = true := by
  obtain ⟨leaf, rfl⟩ := readLeaf?_eq_some_iff.1 read
  exact leaf.all

theorem readArithmetic?_eq_some_iff :
    readArithmetic? ctx s = some v ↔ v.kind = .arithmetic ∧ Side ctx v ∧ v.formal = s := by
  have signs : ∀ sep ∈ operations, sep.1 = around sep.2.sign := by decide
  have outside (op : Operation) : among leafMarks op.sign = false := by cases op <;> decide
  rw [readArithmetic?, arithmetic?_eq, read_around_sign_iff (p := among leafMarks) (by decide) signs
    outside Operation.sign_inj readLeaf?_all]
  constructor
  · rintro ⟨l, r, op, left, right, -, rfl, first, second, rfl⟩
    obtain ⟨leftLeaf, rfl⟩ := readLeaf?_eq_some_iff.1 first
    obtain ⟨rightLeaf, rfl⟩ := readLeaf?_eq_some_iff.1 second
    exact ⟨rfl, .arithmetic op leftLeaf rightLeaf, Statement.formal_arithmetic l r op⟩
  · rintro ⟨kind, side, rfl⟩
    cases side with
    | leaf leaf => cases leaf <;> cases kind
    | @arithmetic l r op left right =>
      have known : (around op.sign, op) ∈ operations := by cases op <;> decide
      exact ⟨l, r, op, l.formal, r.formal, known, Statement.formal_arithmetic l r op,
        readLeaf?_eq_some_iff.2 ⟨left, rfl⟩, readLeaf?_eq_some_iff.2 ⟨right, rfl⟩, rfl⟩
    | distance _ _ => cases kind

theorem readArithmetic?_eq_none (plain : s.all (among leafMarks) = true) :
    readArithmetic? ctx s = none := by
  rw [Option.eq_none_iff_forall_ne_some]
  intro v read
  obtain ⟨kind, side, rfl⟩ := readArithmetic?_eq_some_iff.1 read
  cases side with
  | leaf leaf => cases leaf <;> cases kind
  | @arithmetic l r op _ _ =>
    have outside : among leafMarks op.sign = false := by cases op <;> decide
    apply not_mem_of_all plain outside
    rw [Statement.formal_arithmetic]
    simp [around]
  | distance _ _ => cases kind

theorem differenceSides?_eq_some {left right : Text} (read : differenceSides? s = some (left, right)) :
    s = '|' :: (left ++ (around '-' ++ right) ++ ['|']) := by
  obtain ⟨inside, bars, cut⟩ := Option.bind_eq_some_iff.1 read
  rw [between?_eq_some_iff.1 bars, Text.splitFirst?_eq_some cut]
  rfl

theorem differenceSides?_leaves {l r : Statement} (left : Leaf ctx l) (right : Leaf ctx r) :
    differenceSides? (Statement.distance l r).formal = some (l.formal, r.formal) := by
  have bars : Text.between? "|" "|" (Statement.distance l r).formal =
      some (l.formal ++ (around '-' ++ r.formal)) := by
    rw [between?_eq_some_iff, Statement.formal_distance]
    rfl
  have given : (" - " : Text) ≠ [] := by decide
  have found := Text.splitFirst?_isSome given l.formal r.formal
  obtain ⟨⟨left', right'⟩, cut⟩ := Option.isSome_iff_exists.1 found
  have minus : among leafMarks '-' = false := by decide
  have noMinus {u : Statement} (leaf : Leaf ctx u) : '-' ∉ u.formal :=
    not_mem_of_all leaf.all minus
  have before : '-' ∉ l.formal ++ [' '] := by simp [noMinus left]
  have after : '-' ∉ ' ' :: r.formal := by simp [noMinus right]
  have whole : (l.formal ++ [' ']) ++ '-' :: (' ' :: r.formal) =
      (left' ++ [' ']) ++ '-' :: (' ' :: right') := by
    simpa using Text.splitFirst?_eq_some cut
  obtain ⟨sameLeft, -, sameRight⟩ := (List.append_cons_inj_of_notMem before after).1 whole
  obtain rfl := List.append_cancel_right sameLeft
  obtain rfl := (List.cons.inj sameRight).2
  rw [differenceSides?, bars]
  exact cut

theorem readDistance?_eq_some_iff :
    readDistance? ctx s = some v ↔ v.kind = .distance ∧ Side ctx v ∧ v.formal = s := by
  have steps : readDistance? ctx s = some v ↔ ∃ left right, differenceSides? s = some (left, right) ∧
      ∃ l, readLeaf? ctx left = some l ∧ ∃ r, readLeaf? ctx right = some r ∧
        Statement.distance l r = v := by
    simp [readDistance?, Option.bind_eq_some_iff]
  rw [steps]
  constructor
  · rintro ⟨left, right, cut, l, first, r, second, rfl⟩
    obtain ⟨leftLeaf, rfl⟩ := readLeaf?_eq_some_iff.1 first
    obtain ⟨rightLeaf, rfl⟩ := readLeaf?_eq_some_iff.1 second
    refine ⟨rfl, .distance leftLeaf rightLeaf, ?_⟩
    rw [differenceSides?_eq_some cut, Statement.formal_distance]
  · rintro ⟨kind, side, rfl⟩
    cases side with
    | leaf leaf => cases leaf <;> cases kind
    | arithmetic _ _ _ => cases kind
    | @distance l r left right =>
      exact ⟨l.formal, r.formal, differenceSides?_leaves left right, l,
        readLeaf?_eq_some_iff.2 ⟨left, rfl⟩, r, readLeaf?_eq_some_iff.2 ⟨right, rfl⟩, rfl⟩

theorem readDistance?_eq_none (unbarred : '|' ∉ s) : readDistance? ctx s = none := by
  rw [Option.eq_none_iff_forall_ne_some]
  intro v read
  obtain ⟨kind, side, rfl⟩ := readDistance?_eq_some_iff.1 read
  cases side with
  | leaf leaf => cases leaf <;> cases kind
  | arithmetic _ _ _ => cases kind
  | distance _ _ =>
    apply unbarred
    rw [Statement.formal_distance]
    exact List.mem_cons_self

theorem readSide?_eq_some_iff : readSide? ctx s = some v ↔ Side ctx v ∧ v.formal = s := by
  unfold readSide?
  constructor
  · intro read
    rcases Option.or_eq_some_iff.1 read with distance | ⟨-, read⟩
    · exact (readDistance?_eq_some_iff.1 distance).2
    · rcases Option.or_eq_some_iff.1 read with arithmetic | ⟨-, read⟩
      · exact (readArithmetic?_eq_some_iff.1 arithmetic).2
      · obtain ⟨leaf, rfl⟩ := readLeaf?_eq_some_iff.1 read
        exact ⟨.leaf leaf, rfl⟩
  · rintro ⟨side, rfl⟩
    cases side with
    | leaf leaf =>
      have unbarred := not_mem_of_all leaf.all (c := '|') (by decide)
      rw [readDistance?_eq_none unbarred, readArithmetic?_eq_none leaf.all, Option.none_or,
        Option.none_or]
      exact readLeaf?_eq_some_iff.2 ⟨leaf, rfl⟩
    | arithmetic op left right =>
      have unbarred := not_mem_of_all (left.arithmetic_all op right) (c := '|') (by decide)
      rw [readDistance?_eq_none unbarred, Option.none_or,
        readArithmetic?_eq_some_iff.2 ⟨rfl, .arithmetic op left right, rfl⟩]
      rfl
    | distance left right =>
      rw [readDistance?_eq_some_iff.2 ⟨rfl, .distance left right, rfl⟩]
      rfl

theorem readSide?_all (t : Text) (u : Statement) (read : readSide? ctx t = some u) :
    t.all (among sideMarks) = true := by
  obtain ⟨side, rfl⟩ := readSide?_eq_some_iff.1 read
  exact side.all

theorem readInequality?_eq_some_iff :
    readInequality? ctx s = some v ↔ v.kind = .inequality ∧ Body ctx v ∧ v.formal = s := by
  have signs : ∀ sep ∈ relations, sep.1 = around sep.2.sign := by decide
  have outside (rel : Relation) : among sideMarks rel.sign = false := by
    cases rel with
    | lt | gt => decide
    | le | ge => exact among_operator (by decide) (by decide) (by decide)
  rw [readInequality?, inequality?_eq, read_around_sign_iff (p := among sideMarks) (by decide) signs
    outside Relation.sign_inj readSide?_all]
  constructor
  · rintro ⟨l, r, rel, left, right, -, rfl, first, second, rfl⟩
    obtain ⟨leftSide, rfl⟩ := readSide?_eq_some_iff.1 first
    obtain ⟨rightSide, rfl⟩ := readSide?_eq_some_iff.1 second
    exact ⟨rfl, .inequality rel leftSide rightSide, Statement.formal_inequality l r rel⟩
  · rintro ⟨kind, body, rfl⟩
    cases body with
    | @inequality l r rel left right =>
      have known : (around rel.sign, rel) ∈ relations := by cases rel <;> decide
      exact ⟨l, r, rel, l.formal, r.formal, known, Statement.formal_inequality l r rel,
        readSide?_eq_some_iff.2 ⟨left, rfl⟩, readSide?_eq_some_iff.2 ⟨right, rfl⟩, rfl⟩
    | forAll _ _ => cases kind
    | forAllFrom _ _ _ => cases kind

/-- A header and what comes after it, given that shorter texts are read as bodies. -/
theorem underHeader?_body_iff {header : Template} {body : Text → Option Statement} {xs : List Text}
    (sound : header.guarded false = true) (long : ∀ ys, 0 < (header.fill ys).length)
    (reads : ∀ t u, t.length < s.length → (body t = some u ↔ Body ctx u ∧ u.formal = t)) :
    underHeader? header body s = some (xs, v) ↔
      header.Fits xs ∧ Body ctx v ∧ header.fill xs ++ v.formal = s := by
  rw [underHeader?_eq_some_iff]
  constructor
  · rintro ⟨rest, read, line, inside⟩
    obtain ⟨fits, rfl⟩ := (Template.read?_eq_some_iff_of_closed sound).1 read
    have shorter : rest.length < (header.fill xs ++ rest).length := by
      have := long xs
      rw [List.length_append]
      omega
    obtain ⟨formed, rfl⟩ := (reads rest v shorter).1 inside
    exact ⟨fits, formed, rfl⟩
  · rintro ⟨fits, formed, rfl⟩
    have shorter : v.formal.length < (header.fill xs ++ v.formal).length := by
      have := long xs
      rw [List.length_append]
      omega
    exact ⟨v.formal, (Template.read?_eq_some_iff_of_closed sound).2 ⟨fits, rfl⟩, formed.isLine,
      (reads _ v shorter).2 ⟨formed, rfl⟩⟩

section Quantified

variable {body : Text → Option Statement}
  (reads : ∀ t u, t.length < s.length → (body t = some u ↔ Body ctx u ∧ u.formal = t))

include reads

theorem forAll?_body_iff : forAll? forAllHeader body s = some v ↔
    v.kind = .forAll ∧ Body ctx v ∧ v.formal = s := by
  have long (ys : List Text) : 0 < (forAllHeader.fill ys).length := by
    simp [forAllHeader, Template.fill]
  rw [forAll?_eq_some_iff]
  constructor
  · rintro ⟨x, u, rfl, found⟩
    obtain ⟨fits, formed, whole⟩ := (underHeader?_body_iff (by decide) long reads).1 found
    exact ⟨rfl, .forAll (fits.2 x (by simp)) formed, whole⟩
  · rintro ⟨kind, formed, whole⟩
    cases formed with
    | inequality _ _ _ => cases kind
    | @forAll x u valid formed =>
      have fits : forAllHeader.Fits [x] := ⟨rfl, by simp [valid]⟩
      exact ⟨x, u, rfl, (underHeader?_body_iff (by decide) long reads).2 ⟨fits, formed, whole⟩⟩
    | forAllFrom _ _ _ => cases kind

theorem forAllFrom?_body_iff : forAllFrom? forAllFromHeader body s = some v ↔
    v.kind = .forAllFrom ∧ Body ctx v ∧ v.formal = s := by
  have long (ys : List Text) : 0 < (forAllFromHeader.fill ys).length := by
    simp [forAllFromHeader, Template.fill]
  rw [forAllFrom?_eq_some_iff]
  constructor
  · rintro ⟨var, bound, u, rfl, found⟩
    obtain ⟨fits, formed, whole⟩ := (underHeader?_body_iff (by decide) long reads).1 found
    exact ⟨rfl, .forAllFrom (fits.2 var (by simp)) (fits.2 bound (by simp)) formed, whole⟩
  · rintro ⟨kind, formed, whole⟩
    cases formed with
    | inequality _ _ _ => cases kind
    | forAll _ _ => cases kind
    | @forAllFrom var bound u valid validBound formed =>
      have fits : forAllFromHeader.Fits [var, bound] := ⟨rfl, by simp [valid, validBound]⟩
      exact ⟨var, bound, u, rfl,
        (underHeader?_body_iff (by decide) long reads).2 ⟨fits, formed, whole⟩⟩

theorem thereIs?_body_iff : thereIs? thereIsHeader body s = some v ↔
    ∃ x u, v = .thereIs x u ∧ isName x = true ∧ Body ctx u ∧ v.formal = s := by
  have long (ys : List Text) : 0 < (thereIsHeader.fill ys).length := by
    simp [thereIsHeader, Template.fill]
  rw [thereIs?_eq_some_iff]
  constructor
  · rintro ⟨x, u, rfl, found⟩
    obtain ⟨fits, formed, whole⟩ := (underHeader?_body_iff (by decide) long reads).1 found
    exact ⟨x, u, rfl, fits.2 x (by simp), formed, whole⟩
  · rintro ⟨x, u, rfl, valid, formed, whole⟩
    have fits : thereIsHeader.Fits [x] := ⟨rfl, by simp [valid]⟩
    exact ⟨x, u, rfl, (underHeader?_body_iff (by decide) long reads).2 ⟨fits, formed, whole⟩⟩

end Quantified

theorem quantifier_mem_iff {v : Statement} (formed : Body ctx v) :
    '∀' ∈ v.formal ↔ v.kind ≠ .inequality := by
  cases formed with
  | inequality rel left right =>
    have outside : among inequalityMarks '∀' = false :=
      among_operator (by decide) (by decide) (by decide)
    have absent := not_mem_of_all (left.inequality_all rel right) outside
    simp [absent, Statement.kind]
  | forAll _ _ => simp [Statement.formal_forAll, Statement.kind]
  | forAllFrom _ _ _ => simp [Statement.formal_forAllFrom, Statement.kind]

theorem forAll_formal_ne {x y bound : Text} {u w : Statement} (valid : isName x = true)
    (valid' : isName y = true) :
    (Statement.forAll x u).formal ≠ (Statement.forAllFrom y bound w).formal := by
  intro same
  obtain ⟨-, word⟩ := Text.isName_iff.1 valid
  obtain ⟨-, word'⟩ := Text.isName_iff.1 valid'
  have behind : x ++ ',' :: (' ' :: u.formal) =
      y ++ ' ' :: ('≥' :: ' ' :: (bound ++ (", " ++ w.formal))) := by
    simpa [Statement.formal_forAll, Statement.formal_forAllFrom] using same
  obtain ⟨-, sign, -⟩ := (Text.append_cons_inj_of_all word word' (by decide) (by decide)).1 behind
  cases sign

theorem kind_eq_of_body {v w : Statement} (first : Body ctx v) (second : Body ctx w)
    (same : v.formal = w.formal) : v.kind = w.kind := by
  have quantified : v.kind ≠ .inequality ↔ w.kind ≠ .inequality := by
    rw [← quantifier_mem_iff first, ← quantifier_mem_iff second, same]
  cases first with
  | inequality _ _ _ =>
    cases second with
    | inequality _ _ _ => rfl
    | forAll _ _ => simp [Statement.kind] at quantified
    | forAllFrom _ _ _ => simp [Statement.kind] at quantified
  | forAll valid _ =>
    cases second with
    | inequality _ _ _ => simp [Statement.kind] at quantified
    | forAll _ _ => rfl
    | forAllFrom valid' _ _ => exact absurd same (forAll_formal_ne valid valid')
  | forAllFrom valid _ _ =>
    cases second with
    | inequality _ _ _ => simp [Statement.kind] at quantified
    | forAll valid' _ => exact absurd same.symm (forAll_formal_ne valid' valid)
    | forAllFrom _ _ _ => rfl

theorem kind_of_body {v : Statement} (formed : Body ctx v) :
    v.kind = .forAllFrom ∨ v.kind = .forAll ∨ v.kind = .inequality := by
  cases formed with
  | inequality _ _ _ => exact Or.inr (Or.inr rfl)
  | forAll _ _ => exact Or.inr (Or.inl rfl)
  | forAllFrom _ _ _ => exact Or.inl rfl

theorem or_eq_some_iff_of_kind {P : Statement → Prop} {k : Kind} {o o' : Option Statement}
    (unique : ∀ v w, P v → P w → v.kind = w.kind)
    (first : ∀ v, o = some v ↔ v.kind = k ∧ P v) (second : ∀ v, o' = some v → P v) :
    o.or o' = some v ↔ (v.kind = k ∧ P v) ∨ o' = some v := by
  rw [Option.or_eq_some_iff, first]
  constructor
  · rintro (found | ⟨-, found⟩)
    · exact Or.inl found
    · exact Or.inr found
  · rintro (found | found)
    · exact Or.inl found
    · by_cases kind : v.kind = k
      · exact Or.inl ⟨kind, second v found⟩
      · refine Or.inr ⟨?_, found⟩
        rw [Option.eq_none_iff_forall_ne_some]
        intro w other
        obtain ⟨same, formed⟩ := (first w).1 other
        exact kind ((unique v w (second v found) formed).trans same)

theorem readBodyWithin?_eq_some_iff {n : Nat} (enough : s.length ≤ n) :
    readBodyWithin? ctx n s = some v ↔ Body ctx v ∧ v.formal = s := by
  induction n generalizing s v with
  | zero =>
    constructor
    · intro read
      cases read
    · rintro ⟨formed, rfl⟩
      obtain ⟨given, -⟩ := isLine_iff.1 formed.isLine
      exact absurd (List.length_eq_zero_iff.1 (by omega)) given
  | succ n ih =>
    have reads : ∀ t u, t.length < s.length →
        (readBodyWithin? ctx n t = some u ↔ Body ctx u ∧ u.formal = t) := by
      intro t u shorter
      exact ih (by omega)
    have unique : ∀ v w, Body ctx v ∧ v.formal = s → Body ctx w ∧ w.formal = s →
        v.kind = w.kind := by
      rintro v w ⟨first, rfl⟩ ⟨second, same⟩
      exact kind_eq_of_body first second same.symm
    have last (v : Statement) :
        (forAll? forAllHeader (readBodyWithin? ctx n) s).or (readInequality? ctx s) = some v ↔
          (v.kind = .forAll ∧ Body ctx v ∧ v.formal = s) ∨
            v.kind = .inequality ∧ Body ctx v ∧ v.formal = s := by
      rw [or_eq_some_iff_of_kind unique fun v => forAll?_body_iff reads,
        readInequality?_eq_some_iff]
      intro v read
      exact (readInequality?_eq_some_iff.1 read).2
    rw [readBodyWithin?, or_eq_some_iff_of_kind unique fun v => forAllFrom?_body_iff reads, last]
    · constructor
      · rintro (found | found | found) <;> exact found.2
      · intro formed
        rcases kind_of_body formed.1 with kind | kind | kind
        · exact Or.inl ⟨kind, formed⟩
        · exact Or.inr (Or.inl ⟨kind, formed⟩)
        · exact Or.inr (Or.inr ⟨kind, formed⟩)
    · intro v read
      rcases (last v).1 read with found | found <;> exact found.2

theorem readBody?_eq_some_iff : readBody? ctx s = some v ↔ Body ctx v ∧ v.formal = s :=
  readBodyWithin?_eq_some_iff (Nat.le_refl _)

end Formal
end ProofDesk.Limits
