import ProofDesk.Proofs.Limits.NaturalLevels

namespace ProofDesk.Limits

open Text (isName isName_iff isWord setOff pieces not_mem_of_all)
open Statement (LegibleLeaf LegibleSide LegibleBody Legible)

namespace Natural

variable {ctx : Context} {gap : Text} {v l r : Statement}

def conjunctionWords : List (Text × Unit) := [("\\wedge", ())]

theorem readConjunction?_mathWith (either : gap = [] ∨ gap = [' ']) (left : LegibleBody ctx l)
    (right : LegibleBody ctx r) :
    conjunction? " \\wedge " (readBody? ctx) ((Statement.conjunction l r).mathWith gap) =
      some (.conjunction l r) := by
  have seps : [((" \\wedge " : Text), ())] =
      conjunctionWords.map fun sep => (setOff sep.1, sep.2) := rfl
  have known : (("\\wedge" : Text), ()) ∈ conjunctionWords := List.mem_cons_self
  rw [Statement.mathWith_conjunction, conjunction?_eq, seps, Text.findSome?_splits_setOff known
    (fun _ _ => rfl) (by decide) (left.without either) (right.without either)]
  exact readAround_eq_some_iff.mpr
    ⟨l, r, readBody?_mathWith either left, readBody?_mathWith either right, rfl⟩

theorem thereIs?_mathWith {x : Text} (either : gap = [] ∨ gap = [' ']) (valid : isName x = true)
    (body : LegibleBody ctx v) :
    thereIs? thereIsHeader (readBody? ctx) ((Statement.thereIs x v).mathWith gap) =
      some (.thereIs x v) :=
  thereIs?_eq_some_iff.mpr ⟨x, v, rfl, underHeader?_fill (by decide) (fits_one rfl valid)
    (Statement.isLine_of_tidy (body.tidy either)) (readBody?_mathWith either body)⟩

theorem termOf?_indexed {x : Text} (valid : isName x = true) :
    termOf? (x ++ indexSuffix) = some x := by
  rw [termOf?, if_pos (Template.isName_indexed valid)]
  exact Template.stem?_eq_some_iff.mpr ⟨rfl, (isName_iff.mp valid).1⟩

theorem joinWith_comma (t : Text) (ts : List Text) :
    Text.joinWith ", " (t :: ts) = Text.joinWith [','] (t :: ts.map fun u => ' ' :: u) := by
  have spaces (t : Text) (ts : List Text) :
      Text.joinWith [','] ((' ' :: t) :: ts) = ' ' :: Text.joinWith [','] (t :: ts) := by
    cases ts <;> simp [Text.joinWith]
  induction ts generalizing t with
  | nil => simp [Text.joinWith]
  | cons u ts ih =>
    have first : Text.joinWith ", " (t :: u :: ts) = t ++ ", " ++ Text.joinWith ", " (u :: ts) :=
      List.intercalate_cons_cons
    have second (us : List Text) :
        Text.joinWith [','] (t :: (' ' :: u) :: us) =
          t ++ [','] ++ ' ' :: Text.joinWith [','] (u :: us) := by
      rw [← spaces]
      exact List.intercalate_cons_cons
    rw [first, ih, List.map_cons, second, List.append_assoc, List.append_assoc]
    rfl

theorem mapM_termOf? {xs : List Text} (valid : ∀ x ∈ xs, isName x = true) :
    (xs.map fun x => ' ' :: (x ++ indexSuffix)).mapM
      (fun s => (Text.stripLeading? " " s).bind termOf?) = some xs := by
  induction xs with
  | nil => rfl
  | cons x xs ih =>
    obtain ⟨validFirst, validRest⟩ := List.forall_mem_cons.mp valid
    have first : (Text.stripLeading? " " (' ' :: (x ++ indexSuffix))).bind termOf? = some x :=
      termOf?_indexed validFirst
    rw [List.map_cons, List.mapM_cons, first, ih validRest]
    rfl

theorem not_mem_of_isName {x : Text} {c : Char} (valid : isName x = true) (other : isWord c = false) :
    c ∉ x := not_mem_of_all (isName_iff.mp valid).2 other

theorem termsOf?_sequenceTerms {xs : List Text} (given : xs ≠ []) (valid : ∀ x ∈ xs, isName x = true) :
    termsOf? (sequenceTerms xs) = some xs := by
  obtain ⟨x, rest, rfl⟩ := List.exists_cons_of_ne_nil given
  obtain ⟨validFirst, validRest⟩ := List.forall_mem_cons.mp valid
  have noComma {y : Text} (validName : isName y = true) : ',' ∉ y ++ indexSuffix :=
    not_mem_of_isName (Template.isName_indexed validName) (by decide)
  have cut : Text.fields (· == ',') (sequenceTerms (x :: rest)) =
      (x ++ indexSuffix) :: rest.map fun y => ' ' :: (y ++ indexSuffix) := by
    rw [sequenceTerms, List.map_cons, joinWith_comma, List.map_map]
    apply Text.fields_joinWith (List.cons_ne_nil _ _)
    intro t member
    rcases List.mem_cons.mp member with rfl | member
    · exact noComma validFirst
    · obtain ⟨y, listed, rfl⟩ := List.mem_map.mp member
      simpa using noComma (validRest y listed)
  rw [termsOf?, cut]
  dsimp only
  rw [termOf?_indexed validFirst, mapM_termOf? validRest]
  rfl

theorem readSequences?_natural {xs : List Text} (given : xs ≠ []) (valid : ∀ x ∈ xs, isName x = true) :
    readSequences? ((Statement.sequenceDeclaration xs).natural false) =
      some (.sequenceDeclaration xs) := by
  have shape : (Statement.sequenceDeclaration xs).natural false =
      "$" ++ (sequenceTerms xs ++ ("$" ++ sequencesEnd)) := by
    have written : (Statement.sequenceDeclaration xs).natural false =
      (("$" ++ sequenceTerms xs) ++ "$") ++ sequencesEnd := rfl
    simp only [written, List.append_assoc]
  have inside := Text.between?_eq_some_iff.mpr shape
  rw [readSequences?, inside, Option.bind_eq_bind, Option.bind_some,
    termsOf?_sequenceTerms given valid]
  rfl

theorem readRealDeclaration?_math {x : Text} (valid : isName x = true) :
    readRealDeclaration? (nameMath x ++ realEnd) = some (.realDeclaration x) := by
  unfold readRealDeclaration? nameMath
  by_cases tolerance : x = epsilonName
  · rw [if_pos tolerance, if_pos rfl, tolerance]
  · have other : x ++ realEnd ≠ epsilonMath ++ realEnd := by
      intro same
      rw [List.append_cancel_right same, isName_epsilonMath] at valid
      cases valid
    have found : realForm.match? (x ++ realEnd) = some [x] :=
      (Template.match?_eq_some_iff (by decide)).mpr
        ⟨fits_one rfl valid, by simp [realForm, Template.fill]⟩
    rw [if_neg tolerance, if_neg other, found]

theorem readNaturalDeclaration?_math {x : Text} (valid : isName x = true) :
    readNaturalDeclaration? (naturalForm.fill [x]) = some (.naturalDeclaration x) := by
  rw [readNaturalDeclaration?, Template.match?_fill (by decide) (fits_one rfl valid)]

theorem readLimit?_math {seq l : Text} (valid : isName seq = true) (validLimit : isName l = true) :
    readLimit? (limitForm.fill [seq, l]) = some (.limit seq l) := by
  rw [readLimit?, Template.match?_fill (by decide) ⟨rfl, by simp [valid, validLimit]⟩]

theorem guarded_composedForm (either : gap = [] ∨ gap = [' ']) (op : Operation) :
    (composedForm gap op).guarded true = true := by
  rcases either with rfl | rfl <;> cases op <;> decide

theorem fill_composedForm (gap : Text) (op : Operation) (a b l m : Text) :
    (composedForm gap op).fill [a, b, l, m] = ("\\left(" ++ (a ++ indexSuffix)) ++
      (setOff op.math ++ ((b ++ indexSuffix ++ (gap ++ "\\right)")) ++
        (setOff "\\rightarrow" ++ (l ++ (setOff op.math ++ m))))) := by
  have filled : (composedForm gap op).fill [a, b, l, m] = ("\\left(" : Text) ++ ((a ++ indexSuffix) ++
    (setOff op.math ++ ((b ++ indexSuffix) ++ ((gap ++ (("\\right)" : Text) ++
      setOff "\\rightarrow")) ++ (l ++ (setOff op.math ++ (m ++ []))))))) := rfl
  simp only [filled, List.append_assoc, List.append_nil]

theorem pieces_composedForm {op : Operation} {a b l m : Text}
    (valid : ∀ x ∈ [a, b, l, m], isName x = true) :
    pieces ((composedForm gap op).fill [a, b, l, m]) = ("\\left(" ++ (a ++ indexSuffix)) :: op.math ::
      (pieces (b ++ indexSuffix ++ (gap ++ "\\right)")) ++
        ("\\rightarrow" : Text) :: l :: op.math :: [m]) := by
  have unspaced (x : Text) (member : x ∈ [a, b, l, m]) : ' ' ∉ x :=
    not_mem_of_isName (valid x member) (by decide)
  have first : ' ' ∉ ("\\left(" : Text) ++ (a ++ indexSuffix) := by
    have suffix : ' ' ∉ indexSuffix := by decide
    have command : ' ' ∉ ("\\left(" : Text) := by decide
    simp only [List.mem_append, suffix, command, unspaced a (by simp), or_self, not_false_eq_true]
  have sign : ' ' ∉ op.math := by cases op <;> decide
  rw [fill_composedForm, Text.pieces_setOff sign, Text.pieces_setOff (by decide),
    Text.pieces_setOff sign,
    Text.pieces_of_not_mem first, Text.pieces_of_not_mem (unspaced l (by simp)),
    Text.pieces_of_not_mem (unspaced m (by simp))]
  rfl

theorem pieces_term {b : Text} (valid : isName b = true) :
    pieces (b ++ indexSuffix ++ (([] : Text) ++ "\\right)")) = [b ++ indexSuffix ++ "\\right)"] ∧
      pieces (b ++ indexSuffix ++ ([' '] ++ "\\right)")) = [b ++ indexSuffix, "\\right)"] := by
  have unspaced : ' ' ∉ b ++ indexSuffix :=
    not_mem_of_isName (Template.isName_indexed valid) (by decide)
  have closing : ' ' ∉ ("\\right)" : Text) := by decide
  constructor
  · apply Text.pieces_of_not_mem
    rw [List.nil_append, List.mem_append, not_or]
    exact ⟨unspaced, closing⟩
  · rw [List.singleton_append, Text.pieces_append, Text.pieces_of_not_mem unspaced,
      Text.pieces_of_not_mem closing]
    rfl

theorem fill_composedForm_inj {gap' : Text} {op op' : Operation} {a b l m a' b' l' m' : Text}
    (either : gap = [] ∨ gap = [' ']) (either' : gap' = [] ∨ gap' = [' '])
    (valid : ∀ x ∈ [a, b, l, m], isName x = true) (valid' : ∀ x ∈ [a', b', l', m'], isName x = true)
    (same : (composedForm gap op).fill [a, b, l, m] = (composedForm gap' op').fill [a', b', l', m']) :
    op = op' ∧ a = a' ∧ b = b' ∧ l = l' ∧ m = m' := by
  have words := congrArg pieces same
  rw [pieces_composedForm valid, pieces_composedForm valid'] at words
  obtain ⟨tight, wide⟩ := pieces_term (valid b (by simp))
  obtain ⟨tight', wide'⟩ := pieces_term (valid' b' (by simp))
  have signs (sameSign : op.math = op'.math) : op = op' := by
    revert sameSign
    cases op <;> cases op' <;> decide
  rcases either with rfl | rfl <;> rcases either' with rfl | rfl
  · rw [tight, tight'] at words
    simp only [List.singleton_append, List.cons.injEq, List.append_cancel_left_eq,
      List.append_cancel_right_eq, and_true] at words
    obtain ⟨first, sign, second, -, third, -, fourth⟩ := words
    exact ⟨signs sign, first, second, third, fourth⟩
  · rw [tight, wide'] at words
    simp at words
  · rw [wide, tight'] at words
    simp at words
  · rw [wide, wide'] at words
    simp only [List.cons_append, List.nil_append, List.cons.injEq, List.append_cancel_left_eq,
      List.append_cancel_right_eq, and_true] at words
    obtain ⟨first, sign, second, -, -, third, -, fourth⟩ := words
    exact ⟨signs sign, first, second, third, fourth⟩

theorem mem_composedForms_iff {form : Template} {op : Operation} : (form, op) ∈ composedForms ↔
    (op = .add ∨ op = .mul) ∧ ∃ gap, (gap = [] ∨ gap = [' ']) ∧ form = composedForm gap op := by
  have spaces : (" " : Text) = [' '] := rfl
  constructor
  · intro member
    simp only [composedForms, spaces, List.mem_cons, Prod.mk.injEq, List.not_mem_nil, or_false]
      at member
    rcases member with ⟨rfl, rfl⟩ | ⟨rfl, rfl⟩ | ⟨rfl, rfl⟩ | ⟨rfl, rfl⟩
    · exact ⟨Or.inl rfl, [], Or.inl rfl, rfl⟩
    · exact ⟨Or.inl rfl, [' '], Or.inr rfl, rfl⟩
    · exact ⟨Or.inr rfl, [], Or.inl rfl, rfl⟩
    · exact ⟨Or.inr rfl, [' '], Or.inr rfl, rfl⟩
  · rintro ⟨rfl | rfl, gap, rfl | rfl, rfl⟩ <;> simp [composedForms, spaces]

theorem composedLimit?_fill {op : Operation} {a b l m : Text} (either : gap = [] ∨ gap = [' '])
    (combines : op = .add ∨ op = .mul) (valid : ∀ x ∈ [a, b, l, m], isName x = true) :
    composedLimit? composedForms ((composedForm gap op).fill [a, b, l, m]) =
      some (.composedLimit a b op l m) := by
  have found : (composedForm gap op).match? ((composedForm gap op).fill [a, b, l, m]) =
      some [a, b, l, m] := Template.match?_fill (guarded_composedForm either op) ⟨rfl, valid⟩
  rw [composedLimit?, Text.findSome?_eq_some_iff_of_unique]
  · refine ⟨(composedForm gap op, op), mem_composedForms_iff.mpr ⟨combines, gap, either, rfl⟩, ?_⟩
    dsimp only
    rw [found]
  · -- whatever another form reads, it was filled with the same names
    rintro _ _ _ ⟨form, op'⟩ member v' read
    obtain ⟨-, gap', either', rfl⟩ := mem_composedForms_iff.mp member
    dsimp only at read
    split at read
    · next a' b' l' m' names =>
      obtain ⟨⟨-, valid'⟩, same⟩ :=
        (Template.match?_eq_some_iff (guarded_composedForm either' op')).mp names
      obtain ⟨rfl, rfl, rfl, rfl, rfl⟩ := fill_composedForm_inj either either' valid valid' same
      exact (Option.some.inj read).symm
    · cases read

end Natural

namespace Statement

variable {ctx : Context} {gap : Text} {v : Statement}

/-! Mathematical text has no dollar sign. -/

theorem LegibleLeaf.dollar_not_mem (leaf : LegibleLeaf ctx v) (gap : Text) :
    '$' ∉ v.mathWith gap := by
  rw [leaf.mathWith_eq gap]
  exact not_mem_of_all leaf.all (by decide)

theorem LegibleSide.dollar_not_mem (either : gap = [] ∨ gap = [' ']) (side : LegibleSide ctx v) :
    '$' ∉ v.mathWith gap := by
  cases side with
  | leaf leaf => exact leaf.dollar_not_mem gap
  | arithmetic op left right =>
    have sign : '$' ∉ setOff op.math := by cases op <;> decide
    rw [mathWith_arithmetic]
    simp [left.dollar_not_mem gap, sign, right.dollar_not_mem gap]
  | distance left right =>
    have bars : '$' ∉ Natural.leftBar gap ∧ '$' ∉ Natural.rightBar gap := by
      rcases either with rfl | rfl <;> decide
    have sign : '$' ∉ setOff ['-'] := by decide
    rw [mathWith_distance]
    simp [left.dollar_not_mem gap, bars, sign, right.dollar_not_mem gap]

theorem LegibleBody.dollar_not_mem (either : gap = [] ∨ gap = [' ']) (body : LegibleBody ctx v) :
    '$' ∉ v.mathWith gap := by
  have name {x : Text} (valid : isName x = true) : '$' ∉ x :=
    Natural.not_mem_of_isName valid (by decide)
  induction body with
  | inequality rel left right =>
    have sign : '$' ∉ setOff rel.math := by cases rel <;> decide
    rw [mathWith_inequality]
    simp [left.dollar_not_mem either, sign, right.dollar_not_mem either]
  | forAll valid _ ih =>
    rw [mathWith_forAll]
    simp [name valid, ih]
  | forAllFrom valid validBound _ ih =>
    rw [mathWith_forAllFrom]
    simp [name valid, name validBound, ih]

theorem Legible.dollar_not_mem (either : gap = [] ∨ gap = [' ']) (legible : Legible ctx v)
    (other : v.kind ≠ .sequenceDeclaration) : '$' ∉ v.mathWith gap := by
  have name {x : Text} (valid : isName x = true) : '$' ∉ x :=
    Natural.not_mem_of_isName valid (by decide)
  cases legible with
  | identifier valid => exact name valid
  | side side => exact side.dollar_not_mem either
  | body body => exact body.dollar_not_mem either
  | conjunction left right =>
    rw [mathWith_conjunction]
    simp [left.dollar_not_mem either, setOff, right.dollar_not_mem either]
  | sequenceDeclaration _ _ => exact absurd rfl other
  | @realDeclaration x valid =>
    have shown : '$' ∉ Natural.nameMath x := by
      unfold Natural.nameMath
      split
      · decide
      · exact name valid
    have shape : (Statement.realDeclaration x).mathWith gap =
      Natural.nameMath x ++ Natural.realEnd := rfl
    have ending : '$' ∉ Natural.realEnd := by decide
    simp [shape, shown, ending]
  | @naturalDeclaration x valid =>
    have shape : (Statement.naturalDeclaration x).mathWith gap = Natural.naturalForm.fill [x] := rfl
    simp [shape, Natural.naturalForm, Template.fill, name valid]
  | @limit seq l valid validLimit =>
    have shape : (Statement.limit seq l).mathWith gap = Natural.limitForm.fill [seq, l] := rfl
    simp [shape, Natural.limitForm, Template.fill, indexSuffix, name valid, name validLimit]
  | @composedLimit a b l m op _ valid =>
    have shape : (Statement.composedLimit a b op l m).mathWith gap =
      (Natural.composedForm gap op).fill [a, b, l, m] := rfl
    have sign : '$' ∉ Natural.spaced op.math := by cases op <;> decide
    have none' : '$' ∉ gap := by rcases either with rfl | rfl <;> decide
    simp [shape, Natural.composedForm, Template.fill, indexSuffix, sign, none',
      name (valid a (by simp)), name (valid b (by simp)), name (valid l (by simp)), name (valid m (by simp))]
  | thereIs valid body =>
    rw [mathWith_thereIs]
    simp [name valid, body.dollar_not_mem either]

/-- A statement in natural language with gaps in its mathematical text. -/
def naturalWith (gap : Text) : Statement → Text
  | sequenceDeclaration xs => (sequenceDeclaration xs).natural false
  | v => Natural.enclose false (v.mathWith gap)

theorem naturalWith_eq (gap : Text) (other : v.kind ≠ .sequenceDeclaration) :
    v.naturalWith gap = "$" ++ (v.mathWith gap ++ "$") := by
  have enclosed : v.naturalWith gap = ("$" ++ v.mathWith gap) ++ "$" := by
    cases v with
    | sequenceDeclaration xs => exact absurd rfl other
    | _ => rfl
  rw [enclosed, List.append_assoc]

theorem naturalWith_nil (v : Statement) : v.naturalWith [] = v.natural false := by
  have enclosed := congrArg (Natural.enclose false) (mathWith_nil v)
  cases v with
  | sequenceDeclaration xs => rfl
  | _ => exact enclosed

end Statement

open Natural

variable {ctx : Context} {gap : Text} {v : Statement}

theorem Statement.Legible.math? (either : gap = [] ∨ gap = [' ']) (legible : Legible ctx v)
    (other : v.kind ≠ .sequenceDeclaration) : v.kind.math? ctx (v.mathWith gap) = some v := by
  have blank := all_isBlank either
  cases legible with
  | identifier valid => exact identifier?_eq_some_iff.mpr ⟨rfl, valid⟩
  | side side =>
    cases side with
    | leaf leaf =>
      rw [leaf.mathWith_eq gap]
      cases leaf with
      | application valid validIndex known last =>
        exact readApplication?_eq_some_iff.mpr
          ⟨rfl, .application valid validIndex known last, rfl⟩
      | epsilon => rfl
      | identifier valid _ => exact identifier?_eq_some_iff.mpr ⟨rfl, valid⟩
    | arithmetic op left right => exact readArithmetic?_mathWith op left right
    | distance left right => exact readDistance?_mathWith blank left right
  | body body =>
    cases body with
    | inequality rel left right => exact readInequality?_mathWith either rel left right
    | @forAll x u valid body =>
      exact forAll?_eq_some_iff.mpr ⟨x, u, rfl, underHeader?_fill (by decide) (fits_one rfl valid)
        (isLine_of_tidy (body.tidy either)) (readBody?_mathWith either body)⟩
    | @forAllFrom var bound u valid validBound body =>
      have fits : forAllFromHeader.Fits [var, bound] := ⟨rfl, by simp [valid, validBound]⟩
      exact forAllFrom?_eq_some_iff.mpr ⟨var, bound, u, rfl, underHeader?_fill (by decide) fits
        (isLine_of_tidy (body.tidy either)) (readBody?_mathWith either body)⟩
  | conjunction left right => exact readConjunction?_mathWith either left right
  | sequenceDeclaration _ _ => exact absurd rfl other
  | realDeclaration valid => exact readRealDeclaration?_math valid
  | naturalDeclaration valid => exact readNaturalDeclaration?_math valid
  | limit valid validLimit => exact readLimit?_math valid validLimit
  | composedLimit combines valid => exact composedLimit?_fill either combines valid
  | thereIs valid body => exact thereIs?_mathWith either valid body

theorem Statement.Legible.natural?_eq (either : gap = [] ∨ gap = [' ']) (legible : Legible ctx v)
    (other : v.kind ≠ .sequenceDeclaration) (k : Kind) (math : k ≠ .sequenceDeclaration) :
    k.natural? ctx false (v.naturalWith gap) = k.math? ctx (v.mathWith gap) := by
  have inside : inside? false (v.naturalWith gap) = some (v.mathWith gap) := by
    have between := Text.between?_eq_some_iff.mpr (v.naturalWith_eq gap other)
    have absent := legible.dollar_not_mem either other
    rw [inside?, if_neg (by decide), between]
    simpa using absent
  rw [Kind.natural?, if_neg math, inside, Option.bind_some]

theorem Statement.Legible.natural? (either : gap = [] ∨ gap = [' ']) (legible : Legible ctx v) :
    v.kind.natural? ctx false (v.naturalWith gap) = some v := by
  by_cases sequences : v.kind = .sequenceDeclaration
  · cases v with
    | sequenceDeclaration xs =>
      cases legible with
      | side side =>
        cases side with
        | leaf leaf => cases leaf
      | body body => cases body
      | sequenceDeclaration given valid => exact readSequences?_natural given valid
    | _ => cases sequences
  · rw [legible.natural?_eq either sequences _ sequences]
    exact legible.math? either sequences

end ProofDesk.Limits
