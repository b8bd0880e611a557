import ProofDesk.Proofs.Limits.FormalLevels

namespace ProofDesk.Limits

open Text (isName not_mem_of_all)
open Statement (Body Formed)

namespace Formal

variable {ctx : Context} {s : Text} {v : Statement}

theorem readConjunction?_eq_some_iff : conjunction? " ∧ " (readBody? ctx) s = some v ↔
    ∃ l r, v = .conjunction l r ∧ Body ctx l ∧ Body ctx r ∧ v.formal = s := by
  have signs : ∀ sep ∈ [((" ∧ " : Text), ())], sep.1 = around '∧' := by decide
  have outside : among bodyMarks '∧' = false :=
    among_operator (by decide) (by decide) (by decide)
  have inside (t : Text) (u : Statement) (read : readBody? ctx t = some u) :
      t.all (among bodyMarks) = true := by
    obtain ⟨formed, rfl⟩ := readBody?_eq_some_iff.1 read
    exact formed.all
  rw [conjunction?_eq, read_around_sign_iff (p := among bodyMarks) (by decide) signs
    (fun _ => outside) (fun _ _ _ => rfl) inside]
  constructor
  · rintro ⟨l, r, -, left, right, -, rfl, first, second, rfl⟩
    obtain ⟨formedLeft, rfl⟩ := readBody?_eq_some_iff.1 first
    obtain ⟨formedRight, rfl⟩ := readBody?_eq_some_iff.1 second
    exact ⟨l, r, rfl, formedLeft, formedRight, Statement.formal_conjunction l r⟩
  · rintro ⟨l, r, rfl, left, right, rfl⟩
    exact ⟨l, r, (), l.formal, r.formal, by decide, Statement.formal_conjunction l r,
      readBody?_eq_some_iff.2 ⟨left, rfl⟩, readBody?_eq_some_iff.2 ⟨right, rfl⟩, rfl⟩

theorem spacedNames?_eq_some_iff {xs : List Text} : spacedNames? s = some xs ↔
    xs ≠ [] ∧ (∀ x ∈ xs, isName x = true) ∧ s = Text.joinWith " " xs ++ " " := by
  rw [spacedNames?, Option.bind_eq_bind, Option.bind_eq_some_iff]
  constructor
  · rintro ⟨t, trailing, read⟩
    dsimp only at read
    split at read
    · next names =>
      cases read
      rw [List.all_eq_true] at names
      refine ⟨Text.fields_ne_nil _ t, names, ?_⟩
      rw [Text.stripTrailing?_eq_some_iff.1 trailing]
      exact congrArg (· ++ (" " : Text)) (Text.joinWith_fields ' ' t).symm
    · cases read
  · rintro ⟨given, names, rfl⟩
    refine ⟨Text.joinWith " " xs, Text.stripTrailing?_eq_some_iff.2 rfl, ?_⟩
    have unspaced : ∀ x ∈ xs, ' ' ∉ x := by
      intro x member
      exact not_mem_of_all (Text.isName_iff.1 (names x member)).2 (by decide)
    have cut : Text.fields (· == ' ') (Text.joinWith " " xs) = xs :=
      Text.fields_joinWith given unspaced
    have valid : xs.all isName = true := List.all_eq_true.2 names
    rw [cut]
    exact if_pos valid

theorem readSequences?_eq_some_iff : readSequences? s = some v ↔
    ∃ xs, v = .sequenceDeclaration xs ∧ xs ≠ [] ∧ (∀ x ∈ xs, isName x = true) ∧ v.formal = s := by
  have steps : readSequences? s = some v ↔ ∃ t, Text.stripTrailing? sequencesEnd s = some t ∧
      ∃ xs, spacedNames? t = some xs ∧ Statement.sequenceDeclaration xs = v := by
    simp [readSequences?, Option.bind_eq_some_iff]
  rw [steps]
  constructor
  · rintro ⟨t, trailing, xs, names, rfl⟩
    obtain ⟨given, valid, rfl⟩ := spacedNames?_eq_some_iff.1 names
    exact ⟨xs, rfl, given, valid, (Text.stripTrailing?_eq_some_iff.1 trailing).symm⟩
  · rintro ⟨xs, rfl, given, valid, rfl⟩
    exact ⟨_, Text.stripTrailing?_eq_some_iff.2 rfl, xs,
      spacedNames?_eq_some_iff.2 ⟨given, valid, rfl⟩, rfl⟩

theorem readRealDeclaration?_eq_some_iff : readRealDeclaration? s = some v ↔
    ∃ x, v = .realDeclaration x ∧ isName x = true ∧ v.formal = s := by
  unfold readRealDeclaration?
  constructor
  · intro read
    split at read
    · next x found =>
      obtain ⟨⟨-, names⟩, rfl⟩ := (Template.match?_eq_some_iff (by decide)).1 found
      cases read
      exact ⟨x, rfl, names x (by simp), rfl⟩
    · cases read
  · rintro ⟨x, rfl, valid, rfl⟩
    have fits : realForm.Fits [x] := ⟨rfl, by simp [valid]⟩
    rw [Statement.formal, Template.match?_fill (by decide) fits]

theorem readNaturalDeclaration?_eq_some_iff : readNaturalDeclaration? s = some v ↔
    ∃ x, v = .naturalDeclaration x ∧ isName x = true ∧ v.formal = s := by
  unfold readNaturalDeclaration?
  constructor
  · intro read
    split at read
    · next x found =>
      obtain ⟨⟨-, names⟩, rfl⟩ := (Template.match?_eq_some_iff (by decide)).1 found
      cases read
      exact ⟨x, rfl, names x (by simp), rfl⟩
    · cases read
  · rintro ⟨x, rfl, valid, rfl⟩
    have fits : naturalForm.Fits [x] := ⟨rfl, by simp [valid]⟩
    rw [Statement.formal, Template.match?_fill (by decide) fits]

theorem readLimit?_eq_some_iff : readLimit? s = some v ↔
    ∃ seq l, v = .limit seq l ∧ isName seq = true ∧ isName l = true ∧ v.formal = s := by
  unfold readLimit?
  constructor
  · intro read
    split at read
    · next seq l found =>
      obtain ⟨⟨-, names⟩, rfl⟩ := (Template.match?_eq_some_iff (by decide)).1 found
      cases read
      exact ⟨seq, l, rfl, names seq (by simp), names l (by simp), rfl⟩
    · cases read
  · rintro ⟨seq, l, rfl, valid, validLimit, rfl⟩
    have fits : limitForm.Fits [seq, l] := ⟨rfl, by simp [valid, validLimit]⟩
    rw [Statement.formal, Template.match?_fill (by decide) fits]

theorem guarded_composedForm (op : Operation) : (composedForm op).guarded true = true := by
  cases op <;> decide

theorem sign_eq_of_fill_composedForm {op op' : Operation} {xs ys : List Text}
    (fits : (composedForm op).Fits xs) (fits' : (composedForm op').Fits ys)
    (same : (composedForm op).fill xs = (composedForm op').fill ys) : op = op' := by
  obtain ⟨length, names⟩ := fits
  obtain ⟨length', names'⟩ := fits'
  cases xs with
  | nil => cases length
  | cons x xs =>
    cases ys with
    | nil => cases length'
    | cons y ys =>
      obtain ⟨-, word⟩ := Text.isName_iff.1 (names x (by simp))
      obtain ⟨-, word'⟩ := Text.isName_iff.1 (names' y (by simp))
      simp only [composedForm, Template.fill, List.append_cancel_left_eq] at same
      have behind (op : Operation) (t : Text) :
          (" n" ++ spaced op.formal : Text) ++ t = ' ' :: 'n' :: ' ' :: op.sign :: ' ' :: t := by
        cases op <;> rfl
      rw [behind, behind] at same
      obtain ⟨-, -, rest⟩ :=
        (Text.append_cons_inj_of_all word word' (by decide) (by decide)).1 same
      simp only [List.cons.injEq, true_and] at rest
      exact Operation.sign_inj op op' rest.1

theorem readComposedLimit?_eq_some_iff : composedLimit? composedForms s = some v ↔
    ∃ a b op l m, v = .composedLimit a b op l m ∧ (op = .add ∨ op = .mul) ∧
      (∀ x ∈ [a, b, l, m], isName x = true) ∧ v.formal = s := by
  constructor
  · intro read
    obtain ⟨form, op, a, b, l, m, member, found, rfl⟩ := exists_form_of_composedLimit? read
    have known : form = composedForm op ∧ (op = .add ∨ op = .mul) := by
      simp only [composedForms, List.mem_cons, Prod.mk.injEq, List.not_mem_nil, or_false] at member
      rcases member with ⟨rfl, rfl⟩ | ⟨rfl, rfl⟩ <;> simp
    obtain ⟨rfl, combines⟩ := known
    obtain ⟨⟨-, names⟩, rfl⟩ := (Template.match?_eq_some_iff (guarded_composedForm op)).1 found
    exact ⟨a, b, op, l, m, rfl, combines, names, rfl⟩
  · rintro ⟨a, b, op, l, m, rfl, combines, names, rfl⟩
    have fits (op : Operation) : (composedForm op).Fits [a, b, l, m] := ⟨by cases op <;> rfl, names⟩
    have found := Template.match?_fill (guarded_composedForm op) (fits op)
    rcases combines with rfl | rfl
    · rw [composedLimit?, composedForms, List.findSome?_cons, Statement.formal]
      dsimp only
      rw [found]
    · have other : (composedForm .add).match? ((composedForm .mul).fill [a, b, l, m]) = none := by
        rw [Option.eq_none_iff_forall_ne_some]
        intro ys read
        obtain ⟨fits', same⟩ := (Template.match?_eq_some_iff (guarded_composedForm .add)).1 read
        cases sign_eq_of_fill_composedForm (fits .mul) fits' same
      rw [composedLimit?, composedForms, List.findSome?_cons, Statement.formal]
      dsimp only
      rw [other, List.findSome?_cons]
      dsimp only
      rw [found]

end Formal
open Formal

variable {ctx : Context} {s : Text} {v : Statement}

theorem Kind.formed_of_formal? {k : Kind} (read : k.formal? ctx s = some v) :
    v.kind = k ∧ Formed ctx v ∧ v.formal = s := by
  cases k with
  | identifier =>
    obtain ⟨rfl, valid⟩ := identifier?_eq_some_iff.1 read
    exact ⟨rfl, .identifier valid, rfl⟩
  | epsilon =>
    obtain ⟨rfl, rfl⟩ := readEpsilon?_eq_some_iff.1 read
    exact ⟨rfl, .side (.leaf .epsilon), rfl⟩
  | application =>
    obtain ⟨kind, leaf, written⟩ := readApplication?_eq_some_iff.1 read
    exact ⟨kind, .side (.leaf leaf), written⟩
  | arithmetic =>
    obtain ⟨kind, side, written⟩ := readArithmetic?_eq_some_iff.1 read
    exact ⟨kind, .side side, written⟩
  | distance =>
    obtain ⟨kind, side, written⟩ := readDistance?_eq_some_iff.1 read
    exact ⟨kind, .side side, written⟩
  | inequality =>
    obtain ⟨kind, body, written⟩ := readInequality?_eq_some_iff.1 read
    exact ⟨kind, .body body, written⟩
  | conjunction =>
    obtain ⟨l, r, rfl, left, right, written⟩ := readConjunction?_eq_some_iff.1 read
    exact ⟨rfl, .conjunction left right, written⟩
  | sequenceDeclaration =>
    obtain ⟨xs, rfl, given, valid, written⟩ := readSequences?_eq_some_iff.1 read
    exact ⟨rfl, .sequenceDeclaration given valid, written⟩
  | realDeclaration =>
    obtain ⟨x, rfl, valid, written⟩ := readRealDeclaration?_eq_some_iff.1 read
    exact ⟨rfl, .realDeclaration valid, written⟩
  | naturalDeclaration =>
    obtain ⟨x, rfl, valid, written⟩ := readNaturalDeclaration?_eq_some_iff.1 read
    exact ⟨rfl, .naturalDeclaration valid, written⟩
  | limit =>
    obtain ⟨seq, l, rfl, valid, validLimit, written⟩ := readLimit?_eq_some_iff.1 read
    exact ⟨rfl, .limit valid validLimit, written⟩
  | composedLimit =>
    obtain ⟨a, b, op, l, m, rfl, combines, valid, written⟩ := readComposedLimit?_eq_some_iff.1 read
    exact ⟨rfl, .composedLimit combines valid, written⟩
  | forAll =>
    obtain ⟨kind, body, written⟩ :=
      (forAll?_body_iff fun _ _ _ => readBody?_eq_some_iff).1 read
    exact ⟨kind, .body body, written⟩
  | forAllFrom =>
    obtain ⟨kind, body, written⟩ :=
      (forAllFrom?_body_iff fun _ _ _ => readBody?_eq_some_iff).1 read
    exact ⟨kind, .body body, written⟩
  | thereIs =>
    obtain ⟨x, u, rfl, valid, body, written⟩ :=
      (thereIs?_body_iff fun _ _ _ => readBody?_eq_some_iff).1 read
    exact ⟨rfl, .thereIs valid body, written⟩

theorem Statement.Formed.formal? (formed : Formed ctx v) : v.kind.formal? ctx v.formal = some v := by
  cases formed with
  | identifier valid => exact identifier?_eq_some_iff.2 ⟨rfl, valid⟩
  | side side =>
    cases side with
    | leaf leaf =>
      cases leaf with
      | identifier valid _ => exact identifier?_eq_some_iff.2 ⟨rfl, valid⟩
      | epsilon => exact readEpsilon?_eq_some_iff.2 ⟨rfl, rfl⟩
      | application valid validIndex known =>
        exact readApplication?_eq_some_iff.2 ⟨rfl, .application valid validIndex known, rfl⟩
    | arithmetic op left right =>
      exact readArithmetic?_eq_some_iff.2 ⟨rfl, .arithmetic op left right, rfl⟩
    | distance left right => exact readDistance?_eq_some_iff.2 ⟨rfl, .distance left right, rfl⟩
  | body body =>
    cases body with
    | inequality rel left right =>
      exact readInequality?_eq_some_iff.2 ⟨rfl, .inequality rel left right, rfl⟩
    | forAll valid body =>
      exact (forAll?_body_iff fun _ _ _ => readBody?_eq_some_iff).2
        ⟨rfl, .forAll valid body, rfl⟩
    | forAllFrom valid validBound body =>
      exact (forAllFrom?_body_iff fun _ _ _ => readBody?_eq_some_iff).2
        ⟨rfl, .forAllFrom valid validBound body, rfl⟩
  | conjunction left right =>
    exact readConjunction?_eq_some_iff.2 ⟨_, _, rfl, left, right, rfl⟩
  | sequenceDeclaration given valid =>
    exact readSequences?_eq_some_iff.2 ⟨_, rfl, given, valid, rfl⟩
  | realDeclaration valid => exact readRealDeclaration?_eq_some_iff.2 ⟨_, rfl, valid, rfl⟩
  | naturalDeclaration valid => exact readNaturalDeclaration?_eq_some_iff.2 ⟨_, rfl, valid, rfl⟩
  | limit valid validLimit => exact readLimit?_eq_some_iff.2 ⟨_, _, rfl, valid, validLimit, rfl⟩
  | composedLimit combines valid =>
    exact readComposedLimit?_eq_some_iff.2 ⟨_, _, _, _, _, rfl, combines, valid, rfl⟩
  | thereIs valid body =>
    exact (thereIs?_body_iff fun _ _ _ => readBody?_eq_some_iff).2 ⟨_, _, rfl, valid, body, rfl⟩

theorem Kind.formal?_eq_some_iff {k : Kind} :
    k.formal? ctx s = some v ↔ v.kind = k ∧ Formed ctx v ∧ v.formal = s := by
  constructor
  · exact Kind.formed_of_formal?
  · rintro ⟨rfl, formed, rfl⟩
    exact formed.formal?

/-- Reading formal text as a statement of some kind succeeds exactly if the text is what a formed
statement of that kind is written as.  It gives that statement, and the context after it. -/
theorem Kind.readsFormal_iff_formed (k : Kind) (ctx ctx' : Context) (s : Text) (v : Statement) :
    k.readFormal? ctx s = some (v, ctx') ↔
      v.kind = k ∧ Formed ctx v ∧ v.formal = s ∧ ctx' = ctx.declare v := by
  rw [Kind.readFormal?, Option.map_eq_some_iff]
  constructor
  · rintro ⟨w, read, same⟩
    cases same
    obtain ⟨kind, formed, written⟩ := Kind.formal?_eq_some_iff.1 read
    exact ⟨kind, formed, written, rfl⟩
  · rintro ⟨kind, formed, written, rfl⟩
    exact ⟨v, Kind.formal?_eq_some_iff.2 ⟨kind, formed, written⟩, rfl⟩

end ProofDesk.Limits
