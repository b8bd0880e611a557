import ProofDesk.Proofs.Limits.FormalInverse
import ProofDesk.Proofs.Text.Marks

namespace ProofDesk.Limits

open Text (isName isName_iff not_mem_of_all spelled)
open Statement (Leaf Side Body Formed)

namespace Formal

def single (signs : Text) : List Text := signs.map fun c => [c]

theorem spelled_single {marks s : Text} (inside : s.all (among marks) = true) :
    spelled (single marks) s = true := by
  apply Text.spelled_of_mem inside
  intro c known
  simpa [among, single] using known

end Formal
open Formal

namespace Statement

theorem arrow_mem (xs : List Text) : '→' ∈ (sequenceDeclaration xs).formal :=
  List.mem_append_right _ (by decide)

theorem limit_all {seq l : Text} (valid : isName seq = true) (validLimit : isName l = true) :
    (limit seq l).formal.all (among leafMarks) = true := by
  have first := all_among_of_isName leafMarks valid
  have second := all_among_of_isName leafMarks validLimit
  have start : ("is_limit " : Text).all (among leafMarks) = true := by decide
  have space : (" " : Text).all (among leafMarks) = true := by decide
  simp only [formal, Formal.limitForm, Template.fill, List.all_append, first, second, start, space]
  rfl

def composedMarks : Text := arithmeticMarks ++ ['(', ')', ',', 'λ']

theorem composedLimit_all {a b l m : Text} (op : Operation)
    (valid : ∀ x ∈ [a, b, l, m], isName x = true) :
    (composedLimit a b op l m).formal.all (among composedMarks) = true := by
  have name (x : Text) (member : x ∈ [a, b, l, m]) : x.all (among composedMarks) = true :=
    all_among_of_isName composedMarks (valid x member)
  have start : ("is_limit (λ n, " : Text).all (among composedMarks) = true :=
    all_among_of_ascii (by decide)
  have term : (" n" : Text).all (among composedMarks) = true := by decide
  have sign : (Formal.spaced op.formal).all (among composedMarks) = true := by
    cases op <;> decide
  have close : (" n) (" : Text).all (among composedMarks) = true := by decide
  have last : (")" : Text).all (among composedMarks) = true := by decide
  simp only [formal, Formal.composedForm, Template.fill, List.all_append, name a (by simp),
    name b (by simp), name l (by simp), name m (by simp), start, term, sign, close, last]
  rfl

theorem parenthesis_mem (a b : Text) (op : Operation) (l m : Text) :
    '(' ∈ (composedLimit a b op l m).formal := by
  simp [formal, Formal.composedForm, Template.fill]

end Statement

namespace Kind

/-- Kinds that may read one formal text. -/
def formalTwins : List Kind := [epsilon, identifier]

def formalShape : Kind → Text.Shape
  | identifier | epsilon => ⟨[], [[]]⟩
  | application | limit => ⟨single leafMarks, single " "⟩
  | arithmetic => ⟨single arithmeticMarks, single "+-*"⟩
  | distance => ⟨single sideMarks, single "|"⟩
  | inequality => ⟨single inequalityMarks, single "<≤>≥"⟩
  | forAll | forAllFrom => ⟨single bodyMarks, single "∀"⟩
  | conjunction => ⟨['∧'] :: single bodyMarks, single "∧"⟩
  | thereIs => ⟨['∃'] :: single bodyMarks, single "∃"⟩
  | sequenceDeclaration => ⟨[" ", sequencesEnd, "→"], single "→"⟩
  | realDeclaration => ⟨[" ", ": ℝ"], [": ℝ"]⟩
  | naturalDeclaration => ⟨[" ", ": ℕ"], [": ℕ"]⟩
  | composedLimit => ⟨single Statement.composedMarks, single "("⟩

theorem mem_all (k : Kind) : k ∈ all := by
  cases k <;> decide

/-- Kinds whose texts may have the same marks. -/
def formalGroups : List (List Kind) := [formalTwins, [application, limit], [forAll, forAllFrom]]

theorem formalShape_apart (k k' : Kind) : k = k' ∨ (∃ group ∈ formalGroups, k ∈ group ∧ k' ∈ group) ∨
    k.formalShape.apart k'.formalShape = true := by
  have table : ∀ k ∈ all, ∀ k' ∈ all, k = k' ∨ (∃ group ∈ formalGroups, k ∈ group ∧ k' ∈ group) ∨
      k.formalShape.apart k'.formalShape = true := by
    decide +kernel
  exact table k k.mem_all k' k'.mem_all

end Kind

variable {ctx : Context} {s : Text} {v w : Statement}

namespace Statement

theorem infix_of_mem {c : Char} (member : c ∈ s) : [c] <:+: s :=
  (List.singleton_infix_iff c s).mpr member

theorem Leaf.formalShape (leaf : Leaf ctx v) : v.kind.formalShape.Has v.formal := by
  have given := leaf.all
  have none' : ([] : Text) ∈ ([[]] : List Text) := List.mem_singleton_self _
  cases leaf with
  | identifier valid _ => exact ⟨Text.spelled_of_isName valid, [], none', List.nil_infix⟩
  | epsilon => exact ⟨Text.spelled_of_isName isName_epsilon, [], none', List.nil_infix⟩
  | @application seq index _ _ _ =>
    have known : [' '] ∈ single " " := List.mem_singleton_self _
    refine ⟨spelled_single given, [' '], known, infix_of_mem ?_⟩
    simp [formal_application]

theorem Side.formalShape (side : Side ctx v) : v.kind.formalShape.Has v.formal := by
  cases side with
  | leaf leaf => exact leaf.formalShape
  | @arithmetic l r op left right =>
    have known : [op.sign] ∈ single "+-*" := by cases op <;> decide
    refine ⟨spelled_single (left.arithmetic_all op right), [op.sign], known, infix_of_mem ?_⟩
    simp [formal_arithmetic, around]
  | distance left right =>
    have known : ['|'] ∈ single "|" := List.mem_singleton_self _
    refine ⟨spelled_single (Side.distance left right).all, ['|'], known, infix_of_mem ?_⟩
    rw [formal_distance]
    exact List.mem_cons_self

theorem Body.formalShape (body : Body ctx v) : v.kind.formalShape.Has v.formal := by
  have given := body.all
  have quantified := (quantifier_mem_iff body).mpr
  have sign : ['∀'] ∈ single "∀" := List.mem_singleton_self _
  cases body with
  | @inequality l r rel left right =>
    have known : [rel.sign] ∈ single "<≤>≥" := by cases rel <;> decide
    refine ⟨spelled_single (left.inequality_all rel right), [rel.sign], known, infix_of_mem ?_⟩
    simp [formal_inequality, around]
  | forAll _ _ =>
    exact ⟨spelled_single given, ['∀'], sign, infix_of_mem (quantified (by simp [kind]))⟩
  | forAllFrom _ _ _ =>
    exact ⟨spelled_single given, ['∀'], sign, infix_of_mem (quantified (by simp [kind]))⟩

/-- A body has only the marks of bodies, so others can be signs of what is put together of bodies. -/
theorem Body.spelled_cons (body : Body ctx v) (sign : Text) :
    spelled (sign :: single bodyMarks) v.formal = true :=
  Text.spelled_mono (List.subset_cons_self _ _) (spelled_single body.all)

theorem spelled_names {xs : List Text} {marks : List Text} (space : spelled marks " " = true)
    (valid : ∀ x ∈ xs, isName x = true) : spelled marks (Text.joinWith " " xs) = true := by
  induction xs with
  | nil => rfl
  | cons x xs ih =>
    obtain ⟨first, rest⟩ := List.forall_mem_cons.mp valid
    cases xs with
    | nil =>
      have one : Text.joinWith " " [x] = x := by simp [Text.joinWith]
      rw [one]
      exact Text.spelled_of_isName first
    | cons y ys =>
      have more : Text.joinWith " " (x :: y :: ys) = x ++ " " ++ Text.joinWith " " (y :: ys) :=
        List.intercalate_cons_cons
      rw [more]
      exact Text.spelled_append (Text.spelled_append (Text.spelled_of_isName first) space) (ih rest)

theorem Formed.formalShape (formed : Formed ctx v) : v.kind.formalShape.Has v.formal := by
  cases formed with
  | identifier valid =>
    exact ⟨Text.spelled_of_isName valid, [], List.mem_singleton_self _, List.nil_infix⟩
  | side side => exact side.formalShape
  | body body => exact body.formalShape
  | @conjunction l r left right =>
    have known : ['∧'] ∈ single "∧" := List.mem_singleton_self _
    have sign : spelled (['∧'] :: single bodyMarks) (around '∧') = true := by decide +kernel
    refine ⟨?_, ['∧'], known, infix_of_mem ?_⟩
    · rw [formal_conjunction]
      exact Text.spelled_append (left.spelled_cons _)
        (Text.spelled_append sign (right.spelled_cons _))
    · simp [formal_conjunction, around]
  | @sequenceDeclaration xs _ valid =>
    have known : ['→'] ∈ single "→" := List.mem_singleton_self _
    have ending : spelled [" ", sequencesEnd, "→"] sequencesEnd = true := by decide +kernel
    have space : spelled [" ", sequencesEnd, "→"] " " = true := by decide
    refine ⟨?_, ['→'], known, infix_of_mem (arrow_mem xs)⟩
    exact Text.spelled_append (Text.spelled_append (spelled_names space valid) space) ending
  | @realDeclaration x valid =>
    have between : realForm.spelledBetween [" ", ": ℝ"] = true := by decide +kernel
    have known : (": ℝ" : Text) ∈ [(": ℝ" : Text)] := List.mem_singleton_self _
    refine ⟨Template.spelled_fill between (by simpa using valid), ": ℝ", known, x ++ " ", [], ?_⟩
    rw [List.append_nil, List.append_assoc]
    rfl
  | @naturalDeclaration x valid =>
    have between : naturalForm.spelledBetween [" ", ": ℕ"] = true := by decide +kernel
    have known : (": ℕ" : Text) ∈ [(": ℕ" : Text)] := List.mem_singleton_self _
    refine ⟨Template.spelled_fill between (by simpa using valid), ": ℕ", known, x ++ " ", [], ?_⟩
    rw [List.append_nil, List.append_assoc]
    rfl
  | @limit seq l valid validLimit =>
    have known : [' '] ∈ single " " := List.mem_singleton_self _
    refine ⟨spelled_single (Statement.limit_all valid validLimit), [' '], known, infix_of_mem ?_⟩
    simp [formal, limitForm, Template.fill]
  | @composedLimit a b l m op _ valid =>
    have known : ['('] ∈ single "(" := List.mem_singleton_self _
    exact ⟨spelled_single (composedLimit_all op valid), ['('], known,
      infix_of_mem (parenthesis_mem a b op l m)⟩
  | @thereIs x u valid body =>
    have known : ['∃'] ∈ single "∃" := List.mem_singleton_self _
    have between : thereIsHeader.spelledBetween (['∃'] :: single bodyMarks) = true := by
      decide +kernel
    refine ⟨?_, ['∃'], known, infix_of_mem (by simp [formal_thereIs])⟩
    exact Text.spelled_append (Template.spelled_fill between (by simpa using valid))
      (body.spelled_cons _)

theorem Formed.formal_ne_of_limit (first : Formed ctx v) (second : Formed ctx w)
    (kind : v.kind = .application) (kind' : w.kind = .limit) : v.formal ≠ w.formal := by
  have read := first.formal?
  have read' := second.formal?
  rw [kind] at read
  rw [kind'] at read'
  obtain ⟨-, leaf, -⟩ := readApplication?_eq_some_iff.mp read
  obtain ⟨seq', l, rfl, -⟩ := readLimit?_eq_some_iff.mp read'
  cases leaf with
  | @application seq index valid validIndex _ =>
    intro same
    obtain ⟨-, word⟩ := isName_iff.mp valid
    have unspaced : ' ' ∉ index := not_mem_of_all (isName_iff.mp validIndex).2 (by decide)
    have left : (Statement.application seq index).formal = seq ++ ' ' :: index := by
      simp [formal_application]
    have right : (Statement.limit seq' l).formal =
      "is_limit" ++ ' ' :: (seq' ++ ' ' :: (l ++ [])) := rfl
    rw [left, right] at same
    obtain ⟨-, -, behind⟩ :=
      (Text.append_cons_inj_of_all word (by decide) (by decide) (by decide)).mp same
    apply unspaced
    rw [behind]
    simp
  | _ => cases kind

theorem Formed.body_of_quantified (formed : Formed ctx v)
    (quantified : v.kind ∈ [Kind.forAll, .forAllFrom]) : Body ctx v := by
  cases formed with
  | body body => exact body
  | side side =>
    cases side with
    | leaf leaf => cases leaf <;> simp [kind] at quantified
    | _ => simp [kind] at quantified
  | _ => simp [kind] at quantified

theorem formal_of_epsilon (kind : v.kind = .epsilon) : v.formal = ("ε" : Text) := by
  cases v with
  | epsilon => rfl
  | _ => cases kind

/-- Formed statements that are written alike are of one kind, except that the letter of the
tolerance is a name too. -/
theorem Formed.kind_eq_or (first : Formed ctx v) (second : Formed ctx w)
    (same : v.formal = w.formal) : v.kind = w.kind ∨
      v.formal = ("ε" : Text) ∧ v.kind ∈ Kind.formalTwins ∧ w.kind ∈ Kind.formalTwins := by
  have group := Kind.formalShape_apart v.kind w.kind
  have alike : ¬v.kind.formalShape.apart w.kind.formalShape = true := by
    intro apart
    apply first.formalShape.not_of_apart apart
    rw [same]
    exact second.formalShape
  rcases group with one | ⟨group, known, member, member'⟩ | apart
  · exact Or.inl one
  · simp only [Kind.formalGroups, List.mem_cons, List.not_mem_nil, or_false] at known
    rcases known with rfl | rfl | rfl
    · by_cases one : v.kind = w.kind
      · exact Or.inl one
      · refine Or.inr ⟨?_, member, member'⟩
        simp only [Kind.formalTwins, List.mem_cons, List.not_mem_nil, or_false] at member member'
        rcases member with tolerance | name
        · exact formal_of_epsilon tolerance
        · rcases member' with tolerance | name'
          · exact same.trans (formal_of_epsilon tolerance)
          · exact absurd (name.trans name'.symm) one
    · left
      simp only [List.mem_cons, List.not_mem_nil, or_false] at member member'
      rcases member with kind | kind <;> rcases member' with kind' | kind'
      · exact kind.trans kind'.symm
      · exact absurd same (first.formal_ne_of_limit second kind kind')
      · exact absurd same.symm (second.formal_ne_of_limit first kind' kind)
      · exact kind.trans kind'.symm
    · exact Or.inl (kind_eq_of_body (first.body_of_quantified member)
        (second.body_of_quantified member') same)
  · exact absurd apart alike

end Statement

namespace Kind

theorem reads_formal_both_iff {k k' : Kind} (different : k ≠ k') :
    (k.formal? ctx s).isSome ∧ (k'.formal? ctx s).isSome ↔
      s = ("ε" : Text) ∧ k ∈ formalTwins ∧ k' ∈ formalTwins := by
  constructor
  · rintro ⟨found, found'⟩
    obtain ⟨v, read⟩ := Option.isSome_iff_exists.mp found
    obtain ⟨w, read'⟩ := Option.isSome_iff_exists.mp found'
    obtain ⟨rfl, formed, rfl⟩ := formal?_eq_some_iff.mp read
    obtain ⟨rfl, formed', same⟩ := formal?_eq_some_iff.mp read'
    rcases formed.kind_eq_or formed' same.symm with one | twins
    · exact absurd one different
    · exact twins
  · rintro ⟨rfl, member, member'⟩
    have reads : ∀ k ∈ formalTwins, (k.formal? ctx "ε").isSome := by
      intro k member
      simp only [formalTwins, List.mem_cons, List.not_mem_nil, or_false] at member
      rcases member with rfl | rfl <;> rfl
    exact ⟨reads k member, reads k' member'⟩

end Kind

theorem Statement.Formed.readFormal?_eq {kinds : List Kind} (formed : Formed ctx v)
    (member : v.kind ∈ kinds) (single : v.kind ∉ Kind.formalTwins) :
    readFormal? kinds ctx v.formal = some (v, ctx.declare v) := by
  have own := formed.formal?
  apply read_eq_some_of_only member own
  intro k found
  by_contra different
  have both := (Kind.reads_formal_both_iff different).mp ⟨found, Option.isSome_of_eq_some own⟩
  exact single both.2.2

theorem Statement.Formed.readFormal?_all (formed : Formed ctx v)
    (kind : v.kind ∈ Kind.hypotheses ∨ v.kind ∈ Kind.goals) :
    readFormal? Kind.all ctx v.formal = some (v, ctx.declare v) := by
  apply formed.readFormal?_eq v.kind.mem_all
  revert kind
  cases v.kind <;> decide

end ProofDesk.Limits
