import ProofDesk.Limits.CheckerState
import ProofDesk.Proofs.Limits.Formed
import ProofDesk.Proofs.Text.Replacement

namespace ProofDesk.Limits

open Text (Collapses Tidy isBlank isBlank_of_isWord isName isName_iff unblank_of_all)
open Statement (Leaf Side Body Formed)

/-- Types of quantified names, as far as they are told from the text around them. -/
structure IsType (t : Text) : Prop where
  plain : t.all (fun c => !isParenthesis c) = true
  given : t.any (fun c => !isBlank c) = true

def typedHeader (quantifier : Char) (x type : Text) : Text :=
  quantifier :: (" (" ++ x ++ " : " ++ type ++ "),")

def boundHeader (x bound : Text) : Text :=
  "∀ (" ++ x ++ " : ℕ), " ++ x ++ " ≥ " ++ bound ++ " →"

def shortBoundHeader (x bound : Text) : Text := "∀ " ++ x ++ " ≥ " ++ bound ++ ","

namespace Statement

/-- A statement and a text that shows it, with any types.  The argument writes the quantifiers that
have a lower bound. -/
inductive ShownWith (header : Text → Text → Text) : Statement → Text → Prop where
  | inequality (l : Statement) (rel : Relation) (r : Statement) :
    ShownWith header (.inequality l rel r) (Statement.inequality l rel r).formal
  | limit (seq l : Text) : ShownWith header (.limit seq l) (Statement.limit seq l).formal
  | composedLimit (a b : Text) (op : Operation) (l m : Text) :
    ShownWith header (.composedLimit a b op l m) (Statement.composedLimit a b op l m).formal
  | conjunction {l r : Statement} {p q : Text} (left : ShownWith header l p)
    (right : ShownWith header r q) : ShownWith header (.conjunction l r) (p ++ " ∧ " ++ q)
  | forAll (x : Text) {type p : Text} {v : Statement} (isType : IsType type)
    (body : ShownWith header v p) :
    ShownWith header (.forAll x v) (typedHeader '∀' x type ++ " " ++ p)
  | forAllFrom (x bound : Text) {p : Text} {v : Statement} (body : ShownWith header v p) :
    ShownWith header (.forAllFrom x bound v) (header x bound ++ " " ++ p)
  | thereIs (x : Text) {type p : Text} {v : Statement} (isType : IsType type)
    (body : ShownWith header v p) :
    ShownWith header (.thereIs x v) (typedHeader '∃' x type ++ " " ++ p)

abbrev Shown : Statement → Text → Prop := ShownWith boundHeader

end Statement

/-! Whatever may be a goal can be shown. -/

theorem isType_naturals : IsType "ℕ" := ⟨by decide, by decide⟩

namespace Statement

variable {ctx : Context} {v : Statement}

theorem ShownWith.kind_mem {header : Text → Text → Text} {p : Text}
    (shown : ShownWith header v p) : v.kind ∈ Kind.feedback := by
  cases shown <;> simp [kind, Kind.feedback]

theorem Body.exists_shown (header : Text → Text → Text) (body : Body ctx v) :
    ∃ p, ShownWith header v p := by
  induction body with
  | inequality rel _ _ => exact ⟨_, .inequality _ rel _⟩
  | forAll _ _ ih =>
    obtain ⟨p, shown⟩ := ih
    exact ⟨_, .forAll _ isType_naturals shown⟩
  | forAllFrom _ _ _ ih =>
    obtain ⟨p, shown⟩ := ih
    exact ⟨_, .forAllFrom _ _ shown⟩

theorem Formed.exists_shown_iff (header : Text → Text → Text) (formed : Formed ctx v) :
    (∃ p, ShownWith header v p) ↔ v.kind ∈ Kind.feedback := by
  constructor
  · rintro ⟨p, shown⟩
    exact shown.kind_mem
  · intro kind
    cases formed with
    | body body => exact body.exists_shown header
    | conjunction left right =>
      obtain ⟨p, first⟩ := left.exists_shown header
      obtain ⟨q, second⟩ := right.exists_shown header
      exact ⟨_, .conjunction first second⟩
    | limit _ _ => exact ⟨_, .limit _ _⟩
    | composedLimit _ _ => exact ⟨_, .composedLimit _ _ _ _ _⟩
    | thereIs _ body =>
      obtain ⟨p, shown⟩ := body.exists_shown header
      exact ⟨_, .thereIs _ isType_naturals shown⟩
    | side side =>
      cases side with
      | leaf leaf => cases leaf <;> simp [Statement.kind, Kind.feedback] at kind
      | _ => simp [Statement.kind, Kind.feedback] at kind
    | _ => simp [Statement.kind, Kind.feedback] at kind

end Statement

theorem tidy_of_isName {x : Text} (valid : isName x = true) : Tidy x := by
  obtain ⟨given, word⟩ := isName_iff.mp valid
  exact .word given fun c member => isBlank_of_isWord (List.all_eq_true.mp word c member)

theorem tidy_around {sign : Char} {l r : Text} (solid : isBlank sign = false) (left : Tidy l)
    (right : Tidy r) : Tidy (l ++ (around sign ++ r)) := by
  have shape : l ++ (around sign ++ r) = l ++ ' ' :: ([sign] ++ ' ' :: r) := by simp [around]
  have word : Tidy [sign] := .word (List.cons_ne_nil _ _) (by simpa using solid)
  rw [shape]
  exact .space left (.space word right)

namespace Statement

variable {ctx : Context} {v : Statement} {p : Text}

theorem Leaf.tidy (leaf : Leaf ctx v) : Tidy v.formal := by
  cases leaf with
  | identifier valid _ => exact tidy_of_isName valid
  | epsilon => exact tidy_of_isName isName_epsilon
  | @application seq index valid validIndex _ =>
    have shape : seq ++ " " ++ index = seq ++ ' ' :: index := by simp
    rw [formal_application, shape]
    exact .space (tidy_of_isName valid) (tidy_of_isName validIndex)

theorem Side.tidy (side : Side ctx v) : Tidy v.formal := by
  cases side with
  | leaf leaf => exact leaf.tidy
  | arithmetic op left right =>
    rw [formal_arithmetic]
    exact tidy_around (by cases op <;> decide) left.tidy right.tidy
  | @distance l r left right =>
    have bar : ∀ c ∈ (['|'] : Text), isBlank c = false := unblank_of_all (by decide)
    rw [formal_distance]
    exact ((tidy_around (by decide) left.tidy right.tidy).attachEnd bar).attach bar

theorem tidy_inequality {l r : Statement} (rel : Relation) (left : Side ctx l)
    (right : Side ctx r) : Tidy (inequality l rel r).formal := by
  rw [formal_inequality]
  exact tidy_around (by cases rel <;> decide) left.tidy right.tidy

theorem tidy_limit {seq l : Text} (valid : isName seq = true) (validLimit : isName l = true) :
    Tidy (limit seq l).formal := by
  have shape : (limit seq l).formal = "is_limit" ++ ' ' :: (seq ++ ' ' :: l) := by
    simp [formal, Formal.limitForm, Template.fill]
  rw [shape]
  exact .space (.of_solid (by decide))
    (.space (tidy_of_isName valid) (tidy_of_isName validLimit))

theorem tidy_composedLimit {a b l m : Text} (op : Operation)
    (valid : ∀ x ∈ [a, b, l, m], isName x = true) : Tidy (composedLimit a b op l m).formal := by
  have name (x : Text) (member : x ∈ [a, b, l, m]) : Tidy x := tidy_of_isName (valid x member)
  have sign : Tidy [op.sign] := .of_solid (by cases op <;> decide)
  have first : Tidy ("(" ++ l) := (name l (by simp)).attach (unblank_of_all (by decide))
  have last : Tidy (m ++ ")") := (name m (by simp)).attachEnd (unblank_of_all (by decide))
  have shape : (composedLimit a b op l m).formal =
      "is_limit" ++ ' ' :: ("(λ" ++ ' ' :: ("n," ++ ' ' :: (a ++ ' ' :: ("n" ++ ' ' :: ([op.sign] ++
        ' ' :: (b ++ ' ' :: ("n)" ++ ' ' :: (("(" ++ l) ++ ' ' :: ([op.sign] ++
          ' ' :: (m ++ ")")))))))))) := by
    cases op <;> rfl
  rw [shape]
  exact .space (.of_solid (by decide)) (.space (.of_solid (by decide)) (.space (.of_solid (by decide))
    (.space (name a (by simp)) (.space (.of_solid (by decide)) (.space sign
      (.space (name b (by simp)) (.space (.of_solid (by decide)) (.space first
        (.space sign last)))))))))

/-! Collapsing what is shown. -/

theorem collapses_boundHeader {x bound : Text} (valid : isName x = true)
    (validBound : isName bound = true) :
    Collapses (boundHeader x bound) (boundHeader x bound) := by
  have shape : boundHeader x bound = "∀" ++ ' ' :: (("(" ++ x) ++ ' ' :: (":" ++ ' ' ::
      ("ℕ)," ++ ' ' :: (x ++ ' ' :: ("≥" ++ ' ' :: (bound ++ ' ' :: "→")))))) := by
    unfold boundHeader
    simp
  rw [shape]
  have name := tidy_of_isName valid
  have first : Tidy ("(" ++ x) := name.attach (unblank_of_all (by decide))
  exact (Tidy.space (.of_solid (by decide)) (.space first (.space (.of_solid (by decide))
    (.space (.of_solid (by decide)) (.space name (.space (.of_solid (by decide))
      (.space (tidy_of_isName validBound) (.of_solid (by decide))))))))).collapses

theorem exists_collapses_typedHeader (quantifier : Char) {x type : Text}
    (solid : isBlank quantifier = false) (valid : isName x = true) (isType : IsType type) :
    ∃ type', IsType type' ∧
      Collapses (typedHeader quantifier x type) (typedHeader quantifier x type') := by
  have shape (t : Text) : typedHeader quantifier x t =
      [quantifier] ++ ' ' :: (("(" ++ x) ++ ' ' :: (":" ++ ' ' :: (t ++ "),"))) := by
    simp [typedHeader]
  have first : Tidy [quantifier] := .word (List.cons_ne_nil _ _) (by simpa using solid)
  have name : Tidy ("(" ++ x) := (tidy_of_isName valid).attach (unblank_of_all (by decide))
  have colon : Tidy (":" : Text) := .of_solid (by decide)
  obtain ⟨type', collapses, old, kept⟩ :=
    Text.exists_collapses_attach (w := "),") (by decide) (unblank_of_all (by decide)) type
  refine ⟨type', ⟨?_, ?_⟩, ?_⟩
  · rw [List.all_eq_true]
    intro c member
    rcases old c member with rfl | inside
    · decide
    · exact List.all_eq_true.mp isType.plain c inside
  · rw [List.any_eq_true]
    obtain ⟨c, inside, unblank⟩ := List.any_eq_true.mp isType.given
    exact ⟨c, kept c inside (by simpa using unblank), unblank⟩
  · rw [shape, shape]
    exact first.collapses.space (name.collapses.space (colon.collapses.space collapses))

theorem Body.exists_collapses (body : Body ctx v) (shown : Shown v p) :
    ∃ p', Shown v p' ∧ Collapses p p' := by
  induction body generalizing p with
  | inequality rel left right =>
    cases shown
    exact ⟨_, .inequality _ rel _, (tidy_inequality rel left right).collapses⟩
  | forAll valid _ ih =>
    cases shown with
    | forAll _ isType shown =>
      obtain ⟨p', shown', collapses⟩ := ih shown
      obtain ⟨type', isType', header⟩ :=
        exists_collapses_typedHeader '∀' (by decide) valid isType
      refine ⟨_, .forAll _ isType' shown', ?_⟩
      simpa using header.space collapses
  | forAllFrom valid validBound _ ih =>
    cases shown with
    | forAllFrom _ _ shown =>
      obtain ⟨p', shown', collapses⟩ := ih shown
      refine ⟨_, .forAllFrom _ _ shown', ?_⟩
      simpa using (collapses_boundHeader valid validBound).space collapses

theorem Side.not_shown {header : Text → Text → Text} (side : Side ctx v) :
    ¬ShownWith header v p := by
  intro shown
  cases side with
  | leaf leaf => cases leaf <;> cases shown
  | _ => cases shown

theorem Formed.exists_collapses (formed : Formed ctx v) (shown : Shown v p) :
    ∃ p', Shown v p' ∧ Collapses p p' := by
  cases formed with
  | body body => exact body.exists_collapses shown
  | conjunction left right =>
    cases shown with
    | conjunction shownLeft shownRight =>
      obtain ⟨p', first, collapses⟩ := left.exists_collapses shownLeft
      obtain ⟨q', second, collapses'⟩ := right.exists_collapses shownRight
      have sign : Tidy ("∧" : Text) := .of_solid (by decide)
      refine ⟨_, .conjunction first second, ?_⟩
      simpa using collapses.space (sign.collapses.space collapses')
  | limit valid validLimit =>
    cases shown
    exact ⟨_, .limit _ _, (tidy_limit valid validLimit).collapses⟩
  | composedLimit _ valid =>
    cases shown
    exact ⟨_, .composedLimit _ _ _ _ _, (tidy_composedLimit _ valid).collapses⟩
  | thereIs valid body =>
    cases shown with
    | thereIs _ isType shown =>
      obtain ⟨p', shown', collapses⟩ := body.exists_collapses shown
      obtain ⟨type', isType', header⟩ :=
        exists_collapses_typedHeader '∃' (by decide) valid isType
      refine ⟨_, .thereIs _ isType' shown', ?_⟩
      simpa using header.space collapses
  | side side => exact absurd shown side.not_shown
  | _ => cases shown

end Statement
end ProofDesk.Limits
