import ProofDesk.Proofs.Limits.FormalKinds
import ProofDesk.Proofs.Limits.ShownStatements

/-!
Goals that a checker shows are read as the statements that they show.  Simplifying replaces first the
quantifiers with a lower bound and then the other types; either pass goes through the text of a
statement from one quantifier to the next and changes nothing between them.
-/

namespace ProofDesk.Limits

open Text (Spaced isName isName_iff isWord not_mem_of_all replace replace_of_read replace_of_unread)
open Statement (Body Formed Shown ShownWith)

def isQuantifier (c : Char) : Bool := c == '∀' || c == '∃'

/-- What is found are quantifiers in front of a parenthesis. -/
def FindsHeaders (read : Text → Option (Text × Text)) : Prop :=
  ∀ s, (read s).isSome → ∃ c r, isQuantifier c = true ∧ s = c :: ' ' :: '(' :: r

theorem boundedQuantifier?_findsHeaders : FindsHeaders boundedQuantifier? := by
  intro s found
  obtain ⟨_, found⟩ := Option.isSome_iff_exists.mp found
  unfold boundedQuantifier? at found
  split at found
  · next read =>
    obtain ⟨r, rfl⟩ := Template.prefix_of_read? read
    exact ⟨'∀', r, rfl, rfl⟩
  · cases found

theorem typedQuantifier?_findsHeaders : FindsHeaders typedQuantifier? := by
  intro s found
  obtain ⟨_, found⟩ := Option.isSome_iff_exists.mp found
  unfold typedQuantifier? at found
  split at found
  · split at found
    · next quantifier =>
      split at found
      · next read =>
        obtain ⟨r, rfl⟩ := Template.prefix_of_read? read
        exact ⟨_, r, by simpa [isQuantifier] using quantifier, rfl⟩
      · cases found
    · cases found
  · cases found

def unquantified (s : Text) : Bool := s.all fun c => !isQuantifier c

@[simp]
theorem unquantified_append (s t : Text) :
    unquantified (s ++ t) = (unquantified s && unquantified t) := List.all_append

theorem eq_of_isQuantifier {c : Char} (quantifier : isQuantifier c = true) :
    c = '∀' ∨ c = '∃' := by
  simpa [isQuantifier] using quantifier

section Passes

variable {read : Text → Option (Text × Text)} {w : Text}

theorem FindsHeaders.replace_plain (finds : FindsHeaders read)
    (plain : unquantified w = true) (s : Text) :
    replace read (w ++ s) = w ++ replace read s := by
  apply replace_of_unread
  rintro l c r rfl
  rw [Option.eq_none_iff_forall_ne_some]
  intro found same
  obtain ⟨d, _, quantifier, shape⟩ := finds _ (Option.isSome_of_eq_some same)
  obtain ⟨rfl, -⟩ := List.cons.inj shape
  have other := List.all_eq_true.mp plain c (by simp)
  rw [quantifier] at other
  cases other

theorem FindsHeaders.replace_whole (finds : FindsHeaders read)
    (plain : unquantified w = true) : replace read w = w := by
  simpa using finds.replace_plain plain []

theorem FindsHeaders.replace_space (finds : FindsHeaders read) (s : Text) :
    replace read (" " ++ s) = " " ++ replace read s :=
  finds.replace_plain (by decide) s

/-- No quantifier is found in a type, since the parenthesis behind it closes. -/
theorem FindsHeaders.replace_closed (finds : FindsHeaders read)
    (plain : w.all (fun c => !isParenthesis c) = true) (s : Text) :
    replace read (w ++ ')' :: s) = w ++ replace read (')' :: s) := by
  apply replace_of_unread
  rintro l c r rfl
  rw [Option.eq_none_iff_forall_ne_some]
  intro found same
  obtain ⟨_, _, -, shape⟩ := finds _ (Option.isSome_of_eq_some same)
  obtain ⟨-, shape⟩ := List.cons.inj shape
  cases r with
  | nil => cases shape
  | cons d r =>
    obtain ⟨-, shape⟩ := List.cons.inj shape
    cases r with
    | nil => cases shape
    | cons e r =>
      obtain ⟨rfl, -⟩ := List.cons.inj shape
      have other := List.all_eq_true.mp plain '(' (by simp)
      cases other

end Passes

theorem unquantified_of_all {marks s : Text} (plain : unquantified marks = true)
    (inside : s.all (among marks) = true) : unquantified s = true := by
  rw [unquantified, List.all_eq_true]
  intro c member
  rcases Bool.or_eq_true_iff.mp (List.all_eq_true.mp inside c member) with word | mark
  · rw [Bool.not_eq_true', Bool.eq_false_iff]
    intro quantifier
    have other : isWord c = false := by
      rcases eq_of_isQuantifier quantifier with rfl | rfl
      · exact isWord_operator (by decide) (by decide)
      · exact isWord_operator (by decide) (by decide)
    rw [other] at word
    cases word
  · exact List.all_eq_true.mp plain c (by simpa using mark)

theorem unquantified_of_isName {x : Text} (valid : isName x = true) : unquantified x = true :=
  unquantified_of_all rfl (all_among_of_isName [] valid)

theorem FindsHeaders.replace_header {read : Text → Option (Text × Text)}
    (finds : FindsHeaders read) {x type : Text} (valid : isName x = true) (isType : IsType type)
    (s : Text) : replace read (" (" ++ x ++ " : " ++ type ++ ")," ++ s) =
      " (" ++ x ++ " : " ++ type ++ ")," ++ replace read s := by
  have before : unquantified (" (" ++ x ++ " : ") = true := by
    have start : unquantified " (" = true := by decide
    have colon : unquantified " : " = true := by decide
    simp only [unquantified_append, start, unquantified_of_isName valid, colon]
    rfl
  have behind : replace read ("),".toList ++ s) = "),".toList ++ replace read s :=
    finds.replace_plain (by decide) s
  have shape (t : Text) : " (" ++ x ++ " : " ++ type ++ ")," ++ t =
      (" (" ++ x ++ " : ") ++ (type ++ ')' :: (',' :: t)) := by simp
  rw [shape, shape, finds.replace_plain before, finds.replace_closed isType.plain]
  exact congrArg (fun t => (" (" ++ x ++ " : ") ++ (type ++ t)) behind

section Found

variable {x type bound : Text}

theorem typedQuantifier?_typedHeader {c : Char} (quantifier : isQuantifier c = true)
    (valid : isName x = true) (isType : IsType type) (s : Text) :
    typedQuantifier? (typedHeader c x type ++ s) = some (c :: (" " ++ x ++ ","), s) := by
  have read : Template.read? [" (", .name, " : "] (" (" ++ x ++ " : " ++ type ++ ")," ++ s) =
      some ([x], type ++ ')' :: (',' :: s)) := by
    apply (Template.read?_eq_some_iff_of_closed (by decide)).mpr
    exact ⟨⟨rfl, by simpa using valid⟩, by simp [Template.fill]⟩
  have after : afterType? (type ++ ')' :: (',' :: s)) = some s := by
    have ends : Text.Ends (fun c => !isParenthesis c) (')' :: (',' :: s)) := Text.ends_cons.mpr rfl
    obtain ⟨taken, left⟩ := Text.span_append isType.plain ends
    obtain ⟨d, given, -⟩ := List.any_eq_true.mp isType.given
    rw [afterType?, taken, left, if_neg (by simpa using List.ne_nil_of_mem given)]
    exact Text.stripLeading?_append ")," s
  rw [typedHeader, List.cons_append, typedQuantifier?, if_pos (eq_of_isQuantifier quantifier), read]
  dsimp only
  rw [after]
  simp [Template.fill]

theorem boundedQuantifier?_boundHeader (valid : isName x = true) (validBound : isName bound = true)
    (s : Text) :
    boundedQuantifier? (boundHeader x bound ++ s) = some (shortBoundHeader x bound, s) := by
  have read : shownBoundForm.read? (boundHeader x bound ++ s) = some ([x, x, bound], s) := by
    apply (Template.read?_eq_some_iff_of_closed (by decide)).mpr
    refine ⟨⟨rfl, by simp [valid, validBound]⟩, ?_⟩
    unfold boundHeader
    simp [shownBoundForm, Template.fill]
  rw [boundedQuantifier?, read]
  simp [shortBoundHeader, Template.fill]

end Found

variable {ctx : Context} {v : Statement} {p rest : Text}

/-- What may stand behind a body. -/
def Follows (s : Text) : Prop := s = [] ∨ ∃ r, s = " ∧ " ++ r

theorem Follows.ne_arrow (follows : Follows rest) {l l' : Text}
    (left : l.all (among inequalityMarks) = true) (left' : l'.all (among inequalityMarks) = true)
    (s : Text) : l ++ rest ≠ l' ++ '→' :: s := by
  have arrow : among inequalityMarks '→' = false :=
    among_operator (by decide) (by decide) (by decide)
  intro same
  rcases follows with rfl | ⟨r, rfl⟩
  · rw [List.append_nil] at same
    rw [same] at left
    exact not_mem_of_all left arrow (by simp)
  · have sign : among inequalityMarks '∧' = false :=
      among_operator (by decide) (by decide) (by decide)
    have spaced : (l ++ " ").all (among inequalityMarks) = true := by
      rw [List.all_append, left]
      rfl
    have split : l ++ (" ∧ " ++ r) = (l ++ " ") ++ '∧' :: (' ' :: r) := by simp
    rw [split] at same
    obtain ⟨-, other, -⟩ := (Text.append_cons_inj_of_all spaced left' sign arrow).mp same
    cases other

theorem isWord_forAll : isWord '∀' = false := isWord_operator (by decide) (by decide)

theorem ne_cons_of_isName {x : Text} {c : Char} (valid : isName x = true)
    (other : isWord c = false) (s t : Text) : c :: s ≠ x ++ t := by
  obtain ⟨given, word⟩ := isName_iff.mp valid
  obtain ⟨d, x, rfl⟩ := List.exists_cons_of_ne_nil given
  intro same
  obtain ⟨rfl, -⟩ := List.cons.inj same
  rw [List.all_cons, other] at word
  cases word

theorem Statement.Body.not_bound (body : Body ctx v) (shown : Shown v p) (follows : Follows rest)
    {y bound : Text} (valid : isName y = true) (validBound : isName bound = true) (s : Text) :
    p ++ rest ≠ y ++ (" ≥ " ++ bound ++ " →" ++ s) := by
  cases body with
  | inequality rel left right =>
    cases shown
    have first := all_among_of_isName inequalityMarks valid
    have second := all_among_of_isName inequalityMarks validBound
    have relation : (" ≥ " : Text).all (among inequalityMarks) = true :=
      all_among_of_ascii (by decide)
    have start : (y ++ " ≥ " ++ bound ++ " ").all (among inequalityMarks) = true := by
      simp only [List.all_append, first, second, relation]
      rfl
    have shape : y ++ (" ≥ " ++ bound ++ " →" ++ s) = (y ++ " ≥ " ++ bound ++ " ") ++ '→' :: s := by
      simp
    rw [shape]
    exact follows.ne_arrow (left.inequality_all rel right) start s
  | forAll _ _ =>
    cases shown
    exact ne_cons_of_isName valid isWord_forAll _ _
  | forAllFrom _ _ _ =>
    cases shown
    exact ne_cons_of_isName valid isWord_forAll _ _

theorem boundedQuantifier?_typedHeader (body : Body ctx v) (shown : Shown v p)
    (follows : Follows rest) {x type : Text} (valid : isName x = true) (isType : IsType type) :
    boundedQuantifier? (typedHeader '∀' x type ++ (" " ++ (p ++ rest))) = none := by
  rw [Option.eq_none_iff_forall_ne_some]
  intro found same
  unfold boundedQuantifier? at same
  split at same
  · next y z bound s read =>
    obtain ⟨⟨-, names⟩, shape⟩ := (Template.read?_eq_some_iff_of_closed (by decide)).mp read
    have shown' : typedHeader '∀' x type ++ (" " ++ (p ++ rest)) =
        "∀ (" ++ (x ++ ' ' :: (": " ++ (type ++ ')' :: (", " ++ (p ++ rest))))) := by
      simp [typedHeader]
    have read' : shownBoundForm.fill [y, z, bound] ++ s =
        "∀ (" ++ (y ++ ' ' :: (": " ++ ("ℕ" ++ ')' ::
          (", " ++ (z ++ (" ≥ " ++ bound ++ " →" ++ s)))))) := by
      simp [shownBoundForm, Template.fill]
    rw [shown', read', List.append_cancel_left_eq] at shape
    obtain ⟨-, -, behind⟩ := (Text.append_cons_inj_of_all (isName_iff.mp valid).2
      (isName_iff.mp (names y (by simp))).2 (by decide) (by decide)).mp shape
    rw [List.append_cancel_left_eq] at behind
    obtain ⟨-, -, rest⟩ :=
      (Text.append_cons_inj_of_all isType.plain (by decide) (by decide) (by decide)).mp behind
    rw [List.append_cancel_left_eq] at rest
    exact body.not_bound shown follows (names z (by simp)) (names bound (by simp)) s rest
  · cases same

theorem replace_boundHeader {x bound : Text} (valid : isName x = true)
    (validBound : isName bound = true) (s : Text) :
    replace boundedQuantifier? (boundHeader x bound ++ s) =
      shortBoundHeader x bound ++ replace boundedQuantifier? s := by
  have given : boundHeader x bound ≠ [] := by
    unfold boundHeader
    simp
  exact replace_of_read given (boundedQuantifier?_boundHeader valid validBound s)

theorem replace_bounded_typedHeader {c : Char} {x type s : Text} (valid : isName x = true)
    (isType : IsType type) (unbound : boundedQuantifier? (typedHeader c x type ++ s) = none) :
    replace boundedQuantifier? (typedHeader c x type ++ s) =
      typedHeader c x type ++ replace boundedQuantifier? s := by
  rw [typedHeader, List.cons_append] at unbound ⊢
  rw [Text.replace_cons_of_none unbound,
    boundedQuantifier?_findsHeaders.replace_header valid isType, List.cons_append]

/-- Bounds are shortened throughout a body, whatever follows it. -/
theorem Statement.Body.exists_replace_bounded (body : Body ctx v) (shown : Shown v p) :
    ∃ q, ShownWith shortBoundHeader v q ∧ ∀ rest, Follows rest →
      replace boundedQuantifier? (p ++ rest) = q ++ replace boundedQuantifier? rest := by
  have finds := boundedQuantifier?_findsHeaders
  -- a bound is told from a type by what stands behind it, so the text that follows stays general
  induction body generalizing p with
  | inequality rel left right =>
    cases shown
    have plain := unquantified_of_all (by decide) (left.inequality_all rel right)
    exact ⟨_, .inequality _ rel _, fun rest _ => finds.replace_plain plain rest⟩
  | forAll valid body ih =>
    cases shown with
    | forAll _ isType shown =>
      obtain ⟨q, short, replaced⟩ := ih shown
      refine ⟨_, .forAll _ isType short, ?_⟩
      intro rest follows
      have unbound := boundedQuantifier?_typedHeader body shown follows valid isType
      rw [List.append_assoc, List.append_assoc, replace_bounded_typedHeader valid isType unbound,
        finds.replace_space, replaced rest follows]
      simp
  | forAllFrom valid validBound _ ih =>
    cases shown with
    | forAllFrom _ _ shown =>
      obtain ⟨q, short, replaced⟩ := ih shown
      refine ⟨_, .forAllFrom _ _ short, ?_⟩
      intro rest follows
      rw [List.append_assoc, List.append_assoc, replace_boundHeader valid validBound,
        finds.replace_space, replaced rest follows]
      simp

theorem Statement.Formed.replace_bounded (formed : Formed ctx v) (shown : Shown v p) :
    ShownWith shortBoundHeader v (replace boundedQuantifier? p) := by
  have finds := boundedQuantifier?_findsHeaders
  have alone {u : Statement} {q : Text} (body : Body ctx u) (shown : Shown u q) :
      ShownWith shortBoundHeader u (replace boundedQuantifier? q) := by
    obtain ⟨q', short, replaced⟩ := body.exists_replace_bounded shown
    have whole : replace boundedQuantifier? q = q' := by
      simpa using replaced [] (Or.inl rfl)
    rw [whole]
    exact short
  cases formed with
  | body body => exact alone body shown
  | conjunction left right =>
    cases shown with
    | @conjunction _ _ p q shownLeft shownRight =>
      obtain ⟨p', short, replaced⟩ := left.exists_replace_bounded shownLeft
      rw [List.append_assoc, replaced _ (Or.inr ⟨q, rfl⟩), finds.replace_plain (by decide),
        ← List.append_assoc]
      exact .conjunction short (alone right shownRight)
  | limit valid validLimit =>
    cases shown
    have plain := unquantified_of_all (by decide) (Statement.limit_all valid validLimit)
    rw [finds.replace_whole plain]
    exact .limit _ _
  | @composedLimit _ _ _ _ op _ valid =>
    cases shown
    have plain := unquantified_of_all (by decide) (Statement.composedLimit_all op valid)
    rw [finds.replace_whole plain]
    exact .composedLimit _ _ _ _ _
  | thereIs valid body =>
    cases shown with
    | thereIs _ isType shown =>
      rw [List.append_assoc, replace_bounded_typedHeader valid isType rfl, finds.replace_space,
        ← List.append_assoc]
      exact .thereIs _ isType (alone body shown)
  | side side => exact absurd shown side.not_shown
  | _ => cases shown

theorem replace_typedHeader {c : Char} {x type : Text} (quantifier : isQuantifier c = true)
    (valid : isName x = true) (isType : IsType type) (s : Text) :
    replace typedQuantifier? (typedHeader c x type ++ s) =
      c :: (" " ++ x ++ ",") ++ replace typedQuantifier? s :=
  replace_of_read (List.cons_ne_nil _ _) (typedQuantifier?_typedHeader quantifier valid isType s)

theorem replace_shortBoundHeader {x bound : Text} (valid : isName x = true)
    (validBound : isName bound = true) (s : Text) :
    replace typedQuantifier? (shortBoundHeader x bound ++ s) =
      shortBoundHeader x bound ++ replace typedQuantifier? s := by
  have finds := typedQuantifier?_findsHeaders
  have plain : unquantified (" " ++ x ++ " ≥ " ++ bound ++ ",") = true := by
    have space : unquantified " " = true := by decide
    have relation : unquantified " ≥ " = true := by decide
    have comma : unquantified "," = true := by decide
    simp only [unquantified_append, space, relation, comma, unquantified_of_isName valid,
      unquantified_of_isName validBound]
    rfl
  have absent : typedQuantifier? ('∀' :: (" " ++ x ++ " ≥ " ++ bound ++ "," ++ s)) = none := by
    rw [Option.eq_none_iff_forall_ne_some]
    intro found same
    obtain ⟨_, r, -, shape⟩ := finds _ (Option.isSome_of_eq_some same)
    obtain ⟨-, shape⟩ := List.cons.inj shape
    have behind : '(' :: r = x ++ (" ≥ " ++ bound ++ "," ++ s) := by simpa using shape.symm
    exact ne_cons_of_isName valid (by decide) _ _ behind
  have shape (t : Text) : shortBoundHeader x bound ++ t =
      '∀' :: (" " ++ x ++ " ≥ " ++ bound ++ "," ++ t) := by
    unfold shortBoundHeader
    simp
  rw [shape, shape, Text.replace_cons_of_none absent, finds.replace_plain plain]

/-- With short bounds and without the types, a body is formal text. -/
theorem Statement.Body.replace_typed (body : Body ctx v)
    (shown : ShownWith shortBoundHeader v p) (rest : Text) :
    replace typedQuantifier? (p ++ rest) = v.formal ++ replace typedQuantifier? rest := by
  have finds := typedQuantifier?_findsHeaders
  induction body generalizing p with
  | inequality rel left right =>
    cases shown
    have plain := unquantified_of_all (by decide) (left.inequality_all rel right)
    exact finds.replace_plain plain rest
  | forAll valid body ih =>
    cases shown with
    | forAll _ isType shown =>
      rw [List.append_assoc, List.append_assoc, replace_typedHeader rfl valid isType,
        finds.replace_space, ih shown, Statement.formal_forAll]
      simp
  | forAllFrom valid validBound _ ih =>
    cases shown with
    | forAllFrom _ _ shown =>
      rw [List.append_assoc, List.append_assoc, replace_shortBoundHeader valid validBound,
        finds.replace_space, ih shown, Statement.formal_forAllFrom]
      simp [shortBoundHeader]

theorem Statement.Formed.replace_typed (formed : Formed ctx v)
    (shown : ShownWith shortBoundHeader v p) : replace typedQuantifier? p = v.formal := by
  have finds := typedQuantifier?_findsHeaders
  have bodyWhole {u : Statement} {q : Text} (body : Body ctx u)
      (shown : ShownWith shortBoundHeader u q) : replace typedQuantifier? q = u.formal := by
    simpa using body.replace_typed shown []
  cases formed with
  | body body => exact bodyWhole body shown
  | conjunction left right =>
    cases shown with
    | conjunction shownLeft shownRight =>
      rw [List.append_assoc, left.replace_typed shownLeft, finds.replace_plain (by decide),
        bodyWhole right shownRight, Statement.formal_conjunction]
      rfl
  | limit valid validLimit =>
    cases shown
    exact finds.replace_whole
      (unquantified_of_all (by decide) (Statement.limit_all valid validLimit))
  | composedLimit _ valid =>
    cases shown
    exact finds.replace_whole
      (unquantified_of_all (by decide) (Statement.composedLimit_all _ valid))
  | thereIs valid body =>
    cases shown with
    | thereIs _ isType shown =>
      rw [List.append_assoc, replace_typedHeader rfl valid isType, finds.replace_space,
        bodyWhole body shown, Statement.formal_thereIs]
      simp
  | side side => exact absurd shown side.not_shown
  | _ => cases shown

theorem Statement.Formed.simplify_eq (formed : Formed ctx v) (shown : Shown v p) {t : Text}
    (spaced : Spaced p t) : simplify t = v.formal := by
  obtain ⟨q, shown', collapses⟩ := formed.exists_collapses shown
  rw [simplify, spaced.collapse_eq, collapses.eq]
  exact formed.replace_typed (formed.replace_bounded shown')

theorem Statement.Formed.readFormal?_feedback (formed : Formed ctx v)
    (kind : v.kind ∈ Kind.feedback) :
    readFormal? Kind.feedback ctx v.formal = some (v, ctx.declare v) := by
  apply formed.readFormal?_eq kind
  revert kind
  cases v.kind <;> decide

/-- Every statement that may be a goal can be shown.  However its types and its white space are
written, what is shown is simplified to the formal text of the statement and told in the natural
language of the statement. -/
theorem goal_of_shown (formed : Formed ctx v) (kind : v.kind ∈ Kind.feedback) :
    (∃ p, Shown v p) ∧ ∀ p t, Shown v p → Spaced p t →
      simplify t = v.formal ∧ goalNatural? ctx t = some (v.natural false) := by
  refine ⟨(formed.exists_shown_iff boundHeader).mpr kind, ?_⟩
  intro p t shown spaced
  have simplified := formed.simplify_eq shown spaced
  refine ⟨simplified, ?_⟩
  rw [goalNatural?, simplified, formed.readFormal?_feedback kind]
  rfl

/-- A goal about a bound that a checker breaks behind the first quantifier. -/
theorem goal_of_shown_broken :
    let ctx := Context.empty.declare (.sequenceDeclaration ["b"])
    let close := Statement.inequality (.distance (.application "b" "n") (.identifier "l")) .lt .epsilon
    let v := Statement.thereIs "N" (.forAllFrom "n" "N" close)
    let p := typedHeader '∃' "N" "ℕ" ++ " " ++ (boundHeader "n" "N" ++ " " ++ close.formal)
    let t : Text := "∃ (N : ℕ),\n    ∀ (n : ℕ), n ≥ N → |b n - l| < ε"
    Formed ctx v ∧ v.kind ∈ Kind.feedback ∧ Shown v p ∧ Spaced p t ∧ simplify t = v.formal ∧
      goalNatural? ctx t = some (v.natural false) := by
  intro ctx close v p t
  have known : ctx.is "b" .sequence = true := by decide +kernel
  have body : Body ctx close :=
    .inequality .lt
      (.distance (.application (by decide) (by decide) known) (.identifier (by decide) (by decide)))
      (.leaf .epsilon)
  have formed : Formed ctx v := .thereIs (by decide) (.forAllFrom (by decide) (by decide) body)
  have kind : v.kind ∈ Kind.feedback := by decide
  have shown : Shown v p := .thereIs "N" isType_naturals (.forAllFrom "n" "N" (.inequality _ .lt _))
  let inner : Text := "∀ (n : ℕ), n ≥ N → |b n - l| < ε"
  have spaced : Spaced p t := by
    have shape : p = "∃ (N : ℕ)," ++ ' ' :: inner := by decide +kernel
    have shape' : t = "∃ (N : ℕ)," ++ ("\n    " ++ inner) := by decide +kernel
    have rest : Spaced inner inner := by simpa using Spaced.nil.prepend inner
    rw [shape, shape']
    exact (Spaced.gap (by decide) (by decide) rest).prepend _
  exact ⟨formed, kind, shown, spaced, (goal_of_shown formed kind).2 p t shown spaced⟩

end ProofDesk.Limits
