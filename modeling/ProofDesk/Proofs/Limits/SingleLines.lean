import ProofDesk.Proofs.Limits.Resubmission

/-!
Formal text stays on one line.  Only a name could break it, and whatever a session accepts has names
of word characters alone: those that a user gives are read as such, and those of hypotheses are made
of a letter and digits.
-/

namespace ProofDesk.Limits

open Text (isName not_mem_joinWith)

theorem newline_not_mem_fill {t : Template} {xs : List Text} (between : t.lacks '\n' = true)
    (unbroken : ∀ x ∈ xs, '\n' ∉ x) : '\n' ∉ t.fill xs :=
  Template.not_mem_fill (by decide) between unbroken

/-! Names in statements and in tactics, wherever they stand. -/

namespace Statement

def names : Statement → List Text
  | identifier x => [x]
  | epsilon => []
  | application seq index => [seq, index]
  | arithmetic l _ r => l.names ++ r.names
  | distance l r => l.names ++ r.names
  | inequality l _ r => l.names ++ r.names
  | conjunction l r => l.names ++ r.names
  | sequenceDeclaration xs => xs
  | realDeclaration x => [x]
  | naturalDeclaration x => [x]
  | limit seq l => [seq, l]
  | composedLimit a b _ l m => [a, b, l, m]
  | forAll x s => x :: s.names
  | forAllFrom var bound s => var :: bound :: s.names
  | thereIs x s => x :: s.names

theorem newline_not_mem_formal {v : Statement} (unbroken : ∀ x ∈ v.names, '\n' ∉ x) :
    '\n' ∉ v.formal := by
  induction v with
  | identifier x => exact unbroken x List.mem_cons_self
  | epsilon => decide
  | application seq index => exact newline_not_mem_fill (by decide) unbroken
  | arithmetic l op r left right =>
    obtain ⟨first, second⟩ := List.forall_mem_append.mp unbroken
    have sign : '\n' ∉ Formal.spaced op.formal := by cases op <;> decide
    exact List.not_mem_append (List.not_mem_append (left first) sign) (right second)
  | distance l r left right =>
    obtain ⟨first, second⟩ := List.forall_mem_append.mp unbroken
    rw [formal_distance]
    simp [around, left first, right second]
  | inequality l rel r left right =>
    obtain ⟨first, second⟩ := List.forall_mem_append.mp unbroken
    have sign : '\n' ∉ Formal.spaced rel.formal := by cases rel <;> decide
    exact List.not_mem_append (List.not_mem_append (left first) sign) (right second)
  | conjunction l r left right =>
    obtain ⟨first, second⟩ := List.forall_mem_append.mp unbroken
    exact List.not_mem_append (List.not_mem_append (left first) (by decide)) (right second)
  | sequenceDeclaration xs =>
    have listed : '\n' ∉ Text.joinWith " " xs := not_mem_joinWith (by decide) unbroken
    exact List.not_mem_append (List.not_mem_append listed (by decide)) (by decide)
  | realDeclaration x => exact newline_not_mem_fill (by decide) unbroken
  | naturalDeclaration x => exact newline_not_mem_fill (by decide) unbroken
  | limit seq l => exact newline_not_mem_fill (by decide) unbroken
  | composedLimit a b op l m =>
    have between : (Formal.composedForm op).lacks '\n' = true := by cases op <;> decide
    exact newline_not_mem_fill between unbroken
  | forAll x s body =>
    obtain ⟨first, inside⟩ := List.forall_mem_cons.mp unbroken
    have header : '\n' ∉ Formal.forAllHeader.fill [x] :=
      newline_not_mem_fill (by decide) (List.forall_mem_singleton.mpr first)
    exact List.not_mem_append header (body inside)
  | forAllFrom var bound s body =>
    obtain ⟨first, rest⟩ := List.forall_mem_cons.mp unbroken
    obtain ⟨second, inside⟩ := List.forall_mem_cons.mp rest
    have header : '\n' ∉ Formal.forAllFromHeader.fill [var, bound] :=
      newline_not_mem_fill (by decide)
        (List.forall_mem_cons.mpr ⟨first, List.forall_mem_singleton.mpr second⟩)
    exact List.not_mem_append header (body inside)
  | thereIs x s body =>
    obtain ⟨first, inside⟩ := List.forall_mem_cons.mp unbroken
    have header : '\n' ∉ Formal.thereIsHeader.fill [x] :=
      newline_not_mem_fill (by decide) (List.forall_mem_singleton.mpr first)
    exact List.not_mem_append header (body inside)

variable {ctx : Context} {v : Statement}

theorem LegibleLeaf.names (leaf : LegibleLeaf ctx v) : ∀ x ∈ v.names, isName x = true := by
  cases leaf with
  | application valid validIndex _ _ => simp [Statement.names, valid, validIndex]
  | epsilon => simp [Statement.names]
  | identifier valid _ => simp [Statement.names, valid]

theorem LegibleSide.names (side : LegibleSide ctx v) : ∀ x ∈ v.names, isName x = true := by
  cases side with
  | leaf leaf => exact leaf.names
  | arithmetic _ left right => exact List.forall_mem_append.mpr ⟨left.names, right.names⟩
  | distance left right => exact List.forall_mem_append.mpr ⟨left.names, right.names⟩

theorem LegibleBody.names (body : LegibleBody ctx v) : ∀ x ∈ v.names, isName x = true := by
  induction body with
  | inequality _ left right => exact List.forall_mem_append.mpr ⟨left.names, right.names⟩
  | forAll valid _ ih => exact List.forall_mem_cons.mpr ⟨valid, ih⟩
  | forAllFrom valid validBound _ ih =>
    exact List.forall_mem_cons.mpr ⟨valid, List.forall_mem_cons.mpr ⟨validBound, ih⟩⟩

theorem Legible.names (legible : Legible ctx v) : ∀ x ∈ v.names, isName x = true := by
  cases legible with
  | identifier valid => exact List.forall_mem_singleton.mpr valid
  | side side => exact side.names
  | body body => exact body.names
  | conjunction left right => exact List.forall_mem_append.mpr ⟨left.names, right.names⟩
  | sequenceDeclaration _ valid => exact valid
  | realDeclaration valid => exact List.forall_mem_singleton.mpr valid
  | naturalDeclaration valid => exact List.forall_mem_singleton.mpr valid
  | limit valid validLimit => simp [Statement.names, valid, validLimit]
  | composedLimit _ valid => exact valid
  | thereIs valid body => exact List.forall_mem_cons.mpr ⟨valid, body.names⟩

end Statement

namespace Tactic

def names : Tactic → List Text
  | fixTolerance ident hyp => ident.names ++ [hyp]
  | chooseIndex limitDef eps hypEps chosen hypChosen =>
    eps.names ++ [limitDef, hypEps, chosen, hypChosen]
  | letMax ident left right => [ident, left, right]
  | claim x => [x]
  | byProperties hyp sentence => hyp :: sentence.names
  | fixIndex ident hyp => [ident, hyp]
  | bySentence hyp sentence source point => sentence.names ++ [hyp, source, point]
  | choosePoint hyp source point => [hyp, source, point]
  | absoluteValue names => names
  | separate x => [x]
  | splitGoal | splitAll | linearArithmetic => []

theorem newline_not_mem_formal {t : Tactic} (unbroken : ∀ x ∈ t.names, '\n' ∉ x) :
    '\n' ∉ t.formal := by
  cases t with
  | fixTolerance ident hyp =>
    obtain ⟨tolerance, rest⟩ := List.forall_mem_append.mp unbroken
    have written := Statement.newline_not_mem_formal tolerance
    exact newline_not_mem_fill (by decide) (List.forall_mem_cons.mpr ⟨written, rest⟩)
  | chooseIndex limitDef eps hypEps chosen hypChosen =>
    obtain ⟨tolerance, rest⟩ := List.forall_mem_append.mp unbroken
    have written := Statement.newline_not_mem_formal tolerance
    obtain ⟨first, rest⟩ := List.forall_mem_cons.mp rest
    exact newline_not_mem_fill (by decide)
      (List.forall_mem_cons.mpr ⟨first, List.forall_mem_cons.mpr ⟨written, rest⟩⟩)
  | letMax ident left right => exact newline_not_mem_fill (by decide) unbroken
  | claim x => exact newline_not_mem_fill (by decide) unbroken
  | byProperties hyp sentence =>
    obtain ⟨first, rest⟩ := List.forall_mem_cons.mp unbroken
    have header : '\n' ∉ Formal.haveHeader.fill [hyp] :=
      newline_not_mem_fill (by decide) (List.forall_mem_singleton.mpr first)
    have written := Statement.newline_not_mem_formal rest
    exact List.not_mem_append (List.not_mem_append header written) (by decide)
  | fixIndex ident hyp => exact newline_not_mem_fill (by decide) unbroken
  | bySentence hyp sentence source point =>
    obtain ⟨inside, rest⟩ := List.forall_mem_append.mp unbroken
    obtain ⟨first, rest⟩ := List.forall_mem_cons.mp rest
    have header : '\n' ∉ Formal.haveHeader.fill [hyp] :=
      newline_not_mem_fill (by decide) (List.forall_mem_singleton.mpr first)
    have written := Statement.newline_not_mem_formal inside
    have cited : '\n' ∉ Formal.citation.fill [source, point] :=
      newline_not_mem_fill (by decide) rest
    rw [Formal.formal_bySentence]
    exact List.not_mem_append header
      (List.not_mem_append written (List.not_mem_append (by decide) cited))
  | choosePoint hyp source point => exact newline_not_mem_fill (by decide) unbroken
  | absoluteValue names =>
    have shown : ∀ x ∈ names.map fun x => if x = goalName then Formal.turnstile else x, '\n' ∉ x := by
      intro y member
      obtain ⟨x, listed, rfl⟩ := List.mem_map.mp member
      split
      · decide
      · exact unbroken x listed
    exact List.not_mem_append (by decide) (not_mem_joinWith (by decide) shown)
  | separate x => exact newline_not_mem_fill (by decide) unbroken
  | splitGoal => decide
  | splitAll => decide
  | linearArithmetic => decide

variable {ctx : Context} {t : Tactic} {used : Nat → Prop}

/-- The hypothesis about a tolerance has a name of word characters because all hypotheses that come
with a name have been numbered. -/
theorem Legible.names (legible : t.Legible ctx) (numbered : ctx.Numbered used) :
    ∀ x ∈ t.names, isName x = true := by
  have next : isName ctx.nextName = true := isName_anonymousName _
  cases legible with
  | fixTolerance tolerance _ =>
    exact List.forall_mem_append.mpr ⟨tolerance.names, List.forall_mem_singleton.mpr next⟩
  | chooseIndex tolerance valid associated =>
    obtain ⟨n, -, rfl⟩ := numbered _ _ associated
    have tolerance' := isName_anonymousName n
    refine List.forall_mem_append.mpr ⟨tolerance.names, ?_⟩
    simp only [List.forall_mem_cons] at valid ⊢
    exact ⟨valid.2.1, tolerance', valid.1, next, valid.2.2⟩
  | letMax valid => exact valid
  | claim valid => exact List.forall_mem_singleton.mpr valid
  | byProperties _ body => exact List.forall_mem_cons.mpr ⟨next, body.names⟩
  | fixIndex valid _ => simp [Tactic.names, valid, next]
  | bySentence valid _ body =>
    exact List.forall_mem_append.mpr ⟨body.names, List.forall_mem_cons.mpr ⟨next, valid⟩⟩
  | choosePoint valid =>
    simp only [List.forall_mem_cons] at valid
    simp only [Tactic.names, List.forall_mem_cons]
    exact ⟨next, valid.2.1, valid.1, valid.2.2⟩
  | absoluteValue _ valid => exact valid
  | separate valid => exact List.forall_mem_singleton.mpr valid
  | splitGoal => simp [Tactic.names]
  | splitAll => simp [Tactic.names]
  | linearArithmetic => simp [Tactic.names]

end Tactic

theorem newline_not_mem_of_isName {x : Text} (valid : isName x = true) : '\n' ∉ x :=
  Text.not_mem_of_all (Text.isName_iff.mp valid).2 (by decide)

theorem Statement.Legible.newline_not_mem {ctx : Context} {v : Statement} (legible : v.Legible ctx) :
    '\n' ∉ v.formal :=
  newline_not_mem_formal fun x member => newline_not_mem_of_isName (legible.names x member)

theorem Tactic.Legible.newline_not_mem {ctx : Context} {t : Tactic} {used : Nat → Prop}
    (legible : t.Legible ctx) (numbered : ctx.Numbered used) : '\n' ∉ t.formal :=
  newline_not_mem_formal fun x member => newline_not_mem_of_isName (legible.names numbered x member)

namespace Session

/-- Whatever the session holds is written on one line. -/
structure SingleLines (s : Session) : Prop where
  hypotheses : ∀ v ∈ s.hypotheses, '\n' ∉ v.formal
  goal : ∀ v ∈ s.goal, '\n' ∉ v.formal
  proof : ∀ line ∈ s.proof, '\n' ∉ line.tactic.formal

variable {name : Text} {es : List Entry} {s s' : Session} {text : Text}

theorem singleLines_start (name : Text) : (start name).SingleLines where
  hypotheses _ member := by cases member
  goal _ own := by cases own
  proof _ member := by cases member

theorem SingleLines.addHypothesis (single : s.SingleLines) (added : s.addHypothesis text = .ok s') :
    s'.SingleLines := by
  obtain ⟨v, ctx, read, rfl⟩ := addHypothesis_eq_ok added
  obtain ⟨-, -, legible⟩ := legible_of_readNatural? read
  have own : ∀ w ∈ [v], '\n' ∉ w.formal := List.forall_mem_singleton.mpr legible.newline_not_mem
  exact ⟨List.forall_mem_append.mpr ⟨single.hypotheses, own⟩, single.goal, single.proof⟩

theorem SingleLines.setGoal (single : s.SingleLines) (set : s.setGoal text = .ok s') :
    s'.SingleLines := by
  obtain ⟨v, ctx, read, rfl⟩ := setGoal_eq_ok set
  obtain ⟨-, -, legible⟩ := legible_of_readNatural? read
  refine ⟨single.hypotheses, ?_, single.proof⟩
  intro w own
  rw [← Option.some.inj own]
  exact legible.newline_not_mem

theorem SingleLines.addLine {used : Nat → Prop} (single : s.SingleLines)
    (numbered : s.context.Numbered used) (added : s.addLine text = .ok s') : s'.SingleLines := by
  obtain ⟨t, ctx, read, rfl⟩ := addLine_eq_ok added
  obtain ⟨-, legible⟩ := Tactic.legible_of_readNatural? read
  refine ⟨single.hypotheses, single.goal, List.forall_mem_append.mpr ⟨single.proof, ?_⟩⟩
  exact List.forall_mem_singleton.mpr (legible.newline_not_mem numbered)

theorem Built.singleLines (built : Built name es s) : s.SingleLines := by
  induction built with
  | start => exact singleLines_start name
  | hypothesis _ added _ ih => exact ih.addHypothesis added
  | goal _ set _ ih => exact ih.setGoal set
  | line built added _ ih => exact ih.addLine built.numbered.2 added

end Session
end ProofDesk.Limits
