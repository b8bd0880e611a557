import ProofDesk.Proofs.Limits.Formed
import ProofDesk.Proofs.Limits.Legible
import ProofDesk.Proofs.Limits.Preparation

/-!
A legible statement is read back from what it is shown as.  Lines are prepared before they are read,
and that puts spaces in front of some commands, so the text is taken with or without these gaps.
-/

namespace ProofDesk.Limits

open Text (isName isName_iff isWord isBlank setOff Without not_mem_of_all)
open Statement (LegibleLeaf LegibleSide LegibleBody Legible)

namespace Natural

def leftBar (gap : Text) : Text := "\\left" ++ gap ++ "\\lvert "

def rightBar (gap : Text) : Text := gap ++ ("\\right" ++ gap ++ "\\rvert")

end Natural

open Natural (leftBar rightBar composedForm)

namespace Statement

/-- The mathematical text of a statement, with a gap wherever a command follows something else
than a blank. -/
def mathWith (gap : Text) : Statement → Text
  | arithmetic l op r => l.mathWith gap ++ (setOff op.math ++ r.mathWith gap)
  | distance l r =>
    leftBar gap ++ (l.mathWith gap ++ (setOff ['-'] ++ (r.mathWith gap ++ rightBar gap)))
  | inequality l rel r => l.mathWith gap ++ (setOff rel.math ++ r.mathWith gap)
  | conjunction l r => l.mathWith gap ++ (setOff "\\wedge" ++ r.mathWith gap)
  | composedLimit a b op l m => (composedForm gap op).fill [a, b, l, m]
  | forAll x s => Natural.forAllHeader.fill [x] ++ s.mathWith gap
  | forAllFrom var bound s => Natural.forAllFromHeader.fill [var, bound] ++ s.mathWith gap
  | thereIs x s => Natural.thereIsHeader.fill [x] ++ s.mathWith gap
  | v => v.math

theorem mathWith_nil (v : Statement) : v.mathWith [] = v.math := by
  induction v with
  | arithmetic l op r left right =>
    have shape : (arithmetic l op r).math = l.math ++ setOff op.math ++ r.math := rfl
    rw [shape, List.append_assoc, ← left, ← right]
    rfl
  | distance l r left right =>
    have shape : (distance l r).math =
        leftBar [] ++ l.math ++ setOff ['-'] ++ r.math ++ rightBar [] := rfl
    simp only [shape, List.append_assoc, ← left, ← right]
    rfl
  | inequality l rel r left right =>
    have shape : (inequality l rel r).math = l.math ++ setOff rel.math ++ r.math := rfl
    rw [shape, List.append_assoc, ← left, ← right]
    rfl
  | conjunction l r left right =>
    have shape : (conjunction l r).math = l.math ++ setOff "\\wedge" ++ r.math := rfl
    rw [shape, List.append_assoc, ← left, ← right]
    rfl
  | forAll x s body => exact congrArg (Natural.forAllHeader.fill [x] ++ ·) body
  | forAllFrom var bound s body =>
    exact congrArg (Natural.forAllFromHeader.fill [var, bound] ++ ·) body
  | thereIs x s body => exact congrArg (Natural.thereIsHeader.fill [x] ++ ·) body
  | _ => rfl

theorem mathWith_arithmetic (gap : Text) (l r : Statement) (op : Operation) :
    (arithmetic l op r).mathWith gap = l.mathWith gap ++ (setOff op.math ++ r.mathWith gap) := rfl

theorem mathWith_distance (gap : Text) (l r : Statement) : (distance l r).mathWith gap =
    leftBar gap ++ (l.mathWith gap ++ (setOff ['-'] ++ (r.mathWith gap ++ rightBar gap))) := rfl

theorem mathWith_inequality (gap : Text) (l r : Statement) (rel : Relation) :
    (inequality l rel r).mathWith gap = l.mathWith gap ++ (setOff rel.math ++ r.mathWith gap) := rfl

theorem mathWith_conjunction (gap : Text) (l r : Statement) :
    (conjunction l r).mathWith gap = l.mathWith gap ++ (setOff "\\wedge" ++ r.mathWith gap) := rfl

theorem mathWith_forAll (gap x : Text) (s : Statement) : (forAll x s).mathWith gap =
    "\\forall" ++ ' ' :: (x ++ ' ' :: (":" ++ ' ' :: s.mathWith gap)) := by
  have shape : (forAll x s).mathWith gap = ("\\forall " ++ (x ++ " : ")) ++ s.mathWith gap := rfl
  rw [shape, List.append_assoc, List.append_assoc]
  rfl

theorem mathWith_forAllFrom (gap var bound : Text) (s : Statement) :
    (forAllFrom var bound s).mathWith gap = "\\forall" ++ ' ' ::
      (var ++ ' ' :: ("\\geq" ++ ' ' :: (bound ++ ' ' :: (":" ++ ' ' :: s.mathWith gap)))) := by
  have shape : (forAllFrom var bound s).mathWith gap =
      ("\\forall " ++ (var ++ (" \\geq " ++ (bound ++ " : ")))) ++ s.mathWith gap := rfl
  simp only [shape, List.append_assoc]
  rfl

theorem mathWith_thereIs (gap x : Text) (s : Statement) : (thereIs x s).mathWith gap =
    "\\exists" ++ ' ' :: (x ++ ' ' :: (":" ++ ' ' :: s.mathWith gap)) := by
  have shape : (thereIs x s).mathWith gap = ("\\exists " ++ (x ++ " : ")) ++ s.mathWith gap := rfl
  rw [shape, List.append_assoc, List.append_assoc]
  rfl

section Leaf

variable {ctx : Context} {v : Statement} (leaf : LegibleLeaf ctx v)

include leaf

theorem LegibleLeaf.mathWith_eq (gap : Text) : v.mathWith gap = v.math := by
  cases leaf <;> rfl

theorem LegibleLeaf.name_or : isName v.math = true ∨ v.math = Natural.epsilonMath := by
  cases leaf with
  | application valid validIndex _ _ =>
    rw [Natural.math_application]
    exact Or.inl (Natural.isName_term valid validIndex)
  | epsilon => exact Or.inr rfl
  | identifier valid _ => exact Or.inl valid

theorem LegibleLeaf.all : v.math.all (among ['\\']) = true := by
  rcases leaf.name_or with valid | same
  · exact all_among_of_isName _ valid
  · rw [same]
    decide

theorem LegibleLeaf.unspaced : ' ' ∉ v.math := not_mem_of_all leaf.all (by decide)

theorem LegibleLeaf.plain : Plain v.math := by
  rcases leaf.name_or with valid | same
  · exact plain_of_isName valid
  · rw [same]
    decide

theorem LegibleLeaf.tidy : Text.Tidy v.math := (Prepares.word leaf.plain).tidy

/-- Words that are neither names nor the command of the tolerance are no operands. -/
theorem LegibleLeaf.without {ws : List Text}
    (foreign : ∀ w ∈ ws, isName w = false ∧ w ≠ Natural.epsilonMath) : Without ws v.math := by
  apply Text.without_of_not_mem leaf.unspaced
  intro member
  obtain ⟨unnamed, other⟩ := foreign _ member
  rcases leaf.name_or with valid | same
  · rw [unnamed] at valid
    cases valid
  · exact other same

theorem LegibleLeaf.stripLeading?_command {c : Char} (other : c ≠ 'e') (command rest : Text) :
    Text.stripLeading? ('\\' :: c :: command) (v.math ++ rest) = none := by
  rcases leaf.name_or with valid | same
  · obtain ⟨given, word⟩ := isName_iff.mp valid
    obtain ⟨d, name, shape⟩ := List.exists_cons_of_ne_nil given
    rw [shape, List.all_cons, Bool.and_eq_true] at word
    have noCommand : '\\' ≠ d := by
      rintro rfl
      have backslash : isWord '\\' = false := by decide
      rw [backslash] at word
      cases word.1
    rw [shape]
    exact if_neg noCommand
  · rw [same]
    exact if_neg other

end Leaf

end Statement

namespace Natural

variable {ctx : Context} {gap : Text} {v l r : Statement}

def operationWords : List (Text × Operation) := [("+", .add), ("-", .sub), ("\\cdot", .mul)]

def relationWords : List (Text × Relation) :=
  [("<", .lt), (">", .gt), ("\\leq", .le), ("\\geq", .ge)]

theorem operations_eq : operations = operationWords.map fun sep => (setOff sep.1, sep.2) := rfl

theorem relations_eq : relations = relationWords.map fun sep => (setOff sep.1, sep.2) := rfl

theorem readLeaf?_math (leaf : LegibleLeaf ctx v) : readLeaf? ctx v.math = some v :=
  readLeaf?_eq_some_iff.mpr ⟨leaf, rfl⟩

theorem readArithmetic?_mathWith (op : Operation) (left : LegibleLeaf ctx l)
    (right : LegibleLeaf ctx r) :
    readArithmetic? ctx ((Statement.arithmetic l op r).mathWith gap) = some (.arithmetic l op r) := by
  have foreign : ∀ w ∈ operationWords.map Prod.fst, isName w = false ∧ w ≠ epsilonMath := by decide
  have known : (op.math, op) ∈ operationWords := by cases op <;> decide
  have distinct (op' : Operation) (same : (op.math, op') ∈ operationWords) : op' = op := by
    revert same
    cases op <;> cases op' <;> decide
  have unspaced : ∀ sep ∈ operationWords, ' ' ∉ sep.1 := by decide
  have shape : (Statement.arithmetic l op r).mathWith gap =
      l.math ++ (setOff op.math ++ r.math) := by
    rw [← left.mathWith_eq gap, ← right.mathWith_eq gap]
    rfl
  rw [shape, readArithmetic?, arithmetic?_eq, operations_eq, Text.findSome?_splits_setOff known
    distinct unspaced (left.without foreign) (right.without foreign)]
  exact readAround_eq_some_iff.mpr ⟨l, r, readLeaf?_math left, readLeaf?_math right, rfl⟩

theorem readArithmetic?_eq_none {s : Text} (unspaced : ' ' ∉ s) : readArithmetic? ctx s = none := by
  rw [Option.eq_none_iff_forall_ne_some]
  intro v read
  have given : ∀ sep ∈ operations, sep.1 ≠ [] := by decide
  have spaces : ∀ sep ∈ operations, ' ' ∈ sep.1 := by decide
  rw [readArithmetic?, arithmetic?_eq] at read
  obtain ⟨-, -, op, sep, left, right, member, rfl, -⟩ := exists_cut_of_read given read
  apply unspaced
  simp [spaces _ member]

theorem readDistance?_eq_none {s : Text} (unbarred : Text.stripLeading? "\\left" s = none) :
    readDistance? ctx s = none := by
  rw [readDistance?, differenceSides?, unbarred]
  rfl

theorem differenceSides?_of_parts {s afterLeft afterBar beforeBar inside : Text}
    {cut : Text × Text} (opens : s = "\\left" ++ afterLeft)
    (bar : Text.trimLeft afterLeft = "\\lvert" ++ afterBar) (closes : afterBar = beforeBar ++ "\\rvert")
    (bracket : Text.trimRight beforeBar = inside ++ "\\right")
    (sides : Text.splitFirst? " - " (Text.trim inside) = some cut) : differenceSides? s = some cut := by
  have closed : Text.stripTrailing? "\\rvert" afterBar = some beforeBar :=
    Text.stripTrailing?_eq_some_iff.mpr closes
  have closedBracket : Text.stripTrailing? "\\right" (inside ++ "\\right") = some inside :=
    Text.stripTrailing?_eq_some_iff.mpr rfl
  simp only [differenceSides?, opens, Text.stripLeading?_append, Option.bind_eq_bind,
    Option.bind_some, bar, Option.some_or, closed, bracket, closedBracket, sides]

theorem differenceSides?_mathWith (blank : gap.all isBlank = true) (left : LegibleLeaf ctx l)
    (right : LegibleLeaf ctx r) :
    differenceSides? ((Statement.distance l r).mathWith gap) = some (l.math, r.math) := by
  have minus : ∀ w ∈ [['-']], isName w = false ∧ w ≠ epsilonMath := by decide
  let sides : Text := l.math ++ (setOff ['-'] ++ r.math)
  have shape : (Statement.distance l r).mathWith gap = "\\left" ++ (gap ++ ("\\lvert" ++
      ([' '] ++ sides ++ gap ++ "\\right" ++ gap ++ "\\rvert"))) := by
    simp [sides, ← left.mathWith_eq gap, ← right.mathWith_eq gap, Statement.mathWith, leftBar,
      rightBar]
  apply differenceSides?_of_parts shape
  · rw [Text.trimLeft_append_blank blank]
    rfl
  · rfl
  · have right : Plain "\\right" := by decide
    have word : Text.Tidy "\\right" := .word right.given right.unblank
    rw [Text.trimRight_append_blank blank, word.trimRight_eq]
  · have begins : Text.trimLeft ([' '] ++ sides ++ gap) = sides ++ gap := by
      have first := left.tidy.trimLeft_eq (setOff ['-'] ++ r.math ++ gap)
      rw [← List.append_assoc] at first
      rw [List.append_assoc, Text.trimLeft_append_blank (by decide)]
      exact first
    have ends : Text.trimRight (sides ++ gap) = sides := by
      have last := right.tidy.trimRight_eq (l.math ++ setOff ['-'])
      rw [List.append_assoc] at last
      rw [Text.trimRight_append_blank blank]
      exact last
    rw [Text.trim, begins, ends]
    exact Text.splitFirst?_setOff (by decide) (left.without minus)

theorem readDistance?_mathWith (blank : gap.all isBlank = true) (left : LegibleLeaf ctx l)
    (right : LegibleLeaf ctx r) :
    readDistance? ctx ((Statement.distance l r).mathWith gap) = some (.distance l r) := by
  simp [readDistance?, differenceSides?_mathWith blank left right, readLeaf?_math left,
    readLeaf?_math right]

theorem readSide?_mathWith (blank : gap.all isBlank = true) (side : LegibleSide ctx v) :
    readSide? ctx (v.mathWith gap) = some v := by
  unfold readSide?
  cases side with
  | leaf leaf =>
    have unbarred : Text.stripLeading? "\\left" v.math = none := by
      have absent := leaf.stripLeading?_command (c := 'l') (by decide) "eft" []
      rw [List.append_nil] at absent
      exact absent
    rw [leaf.mathWith_eq gap, readDistance?_eq_none unbarred, readArithmetic?_eq_none leaf.unspaced,
      readLeaf?_math leaf]
    rfl
  | @arithmetic l r op left right =>
    have unbarred :
        Text.stripLeading? "\\left" ((Statement.arithmetic l op r).mathWith gap) = none := by
      rw [Statement.mathWith_arithmetic, left.mathWith_eq gap]
      exact left.stripLeading?_command (by decide) "eft" _
    rw [readDistance?_eq_none unbarred, readArithmetic?_mathWith op left right]
    rfl
  | distance left right =>
    rw [readDistance?_mathWith blank left right]
    rfl

end Natural

namespace Statement

variable {ctx : Context} {gap : Text} {v : Statement}

theorem without_of_last {ws : List Text} {s : Text} (others : ∀ w ∈ ws, w.getLast? ≠ some 't')
    (unspaced : ' ' ∉ s) (last : s.getLast? = some 't') : Without ws s := by
  apply Text.without_of_not_mem unspaced
  intro member
  exact others s member last

theorem LegibleSide.without (either : gap = [] ∨ gap = [' ']) (side : LegibleSide ctx v)
    {ws : List Text} (foreign : ∀ w ∈ ws, isName w = false ∧ w ≠ Natural.epsilonMath)
    (others : ∀ w ∈ ws, w.getLast? ≠ some 't')
    (signs : ∀ w ∈ ws, w ∉ Natural.operationWords.map Prod.fst) : Without ws (v.mathWith gap) := by
  cases side with
  | leaf leaf =>
    rw [leaf.mathWith_eq gap]
    exact leaf.without foreign
  | @arithmetic l r op left right =>
    have known : op.math ∈ Natural.operationWords.map Prod.fst := by cases op <;> decide
    have unspaced : ' ' ∉ op.math := by cases op <;> decide
    rw [mathWith_arithmetic, left.mathWith_eq gap, right.mathWith_eq gap,
      Text.without_setOff unspaced]
    refine ⟨left.without foreign, ?_, right.without foreign⟩
    intro member
    exact signs _ member known
  | @distance l r left right =>
    have minus : ['-'] ∉ ws := by
      intro member
      exact signs _ member (by decide)
    have ends {s : Text} (unspaced : ' ' ∉ s) (last : s.getLast? = some 't') : Without ws s :=
      without_of_last others unspaced last
    rw [mathWith_distance, left.mathWith_eq gap, right.mathWith_eq gap]
    rcases either with rfl | rfl
    · have shape : leftBar [] ++ (l.math ++ (setOff ['-'] ++ (r.math ++ rightBar []))) =
          "\\left\\lvert" ++ ' ' :: (l.math ++ (setOff ['-'] ++ (r.math ++ "\\right\\rvert"))) := rfl
      rw [shape, Text.without_append, Text.without_setOff (by decide)]
      refine ⟨ends (by decide) rfl, left.without foreign, minus, ends ?_ ?_⟩
      · simpa using right.unspaced
      · simp
    · have shape : leftBar [' '] ++ (l.math ++ (setOff ['-'] ++ (r.math ++ rightBar [' ']))) =
          "\\left" ++ ' ' :: ("\\lvert" ++ ' ' :: (l.math ++ (setOff ['-'] ++
            (r.math ++ ' ' :: ("\\right" ++ ' ' :: "\\rvert"))))) := rfl
      rw [shape, Text.without_append, Text.without_append, Text.without_setOff (by decide),
        Text.without_append, Text.without_append]
      exact ⟨ends (by decide) rfl, ends (by decide) rfl, left.without foreign, minus,
        right.without foreign, ends (by decide) rfl, ends (by decide) rfl⟩

theorem LegibleSide.stripLeading?_forAll (side : LegibleSide ctx v) (rest : Text) :
    Text.stripLeading? "\\forall " (v.mathWith gap ++ rest) = none := by
  cases side with
  | leaf leaf =>
    rw [leaf.mathWith_eq gap]
    exact leaf.stripLeading?_command (by decide) "orall " rest
  | arithmetic op left right =>
    rw [mathWith_arithmetic, left.mathWith_eq gap, List.append_assoc]
    exact left.stripLeading?_command (by decide) "orall " _
  | distance left right => rfl

theorem LegibleSide.prepares (side : LegibleSide ctx v) :
    Prepares (v.mathWith []) (v.mathWith [' ']) := by
  have leaf {u : Statement} (leaf : LegibleLeaf ctx u) :
      Prepares (u.mathWith []) (u.mathWith [' ']) := by
    rw [leaf.mathWith_eq, leaf.mathWith_eq]
    exact .word leaf.plain
  cases side with
  | leaf operand => exact leaf operand
  | @arithmetic l r op left right =>
    have sign : Plain op.math := by cases op <;> decide
    have shape (gap : Text) : (Statement.arithmetic l op r).mathWith gap =
        l.mathWith gap ++ ' ' :: (op.math ++ ' ' :: r.mathWith gap) := by
      simp [mathWith_arithmetic, setOff]
    rw [shape, shape]
    exact .space (leaf left) (.space (.word sign) (leaf right))
  | @distance l r left right =>
    have shape : (Statement.distance l r).mathWith [] = ("\\left" ++ '\\' :: "lvert") ++ ' ' ::
        (l.mathWith [] ++ ' ' :: (['-'] ++ ' ' ::
          (r.math ++ '\\' :: ("right" ++ '\\' :: "rvert")))) := by
      rw [← right.mathWith_eq []]
      rfl
    have shape' : (Statement.distance l r).mathWith [' '] = ("\\left" ++ ' ' :: "\\lvert") ++ ' ' ::
        (l.mathWith [' '] ++ ' ' :: (['-'] ++ ' ' ::
          (r.math ++ ' ' :: ("\\right" ++ ' ' :: "\\rvert")))) := by
      rw [← right.mathWith_eq [' ']]
      simp [mathWith_distance, leftBar, rightBar, setOff]
    have bar : Prepares "\\lvert" "\\lvert" := .word (by decide)
    have lastBar : Prepares "\\rvert" "\\rvert" := .word (by decide)
    have opening : Prepares ("\\left" ++ '\\' :: "lvert") ("\\left" ++ ' ' :: "\\lvert") :=
      .attach (by decide) (by decide) bar
    have closing : Prepares ("\\right" ++ '\\' :: "rvert") ("\\right" ++ ' ' :: "\\rvert") :=
      .attach (by decide) (by decide) lastBar
    have minus : Prepares ['-'] ['-'] := .word (by decide)
    rw [shape, shape']
    exact .space opening (.space (leaf left) (.space minus (.attach right.plain (by decide) closing)))

theorem LegibleBody.prepares (body : LegibleBody ctx v) :
    Prepares (v.mathWith []) (v.mathWith [' ']) := by
  have colon : Prepares ":" ":" := .word (by decide)
  have quantifier : Prepares "\\forall" "\\forall" := .word (by decide)
  induction body with
  | @inequality l r rel left right =>
    have sign : Plain rel.math := by cases rel <;> decide
    have shape (gap : Text) : (Statement.inequality l rel r).mathWith gap =
        l.mathWith gap ++ ' ' :: (rel.math ++ ' ' :: r.mathWith gap) := by
      simp [mathWith_inequality, setOff]
    rw [shape, shape]
    exact .space left.prepares (.space (.word sign) right.prepares)
  | forAll valid _ ih =>
    rw [mathWith_forAll, mathWith_forAll]
    exact .space quantifier (.space (.name valid) (.space colon ih))
  | forAllFrom valid validBound _ ih =>
    have relation : Prepares "\\geq" "\\geq" := .word (by decide)
    rw [mathWith_forAllFrom, mathWith_forAllFrom]
    exact .space quantifier (.space (.name valid) (.space relation
      (.space (.name validBound) (.space colon ih))))

theorem LegibleBody.tidy (either : gap = [] ∨ gap = [' ']) (body : LegibleBody ctx v) :
    Text.Tidy (v.mathWith gap) := by
  rcases either with rfl | rfl
  · exact body.prepares.tidy
  · exact body.prepares.tidyAfter

theorem isLine_of_tidy {s : Text} (tidy : Text.Tidy s) : isLine s = true := by
  refine isLine_iff.mpr ⟨tidy.ne_nil, ?_⟩
  intro member
  cases tidy.mem member (by decide)

theorem LegibleBody.without (either : gap = [] ∨ gap = [' ']) (body : LegibleBody ctx v) :
    Without ["\\wedge"] (v.mathWith gap) := by
  have word {w : Text} (unspaced : ' ' ∉ w) (other : w ∉ [("\\wedge" : Text)]) :
      Without ["\\wedge"] w := Text.without_of_not_mem unspaced other
  have name {x : Text} (valid : isName x = true) : Without ["\\wedge"] x := by
    apply word (not_mem_of_all (isName_iff.mp valid).2 (by decide))
    intro member
    rw [List.mem_singleton.mp member] at valid
    cases valid
  induction body with
  | @inequality l r rel left right =>
    have unspaced : ' ' ∉ rel.math := by cases rel <;> decide
    rw [mathWith_inequality, Text.without_setOff unspaced]
    refine ⟨left.without either (by decide) (by decide) (by decide), ?_,
      right.without either (by decide) (by decide) (by decide)⟩
    cases rel <;> decide
  | forAll valid _ ih =>
    rw [mathWith_forAll, Text.without_append, Text.without_append, Text.without_append]
    exact ⟨word (by decide) (by decide), name valid, word (by decide) (by decide), ih⟩
  | forAllFrom valid validBound _ ih =>
    rw [mathWith_forAllFrom, Text.without_append, Text.without_append, Text.without_append,
      Text.without_append, Text.without_append]
    exact ⟨word (by decide) (by decide), name valid, word (by decide) (by decide), name validBound,
      word (by decide) (by decide), ih⟩

end Statement

namespace Natural

variable {ctx : Context} {gap : Text} {v l r : Statement}

theorem all_isBlank (either : gap = [] ∨ gap = [' ']) : gap.all isBlank = true := by
  rcases either with rfl | rfl <;> decide

theorem readInequality?_mathWith (either : gap = [] ∨ gap = [' ']) (rel : Relation)
    (left : LegibleSide ctx l) (right : LegibleSide ctx r) :
    readInequality? ctx ((Statement.inequality l rel r).mathWith gap) =
      some (.inequality l rel r) := by
  have known : (rel.math, rel) ∈ relationWords := by cases rel <;> decide
  have distinct (rel' : Relation) (same : (rel.math, rel') ∈ relationWords) : rel' = rel := by
    revert same
    cases rel <;> cases rel' <;> decide
  have unspaced : ∀ sep ∈ relationWords, ' ' ∉ sep.1 := by decide
  have apart {u : Statement} (side : LegibleSide ctx u) :
      Without (relationWords.map Prod.fst) (u.mathWith gap) :=
    side.without either (by decide) (by decide) (by decide)
  have blank := all_isBlank either
  rw [Statement.mathWith_inequality, readInequality?, inequality?_eq, relations_eq,
    Text.findSome?_splits_setOff known distinct unspaced (apart left) (apart right)]
  exact readAround_eq_some_iff.mpr
    ⟨l, r, readSide?_mathWith blank left, readSide?_mathWith blank right, rfl⟩

theorem read?_eq_none {lead s : Text} {ps : Template} (other : Text.stripLeading? lead s = none) :
    Template.read? (.lit lead :: ps) s = none := by
  rw [Template.read?, other]
  rfl

theorem underHeader?_eq_none {header : Template} {body : Text → Option Statement} {s : Text}
    (other : header.read? s = none) : underHeader? header body s = none := by
  rw [underHeader?, headerOf?, other]
  rfl

theorem forAll?_eq_none {header : Template} {body : Text → Option Statement} {s : Text}
    (other : header.read? s = none) : forAll? header body s = none := by
  rw [forAll?, underHeader?_eq_none other]

theorem forAllFrom?_eq_none {header : Template} {body : Text → Option Statement} {s : Text}
    (other : header.read? s = none) : forAllFrom? header body s = none := by
  rw [forAllFrom?, underHeader?_eq_none other]

theorem read?_forAllFromHeader {x rest : Text} (valid : isName x = true) :
    forAllFromHeader.read? ("\\forall" ++ ' ' :: (x ++ ' ' :: ':' :: rest)) = none := by
  rw [Option.eq_none_iff_forall_ne_some]
  rintro ⟨xs, rest'⟩ read
  obtain ⟨⟨count, names⟩, whole⟩ := (Template.read?_eq_some_iff_of_closed (by decide)).mp read
  obtain ⟨var, bound, rfl⟩ : ∃ var bound, xs = [var, bound] := by
    match xs, count with
    | [var, bound], _ => exact ⟨var, bound, rfl⟩
  obtain ⟨-, word⟩ := isName_iff.mp valid
  obtain ⟨-, word'⟩ := isName_iff.mp (names var (by simp))
  have shape : forAllFromHeader.fill [var, bound] ++ rest' = "\\forall" ++ ' ' ::
      (var ++ ' ' :: '\\' :: ("geq " ++ (bound ++ (" : " ++ rest')))) := by
    have filled : forAllFromHeader.fill [var, bound] ++ rest' =
      ("\\forall " ++ (var ++ (" \\geq " ++ (bound ++ " : ")))) ++ rest' := rfl
    simp only [filled, List.append_assoc]
    rfl
  rw [shape] at whole
  have behind := (List.cons.inj (List.append_cancel_left whole)).2
  obtain ⟨-, -, signs⟩ := (Text.append_cons_inj_of_all word word' (by decide) (by decide)).mp behind
  cases signs

theorem underHeader?_fill {header : Template} {body : Text → Option Statement} {xs : List Text}
    {s : Text} (sound : header.guarded false = true) (fits : header.Fits xs) (line : isLine s = true)
    (inside : body s = some v) : underHeader? header body (header.fill xs ++ s) = some (xs, v) :=
  underHeader?_eq_some_iff.mpr
    ⟨s, (Template.read?_eq_some_iff_of_closed sound).mpr ⟨fits, rfl⟩, line, inside⟩

theorem fits_one {header : Template} {x : Text} (one : header.blanks = 1) (valid : isName x = true) :
    header.Fits [x] := ⟨one.symm, by simpa using valid⟩

/-- Since a body has signs, there is a step to read it. -/
theorem exists_step (either : gap = [] ∨ gap = [' ']) (body : LegibleBody ctx v) {n : Nat}
    (enough : (v.mathWith gap).length ≤ n) : ∃ m, n = m + 1 := by
  apply Nat.exists_eq_add_one.mpr
  exact Nat.lt_of_lt_of_le (List.length_pos_iff.mpr (body.tidy either).ne_nil) enough

theorem readBodyWithin?_mathWith (either : gap = [] ∨ gap = [' ']) (body : LegibleBody ctx v)
    {n : Nat} (enough : (v.mathWith gap).length ≤ n) :
    readBodyWithin? ctx n (v.mathWith gap) = some v := by
  induction body generalizing n with
  | @inequality l r rel left right =>
    obtain ⟨n, rfl⟩ := exists_step either (.inequality rel left right) enough
    have other : Text.stripLeading? "\\forall " ((Statement.inequality l rel r).mathWith gap) =
        none := left.stripLeading?_forAll _
    have noBound : forAllFromHeader.read? ((Statement.inequality l rel r).mathWith gap) = none :=
      read?_eq_none other
    have noHeader : forAllHeader.read? ((Statement.inequality l rel r).mathWith gap) = none :=
      read?_eq_none other
    rw [readBodyWithin?, forAllFrom?_eq_none noBound, forAll?_eq_none noHeader,
      readInequality?_mathWith either rel left right]
    rfl
  | @forAll x u valid body ih =>
    obtain ⟨n, rfl⟩ := exists_step either (.forAll valid body) enough
    have other : forAllFromHeader.read? ((Statement.forAll x u).mathWith gap) = none := by
      rw [Statement.mathWith_forAll]
      exact read?_forAllFromHeader valid
    have shorter : (u.mathWith gap).length ≤ n := by
      rw [Statement.mathWith_forAll] at enough
      simp at enough
      omega
    have found : forAll? forAllHeader (readBodyWithin? ctx n)
        ((Statement.forAll x u).mathWith gap) = some (.forAll x u) :=
      forAll?_eq_some_iff.mpr ⟨x, u, rfl, underHeader?_fill (by decide) (fits_one rfl valid)
        (Statement.isLine_of_tidy (body.tidy either)) (ih shorter)⟩
    rw [readBodyWithin?, forAllFrom?_eq_none other, found]
    rfl
  | @forAllFrom var bound u valid validBound body ih =>
    obtain ⟨n, rfl⟩ := exists_step either (.forAllFrom valid validBound body) enough
    have shorter : (u.mathWith gap).length ≤ n := by
      rw [Statement.mathWith_forAllFrom] at enough
      simp at enough
      omega
    have fits : forAllFromHeader.Fits [var, bound] := ⟨rfl, by simp [valid, validBound]⟩
    have found : forAllFrom? forAllFromHeader (readBodyWithin? ctx n)
        ((Statement.forAllFrom var bound u).mathWith gap) = some (.forAllFrom var bound u) :=
      forAllFrom?_eq_some_iff.mpr ⟨var, bound, u, rfl, underHeader?_fill (by decide) fits
        (Statement.isLine_of_tidy (body.tidy either)) (ih shorter)⟩
    rw [readBodyWithin?, found]
    rfl

theorem readBody?_mathWith (either : gap = [] ∨ gap = [' ']) (body : LegibleBody ctx v) :
    readBody? ctx (v.mathWith gap) = some v :=
  readBodyWithin?_mathWith either body (Nat.le_refl _)

end Natural
end ProofDesk.Limits
