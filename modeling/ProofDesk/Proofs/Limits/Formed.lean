import ProofDesk.Limits.Formal
import ProofDesk.Proofs.Limits.Reading

/-!
The statements that formal text expresses, level by level, and which characters the text of each
level may have.  A level uses signs that the one below does not have, so brackets are not needed.
-/

namespace ProofDesk.Limits

open Text (isName isName_iff isWord wordRanges)

namespace Statement

/-- Operands of arithmetic and of distances.  The letter of the tolerance is no other name. -/
inductive Leaf (ctx : Context) : Statement → Prop where
  | identifier {x : Text} (valid : isName x = true) (other : x ≠ ("ε" : Text)) :
    Leaf ctx (.identifier x)
  | epsilon : Leaf ctx .epsilon
  | application {seq index : Text} (valid : isName seq = true) (validIndex : isName index = true)
    (known : ctx.is seq .sequence = true) : Leaf ctx (.application seq index)

inductive Side (ctx : Context) : Statement → Prop where
  | leaf {v : Statement} (leaf : Leaf ctx v) : Side ctx v
  | arithmetic {l r : Statement} (op : Operation) (left : Leaf ctx l) (right : Leaf ctx r) :
    Side ctx (.arithmetic l op r)
  | distance {l r : Statement} (left : Leaf ctx l) (right : Leaf ctx r) :
    Side ctx (.distance l r)

inductive Body (ctx : Context) : Statement → Prop where
  | inequality {l r : Statement} (rel : Relation) (left : Side ctx l) (right : Side ctx r) :
    Body ctx (.inequality l rel r)
  | forAll {x : Text} {v : Statement} (valid : isName x = true) (body : Body ctx v) :
    Body ctx (.forAll x v)
  | forAllFrom {var bound : Text} {v : Statement} (valid : isName var = true)
    (validBound : isName bound = true) (body : Body ctx v) : Body ctx (.forAllFrom var bound v)

/-- Statements that formal text expresses.  On its own, an identifier may have any name. -/
inductive Formed (ctx : Context) : Statement → Prop where
  | identifier {x : Text} (valid : isName x = true) : Formed ctx (.identifier x)
  | side {v : Statement} (side : Side ctx v) : Formed ctx v
  | body {v : Statement} (body : Body ctx v) : Formed ctx v
  | conjunction {l r : Statement} (left : Body ctx l) (right : Body ctx r) :
    Formed ctx (.conjunction l r)
  | sequenceDeclaration {xs : List Text} (given : xs ≠ []) (valid : ∀ x ∈ xs, isName x = true) :
    Formed ctx (.sequenceDeclaration xs)
  | realDeclaration {x : Text} (valid : isName x = true) : Formed ctx (.realDeclaration x)
  | naturalDeclaration {x : Text} (valid : isName x = true) : Formed ctx (.naturalDeclaration x)
  | limit {seq l : Text} (valid : isName seq = true) (validLimit : isName l = true) :
    Formed ctx (.limit seq l)
  | composedLimit {a b l m : Text} {op : Operation} (combines : op = .add ∨ op = .mul)
    (valid : ∀ x ∈ [a, b, l, m], isName x = true) : Formed ctx (.composedLimit a b op l m)
  | thereIs {x : Text} {v : Statement} (valid : isName x = true) (body : Body ctx v) :
    Formed ctx (.thereIs x v)

end Statement

def Operation.sign : Operation → Char
  | add => '+'
  | sub => '-'
  | mul => '*'

def Relation.sign : Relation → Char
  | lt => '<'
  | le => '≤'
  | gt => '>'
  | ge => '≥'

theorem Operation.sign_inj (op op' : Operation) (same : op.sign = op'.sign) : op = op' := by
  cases op <;> cases op' <;> first | rfl | cases same

theorem Relation.sign_inj (rel rel' : Relation) (same : rel.sign = rel'.sign) : rel = rel' := by
  cases rel <;> cases rel' <;> first | rfl | cases same

namespace Statement

theorem formal_arithmetic (l r : Statement) (op : Operation) :
    (arithmetic l op r).formal = l.formal ++ (around op.sign ++ r.formal) := by
  cases op <;> simp [formal, around, Formal.spaced, Operation.formal, Operation.sign]

theorem formal_inequality (l r : Statement) (rel : Relation) :
    (inequality l rel r).formal = l.formal ++ (around rel.sign ++ r.formal) := by
  cases rel <;> simp [formal, around, Formal.spaced, Relation.formal, Relation.sign]

theorem formal_conjunction (l r : Statement) :
    (conjunction l r).formal = l.formal ++ (around '∧' ++ r.formal) := by
  simp [formal, around]

theorem formal_distance (l r : Statement) :
    (distance l r).formal = '|' :: (l.formal ++ (around '-' ++ r.formal) ++ ['|']) := by
  simp [formal, around]

end Statement

def among (marks : Text) (c : Char) : Bool := isWord c || marks.contains c

def leafMarks : Text := [' ']

def arithmeticMarks : Text := leafMarks ++ ['+', '-', '*']

def sideMarks : Text := arithmeticMarks ++ ['|']

def inequalityMarks : Text := sideMarks ++ ['<', '≤', '>', '≥']

def bodyMarks : Text := inequalityMarks ++ ['∀', ',']

theorem among_of_mem {marks : Text} {c : Char} (member : c ∈ marks) : among marks c = true := by
  simp [among, member]

theorem isWord_operator {c : Char} (low : 0x2190 ≤ c.toNat) (high : c.toNat < 0x2300) :
    isWord c = false := by
  have apart : wordRanges.all (fun range => range.2 < 0x2190 || 0x2300 ≤ range.1) = true := by
    decide +kernel
  have wide : ¬c.toNat < 128 := by omega
  rw [isWord, if_neg wide, List.any_eq_false]
  rintro ⟨first, last⟩ listed within
  have outside := List.all_eq_true.1 apart _ listed
  simp only [Bool.or_eq_true, Bool.and_eq_true, decide_eq_true_eq] at within outside
  omega

theorem among_operator {marks : Text} {c : Char} (low : 0x2190 ≤ c.toNat) (high : c.toNat < 0x2300)
    (absent : c ∉ marks) : among marks c = false := by
  simp [among, isWord_operator low high, absent]

theorem isName_epsilon : isName "ε" = true := by
  decide

/-- For a given text this is read off without the table of word characters. -/
theorem all_among_of_ascii {marks s : Text}
    (known : s.all (fun c => (c.toNat < 128 && isWord c) || marks.contains c) = true) :
    s.all (among marks) = true := by
  rw [List.all_eq_true] at known ⊢
  intro c member
  rcases Bool.or_eq_true_iff.1 (known c member) with word | mark
  · rw [among, (Bool.and_eq_true_iff.1 word).2, Bool.true_or]
  · rw [among, mark, Bool.or_true]

theorem all_among_append {marks s : Text} (more : Text) (inside : s.all (among marks) = true) :
    s.all (among (marks ++ more)) = true := by
  rw [List.all_eq_true] at inside ⊢
  intro c member
  have known := inside c member
  simp only [among, List.contains_append, Bool.or_eq_true] at known ⊢
  rcases known with word | mark
  · exact Or.inl word
  · exact Or.inr (Or.inl mark)

theorem all_among_of_isName {x : Text} (marks : Text) (valid : isName x = true) :
    x.all (among marks) = true := by
  obtain ⟨-, word⟩ := isName_iff.1 valid
  rw [List.all_eq_true] at word ⊢
  intro c member
  rw [among, word c member, Bool.true_or]

theorem all_among_around {marks l r : Text} {sign : Char} (space : ' ' ∈ marks) (known : sign ∈ marks)
    (left : l.all (among marks) = true) (right : r.all (among marks) = true) :
    (l ++ (around sign ++ r)).all (among marks) = true := by
  simp [around, List.all_append, left, right, among_of_mem space, among_of_mem known]

namespace Statement

variable {ctx : Context} {v l r : Statement}

theorem Leaf.all (leaf : Leaf ctx v) : v.formal.all (among leafMarks) = true := by
  cases leaf with
  | identifier valid _ => exact all_among_of_isName _ valid
  | epsilon => exact all_among_of_isName _ isName_epsilon
  | application valid validIndex _ =>
    have first := all_among_of_isName leafMarks valid
    have second := all_among_of_isName leafMarks validIndex
    have space : among leafMarks ' ' = true := by decide
    simp [formal_application, List.all_append, first, second, space]

theorem Leaf.arithmetic_all (op : Operation) (left : Leaf ctx l) (right : Leaf ctx r) :
    (arithmetic l op r).formal.all (among arithmeticMarks) = true := by
  rw [formal_arithmetic]
  apply all_among_around (by decide) (by cases op <;> decide)
  · exact all_among_append _ left.all
  · exact all_among_append _ right.all

theorem Side.all (side : Side ctx v) : v.formal.all (among sideMarks) = true := by
  cases side with
  | leaf leaf => exact all_among_append _ (all_among_append _ leaf.all)
  | arithmetic op left right => exact all_among_append _ (left.arithmetic_all op right)
  | distance left right =>
    have inside := all_among_append ['|'] (left.arithmetic_all .sub right)
    have bar : among sideMarks '|' = true := by decide
    rw [formal_arithmetic] at inside
    rw [formal_distance, List.all_cons, List.all_append, bar, Bool.true_and, Bool.and_eq_true]
    exact ⟨inside, by rw [List.all_cons, bar]; rfl⟩

theorem Side.inequality_all (rel : Relation) (left : Side ctx l) (right : Side ctx r) :
    (inequality l rel r).formal.all (among inequalityMarks) = true := by
  rw [formal_inequality]
  apply all_among_around (by decide) (by cases rel <;> decide)
  · exact all_among_append _ left.all
  · exact all_among_append _ right.all

theorem Body.all (body : Body ctx v) : v.formal.all (among bodyMarks) = true := by
  induction body with
  | inequality rel left right => exact all_among_append _ (left.inequality_all rel right)
  | forAll valid _ ih =>
    have name := all_among_of_isName bodyMarks valid
    have start : ("∀ " : Text).all (among bodyMarks) = true := all_among_of_ascii (by decide)
    have comma : (", " : Text).all (among bodyMarks) = true := all_among_of_ascii (by decide)
    simp only [formal_forAll, List.all_append, name, start, comma, ih]
    rfl
  | forAllFrom valid validBound _ ih =>
    have name := all_among_of_isName bodyMarks valid
    have bound := all_among_of_isName bodyMarks validBound
    have start : ("∀ " : Text).all (among bodyMarks) = true := all_among_of_ascii (by decide)
    have relation : (" ≥ " : Text).all (among bodyMarks) = true := all_among_of_ascii (by decide)
    have comma : (", " : Text).all (among bodyMarks) = true := all_among_of_ascii (by decide)
    simp only [formal_forAllFrom, List.all_append, name, bound, start, relation, comma, ih]
    rfl

theorem Body.isLine (body : Body ctx v) : isLine v.formal = true := by
  have given : v.formal ≠ [] := by
    cases body with
    | inequality rel _ _ => simp [formal_inequality, around]
    | forAll _ _ => simp [formal_forAll]
    | forAllFrom _ _ _ => simp [formal_forAllFrom]
  have newline : among bodyMarks '\n' = false := by decide
  exact isLine_iff.2 ⟨given, Text.not_mem_of_all body.all newline⟩

end Statement
end ProofDesk.Limits
