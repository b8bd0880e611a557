import ProofDesk.Deduction.Proof
import ProofDesk.Proofs.Outcome

namespace ProofDesk.Deduction

namespace Path

/-- A node may cite its children, its earlier siblings and the earlier siblings of its ancestors. -/
theorem inScope_iff {cited citing : Path} : cited.inScope citing = true ↔
    (∃ i, cited = citing ++ [i]) ∨
      ∃ shared i j below, cited = shared ++ [i] ∧ citing = shared ++ j :: below ∧ i < j := by
  induction cited generalizing citing with
  | nil => simp [inScope]
  | cons i cited ih =>
    cases citing with
    | nil => simp [inScope]
    | cons j citing =>
      by_cases same : i = j
      · subst same
        simp only [inScope, if_true, ih]
        constructor
        · rintro (⟨k, rfl⟩ | ⟨shared, k, l, below, rfl, rfl, earlier⟩)
          · exact Or.inl ⟨k, rfl⟩
          · exact Or.inr ⟨i :: shared, k, l, below, rfl, rfl, earlier⟩
        · rintro (⟨k, child⟩ | ⟨shared, k, l, below, first, second, earlier⟩)
          · exact Or.inl ⟨k, by simpa using child⟩
          · cases shared with
            | nil => simp_all
            | cons _ shared =>
              simp only [List.cons_append, List.cons.injEq] at first second
              exact Or.inr ⟨shared, k, l, below, first.2, second.2, earlier⟩
      · simp only [inScope, if_neg same, Bool.and_eq_true, List.isEmpty_iff, decide_eq_true_eq]
        constructor
        · rintro ⟨rfl, earlier⟩
          exact Or.inr ⟨[], i, j, citing, rfl, rfl, earlier⟩
        · rintro (⟨k, child⟩ | ⟨shared, k, l, below, first, second, earlier⟩)
          · simp [same] at child
          · cases shared with
            | nil => simp_all
            | cons _ shared =>
              simp only [List.cons_append, List.cons.injEq] at first second
              exact absurd (first.1.trans second.1.symm) same

theorem not_above_earlier {shared below : Path} {i j : Nat} (earlier : i < j) :
    ¬ shared ++ j :: below <+: shared ++ [i] := by
  rw [List.prefix_append_right_inj, List.cons_prefix_cons]
  rintro ⟨rfl, _⟩
  exact Nat.lt_irrefl _ earlier

/-- What a child may cite outside of its subtree is an earlier child, or the parent may cite it. -/
theorem outside_scope_of_child {cited path : Path} {i : Nat}
    (visible : cited.inScope (path ++ [i]) = true) (outside : ¬ path ++ [i] <+: cited) :
    (∃ k < i, cited = path ++ [k]) ∨ cited.inScope path = true ∧ ¬ path <+: cited := by
  rcases inScope_iff.mp visible with ⟨k, rfl⟩ | ⟨shared, k, l, below, rfl, same, earlier⟩
  · exact absurd (List.prefix_append _ _) outside
  · rcases List.eq_nil_or_concat below with rfl | ⟨rest, last, rfl⟩
    · rcases List.append_singleton_inj.mp same with ⟨rfl, rfl⟩
      exact Or.inl ⟨k, earlier, rfl⟩
    · rw [List.concat_eq_append, ← List.cons_append, ← List.append_assoc] at same
      rcases List.append_singleton_inj.mp same with ⟨rfl, _⟩
      exact Or.inr ⟨inScope_iff.mpr (Or.inr ⟨shared, k, l, rest, rfl, rfl, earlier⟩),
        not_above_earlier earlier⟩

theorem leadsTo_iff {p q : Path} : p.leadsTo q = true ↔ p <+: q := List.isPrefixOf_iff_prefix

end Path

namespace Proof

@[simp]
theorem at?_nil (p : Proof) : p.at? [] = some p := by
  cases p
  rfl

theorem at?_cons (p : Proof) (i : Nat) (path : Path) :
    p.at? (i :: path) = p.children[i]?.bind fun child => child.at? path := by
  cases p
  rfl

theorem at?_append (p : Proof) (path below : Path) :
    p.at? (path ++ below) = (p.at? path).bind fun q => q.at? below := by
  induction path generalizing p with
  | nil => simp
  | cons i path ih =>
    rw [List.cons_append, at?_cons, at?_cons]
    cases p.children[i]? with
    | none => rfl
    | some child => exact ih child

theorem at?_child {p q : Proof} {path : Path} (found : p.at? path = some q) (i : Nat) :
    p.at? (path ++ [i]) = q.children[i]? := by
  rw [at?_append, found, Option.bind_some, at?_cons]
  cases q.children[i]? <;> simp

theorem at?_isSome_above {p : Proof} {path below : Path} (before : path <+: below)
    (found : (p.at? below).isSome) : (p.at? path).isSome := by
  rcases before with ⟨rest, rfl⟩
  rw [at?_append] at found
  cases reached : p.at? path with
  | none => simp [reached] at found
  | some q => rfl

theorem sizeOf_child_lt {p child : Proof} {i : Nat} (found : p.children[i]? = some child) :
    sizeOf child < sizeOf p := by
  cases p with
  | node s j ps =>
    have smaller := List.sizeOf_lt_of_mem (List.mem_of_getElem? found)
    simp only [node.sizeOf_spec]
    simp only [children] at smaller
    omega

@[simp]
theorem get_eq_ok {p q : Proof} {path : Path} : p.get path = .ok q ↔ p.at? path = some q := by
  unfold get
  cases p.at? path <;> simp

section Children

variable {holds : Path → Proof → Prop} {path below : Path} {p : Proof} {ps : List Proof} {first i : Nat}

theorem exists_child_cons :
    (∃ i below child, path = (first + i) :: below ∧ (p :: ps)[i]? = some child ∧ holds below child) ↔
      (∃ below, path = first :: below ∧ holds below p) ∨
        ∃ i below child, path = (first + 1 + i) :: below ∧ ps[i]? = some child ∧
          holds below child := by
  constructor
  · rintro ⟨i, below, child, rfl, found, inside⟩
    cases i with
    | zero =>
      cases found
      exact Or.inl ⟨below, rfl, inside⟩
    | succ i =>
      exact Or.inr ⟨i, below, child, by rw [Nat.add_right_comm, Nat.add_assoc], found, inside⟩
  · rintro (⟨below, rfl, inside⟩ | ⟨i, below, child, rfl, found, inside⟩)
    · exact ⟨0, below, p, rfl, rfl, inside⟩
    · exact ⟨i + 1, below, child, by rw [Nat.add_right_comm, Nat.add_assoc], found, inside⟩

theorem exists_child_iff :
    (∃ k rest child, i :: below = (0 + k) :: rest ∧ ps[k]? = some child ∧ holds rest child) ↔
      ∃ child, ps[i]? = some child ∧ holds below child := by
  simp only [List.cons.injEq, Nat.zero_add]
  constructor
  · rintro ⟨_, _, child, ⟨rfl, rfl⟩, found, inside⟩
    exact ⟨child, found, inside⟩
  · rintro ⟨child, found, inside⟩
    exact ⟨i, below, child, ⟨rfl, rfl⟩, found, inside⟩

end Children

mutual

theorem mem_nodes {path : Path} {q : Proof} :
    ∀ p : Proof, (path, q) ∈ p.nodes ↔ p.at? path = some q
  | node s j ps => by
    rw [nodes, List.mem_cons, mem_nodesFrom ps 0]
    cases path with
    | nil => simp [eq_comm]
    | cons i below =>
      rw [exists_child_iff]
      simp only [Prod.mk.injEq, reduceCtorEq, false_and, false_or, at?_cons, children,
        Option.bind_eq_some_iff]

theorem mem_nodesFrom {path : Path} {q : Proof} : ∀ (ps : List Proof) (first : Nat),
    (path, q) ∈ nodesFrom first ps ↔
      ∃ i below child, path = (first + i) :: below ∧ ps[i]? = some child ∧
        child.at? below = some q
  | [], first => by simp [nodesFrom]
  | p :: ps, first => by
    rw [nodesFrom, List.mem_append, mem_nodesFrom ps (first + 1), exists_child_cons,
      List.mem_map]
    apply or_congr_left
    constructor
    · rintro ⟨⟨below, r⟩, member, same⟩
      obtain ⟨rfl, rfl⟩ := Prod.mk.inj same
      exact ⟨below, rfl, (mem_nodes p).mp member⟩
    · rintro ⟨below, rfl, reached⟩
      exact ⟨(below, q), (mem_nodes p).mpr reached, rfl⟩

end

end Proof
end ProofDesk.Deduction
