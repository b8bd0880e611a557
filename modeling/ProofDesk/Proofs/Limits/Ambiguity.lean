import ProofDesk.Proofs.Limits.FormalInverse
import ProofDesk.Proofs.Limits.NaturalInverse

/-!
What is shown for formal text can mean something else.  Formal text keeps a sequence and its index
apart with a space, natural language with an underscore, and names have underscores too.  A statement
read from formal text comes back from natural language exactly if each of its terms and identifiers is
found at the last underscore.
-/

namespace ProofDesk.Limits

open Natural (IndexCut)
open Statement (Leaf Side Body Formed LegibleLeaf LegibleSide LegibleBody Legible)

namespace Statement

/-- No term has an index in which the text of the term is cut instead, and no identifier can be cut
into a sequence and an index. -/
def Unambiguous (ctx : Context) : Statement → Prop
  | identifier x => ∀ seq index, IndexCut x seq index → ctx.is seq .sequence = false
  | application _ index => '_' ∉ index.dropLast
  | arithmetic l _ r | distance l r | inequality l _ r | conjunction l r =>
    l.Unambiguous ctx ∧ r.Unambiguous ctx
  | forAll _ s | forAllFrom _ _ s | thereIs _ s => s.Unambiguous ctx
  | _ => True

variable {ctx : Context} {v : Statement}

theorem LegibleLeaf.unambiguous (leaf : LegibleLeaf ctx v) : v.Unambiguous ctx := by
  cases leaf with
  | application _ _ _ last => exact last
  | epsilon => trivial
  | identifier _ whole => exact whole

theorem LegibleSide.unambiguous (side : LegibleSide ctx v) : v.Unambiguous ctx := by
  cases side with
  | leaf leaf => exact leaf.unambiguous
  | arithmetic _ left right => exact ⟨left.unambiguous, right.unambiguous⟩
  | distance left right => exact ⟨left.unambiguous, right.unambiguous⟩

theorem LegibleBody.unambiguous (body : LegibleBody ctx v) : v.Unambiguous ctx := by
  induction body with
  | inequality _ left right => exact ⟨left.unambiguous, right.unambiguous⟩
  | forAll _ _ ih => exact ih
  | forAllFrom _ _ _ ih => exact ih

theorem Legible.unambiguous (legible : Legible ctx v) (compound : v.kind ≠ .identifier) :
    v.Unambiguous ctx := by
  cases legible with
  | identifier _ => exact absurd rfl compound
  | side side => exact side.unambiguous
  | body body => exact body.unambiguous
  | conjunction left right => exact ⟨left.unambiguous, right.unambiguous⟩
  | thereIs _ body => exact body.unambiguous
  | _ => trivial

theorem Leaf.legible (leaf : Leaf ctx v) (clear : v.Unambiguous ctx) : LegibleLeaf ctx v := by
  cases leaf with
  | identifier valid _ => exact .identifier valid clear
  | epsilon => exact .epsilon
  | application valid validIndex known => exact .application valid validIndex known clear

theorem Side.legible (side : Side ctx v) (clear : v.Unambiguous ctx) : LegibleSide ctx v := by
  cases side with
  | leaf leaf => exact .leaf (leaf.legible clear)
  | arithmetic op left right => exact .arithmetic op (left.legible clear.1) (right.legible clear.2)
  | distance left right => exact .distance (left.legible clear.1) (right.legible clear.2)

theorem Body.legible (body : Body ctx v) (clear : v.Unambiguous ctx) : LegibleBody ctx v := by
  induction body with
  | inequality rel left right =>
    exact .inequality rel (left.legible clear.1) (right.legible clear.2)
  | forAll valid _ ih => exact .forAll valid (ih clear)
  | forAllFrom valid validBound _ ih => exact .forAllFrom valid validBound (ih clear)

theorem Formed.legible (formed : Formed ctx v) (clear : v.Unambiguous ctx) : Legible ctx v := by
  cases formed with
  | identifier valid => exact .identifier valid
  | side side => exact .side (side.legible clear)
  | body body => exact .body (body.legible clear)
  | conjunction left right => exact .conjunction (left.legible clear.1) (right.legible clear.2)
  | sequenceDeclaration given valid => exact .sequenceDeclaration given valid
  | realDeclaration valid => exact .realDeclaration valid
  | naturalDeclaration valid => exact .naturalDeclaration valid
  | limit valid validLimit => exact .limit valid validLimit
  | composedLimit combines valid => exact .composedLimit combines valid
  | thereIs valid body => exact .thereIs valid (body.legible clear)

theorem Formed.legible_of_identifier (formed : Formed ctx v) (alone : v.kind = .identifier) :
    Legible ctx v := by
  cases formed with
  | identifier valid => exact .identifier valid
  | side side =>
    cases side with
    | leaf leaf =>
      cases leaf with
      | identifier valid _ => exact .identifier valid
      | _ => cases alone
    | _ => cases alone
  | body body => cases body <;> cases alone
  | _ => cases alone

end Statement

/-- What formal text says is read back from the natural language it is shown in, and in the same
context, exactly if it is an identifier alone or nothing in it is ambiguous. -/
theorem Kind.rereads_shown_iff {k : Kind} {ctx ctx' : Context} {s : Text} {v : Statement}
    (read : k.readFormal? ctx s = some (v, ctx')) :
    k.readNatural? ctx false (v.natural false) = some (v, ctx') ↔
      k = .identifier ∨ v.Unambiguous ctx := by
  obtain ⟨w, found, same⟩ := Option.map_eq_some_iff.mp read
  cases same
  obtain ⟨rfl, formed, -⟩ := Kind.formal?_eq_some_iff.mp found
  constructor
  · intro shown
    obtain ⟨w, back, same⟩ := Option.map_eq_some_iff.mp shown
    cases same
    obtain ⟨-, legible⟩ := Kind.legible_of_natural? back
    by_cases alone : v.kind = .identifier
    · exact Or.inl alone
    · exact Or.inr (legible.unambiguous alone)
  · intro clear
    have legible : Legible ctx v := by
      rcases clear with alone | clear
      · exact formed.legible_of_identifier alone
      · exact formed.legible clear
    have back := legible.natural? (Or.inl rfl)
    rw [Statement.naturalWith_nil] at back
    exact Option.map_eq_some_iff.mpr ⟨v, back, rfl⟩

def oneSequence : Context := Context.empty.add "a" .sequence

/-- A term whose index has no underscore inside comes back. -/
theorem rereads_shown_term : ∃ v,
    Kind.inequality.readFormal? oneSequence "a n < l" = some (v, oneSequence) ∧
      v.Unambiguous oneSequence ∧
      Kind.inequality.readNatural? oneSequence false (v.natural false) = some (v, oneSequence) := by
  let v : Statement := .inequality (.application "a" "n") .lt (.identifier "l")
  have read : Kind.inequality.readFormal? oneSequence "a n < l" = some (v, oneSequence) := by
    decide +kernel
  have clear : v.Unambiguous oneSequence := by
    have term : '_' ∉ ("n" : Text).dropLast := by decide
    refine ⟨term, ?_⟩
    rintro seq index ⟨whole, -⟩
    have uncut : '_' ∉ ("l" : Text) := by decide
    rw [whole] at uncut
    simp at uncut
  exact ⟨v, read, clear, (Kind.rereads_shown_iff read).mpr (Or.inr clear)⟩

/-- A term whose index has an underscore inside is shown as if it were an identifier, and is read as
one. -/
theorem not_rereads_shown :
    ¬∀ (k : Kind) (ctx ctx' : Context) (s : Text) (v : Statement),
      k.readFormal? ctx s = some (v, ctx') →
        k.readNatural? ctx false (v.natural false) = some (v, ctx') := by
  intro comesBack
  let v : Statement := .inequality (.application "a" "N_a") .lt (.identifier "b")
  have read : Kind.inequality.readFormal? oneSequence "a N_a < b" = some (v, oneSequence) := by
    decide +kernel
  have shown : v.natural false = ("$a_N_a < b$" : Text) := by decide
  have back : Kind.inequality.readNatural? oneSequence false "$a_N_a < b$" =
      some (.inequality (.identifier "a_N_a") .lt (.identifier "b"), oneSequence) := by
    decide +kernel
  have same := comesBack _ _ _ _ _ read
  rw [shown, back] at same
  simp [v] at same

end ProofDesk.Limits
