import ProofDesk.Proofs.Limits.Formed
import ProofDesk.Proofs.Limits.Legible

namespace ProofDesk.Limits

open Statement (Leaf Side Body Formed LegibleLeaf LegibleSide LegibleBody Legible)

namespace Statement

/-- Some identifier has the name that the tolerance has in formal text. -/
def NamesTolerance : Statement → Prop
  | identifier x => x = ("ε" : Text)
  | arithmetic l _ r | distance l r | inequality l _ r | conjunction l r =>
    l.NamesTolerance ∨ r.NamesTolerance
  | forAll _ s | forAllFrom _ _ s | thereIs _ s => s.NamesTolerance
  | _ => False

variable {ctx : Context} {v : Statement}

theorem Leaf.not_namesTolerance (leaf : Leaf ctx v) : ¬v.NamesTolerance := by
  cases leaf with
  | identifier _ other => exact other
  | epsilon => exact not_false
  | application _ _ _ => exact not_false

theorem Side.not_namesTolerance (side : Side ctx v) : ¬v.NamesTolerance := by
  cases side with
  | leaf leaf => exact leaf.not_namesTolerance
  | arithmetic _ left right => exact not_or.mpr ⟨left.not_namesTolerance, right.not_namesTolerance⟩
  | distance left right => exact not_or.mpr ⟨left.not_namesTolerance, right.not_namesTolerance⟩

theorem Body.not_namesTolerance (body : Body ctx v) : ¬v.NamesTolerance := by
  induction body with
  | inequality _ left right => exact not_or.mpr ⟨left.not_namesTolerance, right.not_namesTolerance⟩
  | forAll _ _ ih => exact ih
  | forAllFrom _ _ _ ih => exact ih

theorem Formed.not_namesTolerance (formed : Formed ctx v) (compound : v.kind ≠ .identifier) :
    ¬v.NamesTolerance := by
  cases formed with
  | identifier _ => exact absurd rfl compound
  | side side => exact side.not_namesTolerance
  | body body => exact body.not_namesTolerance
  | conjunction left right => exact not_or.mpr ⟨left.not_namesTolerance, right.not_namesTolerance⟩
  | thereIs _ body => exact body.not_namesTolerance
  | _ => exact not_false

/-! A legible statement has a formal text unless the tolerance gets lost. -/

theorem LegibleLeaf.formed (leaf : LegibleLeaf ctx v) (plain : ¬v.NamesTolerance) : Leaf ctx v := by
  cases leaf with
  | application valid validIndex known _ => exact .application valid validIndex known
  | epsilon => exact .epsilon
  | identifier valid _ => exact .identifier valid plain

theorem LegibleSide.formed (side : LegibleSide ctx v) (plain : ¬v.NamesTolerance) : Side ctx v := by
  cases side with
  | leaf leaf => exact .leaf (leaf.formed plain)
  | arithmetic op left right =>
    obtain ⟨plainLeft, plainRight⟩ := not_or.mp plain
    exact .arithmetic op (left.formed plainLeft) (right.formed plainRight)
  | distance left right =>
    obtain ⟨plainLeft, plainRight⟩ := not_or.mp plain
    exact .distance (left.formed plainLeft) (right.formed plainRight)

theorem LegibleBody.formed (body : LegibleBody ctx v) (plain : ¬v.NamesTolerance) : Body ctx v := by
  induction body with
  | inequality rel left right =>
    obtain ⟨plainLeft, plainRight⟩ := not_or.mp plain
    exact .inequality rel (left.formed plainLeft) (right.formed plainRight)
  | forAll valid _ ih => exact .forAll valid (ih plain)
  | forAllFrom valid validBound _ ih => exact .forAllFrom valid validBound (ih plain)

theorem Legible.formed (legible : Legible ctx v) (plain : ¬v.NamesTolerance) : Formed ctx v := by
  cases legible with
  | identifier valid => exact .identifier valid
  | side side => exact .side (side.formed plain)
  | body body => exact .body (body.formed plain)
  | conjunction left right =>
    obtain ⟨plainLeft, plainRight⟩ := not_or.mp plain
    exact .conjunction (left.formed plainLeft) (right.formed plainRight)
  | sequenceDeclaration given valid => exact .sequenceDeclaration given valid
  | realDeclaration valid => exact .realDeclaration valid
  | naturalDeclaration valid => exact .naturalDeclaration valid
  | limit valid validLimit => exact .limit valid validLimit
  | composedLimit combines valid => exact .composedLimit combines valid
  | thereIs valid body => exact .thereIs valid (body.formed plain)

end Statement

/-- A statement in natural language is of the kind asked for, and unless the tolerance gets lost it
has a formal text. -/
theorem Kind.formed_of_natural? {k : Kind} {ctx : Context} {inMath : Bool} {s : Text}
    {v : Statement} (read : k.natural? ctx inMath s = some v) :
    v.kind = k ∧ (¬v.NamesTolerance → Formed ctx v) := by
  obtain ⟨kind, legible⟩ := Kind.legible_of_natural? read
  exact ⟨kind, legible.formed⟩

end ProofDesk.Limits
