import ProofDesk.Proofs.Limits.Legible
import ProofDesk.Proofs.Limits.TacticForms

namespace ProofDesk.Limits

open Text (isName)
open Template (prefix_of_read? prefix_of_match?)
open Statement (LegibleLeaf LegibleBody)

theorem Statement.Legible.inequality_body {ctx : Context} {v : Statement}
    (legible : Statement.Legible ctx v) (inequality : v.kind = .inequality) : LegibleBody ctx v := by
  cases legible with
  | body body => exact body
  | side side =>
    cases side with
    | leaf leaf => cases leaf <;> cases inequality
    | _ => cases inequality
  | _ => cases inequality

namespace Tactic

/-- Tactics that natural language expresses.  Where no sequence is known, a leaf is the tolerance or
an identifier. -/
inductive Legible (ctx : Context) : Tactic → Prop where
  | fixTolerance {ident : Statement} (tolerance : LegibleLeaf .empty ident)
    (goal : ctx.hasLimitGoal = true) : Legible ctx (.fixTolerance ident ctx.nextName)
  | chooseIndex {eps : Statement} {limitDef hypEps chosen : Text} (tolerance : LegibleLeaf .empty eps)
    (valid : ∀ x ∈ [chosen, limitDef], isName x = true)
    (associated : ctx.associate? eps.formal = some hypEps) :
    Legible ctx (.chooseIndex limitDef eps hypEps chosen ctx.nextName)
  | letMax {ident left right : Text} (valid : ∀ x ∈ [ident, left, right], isName x = true) :
    Legible ctx (.letMax ident left right)
  | claim {x : Text} (valid : isName x = true) : Legible ctx (.claim x)
  | byProperties {sentence : Statement} (inequality : sentence.kind = .inequality)
    (body : LegibleBody ctx sentence) : Legible ctx (.byProperties ctx.nextName sentence)
  | fixIndex {ident : Text} (valid : isName ident = true) (goal : ctx.hasIndexGoal = true) :
    Legible ctx (.fixIndex ident ctx.nextName)
  | bySentence {source point : Text} {sentence : Statement}
    (valid : ∀ x ∈ [source, point], isName x = true) (inequality : sentence.kind = .inequality)
    (body : LegibleBody ctx sentence) :
    Legible ctx (.bySentence ctx.nextName sentence source point)
  | choosePoint {source point : Text} (valid : ∀ x ∈ [point, source], isName x = true) :
    Legible ctx (.choosePoint ctx.nextName source point)
  | absoluteValue {names : List Text} (given : names ≠ []) (valid : ∀ x ∈ names, isName x = true) :
    Legible ctx (.absoluteValue names)
  | separate {x : Text} (valid : isName x = true) : Legible ctx (.separate x)
  | splitGoal : Legible ctx .splitGoal
  | splitAll : Legible ctx .splitAll
  | linearArithmetic : Legible ctx .linearArithmetic

end Tactic

def TacticKind.beginning : TacticKind → Text
  | splitAll | splitGoal => Natural.splitGoalText
  | letMax | fixTolerance | fixIndex => Natural.fixStart
  | chooseIndex | choosePoint => "Let's choose "
  | claim => "We claim $"
  | byProperties => Natural.byPropertiesStart
  | bySentence => "$"
  | absoluteValue => Natural.absoluteValueStart
  | separate => "Let's separate "
  | linearArithmetic => Natural.linearArithmeticText

namespace Natural

variable {ctx : Context} {s : Text} {t : Tactic}

theorem readIdent?_eq_some_iff {v : Statement} :
    readIdent? s = some v ↔ LegibleLeaf .empty v ∧ v.math = s := by
  have none' : readApplication? .empty s = none := by
    rw [Option.eq_none_iff_forall_ne_some]
    intro w read
    obtain ⟨kind, leaf, -⟩ := readApplication?_eq_some_iff.mp read
    cases leaf with
    | application _ _ known _ => cases known
    | _ => cases kind
  rw [← readLeaf?_eq_some_iff, readLeaf?, none', Option.none_or, readIdent?]

/-- What a reader of proof lines gives: a legible tactic of its kind, from a line that begins as the
kind does. -/
def Found (ctx : Context) (k : TacticKind) (s : Text) (t : Tactic) : Prop :=
  t.kind = k ∧ t.Legible ctx ∧ k.beginning <+: s

theorem readFixTolerance?_found (read : readFixTolerance? ctx s = some t) :
    Found ctx .fixTolerance s t := by
  obtain ⟨inside, between, read⟩ := Option.bind_eq_some_iff.mp read
  obtain ⟨ident, tolerance, read⟩ := Option.bind_eq_some_iff.mp read
  split at read
  · next goal =>
    cases read
    refine ⟨rfl, .fixTolerance (readIdent?_eq_some_iff.mp tolerance).1 goal, inside ++ "$", ?_⟩
    exact (Text.between?_eq_some_iff.mp between).symm
  · cases read

theorem readChooseIndex?_found (read : readChooseIndex? ctx s = some t) :
    Found ctx .chooseIndex s t := by
  unfold readChooseIndex? at read
  split at read
  · next chosen limitDef rest header =>
    obtain ⟨inside, -, read⟩ := Option.bind_eq_some_iff.mp read
    obtain ⟨eps, tolerance, read⟩ := Option.bind_eq_some_iff.mp read
    obtain ⟨hypEps, associated, same⟩ := Option.bind_eq_some_iff.mp read
    cases same
    have begins : ("Let's choose $" : Text) <+: s := prefix_of_read? header
    have shorter : TacticKind.beginning .chooseIndex <+: ("Let's choose $" : Text) := by decide
    exact ⟨rfl, .chooseIndex (readIdent?_eq_some_iff.mp tolerance).1
      (Template.fits_of_read? header).2 associated, shorter.trans begins⟩
  · cases read

theorem readLetMax?_found (read : readLetMax? s = some t) : Found ctx .letMax s t := by
  obtain ⟨form, listed, found⟩ := List.exists_of_findSome?_eq_some read
  have shape : ∃ ps, form = .lit "Let $" :: ps := by
    simp only [List.mem_cons, List.not_mem_nil, or_false] at listed
    rcases listed with rfl | rfl | rfl | rfl <;> exact ⟨_, rfl⟩
  obtain ⟨ps, rfl⟩ := shape
  split at found
  · next ident left right filled =>
    cases found
    exact ⟨rfl, .letMax (Template.fits_of_match? filled).2, prefix_of_match? filled⟩
  · cases found

theorem readClaim?_found (read : readClaim? s = some t) : Found ctx .claim s t := by
  unfold readClaim? at read
  split at read
  · next x filled =>
    cases read
    exact ⟨rfl, .claim ((Template.fits_of_match? filled).2 x (by simp)), prefix_of_match? filled⟩
  · cases read

theorem readByProperties?_found (read : readByProperties? ctx s = some t) :
    Found ctx .byProperties s t := by
  obtain ⟨rest, stripped, read⟩ := Option.bind_eq_some_iff.mp read
  obtain ⟨sentence, found, same⟩ := Option.bind_eq_some_iff.mp read
  cases same
  obtain ⟨leading, -⟩ := Option.filter_eq_some_iff.mp stripped
  obtain ⟨kind, legible⟩ := Kind.legible_of_natural? found
  exact ⟨rfl, .byProperties kind (legible.inequality_body kind), rest,
    (Text.stripLeading?_eq_some_iff.mp leading).symm⟩

theorem readFixIndex?_found (read : readFixIndex? ctx s = some t) : Found ctx .fixIndex s t := by
  unfold readFixIndex? at read
  split at read
  · next ident filled =>
    split at read
    · next goal =>
      cases read
      have valid := (Template.fits_of_match? filled).2 ident (by simp)
      exact ⟨rfl, .fixIndex valid goal, prefix_of_match? filled⟩
    · cases read
  · cases read

theorem dollar_prefix {left : Text} {k : Kind} {v : Statement} (other : k ≠ .sequenceDeclaration)
    (read : k.natural? ctx false left = some v) : ("$" : Text) <+: left := by
  rw [Kind.natural?, if_neg other] at read
  obtain ⟨inside, enclosed, -⟩ := Option.bind_eq_some_iff.mp read
  rw [inside?, if_neg (by decide)] at enclosed
  obtain ⟨between, -⟩ := Option.filter_eq_some_iff.mp enclosed
  exact ⟨inside ++ "$", (Text.between?_eq_some_iff.mp between).symm⟩

theorem readBySentence?_found (read : readBySentence? ctx s = some t) : Found ctx .bySentence s t := by
  unfold readBySentence? at read
  split at read
  · next left source point cut =>
    obtain ⟨right, rfl, -, cited⟩ := exists_tail_of_beforeTail? (by decide) cut
    obtain ⟨sentence, found, same⟩ := Option.bind_eq_some_iff.mp read
    cases same
    obtain ⟨kind, legible⟩ := Kind.legible_of_natural? found
    have begins : ("$" : Text) <+: left := dollar_prefix (by decide) found
    exact ⟨rfl, .bySentence (Template.fits_of_match? cited).2 kind (legible.inequality_body kind),
      begins.trans (List.prefix_append _ _)⟩
  · cases read

theorem readChoosePoint?_found (read : readChoosePoint? ctx s = some t) :
    Found ctx .choosePoint s t := by
  unfold readChoosePoint? at read
  split at read
  · next point source filled =>
    cases read
    exact ⟨rfl, .choosePoint (Template.fits_of_match? filled).2, prefix_of_match? filled⟩
  · cases read

theorem readAbsoluteValue?_found (read : readAbsoluteValue? s = some t) :
    Found ctx .absoluteValue s t := by
  obtain ⟨rest, leading, read⟩ := Option.bind_eq_some_iff.mp read
  obtain ⟨items, -, read⟩ := Option.bind_eq_some_iff.mp read
  split at read
  · next valid =>
    rw [List.all_eq_true] at valid
    split at read
    · next last on and firsts shape =>
      split at read
      · cases read
        refine ⟨rfl, .absoluteValue (by simp) ?_, rest,
          (Text.stripLeading?_eq_some_iff.mp leading).symm⟩
        intro x member
        apply valid x
        rw [← List.mem_reverse, shape]
        simp only [List.mem_append, List.mem_reverse, List.mem_singleton] at member
        rcases member with first | rfl <;> simp_all
      · cases read
    · cases read
  · cases read

theorem readSeparate?_found (read : readSeparate? s = some t) : Found ctx .separate s t := by
  unfold readSeparate? at read
  split at read
  · next x filled =>
    cases read
    exact ⟨rfl, .separate ((Template.fits_of_match? filled).2 x (by simp)), prefix_of_match? filled⟩
  · cases read

end Natural

theorem TacticKind.found_of_natural? {k : TacticKind} {ctx : Context} {s : Text} {t : Tactic}
    (read : k.natural? ctx s = some t) : t.kind = k ∧ t.Legible ctx ∧ k.beginning <+: s := by
  cases k with
  | fixTolerance => exact Natural.readFixTolerance?_found read
  | chooseIndex => exact Natural.readChooseIndex?_found read
  | letMax => exact Natural.readLetMax?_found read
  | claim => exact Natural.readClaim?_found read
  | byProperties => exact Natural.readByProperties?_found read
  | fixIndex => exact Natural.readFixIndex?_found read
  | bySentence => exact Natural.readBySentence?_found read
  | choosePoint => exact Natural.readChoosePoint?_found read
  | absoluteValue => exact Natural.readAbsoluteValue?_found read
  | separate => exact Natural.readSeparate?_found read
  | splitGoal =>
    obtain ⟨rfl, same⟩ := Option.ite_none_right_eq_some.mp read
    cases same
    exact ⟨rfl, .splitGoal, List.prefix_refl _⟩
  | splitAll =>
    obtain ⟨rfl, same⟩ := Option.ite_none_right_eq_some.mp read
    cases same
    exact ⟨rfl, .splitAll, by decide⟩
  | linearArithmetic =>
    obtain ⟨rfl, same⟩ := Option.ite_none_right_eq_some.mp read
    cases same
    exact ⟨rfl, .linearArithmetic, List.prefix_refl _⟩

end ProofDesk.Limits
