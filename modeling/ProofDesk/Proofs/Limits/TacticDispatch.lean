import ProofDesk.Proofs.Limits.TacticForms

namespace ProofDesk.Limits

open Text (isName isName_iff not_mem_of_all)

variable {ctx : Context} {s : Text} {t : Tactic}

namespace TacticKind

def initials : TacticKind → Text
  | splitAll | splitGoal => "sp"
  | letMax => "le"
  | fixTolerance | fixIndex => "in"
  | chooseIndex | separate => "ca"
  | choosePoint | byProperties | bySentence => "ha"
  | claim => "us"
  | absoluteValue => "rw"
  | linearArithmetic => "li"

theorem initials_formal (t : Tactic) : t.formal.take 2 = t.kind.initials := by
  cases t <;> rfl

/-- A reader of formal text gives formed tactics of its kind, and takes only texts that begin as
theirs do.  It takes the very text that the tactic is written as, except that places may be called
by the name of the goal. -/
theorem formed_of_formal? {k : TacticKind} (read : k.formal? ctx s = some t) :
    t.kind = k ∧ t.Formed ctx ∧ s.take 2 = k.initials ∧ (k ≠ .absoluteValue → t.formal = s) := by
  have exactly (found : t.kind = k ∧ t.Formed ctx ∧ t.formal = s) :
      t.kind = k ∧ t.Formed ctx ∧ s.take 2 = k.initials ∧ (k ≠ .absoluteValue → t.formal = s) := by
    obtain ⟨rfl, formed, rfl⟩ := found
    exact ⟨rfl, formed, initials_formal t, fun _ => rfl⟩
  cases k with
  | fixTolerance => exact exactly (Formal.readFixTolerance?_eq_some_iff.mp read)
  | chooseIndex => exact exactly (Formal.readChooseIndex?_eq_some_iff.mp read)
  | letMax => exact exactly (Formal.readLetMax?_eq_some_iff.mp read)
  | claim => exact exactly (Formal.readClaim?_eq_some_iff.mp read)
  | byProperties => exact exactly (Formal.readByProperties?_eq_some_iff.mp read)
  | fixIndex => exact exactly (Formal.readFixIndex?_eq_some_iff.mp read)
  | bySentence => exact exactly (Formal.readBySentence?_eq_some_iff.mp read)
  | choosePoint => exact exactly (Formal.readChoosePoint?_eq_some_iff.mp read)
  | absoluteValue =>
    have found : t.kind = .absoluteValue ∧ t.Formed ctx ∧ _ := Formal.readAbsoluteValue?_sound read
    obtain ⟨kind, formed, rest, rfl⟩ := found
    exact ⟨kind, formed, rfl, fun other => absurd rfl other⟩
  | separate => exact exactly (Formal.readSeparate?_eq_some_iff.mp read)
  | splitGoal =>
    obtain ⟨same, done⟩ := Option.ite_none_right_eq_some.mp read
    cases done
    exact exactly ⟨rfl, .splitGoal, same.symm⟩
  | splitAll =>
    obtain ⟨same, done⟩ := Option.ite_none_right_eq_some.mp read
    cases done
    exact exactly ⟨rfl, .splitAll, same.symm⟩
  | linearArithmetic =>
    obtain ⟨same, done⟩ := Option.ite_none_right_eq_some.mp read
    cases done
    exact exactly ⟨rfl, .linearArithmetic, same.symm⟩

end TacticKind

theorem Context.not_both_goals {ctx : Context} (limit : ctx.hasLimitGoal = true)
    (index : ctx.hasIndexGoal = true) : False := by
  have first := eq_of_beq limit
  rw [eq_of_beq index] at first
  cases first

namespace Tactic

theorem Formed.formal? (formed : t.Formed ctx) : t.kind.formal? ctx t.formal = some t := by
  have whole := formed
  cases formed with
  | fixTolerance _ _ _ => exact Formal.readFixTolerance?_eq_some_iff.mpr ⟨rfl, whole, rfl⟩
  | chooseIndex _ _ => exact Formal.readChooseIndex?_eq_some_iff.mpr ⟨rfl, whole, rfl⟩
  | letMax _ => exact Formal.readLetMax?_eq_some_iff.mpr ⟨rfl, whole, rfl⟩
  | claim _ => exact Formal.readClaim?_eq_some_iff.mpr ⟨rfl, whole, rfl⟩
  | byProperties _ _ _ => exact Formal.readByProperties?_eq_some_iff.mpr ⟨rfl, whole, rfl⟩
  | fixIndex _ _ => exact Formal.readFixIndex?_eq_some_iff.mpr ⟨rfl, whole, rfl⟩
  | bySentence _ _ _ _ => exact Formal.readBySentence?_eq_some_iff.mpr ⟨rfl, whole, rfl⟩
  | choosePoint _ => exact Formal.readChoosePoint?_eq_some_iff.mpr ⟨rfl, whole, rfl⟩
  | absoluteValue given valid => exact Formal.readAbsoluteValue?_formal given valid
  | separate _ => exact Formal.readSeparate?_eq_some_iff.mpr ⟨rfl, whole, rfl⟩
  | splitGoal => rfl
  | splitAll => rfl
  | linearArithmetic => rfl

theorem separate_formal_ne {x limitDef hypEps chosen hypChosen : Text} {eps : Statement}
    (valid : isName x = true) :
    (separate x).formal ≠ (chooseIndex limitDef eps hypEps chosen hypChosen).formal := by
  intro same
  have unspaced : ' ' ∉ x := not_mem_of_all (isName_iff.mp valid).2 (by decide)
  have written : x ++ [] = limitDef ++ ((" " : Text) ++ _) := List.append_cancel_left same
  rw [List.append_nil] at written
  apply unspaced
  rw [written]
  simp

theorem fill_haveHeader_append (hyp rest : Text) : Formal.haveHeader.fill [hyp] ++ rest =
    ("have " : Text) ++ (hyp ++ ' ' :: ':' :: ' ' :: rest) := by
  simp [Formal.haveHeader, Template.fill]

theorem choosePoint_formal_ne {hyp source point hyp' rest : Text} (valid : isName hyp = true)
    (valid' : isName hyp' = true) :
    (choosePoint hyp source point).formal ≠ Formal.haveHeader.fill [hyp'] ++ rest := by
  intro same
  obtain ⟨-, word⟩ := isName_iff.mp valid
  obtain ⟨-, word'⟩ := isName_iff.mp valid'
  rw [fill_haveHeader_append] at same
  have behind : hyp ++ ' ' :: (':' :: '=' :: ' ' :: _) = hyp' ++ ' ' :: ':' :: ' ' :: rest :=
    List.append_cancel_left same
  obtain ⟨-, -, signs⟩ := (Text.append_cons_inj_of_all word word' (by decide) (by decide)).mp behind
  simp at signs

/-- A justification is taken for a citation only of what is called as a justification begins. -/
theorem byProperties_formal_ne {hyp hyp' source point : Text} {v w : Statement}
    (first : (byProperties hyp v).Formed ctx) (second : (bySentence hyp' w source point).Formed ctx) :
    (byProperties hyp v).formal ≠ (bySentence hyp' w source point).formal := by
  intro same
  cases first with
  | byProperties valid _ body =>
    cases second with
    | bySentence names _ body' cites =>
      obtain ⟨-, word⟩ := isName_iff.mp valid
      obtain ⟨-, word'⟩ := isName_iff.mp (names hyp' (by simp))
      obtain ⟨-, cited⟩ := isName_iff.mp (names source (by simp))
      have left : (byProperties hyp v).formal =
          Formal.haveHeader.fill [hyp] ++ (v.formal ++ Formal.byPropertiesEnd) :=
        List.append_assoc _ _ _
      rw [left, Formal.formal_bySentence, fill_haveHeader_append, fill_haveHeader_append] at same
      obtain ⟨-, -, behind⟩ := (Text.append_cons_inj_of_all word word' (by decide) (by decide)).mp
        (List.append_cancel_left same)
      have statements : v.formal ++ Formal.byPropertiesEnd =
          w.formal ++ (" := " ++ Formal.citation.fill [source, point]) := by
        simpa using behind
      have before {u : Statement} (body : Statement.Body ctx u) :
          (u.formal ++ [' ']).all (among bodyMarks) = true := by
        rw [List.all_append, body.all]
        rfl
      have colons : (v.formal ++ [' ']) ++ ':' :: ("= by obvious_ineq" : Text) =
          (w.formal ++ [' ']) ++ ':' :: (("= " : Text) ++ Formal.citation.fill [source, point]) := by
        rw [List.append_assoc, List.append_assoc]
        exact statements
      obtain ⟨-, -, ends⟩ := (Text.append_cons_inj_of_all (before body) (before body') (by decide)
        (by decide)).mp colons
      have justified : ("= " : Text) ++ (("by" : Text) ++ ' ' :: ("obvious_ineq" : Text)) =
          ("= " : Text) ++ (source ++ ' ' :: (point ++ [])) := ends
      have words := List.append_cancel_left justified
      obtain ⟨called, -, -⟩ := (Text.append_cons_inj_of_all (by decide) cited (by decide)
        (by decide)).mp words
      exact cites called.symm

end Tactic

namespace TacticKind

theorem mem_all (k : TacticKind) : k ∈ all := by
  cases k <;> decide

/-- Pairs of kinds whose formal texts begin alike. -/
def formalRivals : List (TacticKind × TacticKind) := [
  (splitAll, splitGoal), (fixTolerance, fixIndex), (separate, chooseIndex),
  (choosePoint, byProperties), (choosePoint, bySentence), (byProperties, bySentence)]

theorem formalRivals_of_initials {k k' : TacticKind} (begins : k.initials = k'.initials) :
    k = k' ∨ (k, k') ∈ formalRivals ∨ (k', k) ∈ formalRivals := by
  have table : ∀ k ∈ all, ∀ k' ∈ all, k.initials = k'.initials →
      k = k' ∨ (k, k') ∈ formalRivals ∨ (k', k) ∈ formalRivals := by
    decide
  exact table k k.mem_all k' k'.mem_all begins

end TacticKind

namespace Tactic

theorem Formed.formal_ne_of_rivals {t' : Tactic} (formed : t.Formed ctx) (formed' : t'.Formed ctx)
    (rivals : (t.kind, t'.kind) ∈ TacticKind.formalRivals) : t.formal ≠ t'.formal := by
  have whole := formed
  have whole' := formed'
  cases formed with
  | splitAll =>
    cases formed' with
    | splitGoal => decide
    | _ => simp [kind, TacticKind.formalRivals] at rivals
  | fixTolerance _ _ limit =>
    cases formed' with
    | fixIndex _ index => exact (Context.not_both_goals limit index).elim
    | _ => simp [kind, TacticKind.formalRivals] at rivals
  | separate valid =>
    cases formed' with
    | chooseIndex _ _ => exact separate_formal_ne valid
    | _ => simp [kind, TacticKind.formalRivals] at rivals
  | choosePoint names =>
    cases formed' with
    | byProperties valid _ _ =>
      intro same
      exact choosePoint_formal_ne (names _ (by simp)) valid
        (same.trans (List.append_assoc _ _ _))
    | bySentence names' _ _ _ =>
      intro same
      exact choosePoint_formal_ne (names _ (by simp)) (names' _ (by simp))
        (same.trans (Formal.formal_bySentence _ _ _ _))
    | _ => simp [kind, TacticKind.formalRivals] at rivals
  | byProperties _ _ _ =>
    cases formed' with
    | bySentence _ _ _ _ => exact byProperties_formal_ne whole whole'
    | _ => simp [kind, TacticKind.formalRivals] at rivals
  | _ => simp [kind, TacticKind.formalRivals] at rivals

end Tactic

namespace TacticKind

variable {t' : Tactic} {k k' : TacticKind}

theorem formal?_rival (rivals : (k, k') ∈ formalRivals) (first : k.formal? ctx s = some t)
    (second : k'.formal? ctx s = some t') : False := by
  have exactly : ∀ pair ∈ formalRivals, pair.1 ≠ absoluteValue ∧ pair.2 ≠ absoluteValue := by decide
  obtain ⟨other, other'⟩ := exactly _ rivals
  obtain ⟨rfl, formed, -, written⟩ := formed_of_formal? first
  obtain ⟨rfl, formed', -, written'⟩ := formed_of_formal? second
  exact formed.formal_ne_of_rivals formed' rivals ((written other).trans (written' other').symm)

theorem eq_of_formal? (first : (k.formal? ctx s).isSome) (second : (k'.formal? ctx s).isSome) :
    k = k' := by
  obtain ⟨t, read⟩ := Option.isSome_iff_exists.mp first
  obtain ⟨t', read'⟩ := Option.isSome_iff_exists.mp second
  obtain ⟨-, -, begins, -⟩ := formed_of_formal? read
  obtain ⟨-, -, begins', -⟩ := formed_of_formal? read'
  rcases formalRivals_of_initials (begins.symm.trans begins') with one | rivals | rivals
  · exact one
  · exact (formal?_rival rivals read read').elim
  · exact (formal?_rival rivals read' read).elim

end TacticKind

theorem Tactic.Formed.readFormal?_all (formed : t.Formed ctx) :
    Tactic.readFormal? ctx t.formal = some (t, ctx.afterFormal t) := by
  have own := formed.formal?
  apply read_eq_some_of_only t.kind.mem_all own
  intro k found
  exact TacticKind.eq_of_formal? found (Option.isSome_of_eq_some own)

end ProofDesk.Limits
