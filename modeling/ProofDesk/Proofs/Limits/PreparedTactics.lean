import ProofDesk.Proofs.Limits.LegibleTactics
import ProofDesk.Proofs.Limits.PreparedStatements

namespace ProofDesk.Limits

open Text (isName isName_iff isWord setOff pieces not_mem_of_all)
open Statement (LegibleLeaf LegibleBody)

namespace Natural

def citation : Template := [.name, " with ", .name]

end Natural

namespace Tactic

def naturalWith (gap : Text) : Tactic → Text
  | letMax ident left right => (Natural.letMaxForm gap gap).fill [ident, left, right]
  | byProperties _ sentence => Natural.byPropertiesStart ++ sentence.naturalWith gap
  | bySentence _ sentence source point =>
    sentence.naturalWith gap ++ (setOff "by" ++ Natural.citation.fill [source, point])
  | t => t.natural

theorem naturalWith_nil (t : Tactic) : t.naturalWith [] = t.natural := by
  cases t with
  | byProperties hyp sentence =>
    exact congrArg (Natural.byPropertiesStart ++ ·) sentence.naturalWith_nil
  | bySentence hyp sentence source point =>
    have shape : (bySentence hyp sentence source point).natural =
      sentence.natural false ++ setOff "by" ++ source ++ setOff "with" ++ point := rfl
    have shape' : (bySentence hyp sentence source point).naturalWith [] = sentence.naturalWith [] ++
      (setOff "by" ++ (source ++ (setOff "with" ++ (point ++ [])))) := rfl
    simp only [shape, shape', sentence.naturalWith_nil, List.append_assoc, List.append_nil]
  | _ => rfl

end Tactic

namespace Tactic

theorem naturalWith_chooseIndex (gap limitDef hypEps chosen hyp : Text) (eps : Statement) :
    (chooseIndex limitDef eps hypEps chosen hyp).naturalWith gap =
      "Let's choose" ++ ' ' :: (("$" ++ (chosen ++ "$")) ++ ' ' :: ("such that" ++ ' ' ::
        (limitDef ++ ' ' :: ("uses" ++ ' ' :: eps.natural false)))) := by
  have written : (chooseIndex limitDef eps hypEps chosen hyp).naturalWith gap =
    "Let's choose $" ++ chosen ++ "$ such that " ++ limitDef ++ " uses " ++ eps.natural false := rfl
  simp only [written, List.append_assoc]
  rfl

theorem naturalWith_letMax (gap ident left right : Text) : (letMax ident left right).naturalWith gap =
    "Let" ++ ' ' :: ("$" ++ ((ident ++ ' ' :: ("=" ++ ' ' :: (("\\max" ++ (gap ++
      '\\' :: ((("left(" : Text) ++ left) ++ [',']))) ++ ' ' :: (right ++ (gap ++
        '\\' :: "right)"))))) ++ "$")) := by
  have written : (letMax ident left right).naturalWith gap = ("Let $" : Text) ++ (ident ++
    (((" = \\max" : Text) ++ gap ++ ("\\left(" : Text)) ++ (left ++ ((", " : Text) ++ (right ++
      ((gap ++ ("\\right)$" : Text)) ++ [])))))) := rfl
  simp [written]

theorem naturalWith_claim (gap x : Text) :
    (claim x).naturalWith gap = "We claim" ++ ' ' :: (("$" ++ (x ++ "$")) ++ ' ' :: "works") := by
  have written : (claim x).naturalWith gap = "We claim $" ++ (x ++ "$ works") := rfl
  rw [written, List.append_assoc, List.append_assoc]
  rfl

theorem naturalWith_byProperties (gap hyp : Text) (sentence : Statement) :
    (byProperties hyp sentence).naturalWith gap =
      "By inequality properties," ++ ' ' :: sentence.naturalWith gap := by
  have start : Natural.byPropertiesStart = "By inequality properties," ++ [' '] := rfl
  rw [naturalWith, start, List.append_assoc, List.singleton_append]

theorem naturalWith_bySentence (gap hyp source point : Text) (sentence : Statement) :
    (bySentence hyp sentence source point).naturalWith gap = sentence.naturalWith gap ++
      ' ' :: ("by" ++ ' ' :: (source ++ ' ' :: ("with" ++ ' ' :: point))) := by
  have written : (bySentence hyp sentence source point).naturalWith gap =
    sentence.naturalWith gap ++ (setOff "by" ++ (source ++ (setOff "with" ++ (point ++ [])))) := rfl
  simp [written, setOff]

theorem naturalWith_choosePoint (gap hyp source point : Text) :
    (choosePoint hyp source point).naturalWith gap =
      "Let's choose" ++ ' ' :: (point ++ ' ' :: ("in" ++ ' ' :: source)) := by
  have written : (choosePoint hyp source point).naturalWith gap =
    ("Let's choose " : Text) ++ (point ++ ((" in " : Text) ++ (source ++ []))) := rfl
  rw [written, List.append_nil]
  rfl

theorem naturalWith_separate (gap x : Text) :
    (separate x).naturalWith gap = "Let's separate" ++ ' ' :: x := by
  have written : (separate x).naturalWith gap = ("Let's separate " : Text) ++ (x ++ []) := rfl
  rw [written, List.append_nil]
  rfl

/-- The places where absolute values are unfolded, with the words before the last one. -/
def places (firsts : List Text) (last : Text) : List Text := firsts ++ [("and" : Text), "on", last]

theorem natural_absoluteValue {firsts : List Text} (given : ∀ x ∈ firsts, x ≠ []) (last : Text) :
    (absoluteValue (firsts ++ [last])).natural =
      Natural.absoluteValueStart ++ ' ' :: Text.joinWith [' '] (places firsts last) := by
  have written (names : List Text) : (absoluteValue names).natural = Natural.absoluteValueStart ++
      (if (Text.joinWith [' '] names.dropLast).isEmpty then []
        else ' ' :: Text.joinWith [' '] names.dropLast) ++
      (" and on " : Text) ++ names.getLast?.getD goalName := rfl
  have ending : Text.joinWith [' '] [("and" : Text), "on", last] = ("and on " : Text) ++ last := by
    rw [Text.joinWith, List.intercalate_cons_cons, List.intercalate_cons_cons,
      List.intercalate_singleton]
    rfl
  rw [written, List.dropLast_concat, List.getLast?_concat, Option.getD_some, places]
  cases firsts with
  | nil =>
    rw [List.nil_append, ending, List.append_assoc, List.append_assoc]
    rfl
  | cons x xs =>
    have nonempty : ¬(Text.joinWith [' '] (x :: xs)).isEmpty = true := by
      have first := given x List.mem_cons_self
      cases xs <;> simp [Text.joinWith, first]
    rw [if_neg nonempty, Text.joinWith_append (List.cons_ne_nil _ _) (List.cons_ne_nil _ _), ending,
      List.append_assoc, List.append_assoc]
    rfl

end Tactic

theorem Statement.LegibleLeaf.prepares_natural {ctx : Context} {v : Statement}
    (leaf : LegibleLeaf ctx v) :
    Prepares (v.natural false) (v.natural false) := by
  have shape : v.natural false = "$" ++ (v.math ++ "$") := by cases leaf <;> rfl
  rw [shape]
  exact .enclosed (.word leaf.plain) leaf.plain.dollar_not_mem

theorem Statement.LegibleBody.prepares_natural {ctx : Context} {v : Statement}
    (body : LegibleBody ctx v) :
    Prepares (v.naturalWith []) (v.naturalWith [' ']) := by
  have math : v.kind ≠ .sequenceDeclaration := by cases body <;> nofun
  rw [v.naturalWith_eq [] math, v.naturalWith_eq [' '] math]
  exact .enclosed body.prepares (body.dollar_not_mem (Or.inl rfl))

namespace Tactic

variable {ctx : Context} {t : Tactic}

theorem prepares_name {x : Text} (valid : isName x = true) :
    Prepares ("$" ++ (x ++ "$")) ("$" ++ (x ++ "$")) :=
  .enclosed (.name valid) (plain_of_isName valid).dollar_not_mem

theorem prepares_letMax {ident left right : Text}
    (valid : ∀ x ∈ [ident, left, right], isName x = true) :
    Prepares ((letMax ident left right).naturalWith [])
      ((letMax ident left right).naturalWith [' ']) := by
  have let' : Prepares "Let" "Let" := .word (by decide)
  have equals : Prepares "=" "=" := .word (by decide)
  have closing : Prepares ('\\' :: "right)") ('\\' :: "right)") := .word (by decide)
  have max : Plain "\\max" := by decide
  have variable' := plain_of_isName (valid ident (by simp))
  have first := plain_of_isName (valid left (by simp))
  have second := plain_of_isName (valid right (by simp))
  have opening : Plain ('\\' :: ((("left(" : Text) ++ left) ++ [','])) := by
    have parenthesis : Plain "\\left(" := by decide
    have noCommand : '\\' ∉ left := Natural.not_mem_of_isName (valid left (by simp)) (by decide)
    exact (parenthesis.append first.solid noCommand).append (by decide) (by decide)
  have absent : '$' ∉ ident ++ ' ' :: ("=" ++ ' ' :: (("\\max" ++ ('\\' :: ((("left(" : Text) ++ left) ++
      [',']))) ++ ' ' :: (right ++ '\\' :: "right)"))) := by
    simp [variable'.dollar_not_mem, first.dollar_not_mem, second.dollar_not_mem]
  rw [naturalWith_letMax, naturalWith_letMax]
  have sides := (Prepares.attach max (by simp) (.word opening)).space
    (.attach second (by decide) closing)
  exact let'.space (.enclosed ((Prepares.word variable').space (equals.space sides)) absent)

theorem prepares_absoluteValue {names : List Text} (given : names ≠ [])
    (valid : ∀ x ∈ names, isName x = true) :
    Prepares (absoluteValue names).natural (absoluteValue names).natural := by
  obtain ⟨firsts, last, rfl⟩ := (List.eq_nil_or_concat' names).resolve_left given
  obtain ⟨validFirsts, validLast⟩ := List.forall_mem_append.mp valid
  have start : Prepares Natural.absoluteValueStart Natural.absoluteValueStart :=
    .phrase (by decide) (by decide) (by decide)
  have words : ∀ w ∈ places firsts last, Plain w := by
    have lastWord := plain_of_isName (validLast last (by simp))
    refine List.forall_mem_append.mpr ⟨fun x member => plain_of_isName (validFirsts x member), ?_⟩
    simpa [lastWord] using And.intro (by decide : Plain "and") (by decide : Plain "on")
  rw [natural_absoluteValue (fun x member => (isName_iff.mp (validFirsts x member)).1)]
  exact start.space (.joined (by simp [places]) words)

theorem Legible.prepares (legible : t.Legible ctx) :
    Prepares (t.naturalWith []) (t.naturalWith [' ']) := by
  have let' : Prepares "Let" "Let" := .word (by decide)
  have choose : Prepares "Let's choose" "Let's choose" := .phrase (by decide) (by decide) (by decide)
  cases legible with
  | @fixTolerance ident tolerance goal =>
    have shape (gap : Text) : (Tactic.fixTolerance ident ctx.nextName).naturalWith gap =
        "Let" ++ ' ' :: ident.natural false := rfl
    rw [shape, shape]
    exact let'.space tolerance.prepares_natural
  | @chooseIndex eps limitDef hypEps chosen tolerance valid associated =>
    have such : Prepares "such that" "such that" := .phrase (by decide) (by decide) (by decide)
    have uses : Prepares "uses" "uses" := .word (by decide)
    rw [naturalWith_chooseIndex, naturalWith_chooseIndex]
    exact choose.space (.space (prepares_name (valid chosen (by simp))) (such.space
      (.space (.name (valid limitDef (by simp))) (uses.space tolerance.prepares_natural))))
  | letMax valid => exact prepares_letMax valid
  | @claim x valid =>
    have start : Prepares "We claim" "We claim" := .phrase (by decide) (by decide) (by decide)
    have works : Prepares "works" "works" := .word (by decide)
    rw [naturalWith_claim, naturalWith_claim]
    exact start.space (.space (prepares_name valid) works)
  | @byProperties sentence inequality body =>
    have start : Prepares "By inequality properties," "By inequality properties," :=
      .phrase (by decide) (by decide) (by decide)
    rw [naturalWith_byProperties, naturalWith_byProperties]
    exact start.space body.prepares_natural
  | @fixIndex ident valid goal =>
    have shape (gap : Text) : (Tactic.fixIndex ident ctx.nextName).naturalWith gap =
        "Let" ++ ' ' :: ("$" ++ (ident ++ "$")) := rfl
    rw [shape, shape]
    exact let'.space (prepares_name valid)
  | @bySentence source point sentence valid _ body =>
    have by' : Prepares "by" "by" := .word (by decide)
    have with' : Prepares "with" "with" := .word (by decide)
    rw [naturalWith_bySentence, naturalWith_bySentence]
    exact body.prepares_natural.space (by'.space (.space (.name (valid source (by simp)))
      (with'.space (.name (valid point (by simp))))))
  | @choosePoint source point valid =>
    have in' : Prepares "in" "in" := .word (by decide)
    rw [naturalWith_choosePoint, naturalWith_choosePoint]
    exact choose.space (.space (.name (valid point (by simp)))
      (in'.space (.name (valid source (by simp)))))
  | absoluteValue given valid => exact prepares_absoluteValue given valid
  | @separate x valid =>
    have start : Prepares "Let's separate" "Let's separate" :=
      .phrase (by decide) (by decide) (by decide)
    rw [naturalWith_separate, naturalWith_separate]
    exact start.space (.name valid)
  | splitGoal => exact .phrase (by decide) (by decide) (by decide)
  | splitAll => exact .phrase (by decide) (by decide) (by decide)
  | linearArithmetic => exact .phrase (by decide) (by decide) (by decide)

end Tactic
end ProofDesk.Limits
