import ProofDesk.Proofs.Limits.PreparedTactics
import ProofDesk.Proofs.Limits.TacticDispatch

/-!
Reading proof lines is a left inverse of showing tactics.  The reader of each kind gives a legible
tactic back from its line, with or without gaps.  Lines of most kinds begin differently; those that
may begin alike go on differently or need different goals, so no line is for two kinds.
-/

namespace ProofDesk.Limits

open Text (isName isName_iff isWord setOff pieces not_mem_of_all)
open Statement (LegibleLeaf LegibleBody)

namespace Natural

variable {ctx : Context} {gap : Text} {v : Statement}

theorem readIdent?_math (leaf : LegibleLeaf .empty v) : readIdent? v.math = some v :=
  readIdent?_eq_some_iff.mpr ⟨leaf, rfl⟩

theorem natural_leaf (leaf : LegibleLeaf ctx v) : v.natural false = "$" ++ (v.math ++ "$") := by
  cases leaf <;> rfl

theorem natural_fixTolerance (tolerance : LegibleLeaf .empty v) (hyp : Text) :
    (Tactic.fixTolerance v hyp).natural = fixStart ++ (v.math ++ "$") := by
  have written : (Tactic.fixTolerance v hyp).natural = "Let " ++ v.natural false := rfl
  rw [written, natural_leaf tolerance]
  rfl

theorem readFixTolerance?_natural (tolerance : LegibleLeaf .empty v) (goal : ctx.hasLimitGoal = true)
    (hyp : Text) : readFixTolerance? ctx (Tactic.fixTolerance v hyp).natural =
      some (.fixTolerance v ctx.nextName) := by
  have inside := Text.between?_eq_some_iff.mpr (natural_fixTolerance tolerance hyp)
  rw [readFixTolerance?, inside, Option.bind_eq_bind, Option.bind_some,
    readIdent?_math tolerance]
  exact if_pos goal

theorem readChooseIndex?_natural {limitDef chosen hypEps : Text} (tolerance : LegibleLeaf .empty v)
    (valid : ∀ x ∈ [chosen, limitDef], isName x = true)
    (associated : ctx.associate? v.formal = some hypEps) (hyp : Text) :
    readChooseIndex? ctx (Tactic.chooseIndex limitDef v hypEps chosen hyp).natural =
      some (.chooseIndex limitDef v hypEps chosen ctx.nextName) := by
  have line : (Tactic.chooseIndex limitDef v hypEps chosen hyp).natural =
      chooseIndexHeader.fill [chosen, limitDef] ++ (v.math ++ "$") := by
    have written : (Tactic.chooseIndex limitDef v hypEps chosen hyp).natural =
      "Let's choose $" ++ chosen ++ "$ such that " ++ limitDef ++ " uses " ++ v.natural false := rfl
    have filled : chooseIndexHeader.fill [chosen, limitDef] = ("Let's choose $" : Text) ++
      (chosen ++ (("$ such that " : Text) ++ (limitDef ++ (" uses $" : Text)))) := rfl
    simp only [written, filled, natural_leaf tolerance, List.append_assoc]
    rfl
  have header := (Template.read?_eq_some_iff_of_closed (by decide)).mpr ⟨⟨rfl, valid⟩, line⟩
  rw [readChooseIndex?, header]
  dsimp only
  rw [Text.stripTrailing?_eq_some_iff.mpr rfl, Option.bind_eq_bind, Option.bind_some,
    readIdent?_math tolerance, Option.bind_eq_bind, Option.bind_some, associated]
  rfl

theorem readClaim?_natural {x : Text} (valid : isName x = true) :
    readClaim? (Tactic.claim x).natural = some (.claim x) := by
  have found : claimForm.match? (Tactic.claim x).natural = some [x] :=
    Template.match?_fill (by decide) (fits_one rfl valid)
  rw [readClaim?, found]

theorem isLine_naturalWith (either : gap = [] ∨ gap = [' ']) (body : LegibleBody ctx v) :
    isLine (v.naturalWith gap) = true := by
  rcases either with rfl | rfl
  · exact Statement.isLine_of_tidy body.prepares_natural.tidy
  · exact Statement.isLine_of_tidy body.prepares_natural.tidyAfter

theorem readByProperties?_naturalWith (either : gap = [] ∨ gap = [' '])
    (inequality : v.kind = .inequality) (body : LegibleBody ctx v) (hyp : Text) :
    readByProperties? ctx ((Tactic.byProperties hyp v).naturalWith gap) =
      some (.byProperties ctx.nextName v) := by
  have line := isLine_naturalWith either body
  have stripped : (Text.stripLeading? byPropertiesStart
      ((Tactic.byProperties hyp v).naturalWith gap)).filter isLine = some (v.naturalWith gap) :=
    Option.filter_eq_some_iff.mpr ⟨Text.stripLeading?_append _ _, line⟩
  have inside := (Statement.Legible.body body).natural? either
  rw [inequality] at inside
  rw [readByProperties?, stripped, Option.bind_eq_bind, Option.bind_some, inside]
  rfl

theorem readFixIndex?_natural {ident : Text} (valid : isName ident = true)
    (goal : ctx.hasIndexGoal = true) (hyp : Text) :
    readFixIndex? ctx (Tactic.fixIndex ident hyp).natural = some (.fixIndex ident ctx.nextName) := by
  have found : fixIndexForm.match? (Tactic.fixIndex ident hyp).natural = some [ident] :=
    Template.match?_fill (by decide) (fits_one rfl valid)
  rw [readFixIndex?, found]
  exact if_pos goal

theorem readChoosePoint?_natural {source point : Text}
    (valid : ∀ x ∈ [point, source], isName x = true) (hyp : Text) :
    readChoosePoint? ctx (Tactic.choosePoint hyp source point).natural =
      some (.choosePoint ctx.nextName source point) := by
  have found : choosePointForm.match? (Tactic.choosePoint hyp source point).natural =
      some [point, source] := Template.match?_fill (by decide) ⟨rfl, valid⟩
  rw [readChoosePoint?, found]

theorem readSeparate?_natural {x : Text} (valid : isName x = true) :
    readSeparate? (Tactic.separate x).natural = some (.separate x) := by
  have found : separateForm.match? (Tactic.separate x).natural = some [x] :=
    Template.match?_fill (by decide) (fits_one rfl valid)
  rw [readSeparate?, found]

theorem readAbsoluteValue?_natural {names : List Text} (given : names ≠ [])
    (valid : ∀ x ∈ names, isName x = true) :
    readAbsoluteValue? (Tactic.absoluteValue names).natural = some (.absoluteValue names) := by
  obtain ⟨firsts, last, rfl⟩ := (List.eq_nil_or_concat' names).resolve_left given
  obtain ⟨validFirsts, validLast⟩ := List.forall_mem_append.mp valid
  have named : ∀ x ∈ Tactic.places firsts last, isName x = true := by
    have and' : isName "and" = true := by decide
    have on : isName "on" = true := by decide
    exact List.forall_mem_append.mpr
      ⟨validFirsts, List.forall_mem_cons.mpr ⟨and', List.forall_mem_cons.mpr ⟨on, validLast⟩⟩⟩
  have leading := Text.stripLeading?_eq_some_iff.mpr
    (Tactic.natural_absoluteValue (fun x member => (isName_iff.mp (validFirsts x member)).1) last)
  have items : spacedItems? (' ' :: Text.joinWith [' '] (Tactic.places firsts last)) =
      some (Tactic.places firsts last) := by
    refine Formal.spacedItems?_eq_some_iff.mpr ⟨by simp [Tactic.places], ?_⟩
    rw [Text.fields, Text.fields_joinWith (by simp [Tactic.places])]
    · rfl
    · exact fun x member => not_mem_of_isName (named x member) (by decide)
  have backwards : (Tactic.places firsts last).reverse = last :: "on" :: "and" :: firsts.reverse := by
    simp [Tactic.places]
  rw [readAbsoluteValue?, leading, Option.bind_eq_bind, Option.bind_some, items, Option.bind_eq_bind,
    Option.bind_some, if_pos (List.all_eq_true.mpr named), backwards]
  dsimp only
  rw [if_pos ⟨rfl, rfl⟩, List.reverse_reverse]

theorem guarded_letMaxForm {before after : Text} (either : before = [] ∨ before = [' '])
    (either' : after = [] ∨ after = [' ']) : (letMaxForm before after).guarded true = true := by
  rcases either with rfl | rfl <;> rcases either' with rfl | rfl <;> decide

theorem fill_letMaxForm (before after ident left right : Text) :
    (letMaxForm before after).fill [ident, left, right] = "Let $" ++ (ident ++ ' ' :: ("= \\max" ++
      (before ++ ("\\left(" ++ (left ++ ',' :: ' ' :: (right ++ (after ++ "\\right)$"))))))) := by
  have filled : (letMaxForm before after).fill [ident, left, right] = ("Let $" : Text) ++ (ident ++
    (((" = \\max" : Text) ++ before ++ ("\\left(" : Text)) ++ (left ++ ((", " : Text) ++ (right ++
      ((after ++ ("\\right)$" : Text)) ++ [])))))) := rfl
  simp only [filled, List.append_assoc, List.append_nil]
  rfl

theorem fill_letMaxForm_inj {before after before' after' ident left right ident' left' right' : Text}
    (either : before = [] ∨ before = [' ']) (either' : before' = [] ∨ before' = [' '])
    (closes : after = [] ∨ after = [' ']) (closes' : after' = [] ∨ after' = [' '])
    (valid : ∀ x ∈ [ident, left, right], isName x = true)
    (valid' : ∀ x ∈ [ident', left', right'], isName x = true)
    (same : (letMaxForm before after).fill [ident, left, right] =
      (letMaxForm before' after').fill [ident', left', right']) :
    ident = ident' ∧ left = left' ∧ right = right' := by
  have word {x : Text} {xs : List Text} (names : ∀ x ∈ xs, isName x = true) (member : x ∈ xs) :
      x.all isWord = true := (isName_iff.mp (names x member)).2
  rw [fill_letMaxForm, fill_letMaxForm] at same
  obtain ⟨rfl, -, sides⟩ := (Text.append_cons_inj_of_all (word valid (by simp))
    (word valid' (by simp)) (by decide) (by decide)).mp (List.append_cancel_left same)
  have opened : left ++ ',' :: ' ' :: (right ++ (after ++ "\\right)$")) =
      left' ++ ',' :: ' ' :: (right' ++ (after' ++ "\\right)$")) := by
    have behind := List.append_cancel_left sides
    rcases either with rfl | rfl <;> rcases either' with rfl | rfl
    · exact List.append_cancel_left behind
    · cases behind
    · cases behind
    · exact List.append_cancel_left (List.append_cancel_left behind)
  obtain ⟨rfl, -, second⟩ := (Text.append_cons_inj_of_all (word valid (by simp))
    (word valid' (by simp)) (by decide) (by decide)).mp opened
  have closed := (List.cons.inj second).2
  have ending {gap : Text} (gapped : gap = [] ∨ gap = [' ']) : ∃ c rest,
      gap ++ ("\\right)$" : Text) = c :: rest ∧ isWord c = false := by
    rcases gapped with rfl | rfl
    · exact ⟨_, _, rfl, by decide⟩
    · exact ⟨_, _, rfl, by decide⟩
  obtain ⟨c, rest, shape, outside⟩ := ending closes
  obtain ⟨c', rest', shape', outside'⟩ := ending closes'
  rw [shape, shape'] at closed
  obtain ⟨rfl, -, -⟩ := (Text.append_cons_inj_of_all (word valid (by simp))
    (word valid' (by simp)) outside outside').mp closed
  exact ⟨rfl, rfl, rfl⟩

theorem exists_fill_of_readLetMax? {s : Text} {t : Tactic} (read : readLetMax? s = some t) :
    ∃ before after ident left right, (before = [] ∨ before = [' ']) ∧ (after = [] ∨ after = [' ']) ∧
      (∀ x ∈ [ident, left, right], isName x = true) ∧
      s = (letMaxForm before after).fill [ident, left, right] ∧ t = .letMax ident left right := by
  obtain ⟨form, listed, found⟩ := List.exists_of_findSome?_eq_some read
  have shape : ∃ before after, (before = [] ∨ before = [' ']) ∧ (after = [] ∨ after = [' ']) ∧
      form = letMaxForm before after := by
    have space : (" " : Text) = [' '] := rfl
    simp only [List.mem_cons, List.not_mem_nil, or_false, space] at listed
    rcases listed with rfl | rfl | rfl | rfl
    · exact ⟨[], [], Or.inl rfl, Or.inl rfl, rfl⟩
    · exact ⟨[], [' '], Or.inl rfl, Or.inr rfl, rfl⟩
    · exact ⟨[' '], [], Or.inr rfl, Or.inl rfl, rfl⟩
    · exact ⟨[' '], [' '], Or.inr rfl, Or.inr rfl, rfl⟩
  obtain ⟨before, after, opens, closes, rfl⟩ := shape
  split at found
  · next ident left right names =>
    cases found
    obtain ⟨⟨-, valid⟩, whole⟩ :=
      (Template.match?_eq_some_iff (guarded_letMaxForm opens closes)).mp names
    exact ⟨before, after, ident, left, right, opens, closes, valid, whole, rfl⟩
  · cases found

theorem readLetMax?_naturalWith (either : gap = [] ∨ gap = [' ']) {ident left right : Text}
    (valid : ∀ x ∈ [ident, left, right], isName x = true) :
    readLetMax? ((Tactic.letMax ident left right).naturalWith gap) =
      some (.letMax ident left right) := by
  have filled : (Tactic.letMax ident left right).naturalWith gap =
    (letMaxForm gap gap).fill [ident, left, right] := rfl
  have own : (letMaxForm gap gap).match? ((letMaxForm gap gap).fill [ident, left, right]) =
      some [ident, left, right] :=
    Template.match?_fill (guarded_letMaxForm either either) ⟨rfl, valid⟩
  have some' : (readLetMax? ((letMaxForm gap gap).fill [ident, left, right])).isSome := by
    rw [readLetMax?, List.findSome?_isSome_iff]
    refine ⟨letMaxForm gap gap, ?_, ?_⟩
    · rcases either with rfl | rfl <;> simp
    · rw [own]
      rfl
  obtain ⟨t, read⟩ := Option.isSome_iff_exists.mp some'
  obtain ⟨before, after, ident', left', right', opens, closes, valid', same, rfl⟩ :=
    exists_fill_of_readLetMax? read
  obtain ⟨rfl, rfl, rfl⟩ := fill_letMaxForm_inj either opens either closes valid valid' same
  rw [filled, read]

theorem readLetMax?_eq_none {s : Text} (unspaced : ' ' ∉ s) : readLetMax? ("Let $" ++ s) = none := by
  rw [Option.eq_none_iff_forall_ne_some]
  intro t read
  obtain ⟨before, after, ident, left, right, -, -, -, whole, -⟩ := exists_fill_of_readLetMax? read
  rw [fill_letMaxForm] at whole
  apply unspaced
  rw [List.append_cancel_left whole]
  simp

theorem pieces_citation {source point : Text} (valid : ∀ x ∈ [source, point], isName x = true) :
    pieces (citation.fill [source, point]) = [source, "with", point] := by
  have unspaced (x : Text) (member : x ∈ [source, point]) : ' ' ∉ x :=
    not_mem_of_isName (valid x member) (by decide)
  have shape : citation.fill [source, point] = source ++ (setOff "with" ++ (point ++ [])) := rfl
  rw [shape, List.append_nil, Text.pieces_setOff (by decide),
    Text.pieces_of_not_mem (unspaced source (by simp)),
    Text.pieces_of_not_mem (unspaced point (by simp))]
  rfl

/-- A citation is found behind the last separator, since it has three words. -/
theorem beforeTail?_citation {left source point : Text} (line : isLine left = true)
    (valid : ∀ x ∈ [source, point], isName x = true) :
    beforeTail? " by " citation (left ++ (setOff "by" ++ citation.fill [source, point])) =
      some (left, [source, point]) := by
  have given : ∀ entry ∈ [((" by " : Text), ())], entry.1 ≠ [] := by decide
  have cited : citation.match? (citation.fill [source, point]) = some [source, point] :=
    Template.match?_fill (by decide) ⟨rfl, valid⟩
  have found : (if isLine left then (citation.match? (citation.fill [source, point])).map
      fun names => (left, names) else none) = some (left, [source, point]) := by
    rw [if_pos line, cited]
    rfl
  rw [beforeTail?, Text.findSome?_eq_some_iff_of_unique]
  · exact ⟨(left, (), _), (Text.mem_splits_iff given).mpr ⟨_, List.mem_singleton.mpr rfl, rfl⟩, found⟩
  · rintro _ _ _ ⟨left', _, right'⟩ member found' other
    obtain ⟨sep, known, whole⟩ := (Text.mem_splits_iff given).mp member
    cases List.mem_singleton.mp known
    dsimp only at other
    split at other
    · obtain ⟨names, cited', same⟩ := Option.map_eq_some_iff.mp other
      obtain ⟨⟨count, valid'⟩, rfl⟩ := (Template.match?_eq_some_iff (by decide)).mp cited'
      obtain ⟨source', point', rfl⟩ := List.length_eq_two.mp count
      have words := congrArg pieces whole
      have sep' : (" by " : Text) = setOff "by" := rfl
      rw [sep', Text.pieces_setOff (by decide), Text.pieces_setOff (by decide), pieces_citation valid,
        pieces_citation valid'] at words
      obtain ⟨sameLeft, sameRight⟩ := List.append_inj' words rfl
      obtain rfl := Text.pieces_inj sameLeft
      cases sameRight
      exact same.symm
    · cases other

theorem readBySentence?_naturalWith (either : gap = [] ∨ gap = [' '])
    (inequality : v.kind = .inequality) (body : LegibleBody ctx v) {source point : Text}
    (valid : ∀ x ∈ [source, point], isName x = true) (hyp : Text) :
    readBySentence? ctx ((Tactic.bySentence hyp v source point).naturalWith gap) =
      some (.bySentence ctx.nextName v source point) := by
  have line := isLine_naturalWith either body
  have cut : beforeTail? " by " [.name, " with ", .name]
      ((Tactic.bySentence hyp v source point).naturalWith gap) =
        some (v.naturalWith gap, [source, point]) := beforeTail?_citation line valid
  have inside := (Statement.Legible.body body).natural? either
  rw [inequality] at inside
  rw [readBySentence?, cut]
  dsimp only
  rw [inside]
  rfl

theorem readChooseIndex?_eq_none {x : Text} (valid : isName x = true) (rest : Text) :
    readChooseIndex? ctx ("Let's choose " ++ (x ++ rest)) = none := by
  have absent : chooseIndexHeader.read? ("Let's choose " ++ (x ++ rest)) = none := by
    rw [Option.eq_none_iff_forall_ne_some]
    rintro ⟨xs, rest'⟩ read
    obtain ⟨behind, whole⟩ := Template.prefix_of_read? read
    have shape : ("Let's choose $" : Text) ++ behind = "Let's choose " ++ ('$' :: behind) := rfl
    rw [shape] at whole
    obtain ⟨given, word⟩ := isName_iff.mp valid
    obtain ⟨c, x, rfl⟩ := List.exists_cons_of_ne_nil given
    obtain ⟨rfl, -⟩ := List.cons.inj (List.append_cancel_left whole)
    cases word
  rw [readChooseIndex?, absent]

theorem readLetMax?_eq_none_of_fixTolerance {s : Text} {t : Tactic}
    (read : readFixTolerance? ctx s = some t) :
    readLetMax? s = none := by
  obtain ⟨inside, between, read⟩ := Option.bind_eq_some_iff.mp read
  obtain ⟨ident, tolerance, -⟩ := Option.bind_eq_some_iff.mp read
  obtain ⟨leaf, rfl⟩ := readIdent?_eq_some_iff.mp tolerance
  rw [Text.between?_eq_some_iff.mp between]
  apply readLetMax?_eq_none
  simpa using leaf.unspaced

theorem readLetMax?_eq_none_of_fixIndex {s : Text} {t : Tactic}
    (read : readFixIndex? ctx s = some t) :
    readLetMax? s = none := by
  unfold readFixIndex? at read
  split at read
  · next ident filled =>
    obtain ⟨⟨-, names⟩, rfl⟩ := (Template.match?_eq_some_iff (by decide)).mp filled
    have unspaced : ' ' ∉ ident := not_mem_of_isName (names ident (by simp)) (by decide)
    have line : fixIndexForm.fill [ident] = "Let $" ++ (ident ++ "$") := rfl
    rw [line]
    apply readLetMax?_eq_none
    simpa using unspaced
  · cases read

theorem readChooseIndex?_eq_none_of_choosePoint {s : Text} {t : Tactic}
    (read : readChoosePoint? ctx s = some t) :
    readChooseIndex? ctx s = none := by
  unfold readChoosePoint? at read
  split at read
  · next point source filled =>
    obtain ⟨⟨-, names⟩, rfl⟩ := (Template.match?_eq_some_iff (by decide)).mp filled
    have line : choosePointForm.fill [point, source] =
      ("Let's choose " : Text) ++ (point ++ ((" in " : Text) ++ (source ++ []))) := rfl
    rw [line]
    exact readChooseIndex?_eq_none (names point (by simp)) _
  · cases read

end Natural

open Natural

namespace TacticKind

def rivals (k k' : TacticKind) : Bool :=
  k.beginning.isPrefixOf k'.beginning || k'.beginning.isPrefixOf k.beginning

theorem rivals_of_beginnings {k k' : TacticKind} {s : Text} (begins : k.beginning <+: s)
    (begins' : k'.beginning <+: s) : k.rivals k' = true := by
  rw [rivals, Bool.or_eq_true, List.isPrefixOf_iff_prefix, List.isPrefixOf_iff_prefix]
  exact List.prefix_or_prefix_of_prefix begins begins'

/-- Pairs of kinds whose lines in natural language may begin alike. -/
def naturalRivals : List (TacticKind × TacticKind) := [
  (splitAll, splitGoal), (fixTolerance, letMax), (fixIndex, letMax), (fixTolerance, fixIndex),
  (choosePoint, chooseIndex)]

theorem naturalRivals_of_rivals {k k' : TacticKind} (begins : k.rivals k' = true) :
    k = k' ∨ (k, k') ∈ naturalRivals ∨ (k', k) ∈ naturalRivals := by
  have table : ∀ k ∈ all, ∀ k' ∈ all, k.rivals k' = true →
      k = k' ∨ (k, k') ∈ naturalRivals ∨ (k', k) ∈ naturalRivals := by
    decide
  exact table k k.mem_all k' k'.mem_all begins

section

variable {ctx : Context} {s : Text} {t t' : Tactic} {k k' : TacticKind}

theorem natural?_rival (rivals : (k, k') ∈ naturalRivals) (first : k.natural? ctx s = some t)
    (second : k'.natural? ctx s = some t') : False := by
  simp only [naturalRivals, List.mem_cons, Prod.mk.injEq, List.not_mem_nil, or_false] at rivals
  rcases rivals with ⟨rfl, rfl⟩ | ⟨rfl, rfl⟩ | ⟨rfl, rfl⟩ | ⟨rfl, rfl⟩ | ⟨rfl, rfl⟩
  · obtain ⟨all', -⟩ := Option.ite_none_right_eq_some.mp first
    obtain ⟨one, -⟩ := Option.ite_none_right_eq_some.mp second
    have different : Natural.splitAllText ≠ Natural.splitGoalText := by decide
    exact different (all'.symm.trans one)
  · have none' : letMax.natural? ctx s = none :=
      Natural.readLetMax?_eq_none_of_fixTolerance first
    rw [none'] at second
    cases second
  · have none' : letMax.natural? ctx s = none := Natural.readLetMax?_eq_none_of_fixIndex first
    rw [none'] at second
    cases second
  · obtain ⟨kind, legible, -⟩ := found_of_natural? first
    obtain ⟨kind', legible', -⟩ := found_of_natural? second
    cases legible with
    | fixTolerance _ limit =>
      cases legible' with
      | fixIndex _ index => exact Context.not_both_goals limit index
      | _ => cases kind'
    | _ => cases kind
  · have none' : chooseIndex.natural? ctx s = none :=
      Natural.readChooseIndex?_eq_none_of_choosePoint first
    rw [none'] at second
    cases second

theorem eq_of_natural? (first : (k.natural? ctx s).isSome) (second : (k'.natural? ctx s).isSome) :
    k = k' := by
  obtain ⟨t, read⟩ := Option.isSome_iff_exists.mp first
  obtain ⟨t', read'⟩ := Option.isSome_iff_exists.mp second
  obtain ⟨-, -, begins⟩ := found_of_natural? read
  obtain ⟨-, -, begins'⟩ := found_of_natural? read'
  rcases naturalRivals_of_rivals (rivals_of_beginnings begins begins') with one | rivals | rivals
  · exact one
  · exact (natural?_rival rivals read read').elim
  · exact (natural?_rival rivals read' read).elim

end

end TacticKind

namespace Tactic

variable {ctx : Context} {gap s : Text} {t : Tactic}

theorem Legible.natural? (either : gap = [] ∨ gap = [' ']) (legible : t.Legible ctx) :
    t.kind.natural? ctx (t.naturalWith gap) = some t := by
  cases legible with
  | fixTolerance tolerance goal => exact readFixTolerance?_natural tolerance goal ctx.nextName
  | chooseIndex tolerance valid associated =>
    exact readChooseIndex?_natural tolerance valid associated ctx.nextName
  | letMax valid => exact readLetMax?_naturalWith either valid
  | claim valid => exact readClaim?_natural valid
  | byProperties inequality body =>
    exact readByProperties?_naturalWith either inequality body ctx.nextName
  | fixIndex valid goal => exact readFixIndex?_natural valid goal ctx.nextName
  | bySentence valid inequality body =>
    exact readBySentence?_naturalWith either inequality body valid ctx.nextName
  | choosePoint valid => exact readChoosePoint?_natural valid ctx.nextName
  | absoluteValue given valid => exact readAbsoluteValue?_natural given valid
  | separate valid => exact readSeparate?_natural valid
  | splitGoal => rfl
  | splitAll => rfl
  | linearArithmetic => rfl

theorem Legible.readNatural?_all (either : gap = [] ∨ gap = [' ']) (legible : t.Legible ctx) :
    Tactic.readNatural? ctx (t.naturalWith gap) = some (t, ctx.afterNatural t) := by
  have own := legible.natural? either
  apply read_eq_some_of_only t.kind.mem_all own
  intro k found
  exact TacticKind.eq_of_natural? found (Option.isSome_of_eq_some own)

end Tactic
end ProofDesk.Limits
