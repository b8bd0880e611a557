import Mathlib.Data.List.Basic
import ProofDesk.Limits.TacticReading
import ProofDesk.Proofs.Limits.FormalInverse

namespace ProofDesk.Limits

open Text (isName isName_iff isWord not_mem_of_all)
open Statement (Leaf Side Body)

namespace Tactic

/-- Tactics that formal text expresses, given the goal.  Where no sequence is known, a leaf is the
tolerance or an identifier.  A hypothesis that is cited is not called as a justification begins. -/
inductive Formed (ctx : Context) : Tactic → Prop where
  | fixTolerance {ident : Statement} {hyp : Text} (tolerance : Leaf .empty ident)
    (valid : isName hyp = true) (goal : ctx.hasLimitGoal = true) :
    Formed ctx (.fixTolerance ident hyp)
  | chooseIndex {eps : Statement} {limitDef hypEps chosen hypChosen : Text} (tolerance : Leaf .empty eps)
    (valid : ∀ x ∈ [limitDef, hypEps, chosen, hypChosen], isName x = true) :
    Formed ctx (.chooseIndex limitDef eps hypEps chosen hypChosen)
  | letMax {ident left right : Text} (valid : ∀ x ∈ [ident, left, right], isName x = true) :
    Formed ctx (.letMax ident left right)
  | claim {x : Text} (valid : isName x = true) : Formed ctx (.claim x)
  | byProperties {hyp : Text} {sentence : Statement} (valid : isName hyp = true)
    (inequality : sentence.kind = .inequality) (body : Body ctx sentence) :
    Formed ctx (.byProperties hyp sentence)
  | fixIndex {ident hyp : Text} (valid : ∀ x ∈ [ident, hyp], isName x = true)
    (goal : ctx.hasIndexGoal = true) : Formed ctx (.fixIndex ident hyp)
  | bySentence {hyp source point : Text} {sentence : Statement}
    (valid : ∀ x ∈ [hyp, source, point], isName x = true)
    (inequality : sentence.kind = .inequality) (body : Body ctx sentence)
    (cites : source ≠ ("by" : Text)) : Formed ctx (.bySentence hyp sentence source point)
  | choosePoint {hyp source point : Text} (valid : ∀ x ∈ [hyp, source, point], isName x = true) :
    Formed ctx (.choosePoint hyp source point)
  | absoluteValue {names : List Text} (given : names ≠ []) (valid : ∀ x ∈ names, isName x = true) :
    Formed ctx (.absoluteValue names)
  | separate {x : Text} (valid : isName x = true) : Formed ctx (.separate x)
  | splitGoal : Formed ctx .splitGoal
  | splitAll : Formed ctx .splitAll
  | linearArithmetic : Formed ctx .linearArithmetic

end Tactic

theorem Context.is_empty (x : Text) (c : Class) : Context.empty.is x c = false := rfl

theorem Statement.Leaf.isName {v : Statement} (leaf : Leaf .empty v) : isName v.formal = true := by
  cases leaf with
  | identifier valid _ => exact valid
  | epsilon => exact isName_epsilon
  | application _ _ known =>
    rw [Context.is_empty] at known
    cases known

theorem exists_tail_of_beforeTail? {separator : Text} {tail : Template} {s left : Text}
    {names : List Text} (given : separator ≠ [])
    (read : beforeTail? separator tail s = some (left, names)) :
    ∃ right, s = left ++ (separator ++ right) ∧ isLine left = true ∧
      tail.match? right = some names := by
  obtain ⟨⟨left', _, right⟩, member, found⟩ := List.exists_of_findSome?_eq_some read
  dsimp only at found
  split at found
  · next line =>
    obtain ⟨_, filled, same⟩ := Option.map_eq_some_iff.mp found
    cases same
    obtain ⟨sep, known, whole⟩ := (Text.mem_splits_iff (by simpa using given)).mp member
    cases List.mem_singleton.mp known
    exact ⟨right, whole, line, filled⟩
  · cases found

theorem beforeTail?_eq_some {c : Char} {sep : Text} {tail : Template} {left right : Text}
    {names : List Text} (line : isLine left = true) (before : c ∉ left ++ [' '])
    (after : c ∉ sep ++ right) (read : tail.match? right = some names) :
    beforeTail? (' ' :: c :: sep) tail (left ++ (' ' :: c :: sep ++ right)) = some (left, names) := by
  have given : ∀ entry ∈ [((' ' :: c :: sep : Text), ())], entry.1 ≠ [] := by simp
  have found : (if isLine left then (tail.match? right).map fun names => (left, names) else none) =
      some (left, names) := by
    rw [if_pos line, read]
    rfl
  rw [beforeTail?, Text.findSome?_eq_some_iff_of_unique]
  · exact ⟨(left, (), right),
      (Text.mem_splits_iff given).mpr ⟨_, List.mem_singleton.mpr rfl, rfl⟩, found⟩
  · intro _ _ _ cut member b other
    obtain ⟨left', _, right'⟩ := cut
    obtain ⟨sep', known, whole⟩ := (Text.mem_splits_iff given).mp member
    cases List.mem_singleton.mp known
    have cuts : (left ++ [' ']) ++ c :: (sep ++ right) = (left' ++ [' ']) ++ c :: (sep ++ right') := by
      simpa using whole
    obtain ⟨sameLeft, -, sameRight⟩ := (List.append_cons_inj_of_notMem before after).mp cuts
    obtain rfl := List.append_cancel_right sameLeft
    obtain rfl := List.append_cancel_left sameRight
    exact Option.some.inj (other.symm.trans found)

namespace Formal

variable {ctx : Context} {s : Text}

theorem readIdent?_eq_some_iff {v : Statement} :
    readIdent? s = some v ↔ Leaf .empty v ∧ v.formal = s := by
  have none' : readApplication? .empty s = none := by
    unfold readApplication?
    split
    · next seq index _ => rw [application?, if_neg (by rw [Context.is_empty]; decide)]
    · rfl
  rw [← readLeaf?_eq_some_iff, readLeaf?, none', Option.none_or, readIdent?]

theorem readFixTolerance?_eq_some_iff {t : Tactic} : readFixTolerance? ctx s = some t ↔
    t.kind = .fixTolerance ∧ t.Formed ctx ∧ t.formal = s := by
  unfold readFixTolerance?
  constructor
  · intro read
    split at read
    · next x hyp found =>
      obtain ⟨⟨-, names⟩, rfl⟩ := (Template.match?_eq_some_iff (by decide)).mp found
      split at read
      · next goal =>
        obtain ⟨ident, tolerance, rfl⟩ := Option.map_eq_some_iff.mp read
        obtain ⟨leaf, rfl⟩ := readIdent?_eq_some_iff.mp tolerance
        exact ⟨rfl, .fixTolerance leaf (names hyp (by simp)) goal, rfl⟩
      · cases read
    · cases read
  · rintro ⟨kind, formed, rfl⟩
    cases formed with
    | @fixTolerance ident hyp leaf valid goal =>
      have named := leaf.isName
      have fits : fixForm.Fits [ident.formal, hyp] := ⟨rfl, by simp [named, valid]⟩
      have found : fixForm.match? (Tactic.fixTolerance ident hyp).formal = some [ident.formal, hyp] :=
        Template.match?_fill (by decide) fits
      rw [found]
      dsimp only
      rw [if_pos goal, readIdent?_eq_some_iff.mpr ⟨leaf, rfl⟩]
      rfl
    | _ => cases kind

theorem readChooseIndex?_eq_some_iff {t : Tactic} : readChooseIndex? s = some t ↔
    t.kind = .chooseIndex ∧ t.Formed ctx ∧ t.formal = s := by
  unfold readChooseIndex?
  constructor
  · intro read
    split at read
    · next limitDef x hypEps chosen hypChosen found =>
      obtain ⟨⟨-, names⟩, rfl⟩ := (Template.match?_eq_some_iff (by decide)).mp found
      obtain ⟨eps, tolerance, rfl⟩ := Option.map_eq_some_iff.mp read
      obtain ⟨leaf, rfl⟩ := readIdent?_eq_some_iff.mp tolerance
      exact ⟨rfl, .chooseIndex leaf fun y member => names y (by simp at member ⊢; tauto), rfl⟩
    · cases read
  · rintro ⟨kind, formed, rfl⟩
    cases formed with
    | @chooseIndex eps limitDef hypEps chosen hypChosen leaf valid =>
      have named := leaf.isName
      have fits : chooseIndexForm.Fits [limitDef, eps.formal, hypEps, chosen, hypChosen] :=
        ⟨rfl, by simp_all⟩
      have found : chooseIndexForm.match?
          (Tactic.chooseIndex limitDef eps hypEps chosen hypChosen).formal =
            some [limitDef, eps.formal, hypEps, chosen, hypChosen] :=
        Template.match?_fill (by decide) fits
      rw [found]
      dsimp only
      rw [readIdent?_eq_some_iff.mpr ⟨leaf, rfl⟩]
      rfl
    | _ => cases kind

theorem readLetMax?_eq_some_iff {t : Tactic} : readLetMax? s = some t ↔
    t.kind = .letMax ∧ t.Formed ctx ∧ t.formal = s := by
  unfold readLetMax?
  constructor
  · intro read
    split at read
    · next ident left right found =>
      obtain ⟨⟨-, names⟩, rfl⟩ := (Template.match?_eq_some_iff (by decide)).mp found
      cases read
      exact ⟨rfl, .letMax names, rfl⟩
    · cases read
  · rintro ⟨kind, formed, rfl⟩
    cases formed with
    | @letMax ident left right valid =>
      have found : letMaxForm.match? (Tactic.letMax ident left right).formal =
          some [ident, left, right] := Template.match?_fill (by decide) ⟨rfl, valid⟩
      rw [found]
    | _ => cases kind

theorem readClaim?_eq_some_iff {t : Tactic} : readClaim? s = some t ↔
    t.kind = .claim ∧ t.Formed ctx ∧ t.formal = s := by
  unfold readClaim?
  constructor
  · intro read
    split at read
    · next x found =>
      obtain ⟨⟨-, names⟩, rfl⟩ := (Template.match?_eq_some_iff (by decide)).mp found
      cases read
      exact ⟨rfl, .claim (names x (by simp)), rfl⟩
    · cases read
  · rintro ⟨kind, formed, rfl⟩
    cases formed with
    | @claim x valid =>
      have found : claimForm.match? (Tactic.claim x).formal = some [x] :=
        Template.match?_fill (by decide) ⟨rfl, by simpa using valid⟩
      rw [found]
    | _ => cases kind

theorem readFixIndex?_eq_some_iff {t : Tactic} : readFixIndex? ctx s = some t ↔
    t.kind = .fixIndex ∧ t.Formed ctx ∧ t.formal = s := by
  unfold readFixIndex?
  constructor
  · intro read
    split at read
    · next ident hyp found =>
      obtain ⟨⟨-, names⟩, rfl⟩ := (Template.match?_eq_some_iff (by decide)).mp found
      split at read
      · next goal =>
        cases read
        exact ⟨rfl, .fixIndex names goal, rfl⟩
      · cases read
    · cases read
  · rintro ⟨kind, formed, rfl⟩
    cases formed with
    | @fixIndex ident hyp valid goal =>
      have found : fixForm.match? (Tactic.fixIndex ident hyp).formal = some [ident, hyp] :=
        Template.match?_fill (by decide) ⟨rfl, valid⟩
      rw [found]
      exact if_pos goal
    | _ => cases kind

theorem readChoosePoint?_eq_some_iff {t : Tactic} : readChoosePoint? s = some t ↔
    t.kind = .choosePoint ∧ t.Formed ctx ∧ t.formal = s := by
  unfold readChoosePoint?
  constructor
  · intro read
    split at read
    · next hyp source point found =>
      obtain ⟨⟨-, names⟩, rfl⟩ := (Template.match?_eq_some_iff (by decide)).mp found
      cases read
      exact ⟨rfl, .choosePoint names, rfl⟩
    · cases read
  · rintro ⟨kind, formed, rfl⟩
    cases formed with
    | @choosePoint hyp source point valid =>
      have found : choosePointForm.match? (Tactic.choosePoint hyp source point).formal =
          some [hyp, source, point] := Template.match?_fill (by decide) ⟨rfl, valid⟩
      rw [found]
    | _ => cases kind

theorem readSeparate?_eq_some_iff {t : Tactic} : readSeparate? s = some t ↔
    t.kind = .separate ∧ t.Formed ctx ∧ t.formal = s := by
  unfold readSeparate?
  constructor
  · intro read
    split at read
    · next x found =>
      obtain ⟨⟨-, names⟩, rfl⟩ := (Template.match?_eq_some_iff (by decide)).mp found
      cases read
      exact ⟨rfl, .separate (names x (by simp)), rfl⟩
    · cases read
  · rintro ⟨kind, formed, rfl⟩
    cases formed with
    | @separate x valid =>
      have found : separateForm.match? (Tactic.separate x).formal = some [x] :=
        Template.match?_fill (by decide) ⟨rfl, by simpa using valid⟩
      rw [found]
    | _ => cases kind

theorem read?_haveHeader {hyp rest : Text} : haveHeader.read? s = some ([hyp], rest) ↔
    isName hyp = true ∧ s = haveHeader.fill [hyp] ++ rest := by
  rw [Template.read?_eq_some_iff_of_closed (by decide)]
  simp [Template.Fits, haveHeader, Template.blanks]

theorem readByProperties?_eq_some_iff {t : Tactic} : readByProperties? ctx s = some t ↔
    t.kind = .byProperties ∧ t.Formed ctx ∧ t.formal = s := by
  unfold readByProperties?
  constructor
  · intro read
    split at read
    · next hyp rest found =>
      obtain ⟨valid, rfl⟩ := read?_haveHeader.mp found
      obtain ⟨w, stripped, read⟩ := Option.bind_eq_some_iff.mp read
      obtain ⟨trailing, -⟩ := Option.filter_eq_some_iff.mp stripped
      obtain ⟨sentence, inside, same⟩ := Option.bind_eq_some_iff.mp read
      cases same
      obtain ⟨kind, body, rfl⟩ := readInequality?_eq_some_iff.mp inside
      rw [Text.stripTrailing?_eq_some_iff.mp trailing, ← List.append_assoc]
      exact ⟨rfl, .byProperties valid kind body, rfl⟩
    · cases read
  · rintro ⟨kind, formed, rfl⟩
    cases formed with
    | @byProperties hyp sentence valid inequality body =>
      have found : haveHeader.read? (Tactic.byProperties hyp sentence).formal =
          some ([hyp], sentence.formal ++ byPropertiesEnd) :=
        read?_haveHeader.mpr ⟨valid, List.append_assoc _ _ _⟩
      have stripped : (Text.stripTrailing? byPropertiesEnd (sentence.formal ++ byPropertiesEnd)).filter
          isLine = some sentence.formal :=
        Option.filter_eq_some_iff.mpr ⟨Text.stripTrailing?_eq_some_iff.mpr rfl, body.isLine⟩
      have inside : readInequality? ctx sentence.formal = some sentence :=
        readInequality?_eq_some_iff.mpr ⟨inequality, body, rfl⟩
      rw [found]
      dsimp only
      rw [stripped, Option.bind_eq_bind, Option.bind_some, inside]
      rfl
    | _ => cases kind

def citation : Template := [.name, " ", .name]

theorem formal_bySentence (hyp source point : Text) (sentence : Statement) :
    (Tactic.bySentence hyp sentence source point).formal =
      haveHeader.fill [hyp] ++ (sentence.formal ++ (" := " ++ citation.fill [source, point])) := by
  have written : (Tactic.bySentence hyp sentence source point).formal =
      haveHeader.fill [hyp] ++ sentence.formal ++ " := " ++ source ++ " " ++ point := rfl
  rw [written]
  simp only [citation, Template.fill, List.append_assoc, List.append_nil]

theorem all_among_citation {source point : Text} (valid : isName source = true)
    (validPoint : isName point = true) :
    (citation.fill [source, point]).all (among leafMarks) = true := by
  have first := all_among_of_isName leafMarks valid
  have second := all_among_of_isName leafMarks validPoint
  have space : (" " : Text).all (among leafMarks) = true := by decide
  simp only [citation, Template.fill, List.all_append, first, second, space]
  rfl

theorem readBySentence?_eq_some_iff {t : Tactic} : readBySentence? ctx s = some t ↔
    t.kind = .bySentence ∧ t.Formed ctx ∧ t.formal = s := by
  unfold readBySentence?
  constructor
  · intro read
    split at read
    · next hyp rest found =>
      obtain ⟨valid, rfl⟩ := read?_haveHeader.mp found
      split at read
      · next left source point cut =>
        obtain ⟨right, rfl, -, cited⟩ := exists_tail_of_beforeTail? (by decide) cut
        obtain ⟨⟨-, names⟩, rfl⟩ := (Template.match?_eq_some_iff (by decide)).mp cited
        split at read
        · cases read
        · next cites =>
          obtain ⟨sentence, inside, rfl⟩ := Option.map_eq_some_iff.mp read
          obtain ⟨kind, body, rfl⟩ := readInequality?_eq_some_iff.mp inside
          refine ⟨rfl, .bySentence ?_ kind body cites, ?_⟩
          · exact List.forall_mem_cons.mpr ⟨valid, names⟩
          · exact formal_bySentence hyp source point sentence
      · cases read
    · cases read
  · rintro ⟨kind, formed, rfl⟩
    cases formed with
    | @bySentence hyp source point sentence valid inequality body cites =>
      obtain ⟨validHyp, names⟩ := List.forall_mem_cons.mp valid
      have found : haveHeader.read? (Tactic.bySentence hyp sentence source point).formal =
          some ([hyp], sentence.formal ++ (" := " ++ citation.fill [source, point])) :=
        read?_haveHeader.mpr ⟨validHyp, formal_bySentence hyp source point sentence⟩
      have cited : citation.match? (citation.fill [source, point]) = some [source, point] :=
        Template.match?_fill (by decide) ⟨rfl, names⟩
      have before : ':' ∉ sentence.formal ++ [' '] := by
        simp [not_mem_of_all body.all (c := ':') (by decide)]
      have after : ':' ∉ ("= " : Text) ++ citation.fill [source, point] := by
        have absent := not_mem_of_all (all_among_citation (names source (by simp))
          (names point (by simp))) (c := ':') (by decide)
        simp [absent]
      have cut : beforeTail? " := " citation
          (sentence.formal ++ (" := " ++ citation.fill [source, point])) =
            some (sentence.formal, [source, point]) :=
        beforeTail?_eq_some body.isLine before after cited
      have inside : readInequality? ctx sentence.formal = some sentence :=
        readInequality?_eq_some_iff.mpr ⟨inequality, body, rfl⟩
      rw [found]
      dsimp only
      rw [show beforeTail? " := " [.name, " ", .name] _ = _ from cut]
      dsimp only
      rw [if_neg cites, inside]
      rfl
    | _ => cases kind

/-! Names in a list, where the goal has a sign of its own. -/

theorem spacedItems?_eq_some_iff {xs : List Text} :
    spacedItems? s = some xs ↔ xs ≠ [] ∧ Text.fields (· == ' ') s = [] :: xs := by
  unfold spacedItems?
  constructor
  · intro read
    split at read
    · next item items same =>
      cases read
      exact ⟨List.cons_ne_nil _ _, same⟩
    · cases read
  · rintro ⟨given, same⟩
    obtain ⟨item, items, rfl⟩ := List.exists_cons_of_ne_nil given
    rw [same]

/-- What stands for a name among the places where absolute values are unfolded. -/
def placeOf (x : Text) : Text := if x = goalName then turnstile else x

def nameOfPlace (x : Text) : Text := if x = turnstile then goalName else x

theorem isName_nameOfPlace {x : Text} (place : (isName x || x == turnstile) = true) :
    isName (nameOfPlace x) = true := by
  unfold nameOfPlace
  split
  · decide
  · next other =>
    rcases Bool.or_eq_true_iff.mp place with name | goal
    · exact name
    · exact absurd (eq_of_beq goal) other

theorem nameOfPlace_placeOf {x : Text} (valid : isName x = true) : nameOfPlace (placeOf x) = x := by
  unfold placeOf
  split
  · next goal =>
    rw [goal]
    rfl
  · next other =>
    apply if_neg
    rintro rfl
    have outside : isWord '⊢' = false := isWord_operator (by decide) (by decide)
    exact not_mem_of_all (isName_iff.mp valid).2 outside (by decide)

theorem place_placeOf {x : Text} (valid : isName x = true) :
    (isName (placeOf x) || placeOf x == turnstile) = true := by
  unfold placeOf
  split
  · simp
  · simp [valid]

theorem unspaced_placeOf {x : Text} (valid : isName x = true) : ' ' ∉ placeOf x := by
  unfold placeOf
  split
  · decide
  · exact not_mem_of_all (isName_iff.mp valid).2 (by decide)

theorem readAbsoluteValue?_sound {t : Tactic} (read : readAbsoluteValue? s = some t) :
    t.kind = .absoluteValue ∧ t.Formed ctx ∧ ∃ rest, s = absoluteValueStart ++ rest := by
  obtain ⟨rest, leading, read⟩ := Option.bind_eq_some_iff.mp read
  obtain ⟨items, spaced, read⟩ := Option.bind_eq_some_iff.mp read
  obtain ⟨given, -⟩ := spacedItems?_eq_some_iff.mp spaced
  split at read
  · next places =>
    cases read
    rw [List.all_eq_true] at places
    refine ⟨rfl, .absoluteValue (by simpa using given) ?_, rest,
      Text.stripLeading?_eq_some_iff.mp leading⟩
    intro x member
    obtain ⟨item, known, rfl⟩ := List.mem_map.mp member
    exact isName_nameOfPlace (places item known)
  · cases read

theorem readAbsoluteValue?_formal {names : List Text} (given : names ≠ [])
    (valid : ∀ x ∈ names, isName x = true) :
    readAbsoluteValue? (Tactic.absoluteValue names).formal = some (.absoluteValue names) := by
  have leading : Text.stripLeading? absoluteValueStart (Tactic.absoluteValue names).formal =
      some (' ' :: Text.joinWith [' '] (names.map placeOf)) :=
    Text.stripLeading?_eq_some_iff.mpr (List.append_assoc _ _ _)
  have cut : Text.fields (· == ' ') (Text.joinWith [' '] (names.map placeOf)) =
      names.map placeOf := by
    apply Text.fields_joinWith (by simpa using given)
    intro place member
    obtain ⟨x, known, rfl⟩ := List.mem_map.mp member
    exact unspaced_placeOf (valid x known)
  have items : spacedItems? (' ' :: Text.joinWith [' '] (names.map placeOf)) =
      some (names.map placeOf) := by
    refine spacedItems?_eq_some_iff.mpr ⟨by simpa using given, ?_⟩
    rw [Text.fields, cut]
    rfl
  have places : ((names.map placeOf).all fun x => isName x || x == turnstile) = true := by
    rw [List.all_map, List.all_eq_true]
    intro x member
    exact place_placeOf (valid x member)
  have back : (names.map placeOf).map nameOfPlace = names := by
    have each : ∀ x ∈ names, (nameOfPlace ∘ placeOf) x = id x := by
      intro x member
      exact nameOfPlace_placeOf (valid x member)
    rw [List.map_map, List.map_congr_left each, List.map_id]
  rw [readAbsoluteValue?, leading, Option.bind_eq_bind, Option.bind_some, items,
    Option.bind_eq_bind, Option.bind_some, if_pos places]
  exact congrArg (fun xs => some (Tactic.absoluteValue xs)) back

end Formal
end ProofDesk.Limits
