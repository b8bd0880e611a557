import ProofDesk.Proofs.Deduction.Renumbering

/-!
One proof opens another at an index below a node if it has one child more there and is otherwise the
same up to renumbering.  Putting a child in opens the proof before, and taking a child away gives a
proof that the one before opens.  Antecedents, verdicts and checks are the same in both.
-/

namespace ProofDesk.Deduction.Proof

open Logic (Sentence)

variable {p after lower upper : Proof} {parent path : Path} {index : Nat}

/-- Every node of the lower proof is found in the upper one, both renumbered. -/
structure Opens (parent : Path) (index : Nat) (lower upper : Proof) : Prop where
  label : ∀ q, (upper.at? (Path.insertShift parent index q)).map label =
    ((lower.renumber (Path.insertShift parent index)).at? q).map label

theorem getElem?_insertIdx_moved {α : Type} (l : List α) (x : α) (i : Nat) :
    (l.insertIdx index x)[if index ≤ i then i + 1 else i]? = l[i]? := by
  rw [List.getElem?_insertIdx]
  split
  · rename_i later
    have : ¬ i + 1 < index := by omega
    have : i + 1 ≠ index := by omega
    simp [*]
  · rename_i earlier
    have : i < index := by omega
    simp [*]

theorem getElem?_eraseIdx_moved {α : Type} (l : List α) (i : Nat) :
    (l.eraseIdx index)[i]? = l[if index ≤ i then i + 1 else i]? := by
  rw [List.getElem?_eraseIdx]
  split <;> split <;> first | rfl | omega

theorem label_insertIdx {q : Proof} (new : Proof) (found : p.at? parent = some q) (path : Path) :
    ((p.modify (fun q => q.withChildren (q.children.insertIdx index new)) parent).at?
      (Path.insertShift parent index path)).map label = (p.at? path).map label := by
  by_cases below : parent <+: path
  · rcases below with ⟨rest, rfl⟩
    rw [Path.insertShift_append, at?_modify_below, at?_append, found]
    simp only [Option.bind_some]
    cases rest with
    | nil => simp [Path.insertShift]
    | cons i rest =>
      rw [Path.insertShift, at?_cons, at?_cons, children_withChildren,
        getElem?_insertIdx_moved]
  · rw [Path.insertShift_of_not_below below, label_modify_beside _ below]

theorem label_eraseIdx {q : Proof} (found : p.at? parent = some q) (path : Path) :
    ((p.modify (fun q => q.withChildren (q.children.eraseIdx index)) parent).at? path).map label =
      (p.at? (Path.insertShift parent index path)).map label := by
  by_cases below : parent <+: path
  · rcases below with ⟨rest, rfl⟩
    rw [Path.insertShift_append, at?_modify_below, at?_append, found]
    simp only [Option.bind_some]
    cases rest with
    | nil => simp [Path.insertShift]
    | cons i rest =>
      rw [Path.insertShift, at?_cons, at?_cons, children_withChildren, getElem?_eraseIdx_moved]
  · rw [Path.insertShift_of_not_below below, label_modify_beside _ below]

theorem insertAt_eq_ok {s : Sentence} : p.insertAt s parent index = .ok (path, after) ↔
    ∃ q, p.at? parent = some q ∧ index ≤ q.children.length ∧ path = parent ++ [index] ∧
      after = (p.renumber (Path.insertShift parent index)).modify
        (fun q => q.withChildren (q.children.insertIdx index (single s))) parent := by
  unfold insertAt
  simp only [bind_eq_ok_iff, get_eq_ok]
  refine exists_congr fun q => and_congr_right fun _ => ?_
  by_cases outside : q.children.length < index
  · have apart : ¬ index ≤ q.children.length := by omega
    simp [outside, apart]
  · have inside : index ≤ q.children.length := by omega
    simp only [if_neg outside, pure_eq_ok_iff, Prod.mk.injEq, inside, true_and]
    exact and_congr eq_comm eq_comm

theorem insertAt_opens {s : Sentence} (done : p.insertAt s parent index = .ok (path, after)) :
    Opens parent index p after := by
  rcases insertAt_eq_ok.mp done with ⟨q, found, inside, rfl, rfl⟩
  have there : (p.renumber (Path.insertShift parent index)).at? parent =
      some (q.renumber (Path.insertShift parent index)) := by
    rw [at?_renumber, found, Option.map_some]
  exact ⟨label_insertIdx (single s) there⟩

theorem at?_insertAt {s : Sentence} (done : p.insertAt s parent index = .ok (path, after)) :
    after.at? path = some (single s) := by
  rcases insertAt_eq_ok.mp done with ⟨q, found, inside, rfl, rfl⟩
  rw [at?_modify_below, at?_renumber, found]
  simp only [Option.map_some, Option.bind_some]
  rw [at?_cons, children_withChildren, children_renumber]
  simp [List.getElem?_insertIdx, inside]

theorem referenceInto?_eq_none : p.referenceInto? path = none ↔
    ∀ q n, p.at? q = some n → ¬ path <+: q → ∀ c ∈ n.citations, ¬ path <+: c := by
  simp only [referenceInto?, List.findSome?_eq_none_iff, Prod.forall, mem_nodes]
  refine forall_congr' fun q => forall_congr' fun n => imp_congr_right fun _ => ?_
  by_cases inside : path <+: q
  · simp [Path.leadsTo_iff, inside]
  · simp [Path.leadsTo, inside, List.find?_eq_none]

theorem remove_eq_ok {removed : Proof} : p.remove path = .ok (removed, after) ↔
    ∃ parent index q, path = parent ++ [index] ∧ p.at? path = some q ∧
      p.referenceInto? path = none ∧
      removed = q.renumber (Path.removeShift parent index) ∧
      after = (p.renumber (Path.removeShift parent index)).modify
        (fun q => q.withChildren (q.children.eraseIdx index)) parent := by
  unfold remove
  rcases List.eq_nil_or_concat path with rfl | ⟨parent, index, rfl⟩
  · simp
  · simp only [List.concat_eq_append, List.getLast?_append, List.getLast?_singleton,
      List.dropLast_concat, Option.some_or, bind_eq_ok_iff, get_eq_ok]
    cases referenced : p.referenceInto? (parent ++ [index]) with
    | some r => simp
    | none =>
      simp only [pure_eq_ok_iff, Prod.mk.injEq, true_and]
      constructor
      · rintro ⟨q, found, rfl, rfl⟩
        exact ⟨parent, index, q, rfl, found, rfl, rfl⟩
      · rintro ⟨parent', index', q, same, found, rfl, rfl⟩
        rcases List.append_singleton_inj.mp same with ⟨rfl, rfl⟩
        exact ⟨q, found, rfl, rfl⟩

theorem label_remove {removed : Proof}
    (done : p.remove (parent ++ [index]) = .ok (removed, after)) (path : Path) :
    (after.at? path).map label = ((p.at? (Path.insertShift parent index path)).map label).map
      (relabel (Path.removeShift parent index)) := by
  rcases remove_eq_ok.mp done with ⟨parent', index', q, same, found, _, rfl, rfl⟩
  rcases List.append_singleton_inj.mp same with ⟨rfl, rfl⟩
  have present : (p.at? parent).isSome :=
    at?_isSome_above (List.prefix_append parent [index]) (by simp [found])
  rcases Option.isSome_iff_exists.mp present with ⟨above, there⟩
  have renumbered : (p.renumber (Path.removeShift parent index)).at? parent =
      some (above.renumber (Path.removeShift parent index)) := by
    rw [at?_renumber, there, Option.map_some]
  rw [label_eraseIdx renumbered, label_at?_renumber]

theorem remove_opens {removed : Proof}
    (done : p.remove (parent ++ [index]) = .ok (removed, after)) : Opens parent index after p := by
  rcases remove_eq_ok.mp done with ⟨_, _, _, _, _, unreferenced, _⟩
  refine ⟨fun path => ?_⟩
  rw [label_at?_renumber, label_remove done]
  cases reached : p.at? (Path.insertShift parent index path) with
  | none => rfl
  | some n =>
    -- no citation of a node that stays leads to the child, so renumbering twice changes nothing
    have kept (c : Path) (cites : c ∈ n.citations) : ¬ parent ++ [index] <+: c :=
      referenceInto?_eq_none.mp unreferenced _ n reached (Path.not_below_insertShift _ _ _) c cites
    have restored (j : Justification) (own : n.justification = some j) :
        (j.renumber (Path.removeShift parent index)).renumber (Path.insertShift parent index) = j := by
      rw [Justification.renumber_renumber]
      refine Justification.renumber_id fun c cites => Path.insertShift_removeShift (kept c ?_)
      simpa [citations, own] using cites
    simp only [Option.map_some, relabel, label, Option.map_map, Option.some.injEq, Prod.mk.injEq,
      true_and]
    cases own : n.justification with
    | none => rfl
    | some j => simp [restored j own]

/-! What the lower proof says, the upper one says at renumbered paths. -/

theorem Opens.isSome (opens : Opens parent index lower upper) (q : Path) :
    (upper.at? (Path.insertShift parent index q)).isSome = (lower.at? q).isSome := by
  have same := congrArg Option.isSome (opens.label q)
  simpa [at?_renumber] using same

theorem Opens.eq_none (opens : Opens parent index lower upper) {q : Path}
    (absent : lower.at? q = none) : upper.at? (Path.insertShift parent index q) = none := by
  have same := opens.isSome q
  simpa [absent] using same

theorem Opens.node (opens : Opens parent index lower upper) {q : Path} {s : Sentence}
    {j : Option Justification} {ps : List Proof} (found : lower.at? q = some (.node s j ps)) :
    ∃ ps', upper.at? (Path.insertShift parent index q) =
      some (.node s (j.map (Justification.renumber (Path.insertShift parent index))) ps') := by
  have same := opens.label q
  rw [label_at?_renumber, found] at same
  rcases Option.map_eq_some_iff.mp same with ⟨⟨s', j', ps'⟩, there, equal⟩
  have sentences : s' = s := congrArg Prod.fst equal
  have justifications : j' = j.map (Justification.renumber (Path.insertShift parent index)) :=
    congrArg Prod.snd equal
  rw [there, sentences, justifications]
  exact ⟨ps', rfl⟩

theorem Opens.resolveOne (opens : Opens parent index lower upper) (position : Path)
    (a : Antecedent) :
    upper.resolveOne (Path.insertShift parent index position)
        (a.renumber (Path.insertShift parent index)) =
      (lower.resolveOne position a).mapError
        (ProofError.renumber (Path.insertShift parent index)) := by
  cases a with
  | sentence s => rfl
  | path c =>
    simp only [Antecedent.renumber, Proof.resolveOne, Path.inScope_insertShift]
    by_cases visible : c.inScope position = true
    · simp only [visible, if_true]
      unfold Proof.get
      cases found : lower.at? c with
      | none =>
        rw [opens.eq_none found]
        rfl
      | some n =>
        rcases n with ⟨s, j, ps⟩
        obtain ⟨ps', there⟩ := opens.node found
        rw [there]
        rfl
    · simp only [visible]
      rfl

theorem Opens.resolve (opens : Opens parent index lower upper) (position : Path)
    (antecedents : List Antecedent) :
    upper.resolve (Path.insertShift parent index position)
        (antecedents.map (Antecedent.renumber (Path.insertShift parent index))) =
      (lower.resolve position antecedents).mapError
        (ProofError.renumber (Path.insertShift parent index)) := by
  unfold Proof.resolve
  induction antecedents with
  | nil => rfl
  | cons a antecedents ih =>
    rw [List.map_cons, List.mapM_cons, List.mapM_cons, ih, opens.resolveOne, mapError_bind]
    congr 1
    funext s
    rw [mapError_bind]
    rfl

theorem Opens.derive (opens : Opens parent index lower upper) (position : Path)
    (j : Justification) :
    upper.derive (Path.insertShift parent index position)
        (j.renumber (Path.insertShift parent index)) =
      (lower.derive position j).mapError
        (ProofError.renumber (Path.insertShift parent index)) := by
  unfold Proof.derive
  simp only [Justification.renumber]
  rw [opens.resolve, mapError_bind]
  congr 1
  funext ss
  cases j.rule.apply ss j.arguments with
  | error e => rfl
  | ok derived => cases derived <;> rfl

/-- The verdict on a node is the same up to the paths it reports. -/
theorem Opens.verify (opens : Opens parent index lower upper) (q : Path) :
    upper.verify (Path.insertShift parent index q) =
      (lower.verify q).mapError (ProofError.renumber (Path.insertShift parent index)) := by
  rw [verify_eq, verify_eq]
  cases found : lower.at? q with
  | none =>
    rw [opens.eq_none found]
    rfl
  | some n =>
    rcases n with ⟨s, j, ps⟩
    obtain ⟨ps', there⟩ := opens.node found
    rw [there]
    cases j with
    | none => rfl
    | some j =>
      simp only [Option.map_some, opens.derive]
      change (if j.rule.isAssumption = true then _ else _) = _
      by_cases assumed : j.rule.isAssumption = true
      · rw [if_pos assumed, if_pos assumed]
        rfl
      · rw [if_neg assumed, if_neg assumed]
        cases lower.derive q j with
        | error e => rfl
        | ok derived =>
          by_cases same : derived = s
          · simp [same]
          · simp [same, ProofError.renumber]

theorem insertShift_removeShift_below {q below : Path} (apart : ¬ q <+: parent)
    (inside : Path.insertShift parent index q <+: below) :
    Path.insertShift parent index (Path.removeShift parent index below) = below := by
  apply Path.insertShift_removeShift
  intro child
  rcases List.prefix_or_prefix_of_prefix inside child with above | under
  · rcases List.prefix_concat_iff.mp above with same | above
    · exact Path.not_below_insertShift parent index q (same ▸ List.prefix_rfl)
    · have unmoved : Path.insertShift parent index q <+: Path.insertShift parent index parent := by
        rwa [Path.insertShift_parent]
      exact apart ((Path.insertShift_prefix_iff parent index q parent).mp unmoved)
  · exact Path.not_below_insertShift parent index q under

/-- A check of a subtree that does not contain the child gives the same in both proofs. -/
theorem Opens.check (opens : Opens parent index lower upper) {q : Path} (apart : ¬ q <+: parent) :
    upper.check (Path.insertShift parent index q) = lower.check q := by
  have verdicts (path : Path) : upper.verify (Path.insertShift parent index path) = .ok () ↔
      lower.verify path = .ok () := by
    rw [opens.verify, mapError_eq_ok_iff]
  rw [Bool.eq_iff_iff, check_iff, check_iff, opens.isSome]
  apply and_congr_right
  intro _
  constructor
  · intro valid below inside present
    apply (verdicts below).mp
    apply valid
    · rw [Path.insertShift_prefix_iff]
      exact inside
    · rw [opens.isSome]
      exact present
  · -- a node of the upper proof below the subtree's root is the image of one of the lower proof
    intro valid below inside present
    have moved := insertShift_removeShift_below apart inside
    rw [← moved] at inside present ⊢
    rw [Path.insertShift_prefix_iff] at inside
    rw [opens.isSome] at present
    exact (verdicts _).mpr (valid _ inside present)

end ProofDesk.Deduction.Proof
