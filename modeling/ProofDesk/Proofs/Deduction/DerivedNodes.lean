import ProofDesk.Proofs.Deduction.Undoing

namespace ProofDesk.Deduction

open Logic (Sentence)

namespace Proof

variable {p after : Proof} {path : Path} {j : Justification}

/-- The verdict on a node depends on what it says itself and on the sentences of the nodes that it
cites. -/
theorem verify_congr (own : (after.at? path).map label = (p.at? path).map label)
    (same : ∀ n, p.at? path = some n → ∀ c ∈ n.citations,
      (after.at? c).map sentence = (p.at? c).map sentence) :
    after.verify path = p.verify path := by
  rw [verify_eq, verify_eq]
  cases found : p.at? path with
  | none =>
    rw [found] at own
    rw [Option.map_eq_none_iff.mp own]
  | some n =>
    rw [found] at own
    obtain ⟨m, there, labels⟩ := Option.map_eq_some_iff.mp own
    rw [there]
    rcases n with ⟨s, justified, ps⟩
    rcases m with ⟨s', justified', ps'⟩
    obtain ⟨rfl, rfl⟩ : s' = s ∧ justified' = justified := Prod.mk.inj labels
    cases justified' with
    | none => rfl
    | some j =>
      dsimp only
      rw [derive_congr path (same _ found)]

/-- A proof that has one node more, which a justification derives, and is otherwise the same. -/
structure Gains (p after : Proof) (path : Path) (j : Justification) (derived : Sentence) : Prop where
  new : p.at? path = none
  there : after.at? path = some (.node derived (some j) [])
  other : ∀ q, q ≠ path → (after.at? q).map label = (p.at? q).map label
  derives : p.derive path j = .ok derived

theorem label_extend_single {parent : Path} {q : Proof} {s : Sentence}
    (found : p.at? parent = some q) (other : path ≠ parent ++ [q.children.length]) :
    ((p.extend [single s] parent).at? path).map label = (p.at? path).map label := by
  by_cases there : (p.at? path).isSome
  · exact label_extend [single s] found there
  · by_cases grown : ((p.extend [single s] parent).at? path).isSome
    · exfalso
      obtain ⟨k, rest, rfl, behind⟩ := below_of_isSome_extend found grown there
      rw [at?_append, at?_extend_self _ found, Option.bind_some, at?_cons,
        children_withChildren] at grown
      rcases Nat.lt_or_eq_of_le behind with beyond | rfl
      · have absent : (q.children ++ [single s])[k]? = none := by
          rw [List.getElem?_eq_none_iff, List.length_append, List.length_singleton]
          exact beyond
        rw [absent] at grown
        exact Bool.false_ne_true grown
      · rw [List.getElem?_concat_length, Option.bind_some] at grown
        cases rest with
        | nil => exact other rfl
        | cons i rest => simp [at?_cons, single, children] at grown
    · rw [Bool.not_eq_true, Option.isSome_eq_false_iff, Option.isNone_iff_eq_none] at there grown
      rw [there, grown]

theorem CitesInScope.gains {parent : Path} {q : Proof} (cites : p.CitesInScope)
    (found : p.at? parent = some q) (done : p.insertDerived parent j = .ok (path, after)) :
    path = parent ++ [q.children.length] ∧ ∃ derived, Gains p after path j derived := by
  obtain ⟨q', derived, extended, found', derivation, inserted, rfl⟩ := insertDerived_eq_ok.mp done
  cases found.symm.trans found'
  have put := insert_eq_ok.mpr ⟨q, found, inserted⟩
  rw [cites.insert_behind found derived] at put
  cases put
  refine ⟨rfl, derived, ?_, ?_, ?_, derivation⟩
  · rw [at?_child found]
    exact List.getElem?_eq_none (Nat.le_refl _)
  · rw [at?_modify_self, at?_insertAt inserted]
    rfl
  · intro place other
    rw [label_modify_other (children_withJustification j) other, label_extend_single found other]

namespace Gains

variable {derived : Sentence}

theorem sentence_kept (gains : Gains p after path j derived) {c : Path} (there : (p.at? c).isSome) :
    (after.at? c).map sentence = (p.at? c).map sentence := by
  have other : c ≠ path := by
    rintro rfl
    rw [gains.new] at there
    exact Bool.false_ne_true there
  exact sentence_of_label (gains.other c other)

theorem verify_new (gains : Gains p after path j derived) : after.verify path = .ok () := by
  obtain ⟨ss, resolved, _⟩ := derive_eq_ok.mp gains.derives
  have visible := resolve_citations.mp ⟨ss, resolved⟩
  have derives : after.derive path j = .ok derived := by
    rw [derive_congr path fun c cited => gains.sentence_kept (visible c cited).1]
    exact gains.derives
  exact verify_eq_ok.mpr ⟨derived, j, [], gains.there, Or.inr derives⟩

theorem verify_other (gains : Gains p after path j derived) (cites : p.CitesInScope) {q : Path}
    (other : q ≠ path) : after.verify q = p.verify q := by
  apply verify_congr (gains.other q other)
  intro n found c cited
  exact gains.sentence_kept (cites q n found c cited).1

end Gains

theorem sentence_modify_withJustification (c : Path) :
    ((p.modify (withJustification j) path).at? c).map sentence = (p.at? c).map sentence := by
  by_cases same : c = path
  · subst same
    rw [at?_modify_self, Option.map_map]
    congr 1
    funext q
    exact congrArg Prod.fst (label_withJustification j q)
  · exact sentence_of_label (label_modify_other (children_withJustification j) same p)

end Proof

namespace Arena

variable {a after : Arena} {p : Proof} {parent path position : Path} {j : Justification}
  {derived : Sentence} {id : Nat}

/-- An antecedent stands for a sentence if it is the sentence, or the path of a node that says it. -/
def Denotes (a : Arena) : Antecedent → Sentence → Prop
  | .sentence t, s => t = s
  | .path c, s => ∃ cell, a.cell? c = some cell ∧ cell.sentence = s

structure Derives (a : Arena) (position : Path) (j : Justification) (derived : Sentence) : Prop where
  visible : ∀ c ∈ j.citations, (a.cell? c).isSome ∧ c.inScope position = true
  applies : ∃ ss, List.Forall₂ a.Denotes j.antecedents ss ∧
    j.rule.apply ss j.arguments = .ok (some derived)

theorem resolveOne_eq_ok {x : Antecedent} {s : Sentence} : a.resolveOne position x = .ok s ↔
    (∀ c, .path c = x → c.inScope position = true) ∧ a.Denotes x s := by
  cases x with
  | sentence t => simp [resolveOne, Denotes]
  | path c =>
    by_cases visible : c.inScope position = true
    · cases there : a.cell? c <;>
        simp [resolveOne, Denotes, visible, get, there, Except.map]
    · simp [resolveOne, visible]

theorem resolve_eq_ok {antecedents : List Antecedent} {ss : List Sentence} :
    a.resolve position antecedents = .ok ss ↔
      (∀ c, .path c ∈ antecedents → c.inScope position = true) ∧
        List.Forall₂ a.Denotes antecedents ss := by
  rw [resolve, mapM_eq_ok_iff]
  simp only [resolveOne_eq_ok, List.forall₂_and_left]
  apply and_congr_left
  intro _
  constructor
  · intro visible c member
    exact visible _ member c rfl
  · rintro visible x member c rfl
    exact visible c member

theorem derive_eq_ok : a.derive position j = .ok derived ↔ a.Derives position j derived := by
  have steps : a.derive position j = .ok derived ↔ ∃ ss,
      a.resolve position j.antecedents = .ok ss ∧
        j.rule.apply ss j.arguments = .ok (some derived) := by
    unfold derive
    simp only [bind_eq_ok_iff]
    refine exists_congr fun ss => and_congr_right fun _ => ?_
    cases j.rule.apply ss j.arguments with
    | error e => simp
    | ok conclusion => cases conclusion <;> simp
  simp only [steps, resolve_eq_ok]
  constructor
  · rintro ⟨ss, ⟨visible, denotes⟩, conclusion⟩
    refine ⟨fun c cited => ?_, ss, denotes, conclusion⟩
    have member := Justification.mem_citations.mp cited
    obtain ⟨s, cell, there, _⟩ := exists_forall₂_iff.mp ⟨ss, denotes⟩ _ member
    exact ⟨Option.isSome_iff_exists.mpr ⟨cell, there⟩, visible c member⟩
  · rintro ⟨visible, ss, denotes, conclusion⟩
    refine ⟨ss, ⟨fun c member => ?_, denotes⟩, conclusion⟩
    exact (visible c (Justification.mem_citations.mpr member)).2

theorem childCount_eq_ok {n : Nat} : a.childCount path = .ok n ↔
    ∃ cell, a.cell? path = some cell ∧ cell.children.length = n := by
  unfold childCount get
  cases a.cell? path <;> simp

theorem Stores.exists_insertDerived (stores : Stores a p)
    (done : a.insertDerived parent j = .ok (path, after)) :
    ∃ p', p.insertDerived parent j = .ok (path, p') ∧ Stores after p' := by
  have alike := stores.insertDerived parent j
  rw [done] at alike
  rcases alike.exists_ok_right with ⟨⟨place, p'⟩, inserted, same, stores', _⟩
  obtain rfl : path = place := same
  exact ⟨p', inserted, stores'⟩

theorem Stores.insertDerived_succeeds_iff (stores : Stores a p) :
    (∃ path after, a.insertDerived parent j = .ok (path, after)) ↔
      ∃ cell derived, a.cell? parent = some cell ∧
        a.Derives (parent ++ [cell.children.length]) j derived := by
  constructor
  · rintro ⟨path, after, done⟩
    rcases bind_eq_ok_iff.mp done with ⟨count, counted, done⟩
    rcases bind_eq_ok_iff.mp done with ⟨derived, derivation, _⟩
    obtain ⟨cell, there, rfl⟩ := childCount_eq_ok.mp counted
    exact ⟨cell, derived, there, derive_eq_ok.mp derivation⟩
  · rintro ⟨cell, derived, there, derives⟩
    have counted := childCount_eq_ok.mpr ⟨cell, there, rfl⟩
    have derivation := derive_eq_ok.mpr derives
    rw [stores.childCount] at counted
    rw [stores.derive] at derivation
    obtain ⟨q, found, same⟩ := Proof.childCount_eq_ok.mp counted
    have inserted := (Proof.insertAt_eq_ok (s := derived)).mpr
      ⟨q, found, Nat.le_refl _, rfl, rfl⟩
    have done := Proof.insertDerived_eq_ok.mpr
      ⟨q, derived, _, found, same.symm ▸ derivation, inserted, rfl⟩
    have alike := stores.insertDerived parent j
    rw [done] at alike
    obtain ⟨⟨path, after⟩, placed, _⟩ := alike.exists_ok
    exact ⟨path, after, placed⟩

/-- How a stored proof looks when a derived node has been put in. -/
structure AddsDerived (a after : Arena) (parent : Path) (j : Justification) (path : Path) : Prop where
  placed : ∃ cell derived, a.cell? parent = some cell ∧ path = parent ++ [cell.children.length] ∧
    a.Derives path j derived ∧ after.cell? path = some ⟨derived, some j, []⟩
  verified : after.verify path = .ok ()
  same : ∀ q, q ≠ path → after.find? q = a.find? q
  label : ∀ q, q ≠ path → (after.cell? q).map Cell.label = (a.cell? q).map Cell.label
  verdict : ∀ q, q ≠ path → after.verify q = a.verify q

theorem Stores.cell?_eq_of_leaf (stores : Stores a p) {s : Sentence} {justified : Option Justification}
    (found : p.at? path = some (.node s justified [])) : a.cell? path = some ⟨s, justified, []⟩ := by
  obtain ⟨id, cell, reached, there, labels⟩ := stores.exists_cell found
  have childless := List.length_eq_zero_iff.mp (stores.length_children found reached there)
  rcases cell with ⟨s', justified', children⟩
  obtain ⟨rfl, rfl⟩ : s' = s ∧ justified' = justified := Prod.mk.inj labels
  obtain rfl : children = [] := childless
  rw [cell?_of_find? reached, there]

theorem find?_attach (j : Justification) (id : Nat) (a : Arena) (path : Path) :
    (a.attach j id).find? path = a.find? path := by
  have keeps (cell : Cell) : { cell with justification := some j }.children = cell.children := rfl
  exact find?_modify keeps id a path

theorem Stores.find?_insertDerived (stores : Stores a p) (cites : p.CitesInScope)
    (done : a.insertDerived parent j = .ok (path, after)) {q : Path} (other : q ≠ path) :
    after.find? q = a.find? q := by
  obtain ⟨p', put, _⟩ := stores.exists_insertDerived done
  obtain ⟨n, _, _, found, _⟩ := Proof.insertDerived_eq_ok.mp put
  obtain ⟨parentId, cell, reached, there, _⟩ := stores.exists_cell found
  obtain ⟨place, _, _⟩ := cites.gains found put
  obtain ⟨_, derived, extended, id, _, inserted, rfl⟩ := insertDerived_eq_ok done
  obtain ⟨index, inserted⟩ := insert_eq_ok inserted
  obtain ⟨parentId', reached', rfl, rfl⟩ := insertAt_eq_ok inserted
  cases reached.symm.trans reached'
  have last : index = n.children.length := (List.append_singleton_inj.mp place).2
  have fits : index ≤ cell.children.length := by
    rw [stores.length_children found reached there]
    exact Nat.le_of_eq last
  rw [find?_attach]
  -- only paths behind the new node would be renumbered, and they lead nowhere
  have kept (c : Path) (present : (a.find? c).isSome) : Path.insertShift parent index c = c := by
    rw [stores.isSome] at present
    rw [last]
    exact Proof.insertShift_behind found present
  cases before : a.find? q with
  | some i =>
    have moved : (a.opened derived parent index parentId).find? (Path.insertShift parent index q) =
        a.find? q := find?_opened stores.tree derived reached q
    rw [kept q (by simp [before]), before] at moved
    exact moved
  | none =>
    cases now : (a.opened derived parent index parentId).find? q with
    | none => rfl
    | some i =>
      rcases find?_opened_cases stores.tree derived reached there fits now with
        ⟨here, _⟩ | ⟨old, rfl, former⟩
      · exact absurd here other
      · rw [kept old (by simp [former]), former] at before
        cases before

theorem Stores.addsDerived (stores : Stores a p) (cites : p.CitesInScope)
    (done : a.insertDerived parent j = .ok (path, after)) : AddsDerived a after parent j path := by
  obtain ⟨p', put, stores'⟩ := stores.exists_insertDerived done
  obtain ⟨n, _, _, found, _⟩ := Proof.insertDerived_eq_ok.mp put
  obtain ⟨rfl, derived, gains⟩ := cites.gains found put
  constructor
  · obtain ⟨parentId, cell, reached, there, _⟩ := stores.exists_cell found
    refine ⟨cell, derived, ?_, ?_, ?_, stores'.cell?_eq_of_leaf gains.there⟩
    · rw [cell?_of_find? reached, there]
    · rw [stores.length_children found reached there]
    · rw [← derive_eq_ok, stores.derive]
      exact gains.derives
  · rw [stores'.verify]
    exact gains.verify_new
  · exact fun q other => stores.find?_insertDerived cites done other
  · intro q other
    rw [stores'.label, stores.label]
    exact gains.other q other
  · intro q other
    rw [stores'.verify, stores.verify]
    exact gains.verify_other cites other

end Arena
end ProofDesk.Deduction
