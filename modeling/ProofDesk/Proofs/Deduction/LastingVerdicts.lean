import ProofDesk.Proofs.Deduction.DerivedNodes
import ProofDesk.Proofs.Deduction.InPlace

/-!
How long a node stays valid.  What makes it so is its sentence, its justification and the sentences
of the nodes that it cites; every edit that leaves these alone keeps the verdict, wherever the node
moves.
-/

namespace ProofDesk.Deduction.Arena

open Logic (Sentence)

variable {a after : Arena} {p : Proof} {parent path : Path} {index id : Nat} {s : Sentence}
  {j : Justification}

/-- Some path leads to the cell, and what is found there is valid. -/
def HasVerified (a : Arena) (id : Nat) : Prop :=
  ∃ path, a.find? path = some id ∧ a.verify path = .ok ()

/-- Whether an edit sets the sentence of a node or of one that it cites, justifies the node anew or
takes away a subtree that it is in. -/
def Touches (a : Arena) (id : Nat) : Edit → Prop
  | .setSentence path _ => a.find? path = some id ∨
      ∃ cell, a.cells[id]? = some cell ∧ path ∈ cell.citations
  | .justify path _ => a.find? path = some id
  | .remove path => ∃ below, a.find? (path ++ below) = some id
  | .insert _ _ | .insertAt _ _ _ | .insertDerived _ _ => False

/-- No edit that succeeds touches the node. -/
def Spares (id : Nat) : Arena → List Edit → Prop
  | _, [] => True
  | a, e :: edits => ((∃ after, a.edit e = .ok after) → ¬ a.Touches id e) ∧
      Spares id (a.tryEdit e) edits

theorem HasVerified.insertAt (verified : a.HasVerified id) (stores : Stores a p)
    (done : a.insertAt s parent index = .ok (path, after)) : after.HasVerified id := by
  obtain ⟨q, found, valid⟩ := verified
  obtain ⟨p', inserted, stores'⟩ := stores.exists_insertAt done
  obtain ⟨_, done', _, transparent⟩ := stores.insertAt_transparent inserted
  cases done.symm.trans done'
  refine ⟨Path.insertShift parent index q, ?_, ?_⟩
  · rw [transparent.same q trivial, found]
  · rw [stores.verify] at valid
    rw [stores'.verify, transparent.verdict q trivial, valid, mapError_ok]

theorem HasVerified.insertDerived (verified : a.HasVerified id) (stores : Stores a p)
    (cites : p.CitesInScope) (done : a.insertDerived parent j = .ok (path, after)) :
    after.HasVerified id := by
  obtain ⟨q, found, valid⟩ := verified
  obtain ⟨p', put, _⟩ := stores.exists_insertDerived done
  obtain ⟨n, _, _, above, _⟩ := Proof.insertDerived_eq_ok.mp put
  obtain ⟨_, _, gains⟩ := cites.gains above put
  have adds := stores.addsDerived cites done
  have other : q ≠ path := by
    rintro rfl
    rw [stores.find?_eq_none gains.new] at found
    cases found
  refine ⟨q, ?_, ?_⟩
  · rw [adds.same q other, found]
  · rw [adds.verdict q other, valid]

theorem HasVerified.setSentence (verified : a.HasVerified id) (stores : Stores a p)
    (done : a.setSentence path s = .ok after) (spared : ¬ a.Touches id (.setSentence path s)) :
    after.HasVerified id := by
  obtain ⟨q, found, valid⟩ := verified
  have alike := stores.setSentence path s
  rw [done] at alike
  obtain ⟨p', set, stores'⟩ := alike.exists_ok_right
  obtain ⟨_, rfl⟩ := Proof.setSentence_eq_ok.mp set
  obtain ⟨changed, rfl⟩ := setSentence_eq_ok done
  have elsewhere (c : Path) (other : c ≠ path) :
      ((p.modify (Proof.withSentence s) path).at? c).map Proof.label =
        (p.at? c).map Proof.label :=
    Proof.label_modify_other (Proof.children_withSentence s) other p
  have own : q ≠ path := by
    rintro rfl
    exact spared (Or.inl found)
  refine ⟨q, ?_, ?_⟩
  · have keeps (cell : Cell) : { cell with sentence := s }.children = cell.children := rfl
    rw [find?_modify keeps, found]
  · rw [stores.verify] at valid
    rw [stores'.verify, Proof.verify_congr (elsewhere q own), valid]
    intro n there c cited
    have other : c ≠ path := by
      rintro rfl
      obtain ⟨_, cell, reached, here, labels⟩ := stores.exists_cell there
      cases found.symm.trans reached
      have justified : cell.justification = n.justification := congrArg Prod.snd labels
      rw [Proof.citations, ← justified] at cited
      exact spared (Or.inr ⟨cell, here, cited⟩)
    exact Proof.sentence_of_label (elsewhere c other)

theorem HasVerified.justify (verified : a.HasVerified id) (stores : Stores a p)
    (done : a.justify path j = .ok after) (spared : ¬ a.Touches id (.justify path j)) :
    after.HasVerified id := by
  obtain ⟨q, found, valid⟩ := verified
  have alike := stores.justify path j
  rw [done] at alike
  obtain ⟨p', justified, stores'⟩ := alike.exists_ok_right
  obtain ⟨_, _, rfl⟩ := Proof.justify_eq_ok.mp justified
  obtain ⟨_, changed, _, rfl⟩ := justify_eq_ok done
  have own : q ≠ path := by
    rintro rfl
    exact spared found
  have labels := Proof.label_modify_other (Proof.children_withJustification j) own p
  refine ⟨q, ?_, ?_⟩
  · rw [find?_attach, found]
  · rw [stores.verify] at valid
    rw [stores'.verify, Proof.verify_congr labels, valid]
    exact fun n there c cited => Proof.sentence_modify_withJustification c

theorem HasVerified.remove {cell : Option Cell} (verified : a.HasVerified id) (stores : Stores a p)
    (done : a.remove path = .ok (cell, after)) (spared : ¬ a.Touches id (.remove path)) :
    after.HasVerified id := by
  obtain ⟨q, found, valid⟩ := verified
  have alike := stores.remove path
  rw [done] at alike
  obtain ⟨⟨removed, p'⟩, taken, _, stores'⟩ := alike.exists_ok_right
  obtain ⟨parent, index, _, rfl, _⟩ := Proof.remove_eq_ok.mp taken
  obtain ⟨_, _, done', _, transparent⟩ := stores.remove_transparent taken
  cases done.symm.trans done'
  have outside : ¬ parent ++ [index] <+: q := by
    rintro ⟨below, rfl⟩
    exact spared ⟨below, found⟩
  refine ⟨Path.removeShift parent index q, ?_, ?_⟩
  · rw [transparent.same q outside, found]
  · rw [stores.verify] at valid
    rw [stores'.verify, transparent.verdict q outside, valid, mapError_ok]

theorem HasVerified.edit {e : Edit} (verified : a.HasVerified id) (stores : Stores a p)
    (cites : p.CitesInScope) (done : a.edit e = .ok after) (spared : ¬ a.Touches id e) :
    after.HasVerified id := by
  cases e with
  | setSentence path s => exact verified.setSentence stores done spared
  | insert s parent =>
    rcases map_eq_ok_iff.mp done with ⟨⟨path, after⟩, inserted, rfl⟩
    obtain ⟨index, inserted⟩ := insert_eq_ok inserted
    exact verified.insertAt stores inserted
  | insertAt s parent index =>
    rcases map_eq_ok_iff.mp done with ⟨⟨path, after⟩, inserted, rfl⟩
    exact verified.insertAt stores inserted
  | insertDerived parent j =>
    rcases map_eq_ok_iff.mp done with ⟨⟨path, after⟩, put, rfl⟩
    exact verified.insertDerived stores cites put
  | justify path j => exact verified.justify stores done spared
  | remove path =>
    rcases map_eq_ok_iff.mp done with ⟨⟨removed, after⟩, taken, rfl⟩
    exact verified.remove stores taken spared

theorem HasVerified.foldl_tryEdit {edits : List Edit} (verified : a.HasVerified id)
    (stores : Stores a p) (cites : p.CitesInScope) (spared : Spares id a edits) :
    (edits.foldl tryEdit a).HasVerified id := by
  induction edits generalizing a p with
  | nil => exact verified
  | cons e edits ih =>
    rw [List.foldl_cons]
    refine ih ?_ (stores.tryEdit e) (cites.tryEdit e) spared.2
    unfold tryEdit
    cases done : a.edit e with
    | error _ => exact verified
    | ok after => exact verified.edit stores cites done (spared.1 ⟨after, done⟩)

/-- When a derived node is put in, and what then holds of the proof. -/
structure DerivedInsertion (a : Arena) (parent : Path) (j : Justification) : Prop where
  inPlace : (Update.insertDerived parent j).on a = Update.settled a (a.insertDerived parent j)
  succeeds : (∃ path after, (Update.insertDerived parent j).on a = (.ok path, after)) ↔
    ∃ cell derived, a.cell? parent = some cell ∧
      a.Derives (parent ++ [cell.children.length]) j derived
  adds : ∀ path after, (Update.insertDerived parent j).on a = (.ok path, after) →
    AddsDerived a after parent j path
  /-- The node is known by its cell, since later insertions and removals may move it. -/
  lasts : ∀ path after id edits, (Update.insertDerived parent j).on a = (.ok path, after) →
    after.find? path = some id → Spares id after edits →
      (edits.foldl tryEdit after).HasVerified id
  unchanged : ∀ e after, (Update.insertDerived parent j).on a = (.error e, after) → after = a

theorem insertDerived_ofHistory (start : Sentence) (history : List Edit) (parent : Path)
    (j : Justification) : DerivedInsertion (ofHistory start history) parent j := by
  have stores := stores_ofHistory start history
  have cites := Proof.citesInScope_ofHistory start history
  have inPlace := Update.insertDerived_on stores parent j
  constructor
  · exact inPlace
  · simp only [inPlace, Update.settled_eq_ok]
    exact stores.insertDerived_succeeds_iff
  · intro path after done
    rw [inPlace, Update.settled_eq_ok] at done
    exact stores.addsDerived cites done
  · intro path after id edits done found spared
    rw [inPlace, Update.settled_eq_ok] at done
    have verified := (stores.addsDerived cites done).verified
    obtain ⟨p', put, stores'⟩ := stores.exists_insertDerived done
    exact HasVerified.foldl_tryEdit ⟨path, found, verified⟩ stores' (cites.insertDerived put) spared
  · intro e after failed
    rw [inPlace] at failed
    exact Update.settled_error failed

end ProofDesk.Deduction.Arena
