import ProofDesk.Proofs.Deduction.Extensions
import ProofDesk.Proofs.Deduction.Reports
import ProofDesk.Proofs.Deduction.Transparency

/-!
Taking away what has just been put in.  No path is renumbered to the place of a new child, so nothing
cites it, and the two renumberings cancel.  What is left is the proof as it was, and in the list of
cells one more that no path leads to.
-/

namespace ProofDesk.Deduction

open Logic (Sentence)

variable {parent path : Path} {index : Nat} {s : Sentence}

section Cancel

variable {shift back : Path → Path}

theorem renumber_cancel (cancel : ∀ c, back (shift c) = c) (j : Option Justification) :
    (j.map (Justification.renumber shift)).map (Justification.renumber back) = j := by
  cases j with
  | none => rfl
  | some j =>
    rw [Option.map_some, Option.map_some, Justification.renumber_renumber,
      Justification.renumber_id fun c _ => cancel c]

theorem Proof.relabel_cancel (cancel : ∀ c, back (shift c) = c)
    (l : Sentence × Option Justification) : relabel back (relabel shift l) = l := by
  rw [relabel, relabel, renumber_cancel cancel]

theorem Arena.renumber_cancel (cancel : ∀ c, back (shift c) = c) (a : Arena) :
    (a.renumber shift).renumber back = a := by
  have each (cell : Cell) : (cell.renumber shift).renumber back = cell := by
    rw [Cell.renumber, Cell.renumber, Deduction.renumber_cancel cancel]
  simp [renumber, Function.comp_def, each]

end Cancel

namespace Proof

variable {p after : Proof}

theorem referenceInto?_insertAt (done : p.insertAt s parent index = .ok (path, after)) :
    after.referenceInto? path = none := by
  have opens := insertAt_opens done
  rcases insertAt_eq_ok.mp done with ⟨_, _, _, rfl, _⟩
  apply referenceInto?_eq_none.mpr
  intro place n there outside c cited
  have moved := Path.insertShift_removeShift outside
  rw [← moved] at there
  have present := opens.isSome (Path.removeShift parent index place)
  rw [there, Option.isSome_some] at present
  rcases Option.isSome_iff_exists.mp present.symm with ⟨m, before⟩
  rw [opens.citations before there] at cited
  rcases List.mem_map.mp cited with ⟨old, _, rfl⟩
  exact Path.not_below_insertShift parent index old

theorem remove_insertAt (done : p.insertAt s parent index = .ok (path, after)) :
    after.remove path = .ok (single s, p) := by
  have opens := insertAt_opens done
  have new := at?_insertAt done
  have unreferenced := referenceInto?_insertAt done
  rcases insertAt_eq_ok.mp done with ⟨_, _, _, rfl, _⟩
  have removed := remove_eq_ok.mpr ⟨parent, index, single s, rfl, new, unreferenced, rfl, rfl⟩
  rw [removed]
  congr 2
  apply ext_label
  intro place
  have cancel (l : Sentence × Option Justification) :
      relabel (Path.removeShift parent index) (relabel (Path.insertShift parent index) l) = l :=
    relabel_cancel (Path.removeShift_insertShift parent index) l
  rw [label_remove removed, opens.label, label_at?_renumber]
  cases p.at? place with
  | none => rfl
  | some q => simp only [Option.map_some, cancel]

end Proof

namespace Arena

variable {a b after : Arena} {p : Proof} {id parentId : Nat}

theorem renumber_push (shift : Path → Path) (s : Sentence) (a : Arena) :
    (a.push s).renumber shift = (a.renumber shift).push s := by
  simp [renumber, push, Cell.renumber, Cell.single]

theorem erased_opened (s : Sentence) (parent : Path) (index parentId : Nat) (a : Arena) :
    (a.opened s parent index parentId).erased parent index parentId = a.push s := by
  have cancel : Cell.eraseChild index ∘ Cell.insertChild index a.cells.length = id := by
    funext cell
    simp [Cell.eraseChild, Cell.insertChild, List.eraseIdx_insertIdx_self]
  have unlinked (b : Arena) :
      (b.modify (Cell.insertChild index a.cells.length) parentId).modify (Cell.eraseChild index)
        parentId = b := by
    simp [modify, List.modify_modify_eq, cancel]
  rw [erased, opened, unlinked, renumber_push,
    renumber_cancel (Path.removeShift_insertShift parent index)]

theorem remove_eq (found : a.find? (parent ++ [index]) = some id)
    (above : a.find? parent = some parentId)
    (unreferenced : a.referenceInto? (parent ++ [index]) = none) :
    a.remove (parent ++ [index]) = .ok ((a.erased parent index parentId).cells[id]?,
      a.erased parent index parentId) := by
  simp [remove, find, found, above, unreferenced, erased, bind, Except.bind, pure, Except.pure]

theorem Stores.exists_insertAt (stores : Stores a p)
    (done : a.insertAt s parent index = .ok (path, after)) :
    ∃ p', p.insertAt s parent index = .ok (path, p') ∧ Stores after p' := by
  have alike := stores.insertAt s parent index
  rw [done] at alike
  rcases alike.exists_ok_right with ⟨⟨place, p'⟩, inserted, same, stores', _⟩
  obtain rfl : path = place := same
  exact ⟨p', inserted, stores'⟩

theorem Stores.remove_insertAt (stores : Stores a p)
    (done : a.insertAt s parent index = .ok (path, after)) :
    after.remove path = .ok (some (Cell.single s), a.push s) := by
  rcases stores.exists_insertAt done with ⟨p', inserted, stores'⟩
  have unreferenced : after.referenceInto? path = none := by
    rw [stores'.referenceInto?, Proof.referenceInto?_insertAt inserted]
  rcases Proof.insertAt_eq_ok.mp inserted with ⟨q, there, fits, _, _⟩
  rcases insertAt_eq_ok done with ⟨parentId, found, rfl, rfl⟩
  rcases stores.exists_cell there with ⟨_, cell, found', here, _⟩
  cases found.symm.trans found'
  rw [← stores.length_children there found here] at fits
  have new := find?_opened_new stores.tree s found here fits
  have above : (a.opened s parent index parentId).find? parent = some parentId := by
    rw [← found, ← find?_opened stores.tree s found parent, Path.insertShift_parent]
  rw [remove_eq new above unreferenced, erased_opened, push, List.getElem?_concat_length]

/-! A cell that no path leads to makes no difference. -/

theorem find?_push (s : Sentence) (a : Arena) (path : Path) : (a.push s).find? path = a.find? path :=
  find?_congr (child?_push s a) path

theorem IsTree.cell?_push (tree : a.IsTree) (s : Sentence) (path : Path) :
    (a.push s).cell? path = a.cell? path := by
  rw [cell?, cell?, find?_push]
  cases found : a.find? path with
  | none => rfl
  | some id =>
    rw [Option.bind_some, Option.bind_some, push, List.getElem?_append_left (tree.inside path id found)]

theorem Stores.push (stores : Stores a p) (s : Sentence) : Stores (a.push s) p := by
  constructor
  · constructor
    · intro path id found
      rw [find?_push] at found
      have inside := stores.tree.inside path id found
      simp only [Arena.push, List.length_append, List.length_singleton]
      omega
    · intro path path' id found found'
      rw [find?_push] at found found'
      exact stores.tree.distinct path path' id found found'
  · intro path
    rw [stores.tree.cell?_push]
    exact stores.label path

/-- Stored proofs that show the same at every path and in every report. -/
structure SameView (a b : Arena) : Prop where
  cells : ∀ path, b.cell? path = a.cell? path
  walk : b.walk = a.walk
  verify : ∀ path, b.verify path = a.verify path
  check : ∀ path, b.check path = a.check path
  errors : b.errors = a.errors
  print : b.print = a.print

theorem Stores.sameView_push (stores : Stores a p) (s : Sentence) : SameView a (a.push s) := by
  have stores' := stores.push s
  constructor
  · exact stores.tree.cell?_push s
  · simp only [stores'.walk, stores.walk, find?_push]
  · intro path
    rw [stores'.verify, stores.verify]
  · intro path
    rw [stores'.check, stores.check]
  · rw [stores'.errors, stores.errors]
  · rw [stores'.print, stores.print]

/-- In every proof that edits have led to, taking away what has just been put in gives back an
unjustified node of the sentence, and the proof cannot be told from the one before. -/
theorem insertAt_undone_ofHistory (start : Sentence) (history : List Edit) (s : Sentence)
    (parent : Path) (index : Nat) (path : Path) (after : Arena)
    (done : (ofHistory start history).insertAt s parent index = .ok (path, after)) :
    (∃ restored, after.remove path = .ok (some ⟨s, none, []⟩, restored) ∧
      SameView (ofHistory start history) restored ∧
      restored.Stores (Proof.ofHistory start history)) ∧
    ∃ p', (Proof.ofHistory start history).insertAt s parent index = .ok (path, p') ∧
      p'.remove path = .ok (.node s none [], Proof.ofHistory start history) := by
  have stores := stores_ofHistory start history
  rcases stores.exists_insertAt done with ⟨p', inserted, _⟩
  constructor
  · exact ⟨_, stores.remove_insertAt done, stores.sameView_push s, stores.push s⟩
  · exact ⟨p', inserted, Proof.remove_insertAt inserted⟩

/-- A node is put in before one that the root cites, so the citation moves and moves back. -/
theorem insertAt_undone_citingSecond : ∃ after restored,
    (ofHistory (.truth true) citingSecond).insertAt (.truth false) [] 1 = .ok ([1], after) ∧
      (after.cell? []).map Cell.citations = some [[2]] ∧
      after.remove [1] = .ok (some ⟨.truth false, none, []⟩, restored) ∧
      restored.print = (ofHistory (.truth true) citingSecond).print ∧
      (restored.cell? []).map Cell.citations = some [[1]] := by
  have undone := insertAt_undone_ofHistory (.truth true) citingSecond (.truth false) [] 1 [1] _ rfl
  rcases undone with ⟨⟨restored, removed, view, _⟩, _⟩
  refine ⟨_, restored, rfl, rfl, removed, view.print, ?_⟩
  rw [view.cells]
  rfl

end Arena

end ProofDesk.Deduction
