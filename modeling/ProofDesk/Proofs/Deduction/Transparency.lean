import ProofDesk.Proofs.Deduction.Simulation

namespace ProofDesk.Deduction

open Logic (Sentence)

/-- How a proof and its cells look after an operation to the nodes that survive it. -/
structure Transparent (survives : Path → Prop) (shift : Path → Path) (a a' : Arena) (p p' : Proof) :
    Prop where
  kept : ∀ q n, survives q → p.at? q = some n → ∃ m, p'.at? (shift q) = some m ∧
    m.sentence = n.sentence ∧ m.justification = n.justification.map (Justification.renumber shift)
  same : ∀ q, survives q → a'.find? (shift q) = a.find? q
  cited : ∀ q n, survives q → p.at? q = some n → ∀ c ∈ n.citations, a'.find? (shift c) = a.find? c
  verdict : ∀ q, survives q → p'.verify (shift q) = (p.verify q).mapError (ProofError.renumber shift)

namespace Arena

variable {a : Arena} {p p' removed : Proof} {parent path : Path} {index : Nat}

theorem kept_of_label {shift : Path → Path} {q r : Path} {n : Proof} (found : p.at? q = some n)
    (labels : (p'.at? r).map Proof.label = ((p.at? q).map Proof.label).map (Proof.relabel shift)) :
    ∃ m, p'.at? r = some m ∧ m.sentence = n.sentence ∧
      m.justification = n.justification.map (Justification.renumber shift) := by
  rw [found, Option.map_some, Option.map_some] at labels
  rcases Option.map_eq_some_iff.mp labels with ⟨m, there, equal⟩
  exact ⟨m, there, congrArg Prod.fst equal, congrArg Prod.snd equal⟩

theorem Stores.insertAt_transparent {s : Sentence} (stores : Stores a p)
    (done : p.insertAt s parent index = .ok (path, p')) :
    ∃ a', a.insertAt s parent index = .ok (path, a') ∧ Stores a' p' ∧
      Transparent (fun _ => True) (Path.insertShift parent index) a a' p p' := by
  have alike := stores.insertAt s parent index
  rw [done] at alike
  obtain ⟨⟨place, a'⟩, inserted, here, stores', _⟩ := alike.exists_ok
  obtain rfl : place = path := here
  have opens := Proof.insertAt_opens done
  obtain ⟨parentId, found, _, rfl⟩ := insertAt_eq_ok inserted
  have moved (q : Path) : (a.opened s parent index parentId).find?
      (Path.insertShift parent index q) = a.find? q := find?_opened stores.tree s found q
  refine ⟨_, inserted, stores', ?_⟩
  constructor
  · intro q n _ there
    have labels := opens.label q
    rw [Proof.label_at?_renumber] at labels
    exact kept_of_label there labels
  · exact fun q _ => moved q
  · exact fun _ _ _ _ c _ => moved c
  · exact fun q _ => opens.verify q

theorem Stores.remove_transparent (stores : Stores a p)
    (done : p.remove (parent ++ [index]) = .ok (removed, p')) :
    ∃ cell a', a.remove (parent ++ [index]) = .ok (cell, a') ∧ Stores a' p' ∧
      Transparent (fun q => ¬ parent ++ [index] <+: q) (Path.removeShift parent index) a a' p p' := by
  have alike := stores.remove (parent ++ [index])
  rw [done] at alike
  obtain ⟨⟨cell, a'⟩, taken, _, stores'⟩ := alike.exists_ok
  have opens := Proof.remove_opens done
  rcases Proof.remove_eq_ok.mp done with ⟨_, _, _, _, _, unreferenced, _⟩
  obtain ⟨parent', index', parentId, equal, found, rfl⟩ := remove_eq_ok taken
  rcases List.append_singleton_inj.mp equal with ⟨rfl, rfl⟩
  have moved (q : Path) (outside : ¬ parent ++ [index] <+: q) :
      (a.erased parent index parentId).find? (Path.removeShift parent index q) = a.find? q := by
    rw [find?_erased stores.tree found, Path.insertShift_removeShift outside]
  refine ⟨cell, _, taken, stores', ?_⟩
  constructor
  · intro q n outside there
    have labels := Proof.label_remove done (Path.removeShift parent index q)
    rw [Path.insertShift_removeShift outside] at labels
    exact kept_of_label there labels
  · exact moved
  · intro q n outside there c cited
    -- the removal succeeded, so nothing that stays cites into the subtree
    exact moved c (Proof.referenceInto?_eq_none.mp unreferenced q n there outside c cited)
  · intro q outside
    have restored (e : ProofError) : (e.renumber (Path.insertShift parent index)).renumber
        (Path.removeShift parent index) = e := by
      rw [ProofError.renumber_renumber]
      exact ProofError.renumber_id e (Path.removeShift_insertShift parent index)
    have verdict := opens.verify (Path.removeShift parent index q)
    rw [Path.insertShift_removeShift outside] at verdict
    rw [verdict, mapError_mapError]
    simp only [restored]
    exact (mapError_id _).symm

end Arena

namespace Proof

variable {p p' removed : Proof} {parent path : Path} {index : Nat}

theorem check_insertAt {s : Sentence} (done : p.insertAt s parent index = .ok (path, p')) {q : Path}
    (apart : ¬ q <+: parent) : p'.check (Path.insertShift parent index q) = p.check q :=
  (insertAt_opens done).check apart

theorem check_remove (done : p.remove (parent ++ [index]) = .ok (removed, p')) {q : Path}
    (outside : ¬ parent ++ [index] <+: q) (apart : ¬ q <+: parent ++ [index]) :
    p'.check (Path.removeShift parent index q) = p.check q := by
  have restored := Path.insertShift_removeShift outside
  have below : ¬ Path.removeShift parent index q <+: parent := by
    intro above
    rw [← Path.insertShift_prefix_iff parent index, restored, Path.insertShift_parent] at above
    exact apart (above.trans (List.prefix_append parent [index]))
  rw [← (remove_opens done).check below, restored]

end Proof

/-- In every proof that edits have led to, putting a node in and taking a subtree away are
transparent to the nodes that stay. -/
theorem transparent_ofHistory (start : Sentence) (history : List Edit) :
    (∀ s parent index path p',
      (Proof.ofHistory start history).insertAt s parent index = .ok (path, p') →
      (∃ a', (Arena.ofHistory start history).insertAt s parent index = .ok (path, a') ∧
        a'.Stores p' ∧ Transparent (fun _ => True) (Path.insertShift parent index)
          (Arena.ofHistory start history) a' (Proof.ofHistory start history) p') ∧
      ∀ q, ¬ q <+: parent →
        p'.check (Path.insertShift parent index q) = (Proof.ofHistory start history).check q) ∧
    ∀ path removed p',
      (Proof.ofHistory start history).remove path = .ok (removed, p') →
      ∃ parent index, path = parent ++ [index] ∧
        (∃ cell a', (Arena.ofHistory start history).remove path = .ok (cell, a') ∧
          a'.Stores p' ∧ Transparent (fun q => ¬ path <+: q) (Path.removeShift parent index)
            (Arena.ofHistory start history) a' (Proof.ofHistory start history) p') ∧
        ∀ q, ¬ path <+: q → ¬ q <+: path →
          p'.check (Path.removeShift parent index q) = (Proof.ofHistory start history).check q := by
  have stores := Arena.stores_ofHistory start history
  constructor
  · intro s parent index path p' done
    exact ⟨stores.insertAt_transparent done, fun q => Proof.check_insertAt done⟩
  · intro path removed p' done
    rcases Proof.remove_eq_ok.mp done with ⟨parent, index, _, rfl, _⟩
    exact ⟨parent, index, rfl, stores.remove_transparent done, fun q => Proof.check_remove done⟩

def citingSecond : List Edit :=
  [.insert (.truth true) [], .insert (.truth false) [],
    .justify [] { rule := .doubleNegationIntroduction, antecedents := [.path [1]] }]

theorem transparent_citingSecond :
    (∃ p', (Proof.ofHistory (.truth true) citingSecond).insertAt (.truth true) [] 0 = .ok ([0], p') ∧
      p'.check [2] = (Proof.ofHistory (.truth true) citingSecond).check [1]) ∧
    ∃ removed p', (Proof.ofHistory (.truth true) citingSecond).remove [0] = .ok (removed, p') ∧
      p'.check [0] = (Proof.ofHistory (.truth true) citingSecond).check [1] := by
  have transparent := transparent_ofHistory (.truth true) citingSecond
  constructor
  · exact ⟨_, rfl, (transparent.1 (.truth true) [] 0 [0] _ rfl).2 [1] (by decide)⟩
  · obtain ⟨parent, index, same, _, checked⟩ := transparent.2 [0] _ _ rfl
    have concat : [] ++ [0] = parent ++ [index] := same
    rcases List.append_singleton_inj.mp concat with ⟨rfl, rfl⟩
    exact ⟨_, _, rfl, checked [1] (by decide) (by decide)⟩

end ProofDesk.Deduction
