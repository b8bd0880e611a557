import ProofDesk.Proofs.Deduction.Traversal

namespace ProofDesk.Deduction.Arena

open Logic (Sentence)

variable {a : Arena} {p q : Proof} {cell : Cell} {parent path : Path} {index id parentId : Nat}

theorem Stores.modify {f : Cell → Cell} {g : Proof → Proof} (stores : Stores a p)
    (reached : a.find? path = some id) (keeps : ∀ cell, (f cell).children = cell.children)
    (keeps' : ∀ q, (g q).children = q.children)
    (same : ∀ cell q, cell.label = q.label → (f cell).label = (g q).label) :
    Stores (a.modify f id) (p.modify g path) := by
  have unmoved := find?_modify keeps id a
  refine ⟨stores.tree.of_find? unmoved (by simp [Arena.modify]), fun place => ?_⟩
  rw [cell?, unmoved]
  -- elsewhere the cell is another one, as no two paths lead to the changed cell
  by_cases here : place = path
  · subst here
    have present : (p.at? place).isSome := by rw [← stores.isSome, reached, Option.isSome_some]
    rcases Option.isSome_iff_exists.mp present with ⟨q, found⟩
    obtain ⟨_, cell, reached', there, labels⟩ := stores.exists_cell found
    cases reached.symm.trans reached'
    rw [reached, Option.bind_some, getElem?_modify_self, there, Proof.at?_modify_self, found]
    exact congrArg some (same cell q labels)
  · rw [Proof.label_modify_other keeps' here, ← stores.label]
    cases found : a.find? place with
    | none => rw [cell?, found, Option.bind_none, Option.bind_none]
    | some i =>
      have other : i ≠ id := by
        intro equal
        exact here (stores.tree.distinct place path i found (equal ▸ reached))
      rw [Option.bind_some, getElem?_modify_other f other, cell?_of_find? found]

theorem Stores.alike_find {α β : Type} {related : α → β → Prop} (stores : Stores a p) (path : Path)
    {f : Nat → Except ProofError α} {g : Proof → Except ProofError β}
    (rest : ∀ id cell q, a.find? path = some id → a.cells[id]? = some cell → p.at? path = some q →
      cell.label = q.label → Alike related (f id) (g q)) :
    Alike related (a.find path >>= f) (p.get path >>= g) := by
  apply (stores.find path).bind
  intro id q lookup
  obtain ⟨id', cell, reached, there, labels⟩ := stores.exists_cell lookup.2
  cases lookup.1.symm.trans reached
  exact rest id cell q reached there lookup.2 labels

theorem Stores.setSentence (stores : Stores a p) (path : Path) (s : Sentence) :
    Alike Stores (a.setSentence path s) (p.setSentence path s) := by
  unfold Arena.setSentence Proof.setSentence
  rw [discard_bind]
  apply stores.alike_find path
  intro id cell q reached _ _ _
  refine Alike.ok (stores.modify reached (fun cell => rfl) (Proof.children_withSentence s) ?_)
  intro cell q labels
  rw [Proof.label_withSentence, ← labels]
  rfl

theorem Stores.attach (stores : Stores a p) (reached : a.find? path = some id) (j : Justification) :
    Stores (a.attach j id) (p.modify (Proof.withJustification j) path) := by
  refine stores.modify reached (fun cell => rfl) (Proof.children_withJustification j) ?_
  intro cell q labels
  rw [Proof.label_withJustification, ← labels]
  rfl

theorem Stores.justify (stores : Stores a p) (path : Path) (j : Justification) :
    Alike Stores (a.justify path j) (p.justify path j) := by
  have antecedents : a.resolveOne path = p.resolveOne path := funext (stores.resolveOne path)
  unfold Arena.justify Proof.justify
  rw [discard_bind]
  apply stores.alike_find path
  intro id cell q reached _ _ _
  rw [Arena.resolve, Proof.resolve, antecedents, discard_bind, discard_bind]
  cases j.antecedents.mapM (p.resolveOne path) with
  | error e => exact Alike.error e
  | ok ss => exact Alike.ok (stores.attach reached j)

theorem Stores.opened {after : Proof} (stores : Stores a p) {s : Sentence}
    (reached : a.find? parent = some parentId)
    (done : p.insertAt s parent index = .ok (path, after)) :
    Stores (a.opened s parent index parentId) after := by
  rcases Proof.insertAt_eq_ok.mp done with ⟨q, found, fits, rfl, _⟩
  obtain ⟨_, cell, reached', there, _⟩ := stores.exists_cell found
  cases reached.symm.trans reached'
  have inside := stores.tree.inside parent parentId reached
  rw [← stores.length_children found reached there] at fits
  have new := find?_opened_new stores.tree s reached there fits
  refine ⟨stores.tree.opened s reached there fits, fun place => ?_⟩
  by_cases below : parent ++ [index] <+: place
  · rcases below with ⟨rest, rfl⟩
    rw [Proof.at?_append, Proof.at?_insertAt done, Option.bind_some, cell?, find?_append, new,
      Option.bind_some]
    -- the new cell has no children, so a longer path leads nowhere
    cases rest with
    | nil =>
      rw [follow?, Option.bind_some, getElem?_opened_new s parent inside, Proof.at?_nil]
      rfl
    | cons i rest =>
      have other : a.cells.length ≠ parentId := Nat.ne_of_gt inside
      have childless : a.child? a.cells.length i = none := by simp [child?]
      rw [follow?, child?_opened_other s parent other, childless, Proof.at?_cons]
      simp [Proof.single, Proof.children]
  · rw [← Path.insertShift_removeShift below, (Proof.insertAt_opens done).label,
      Proof.label_at?_renumber, ← stores.label, cell?, find?_opened stores.tree s reached]
    cases old : a.find? (Path.removeShift parent index place) with
    | none => rw [cell?, old, Option.bind_none, Option.bind_none]
              rfl
    | some i =>
      rw [Option.bind_some, label_opened s parent index parentId (stores.tree.inside _ i old),
        cell?_of_find? old]

/-- A stored proof with a node at a path that has been put in. -/
def StoresWith (x : Path × Arena) (y : Path × Proof) : Prop :=
  x.1 = y.1 ∧ Stores x.2 y.2 ∧ (y.2.at? y.1).isSome

theorem Stores.insertAt (stores : Stores a p) (s : Sentence) (parent : Path) (index : Nat) :
    Alike StoresWith (a.insertAt s parent index) (p.insertAt s parent index) := by
  unfold Arena.insertAt Proof.insertAt
  apply stores.alike_find parent
  intro id cell q reached _ found _
  have count : a.childCount parent = .ok q.children.length := by
    rw [stores.childCount]
    exact Proof.childCount_eq_ok.mpr ⟨q, found, rfl⟩
  rw [count]
  change Alike _ (if q.children.length < index then _ else _) _
  by_cases outside : q.children.length < index
  · rw [if_pos outside, if_pos outside]
    exact Alike.error _
  · rw [if_neg outside, if_neg outside]
    have done := (Proof.insertAt_eq_ok (s := s)).mpr
      ⟨q, found, Nat.le_of_not_lt outside, rfl, rfl⟩
    refine Alike.ok ⟨rfl, stores.opened reached done, ?_⟩
    rw [Proof.at?_insertAt done, Option.isSome_some]

theorem Stores.insert (stores : Stores a p) (s : Sentence) (parent : Path) :
    Alike StoresWith (a.insert s parent) (p.insert s parent) := by
  unfold Arena.insert Proof.insert
  rw [stores.childCount]
  cases p.childCount parent with
  | error e => exact Alike.error e
  | ok count => exact stores.insertAt s parent count

theorem Stores.insertDerived (stores : Stores a p) (parent : Path) (j : Justification) :
    Alike StoresWith (a.insertDerived parent j) (p.insertDerived parent j) := by
  unfold Arena.insertDerived Proof.insertDerived
  rw [stores.childCount]
  cases p.childCount parent with
  | error e => exact Alike.error e
  | ok count =>
    change Alike _ (a.derive _ j >>= _) (p.derive _ j >>= _)
    rw [stores.derive]
    cases p.derive (parent ++ [count]) j with
    | error e => exact Alike.error e
    | ok derived =>
      apply (stores.insert derived parent).bind
      intro x y placed
      rcases x with ⟨path, extended⟩
      rcases y with ⟨path', after⟩
      obtain ⟨rfl, stores', present⟩ : path = path' ∧ Stores extended after ∧
        (after.at? path').isSome := placed
      rcases Option.isSome_iff_exists.mp present with ⟨q, found⟩
      obtain ⟨id, _, reached, _⟩ := stores'.exists_cell found
      change Alike _ (extended.find path >>= _) _
      rw [Arena.find, reached]
      refine Alike.ok ⟨rfl, stores'.attach reached j, ?_⟩
      rw [Proof.at?_modify_self, found, Option.map_some, Option.isSome_some]

theorem Stores.referenceInto? (stores : Stores a p) (path : Path) :
    a.referenceInto? path = p.referenceInto? path := by
  have citations (entry : Path × Proof) (member : entry ∈ p.nodes) :
      (a.cells[(a.find? entry.1).getD 0]?.map Cell.citations).getD [] = entry.2.citations := by
    rcases entry with ⟨place, q⟩
    obtain ⟨id, cell, reached, there, labels⟩ :=
      stores.exists_cell ((Proof.mem_nodes p).mp member)
    have justifications : cell.justification = q.justification := congrArg Prod.snd labels
    rw [reached, Option.getD_some, there, Option.map_some, Option.getD_some, Cell.citations,
      Proof.citations, justifications]
  unfold Arena.referenceInto? Proof.referenceInto?
  rw [stores.walk, List.findSome?_map]
  generalize p.nodes = entries at citations
  induction entries with
  | nil => rfl
  | cons entry entries ih =>
    rw [List.findSome?_cons, List.findSome?_cons, ih fun other member =>
      citations other (List.mem_cons_of_mem _ member)]
    simp only [Function.comp_apply, citations entry List.mem_cons_self]

theorem Stores.erased {removed after : Proof} (stores : Stores a p)
    (reached : a.find? parent = some parentId)
    (done : p.remove (parent ++ [index]) = .ok (removed, after)) :
    Stores (a.erased parent index parentId) after := by
  refine ⟨stores.tree.erased reached, fun place => ?_⟩
  rw [Proof.label_remove done, ← stores.label, cell?, find?_erased stores.tree reached, cell?]
  cases a.find? (Path.insertShift parent index place) with
  | none => rfl
  | some i => rw [Option.bind_some, Option.bind_some, label_erased]

theorem Stores.remove (stores : Stores a p) (path : Path) :
    Alike (fun x y => x.1.map Cell.label = some y.1.label ∧ Stores x.2 y.2) (a.remove path)
      (p.remove path) := by
  rcases List.eq_nil_or_concat path with rfl | ⟨parent, index, rfl⟩
  · exact Alike.error _
  · unfold Arena.remove Proof.remove
    simp only [List.concat_eq_append, List.getLast?_append, List.getLast?_singleton,
      List.dropLast_concat, Option.some_or]
    apply stores.alike_find _
    intro id cell q reached there found labels
    rw [stores.referenceInto?]
    cases referenced : p.referenceInto? (parent ++ [index]) with
    | some r => exact Alike.error _
    | none =>
      have present : (p.at? parent).isSome :=
        Proof.at?_isSome_above (List.prefix_append parent [index]) (by simp [found])
      rcases Option.isSome_iff_exists.mp present with ⟨above, found'⟩
      obtain ⟨parentId, _, reached', _⟩ := stores.exists_cell found'
      have done := Proof.remove_eq_ok.mpr ⟨parent, index, q, rfl, found, referenced, rfl, rfl⟩
      change Alike _ (a.find parent >>= _) _
      rw [Arena.find, reached']
      refine Alike.ok ⟨?_, stores.erased reached' done⟩
      change ((a.erased parent index parentId).cells[id]?).map Cell.label = _
      rw [label_erased, there, Option.map_some, labels, Proof.label_renumber]
      rfl

theorem Stores.edit (stores : Stores a p) (e : Edit) : Alike Stores (a.edit e) (p.edit e) := by
  cases e with
  | setSentence path s => exact stores.setSentence path s
  | insert s parent => exact (stores.insert s parent).map fun x y placed => placed.2.1
  | insertAt s parent index => exact (stores.insertAt s parent index).map fun x y placed => placed.2.1
  | insertDerived parent j => exact (stores.insertDerived parent j).map fun x y placed => placed.2.1
  | justify path j => exact stores.justify path j
  | remove path => exact (stores.remove path).map fun x y taken => taken.2

theorem Stores.tryEdit (stores : Stores a p) (e : Edit) : Stores (a.tryEdit e) (p.tryEdit e) := by
  unfold Arena.tryEdit Proof.tryEdit
  have same := stores.edit e
  generalize a.edit e = x at same
  generalize p.edit e = y at same
  cases same with
  | ok stores => exact stores
  | error e => exact stores

/-- After every history of edits, the cells store the proof. -/
theorem stores_ofHistory (s : Sentence) (history : List Edit) :
    Stores (ofHistory s history) (Proof.ofHistory s history) := by
  unfold ofHistory Proof.ofHistory
  apply List.foldl_rel (r := Stores)
  · exact stores_single s
  · intro e _ a p stores
    exact stores.tryEdit e

end ProofDesk.Deduction.Arena
