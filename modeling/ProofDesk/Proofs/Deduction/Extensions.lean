import ProofDesk.Proofs.Deduction.Citations

/-!
Subproofs put behind the children of a node.  No citation can lead to them from what was there
before, since a node cites only what comes before it; so a proof whose citations are in scope is not
renumbered when it grows in this way, and the citations of what was there stay as they are.
-/

namespace ProofDesk.Deduction.Proof

open Logic (Sentence)

variable {p q : Proof} {path parent : Path} {qs rs : List Proof}

theorem ext_label : ∀ p q : Proof,
    (∀ path, (p.at? path).map label = (q.at? path).map label) → p = q
  | node s j ps, node s' j' qs => by
    intro same
    have root := same []
    simp only [at?_nil, Option.map_some, label, sentence, justification, Option.some.injEq,
      Prod.mk.injEq] at root
    obtain ⟨rfl, rfl⟩ := root
    congr 1
    apply List.ext_getElem?
    intro i
    have below (path : Path) : (ps[i]?.bind fun child => child.at? path).map label =
        (qs[i]?.bind fun child => child.at? path).map label := same (i :: path)
    cases here : ps[i]? with
    | none =>
      cases there : qs[i]? with
      | none => rfl
      | some child' => simpa [here, there] using below []
    | some child =>
      cases there : qs[i]? with
      | none => simpa [here, there] using below []
      | some child' =>
        rw [here, there] at below
        rw [ext_label child child' below]
termination_by p => sizeOf p
decreasing_by exact sizeOf_child_lt (p := .node s j ps) here

theorem renumber_eq_self {shift : Path → Path}
    (kept : ∀ path q, p.at? path = some q → ∀ c ∈ q.citations, shift c = c) :
    p.renumber shift = p := by
  apply ext_label
  intro path
  rw [label_at?_renumber]
  cases found : p.at? path with
  | none => rfl
  | some q =>
    have own := kept path q found
    rw [citations] at own
    rw [Option.map_some, Option.map_some, relabel, label]
    cases justified : q.justification with
    | none => rfl
    | some j =>
      rw [justified] at own
      rw [Option.map_some, Justification.renumber_id own]

theorem modify_append (f : Proof → Proof) (path below : Path) :
    modify f (path ++ below) = modify (modify f below) path := by
  induction path with
  | nil =>
    funext p
    rfl
  | cons i path ih =>
    funext p
    rw [List.cons_append, modify, modify, ih]

theorem withChildren_withChildren (ps qs : List Proof) (p : Proof) :
    (p.withChildren ps).withChildren qs = p.withChildren qs := by
  cases p
  rfl

theorem modify_modify (f g : Proof → Proof) (path : Path) (p : Proof) :
    (p.modify f path).modify g path = p.modify (fun q => g (f q)) path := by
  induction path generalizing p with
  | nil => rfl
  | cons i path ih =>
    have deeper : modify g path ∘ modify f path = modify (fun q => g (f q)) path := funext ih
    rw [modify, modify, modify, children_withChildren, withChildren_withChildren,
      List.modify_modify_eq, deeper]

theorem modify_congr {f g : Proof → Proof} (found : p.at? path = some q) (same : f q = g q) :
    p.modify f path = p.modify g path := by
  induction path generalizing p with
  | nil =>
    rw [at?_nil] at found
    cases found
    exact same
  | cons i path ih =>
    rw [at?_cons] at found
    obtain ⟨child, here, found⟩ := Option.bind_eq_some_iff.mp found
    rw [modify, modify]
    congr 1
    apply List.ext_getElem?
    intro k
    rw [List.getElem?_modify, List.getElem?_modify]
    by_cases this : i = k
    · subst this
      simp [here, ih found]
    · simp [this]

theorem modify_id (path : Path) (p : Proof) : p.modify (fun q => q) path = p := by
  induction path generalizing p with
  | nil => rfl
  | cons i path ih =>
    have deeper : modify (fun q => q) path = id := funext ih
    rw [modify, deeper, List.modify_id]
    cases p
    rfl

theorem citations_withChildren (ps : List Proof) (q : Proof) :
    (q.withChildren ps).citations = q.citations := citations_eq_of_label (label_withChildren ps q)

/-- The proof with subproofs behind the children of the node at a path. -/
def extend (p : Proof) (qs : List Proof) (path : Path) : Proof :=
  p.modify (fun q => q.withChildren (q.children ++ qs)) path

theorem extend_nil (p : Proof) (path : Path) : p.extend [] path = p := by
  have unchanged (q : Proof) : q.withChildren (q.children ++ []) = q := by
    cases q
    simp [withChildren, children]
  rw [extend, funext unchanged, modify_id]

theorem extend_extend (p : Proof) (qs rs : List Proof) (path : Path) :
    (p.extend qs path).extend rs path = p.extend (qs ++ rs) path := by
  simp only [extend, modify_modify, children_withChildren, withChildren_withChildren,
    List.append_assoc]

theorem at?_extend_self (qs : List Proof) (found : p.at? path = some q) :
    (p.extend qs path).at? path = some (q.withChildren (q.children ++ qs)) := by
  rw [extend, at?_modify_self, found, Option.map_some]

theorem modify_extend (found : p.at? path = some q) (r r' : Proof) :
    (p.extend [r] path).modify (fun _ => r') (path ++ [q.children.length]) =
      p.extend [r'] path := by
  rw [modify_append, extend, modify_modify, extend]
  apply modify_congr found
  have last : (q.children ++ [r]).modify q.children.length (modify (fun _ => r') []) =
      q.children ++ [r'] := by
    simp [List.modify_eq_set_getElem?, modify]
  rw [modify, children_withChildren, withChildren_withChildren, last]

theorem lt_of_isSome_below (found : p.at? parent = some q) {k : Nat} {rest : Path}
    (there : (p.at? (parent ++ k :: rest)).isSome) : k < q.children.length := by
  rw [at?_append, found, Option.bind_some, at?_cons] at there
  by_contra behind
  rw [List.getElem?_eq_none (Nat.le_of_not_lt behind)] at there
  simp at there

theorem label_extend (qs : List Proof) (found : p.at? parent = some q)
    (there : (p.at? path).isSome) :
    ((p.extend qs parent).at? path).map label = (p.at? path).map label := by
  by_cases below : parent <+: path
  · rcases below with ⟨rest, rfl⟩
    rw [extend, at?_modify_below, at?_append, found, Option.bind_some, Option.bind_some]
    cases rest with
    | nil => simp
    | cons k rest =>
      rw [at?_cons, at?_cons, children_withChildren,
        List.getElem?_append_left (lt_of_isSome_below found there)]
  · exact label_modify_beside _ below p

theorem below_of_isSome_extend (found : p.at? parent = some q)
    (new : ((p.extend qs parent).at? path).isSome) (absent : ¬ (p.at? path).isSome) :
    ∃ k rest, path = parent ++ k :: rest ∧ q.children.length ≤ k := by
  by_cases below : parent <+: path
  · rcases below with ⟨rest, rfl⟩
    cases rest with
    | nil =>
      rw [List.append_nil, found] at absent
      exact absurd rfl absent
    | cons k rest =>
      refine ⟨k, rest, rfl, Nat.le_of_not_lt fun before => absent ?_⟩
      rw [extend, at?_modify_below, found, Option.bind_some, at?_cons, children_withChildren,
        List.getElem?_append_left before] at new
      rw [at?_append, found, Option.bind_some, at?_cons]
      exact new
  · have same := congrArg Option.isSome
      (label_modify_beside (fun q => q.withChildren (q.children ++ qs)) below p)
    rw [Option.isSome_map, Option.isSome_map] at same
    exact absurd (same.symm.trans new) absent

/-- No node that was there before can cite one that was put behind the children of another. -/
theorem not_inScope_behind (found : p.at? parent = some q) {k : Nat} {rest : Path}
    (behind : q.children.length ≤ k) (there : (p.at? path).isSome) (other : path ≠ parent) :
    Path.inScope (parent ++ k :: rest) path = false := by
  -- the parent of what is cited lies on the way to the node that cites it
  have beyond (below : Path) : path ≠ parent ++ k :: below := by
    rintro rfl
    exact Nat.not_le_of_lt (lt_of_isSome_below found there) behind
  rw [Bool.eq_false_iff]
  intro visible
  rcases Path.inScope_iff.mp visible with ⟨i, same⟩ | ⟨shared, i, j, below, same, rfl, earlier⟩
  · rcases List.eq_nil_or_concat rest with rfl | ⟨rest, last, rfl⟩
    · exact other (List.append_singleton_inj.mp same).1.symm
    · rw [List.concat_eq_append, ← List.cons_append, ← List.append_assoc] at same
      exact beyond rest (List.append_singleton_inj.mp same).1.symm
  · rcases List.eq_nil_or_concat rest with rfl | ⟨rest, last, rfl⟩
    · obtain ⟨rfl, rfl⟩ := List.append_singleton_inj.mp same
      have before := lt_of_isSome_below found there
      omega
    · rw [List.concat_eq_append, ← List.cons_append, ← List.append_assoc] at same
      obtain ⟨rfl, rfl⟩ := List.append_singleton_inj.mp same
      exact beyond (rest ++ j :: below) (by simp)

theorem CitesInScope.of_extend (cites : (p.extend qs parent).CitesInScope)
    (found : p.at? parent = some q) (silent : q.citations = []) : p.CitesInScope := by
  intro path n here c cited
  have labels := label_extend qs found (Option.isSome_iff_exists.mpr ⟨n, here⟩)
  rw [here] at labels
  obtain ⟨m, there, same⟩ := Option.map_eq_some_iff.mp labels
  obtain ⟨present, visible⟩ := cites path m there c (citations_eq_of_label same ▸ cited)
  refine ⟨?_, visible⟩
  by_contra absent
  obtain ⟨k, rest, rfl, behind⟩ := below_of_isSome_extend found present absent
  have other : path ≠ parent := by
    rintro rfl
    obtain rfl := Option.some.inj (found.symm.trans here)
    rw [silent] at cited
    simp at cited
  rw [not_inScope_behind found behind (Option.isSome_iff_exists.mpr ⟨n, here⟩) other] at visible
  exact Bool.false_ne_true visible

theorem CitesInScope.insert_behind (cites : p.CitesInScope) (found : p.at? parent = some q)
    (s : Sentence) :
    p.insert s parent = .ok (parent ++ [q.children.length], p.extend [single s] parent) := by
  have unmoved : p.renumber (Path.insertShift parent q.children.length) = p := by
    apply renumber_eq_self
    intro path n here c cited
    exact insertShift_behind found (cites path n here c cited).1
  rw [insert_eq_ok]
  refine ⟨q, found, ?_⟩
  rw [insertAt_eq_ok]
  refine ⟨q, found, Nat.le_refl _, rfl, ?_⟩
  rw [unmoved, extend]
  apply modify_congr found
  rw [List.insertIdx_length_self]

theorem at?_insert {s : Sentence} {after : Proof} (done : p.insert s parent = .ok (path, after)) :
    after.at? path = some (single s) := by
  obtain ⟨q, -, done⟩ := insert_eq_ok.mp done
  exact at?_insertAt done

theorem CitesInScope.extend_single (cites : p.CitesInScope) (found : p.at? parent = some q)
    (s : Sentence) : (p.extend [single s] parent).CitesInScope := by
  obtain ⟨r, -, done⟩ := insert_eq_ok.mp (cites.insert_behind found s)
  exact cites.insertAt done

theorem citesInScope_justified {j : Justification} (found : p.at? path = some q)
    (silent : q.citations = []) : (p.modify (withJustification j) path).CitesInScope ↔
      p.CitesInScope ∧ ∀ c ∈ j.citations, (p.at? c).isSome ∧ c.inScope path = true := by
  have keeps := children_withJustification j
  constructor
  · intro cites
    constructor
    · intro place n here c cited
      have other : place ≠ path := by
        rintro rfl
        obtain rfl := Option.some.inj (found.symm.trans here)
        rw [silent] at cited
        simp at cited
      have labels := label_modify_other keeps other p
      rw [here] at labels
      obtain ⟨m, there, same⟩ := Option.map_eq_some_iff.mp labels
      obtain ⟨present, visible⟩ := cites place m there c (citations_eq_of_label same ▸ cited)
      exact ⟨(isSome_modify keeps c p).symm.trans present, visible⟩
    · intro c cited
      have here : (p.modify (withJustification j) path).at? path =
          some (q.withJustification j) := by
        rw [at?_modify_self, found, Option.map_some]
      rw [← citations_withJustification j q] at cited
      obtain ⟨present, visible⟩ := cites path _ here c cited
      exact ⟨(isSome_modify keeps c p).symm.trans present, visible⟩
  · rintro ⟨cites, visible⟩
    apply cites.modify keeps
    intro n _ c cited
    rw [citations_withJustification] at cited
    exact visible c cited

/-! A node without children and justification that is given both. -/

theorem extend_single_eq {s : Sentence} (found : p.at? path = some (single s)) :
    p.extend qs path = p.modify (fun _ => node s none qs) path := by
  rw [extend]
  exact modify_congr found rfl

theorem justify_extend_iff {s : Sentence} {j : Justification} {after : Proof}
    (found : p.at? path = some (single s)) :
    (p.extend qs path).CitesInScope ∧ (p.extend qs path).justify path j = .ok after ↔
      after = p.modify (fun _ => node s (some j) qs) path ∧ after.CitesInScope := by
  have here := at?_extend_self qs found
  have justified : (p.extend qs path).modify (withJustification j) path =
      p.modify (fun _ => node s (some j) qs) path := by
    rw [extend, modify_modify]
    exact modify_congr found rfl
  rw [justify_eq_ok, here, ← justified, resolve_citations]
  constructor
  · rintro ⟨cites, -, visible, rfl⟩
    exact ⟨rfl, (citesInScope_justified here rfl).mpr ⟨cites, visible⟩⟩
  · rintro ⟨rfl, cites⟩
    obtain ⟨cites, visible⟩ := (citesInScope_justified here rfl).mp cites
    exact ⟨cites, rfl, visible, rfl⟩

end ProofDesk.Deduction.Proof
