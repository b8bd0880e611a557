import ProofDesk.Deduction.Edit
import ProofDesk.Proofs.Deduction.Openings

namespace ProofDesk.Deduction

open Logic (Sentence)

namespace Proof

/-- Every citation leads to a node and is in scope at the node that it stands in. -/
def CitesInScope (p : Proof) : Prop :=
  ∀ path q, p.at? path = some q → ∀ c ∈ q.citations,
    (p.at? c).isSome ∧ c.inScope path = true

variable {p after lower upper : Proof} {parent path : Path} {index : Nat}

theorem citations_eq_of_label {q r : Proof} (same : q.label = r.label) :
    q.citations = r.citations := by
  have justifications : q.justification = r.justification := congrArg Prod.snd same
  rw [citations, citations, justifications]

theorem citations_renumber (shift : Path → Path) (q : Proof) :
    (q.renumber shift).citations = q.citations.map shift := by
  rcases q with ⟨s, j, ps⟩
  cases j with
  | none => rfl
  | some j => exact Justification.citations_renumber shift j

theorem citesInScope_single (s : Sentence) : (single s).CitesInScope := by
  intro path q found c cites
  cases path with
  | nil =>
    rw [at?_nil] at found
    cases found
    simp [single, citations, justification] at cites
  | cons i path => simp [at?_cons, single, children] at found

@[simp]
theorem children_withSentence (s : Sentence) (q : Proof) :
    (q.withSentence s).children = q.children := by
  cases q
  rfl

@[simp]
theorem label_withSentence (s : Sentence) (q : Proof) :
    (q.withSentence s).label = (s, q.label.2) := by
  cases q
  rfl

@[simp]
theorem children_withJustification (j : Justification) (q : Proof) :
    (q.withJustification j).children = q.children := by
  cases q
  rfl

@[simp]
theorem label_withJustification (j : Justification) (q : Proof) :
    (q.withJustification j).label = (q.label.1, some j) := by
  cases q
  rfl

theorem citations_withSentence (s : Sentence) (q : Proof) :
    (q.withSentence s).citations = q.citations := by
  cases q
  rfl

theorem citations_withJustification (j : Justification) (q : Proof) :
    (q.withJustification j).citations = j.citations := by
  cases q
  rfl

theorem at?_modify_self (f : Proof → Proof) (path : Path) (p : Proof) :
    (p.modify f path).at? path = (p.at? path).map f := by
  have same := at?_modify_below f path p []
  rw [List.append_nil] at same
  rw [same]
  cases p.at? path <;> simp

theorem label_modify_other {f : Proof → Proof} (keeps : ∀ q, (f q).children = q.children)
    {q : Path} (other : q ≠ path) (p : Proof) :
    ((p.modify f path).at? q).map label = (p.at? q).map label := by
  by_cases inside : path <+: q
  · rcases inside with ⟨below, rfl⟩
    rw [at?_modify_below, at?_append]
    cases below with
    | nil => simp at other
    | cons i below => simp only [at?_cons, keeps]
  · exact label_modify_beside f inside p

theorem isSome_modify {f : Proof → Proof} (keeps : ∀ q, (f q).children = q.children) (q : Path)
    (p : Proof) : ((p.modify f path).at? q).isSome = (p.at? q).isSome := by
  by_cases same : q = path
  · rw [same, at?_modify_self, Option.isSome_map]
  · simpa using congrArg Option.isSome (label_modify_other keeps same p)

theorem CitesInScope.modify {f : Proof → Proof} (cites : p.CitesInScope)
    (keeps : ∀ q, (f q).children = q.children)
    (own : ∀ q, p.at? path = some q → ∀ c ∈ (f q).citations,
      (p.at? c).isSome ∧ c.inScope path = true) :
    (p.modify f path).CitesInScope := by
  intro place q found c cited
  rw [isSome_modify keeps]
  by_cases same : place = path
  · subst same
    rw [at?_modify_self] at found
    rcases Option.map_eq_some_iff.mp found with ⟨r, there, rfl⟩
    exact own r there c cited
  · have labels := label_modify_other keeps same p
    rw [found] at labels
    rcases Option.map_eq_some_iff.mp labels.symm with ⟨r, there, equal⟩
    exact cites place r there c (citations_eq_of_label equal ▸ cited)

theorem Opens.citations (opens : Opens parent index lower upper) {q : Path} {n m : Proof}
    (below : lower.at? q = some n) (above : upper.at? (Path.insertShift parent index q) = some m) :
    m.citations = n.citations.map (Path.insertShift parent index) := by
  have same := opens.label q
  rw [above, at?_renumber, below, Option.map_some, Option.map_some, Option.map_some] at same
  rw [citations_eq_of_label (Option.some.inj same), citations_renumber]

theorem Opens.citesInScope_upper (opens : Opens parent index lower upper) {s : Sentence}
    (new : upper.at? (parent ++ [index]) = some (single s)) (cites : lower.CitesInScope) :
    upper.CitesInScope := by
  intro place m found c cited
  by_cases inside : parent ++ [index] <+: place
  · rcases inside with ⟨rest, rfl⟩
    rw [at?_append, new, Option.bind_some] at found
    cases rest with
    | nil =>
      rw [at?_nil] at found
      cases found
      simp [single, Proof.citations, justification] at cited
    | cons i rest => simp [at?_cons, single, children] at found
  · have moved := Path.insertShift_removeShift inside
    rw [← moved] at found ⊢
    have there := opens.isSome (Path.removeShift parent index place)
    rw [found, Option.isSome_some] at there
    rcases Option.isSome_iff_exists.mp there.symm with ⟨n, below⟩
    rw [opens.citations below found] at cited
    rcases List.mem_map.mp cited with ⟨old, inScope, rfl⟩
    rw [opens.isSome, Path.inScope_insertShift]
    exact cites _ n below old inScope

theorem Opens.citesInScope_lower (opens : Opens parent index lower upper)
    (cites : upper.CitesInScope) : lower.CitesInScope := by
  intro place n found c cited
  have there := opens.isSome place
  rw [found, Option.isSome_some] at there
  rcases Option.isSome_iff_exists.mp there with ⟨m, above⟩
  have moved : Path.insertShift parent index c ∈ m.citations := by
    rw [opens.citations found above]
    exact List.mem_map_of_mem cited
  rw [← opens.isSome, ← Path.inScope_insertShift parent index c place]
  exact cites _ m above _ moved

theorem insertShift_behind {q : Proof} {c : Path} (found : p.at? parent = some q)
    (there : (p.at? c).isSome) : Path.insertShift parent q.children.length c = c := by
  by_cases inside : parent <+: c
  · rcases inside with ⟨rest, rfl⟩
    rw [Path.insertShift_append]
    cases rest with
    | nil => rfl
    | cons i rest =>
      have before : i < q.children.length := by
        rw [at?_append, found, Option.bind_some, at?_cons] at there
        by_contra behind
        rw [List.getElem?_eq_none (Nat.le_of_not_lt behind)] at there
        simp at there
      have earlier : ¬ q.children.length ≤ i := Nat.not_le_of_lt before
      simp [Path.insertShift, earlier]
  · exact Path.insertShift_of_not_below inside

/-! Antecedents that resolve exist and are in scope. -/

theorem resolve_succeeds_iff {position : Path} {antecedents : List Antecedent} :
    (∃ ss, p.resolve position antecedents = .ok ss) ↔
      ∀ c, .path c ∈ antecedents → (p.at? c).isSome ∧ c.inScope position = true := by
  have each (a : Antecedent) : (∃ s, p.resolveOne position a = .ok s) ↔
      ∀ c, .path c = a → (p.at? c).isSome ∧ c.inScope position = true := by
    cases a with
    | sentence s => simp
    | path c => cases found : p.at? c <;> simp [found]
  simp only [resolve_eq_ok, exists_forall₂_iff, each]
  constructor
  · intro visible c member
    exact visible _ member c rfl
  · rintro visible a member c rfl
    exact visible c member

theorem resolve_citations {position : Path} {j : Justification} :
    (∃ ss, p.resolve position j.antecedents = .ok ss) ↔
      ∀ c ∈ j.citations, (p.at? c).isSome ∧ c.inScope position = true := by
  simp only [resolve_succeeds_iff, Justification.mem_citations]

theorem sentence_of_label {c : Path} (labels : (after.at? c).map label = (p.at? c).map label) :
    (after.at? c).map sentence = (p.at? c).map sentence := by
  have sentences := congrArg (Option.map Prod.fst) labels
  rw [Option.map_map, Option.map_map] at sentences
  exact sentences

theorem resolve_congr {antecedents : List Antecedent} (position : Path)
    (same : ∀ c, .path c ∈ antecedents →
      (after.at? c).map sentence = (p.at? c).map sentence) :
    after.resolve position antecedents = p.resolve position antecedents := by
  have got (q : Proof) (c : Path) : (q.get c).map sentence =
      match (q.at? c).map sentence with
      | some s => .ok s
      | none => .error (.invalidPosition c) := by
    unfold get
    cases q.at? c <;> rfl
  have each (a : Antecedent) (member : a ∈ antecedents) :
      after.resolveOne position a = p.resolveOne position a := by
    cases a with
    | sentence s => rfl
    | path c => rw [resolveOne, resolveOne, got, got, same c member]
  clear same
  unfold resolve
  induction antecedents with
  | nil => rfl
  | cons a antecedents ih =>
    rw [List.mapM_cons, List.mapM_cons, each a List.mem_cons_self,
      ih fun b later => each b (List.mem_cons_of_mem a later)]

/-- What is derived depends on the sentences of the cited nodes. -/
theorem derive_congr {j : Justification} (position : Path)
    (same : ∀ c ∈ j.citations, (after.at? c).map sentence = (p.at? c).map sentence) :
    after.derive position j = p.derive position j := by
  have resolved : after.resolve position j.antecedents = p.resolve position j.antecedents :=
    resolve_congr position fun c member => same c (Justification.mem_citations.mpr member)
  rw [derive, resolved]
  rfl

theorem setSentence_eq_ok {s : Sentence} : p.setSentence path s = .ok after ↔
    (p.at? path).isSome ∧ after = p.modify (withSentence s) path := by
  unfold setSentence
  cases found : p.at? path <;> simp [get, found, discard, Functor.mapConst, Except.map, eq_comm,
    bind, Except.bind, pure, Except.pure]

theorem childCount_eq_ok {n : Nat} : p.childCount path = .ok n ↔
    ∃ q, p.at? path = some q ∧ q.children.length = n := by
  simp [childCount]

theorem insert_eq_ok {s : Sentence} : p.insert s parent = .ok (path, after) ↔
    ∃ q, p.at? parent = some q ∧ p.insertAt s parent q.children.length = .ok (path, after) := by
  unfold insert
  simp only [bind_eq_ok_iff, childCount_eq_ok]
  constructor
  · intro counted
    rcases counted with ⟨n, ⟨q, found, same⟩, done⟩
    exact ⟨q, found, same ▸ done⟩
  · intro known
    rcases known with ⟨q, found, done⟩
    exact ⟨_, ⟨q, found, rfl⟩, done⟩

theorem insertDerived_eq_ok {j : Justification} : p.insertDerived parent j = .ok (path, after) ↔
    ∃ q derived extended, p.at? parent = some q ∧
      p.derive (parent ++ [q.children.length]) j = .ok derived ∧
      p.insertAt derived parent q.children.length = .ok (path, extended) ∧
      after = extended.modify (withJustification j) path := by
  unfold insertDerived
  simp only [bind_eq_ok_iff, childCount_eq_ok, Prod.exists, insert_eq_ok, pure_eq_ok_iff,
    Prod.mk.injEq]
  constructor
  · intro steps
    obtain ⟨n, ⟨q, found, rfl⟩, derived, derivation, place, extended, ⟨r, found', done⟩, rfl, rfl⟩ :=
      steps
    rw [found] at found'
    cases found'
    exact ⟨q, derived, extended, found, derivation, done, rfl⟩
  · intro known
    rcases known with ⟨q, derived, extended, found, derivation, done, same⟩
    exact ⟨_, ⟨q, found, rfl⟩, derived, derivation, path, extended, ⟨q, found, done⟩, rfl, same.symm⟩

theorem justify_eq_ok {j : Justification} : p.justify path j = .ok after ↔
    (p.at? path).isSome ∧ (∃ ss, p.resolve path j.antecedents = .ok ss) ∧
      after = p.modify (withJustification j) path := by
  unfold justify
  cases found : p.at? path <;> cases resolved : p.resolve path j.antecedents <;>
    simp [get, found, discard, Functor.mapConst, Except.map, eq_comm,
      bind, Except.bind, pure, Except.pure]

theorem CitesInScope.insertAt {s : Sentence} (cites : p.CitesInScope)
    (done : p.insertAt s parent index = .ok (path, after)) : after.CitesInScope := by
  rcases insertAt_eq_ok.mp done with ⟨q, found, inside, same, _⟩
  have new := at?_insertAt done
  rw [same] at new
  exact (insertAt_opens done).citesInScope_upper new cites

theorem CitesInScope.insertDerived {j : Justification} (cites : p.CitesInScope)
    (done : p.insertDerived parent j = .ok (path, after)) : after.CitesInScope := by
  rcases insertDerived_eq_ok.mp done with ⟨q, derived, extended, found, derivation, inserted, rfl⟩
  rcases insertAt_eq_ok.mp inserted with ⟨_, _, _, rfl, _⟩
  rcases derive_eq_ok.mp derivation with ⟨ss, resolved, _⟩
  have visible := resolve_citations.mp ⟨ss, resolved⟩
  apply (cites.insertAt inserted).modify (children_withJustification j)
  intro n _ c cited
  rw [citations_withJustification] at cited
  obtain ⟨there, inScope⟩ := visible c cited
  have opens := (insertAt_opens inserted).isSome c
  rw [insertShift_behind found there] at opens
  exact ⟨opens.trans there, inScope⟩

theorem CitesInScope.remove {removed : Proof} (cites : p.CitesInScope)
    (done : p.remove path = .ok (removed, after)) : after.CitesInScope := by
  rcases remove_eq_ok.mp done with ⟨parent, index, _, rfl, _⟩
  exact (remove_opens done).citesInScope_lower cites

theorem CitesInScope.edit {e : Edit} (cites : p.CitesInScope) (done : p.edit e = .ok after) :
    after.CitesInScope := by
  cases e with
  | setSentence path s =>
    rcases setSentence_eq_ok.mp done with ⟨_, rfl⟩
    apply cites.modify (children_withSentence s)
    intro q found c cited
    rw [citations_withSentence] at cited
    exact cites path q found c cited
  | insert s parent =>
    rcases map_eq_ok_iff.mp done with ⟨⟨path, after⟩, inserted, rfl⟩
    rcases insert_eq_ok.mp inserted with ⟨q, _, inserted⟩
    exact cites.insertAt inserted
  | insertAt s parent index =>
    rcases map_eq_ok_iff.mp done with ⟨⟨path, after⟩, inserted, rfl⟩
    exact cites.insertAt inserted
  | insertDerived parent j =>
    rcases map_eq_ok_iff.mp done with ⟨⟨path, after⟩, inserted, rfl⟩
    exact cites.insertDerived inserted
  | justify path j =>
    rcases justify_eq_ok.mp done with ⟨_, resolved, rfl⟩
    apply cites.modify (children_withJustification j)
    intro q found c cited
    rw [citations_withJustification] at cited
    exact resolve_citations.mp resolved c cited
  | remove path =>
    rcases map_eq_ok_iff.mp done with ⟨⟨removed, after⟩, taken, rfl⟩
    exact cites.remove taken

theorem CitesInScope.tryEdit (cites : p.CitesInScope) (e : Edit) : (p.tryEdit e).CitesInScope := by
  unfold Proof.tryEdit
  cases done : p.edit e with
  | error _ => exact cites
  | ok after => exact cites.edit done

/-- After every history of edits, the citations lead to nodes and are in scope. -/
theorem citesInScope_ofHistory (s : Sentence) (history : List Edit) :
    (ofHistory s history).CitesInScope := by
  unfold ofHistory
  apply List.foldlRecOn (motive := CitesInScope)
  · exact citesInScope_single s
  · intro p cites e _
    exact cites.tryEdit e

theorem derive_error {position : Path} {j : Justification} {ss : List Sentence} {e : ProofError}
    (resolved : p.resolve position j.antecedents = .ok ss) (failed : p.derive position j = .error e) :
    e = .noConclusion j.rule ∨ ∃ r, e = .rule r := by
  rw [derive, resolved] at failed
  dsimp only [bind, Except.bind] at failed
  cases applied : j.rule.apply ss j.arguments with
  | error r =>
    rw [applied] at failed
    cases failed
    exact Or.inr ⟨r, rfl⟩
  | ok derived =>
    rw [applied] at failed
    cases derived with
    | none =>
      cases failed
      exact Or.inl rfl
    | some s => cases failed

/-- The verdict on a node that is there does not complain about where it or an antecedent is. -/
theorem CitesInScope.verify_error {e : ProofError} (cites : p.CitesInScope)
    (there : (p.at? path).isSome) (failed : p.verify path = .error e) :
    (∀ q, e ≠ .invalidPosition q) ∧ ∀ q c, e ≠ .scopeViolation q c := by
  rcases Option.isSome_iff_exists.mp there with ⟨n, found⟩
  rw [verify_eq, found] at failed
  rcases n with ⟨s, j, ps⟩
  cases j with
  | none =>
    cases failed
    simp
  | some j =>
    obtain ⟨ss, resolved⟩ := resolve_citations.mpr (cites path _ found)
    dsimp only at failed
    by_cases assumed : j.rule.isAssumption = true
    · rw [if_pos assumed] at failed
      cases failed
    · rw [if_neg assumed] at failed
      cases derivation : p.derive path j with
      | error r =>
        rw [derivation] at failed
        cases failed
        rcases derive_error resolved derivation with rfl | ⟨r, rfl⟩ <;> simp
      | ok derived =>
        rw [derivation] at failed
        dsimp only at failed
        split at failed
        · cases failed
        · cases failed
          simp

end Proof
end ProofDesk.Deduction
