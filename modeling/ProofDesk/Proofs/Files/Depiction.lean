import ProofDesk.Files.ProofTree
import ProofDesk.Proofs.Deduction.Extensions

namespace ProofDesk.Files

open Logic (Sentence Term)
open Deduction (Rule Path Proof Antecedent Justification)

inductive Citation.Means : Citation → Antecedent → Prop where
  | path (p : Path) : Means (.path p) (.path p)
  | sentence {text : Text} {s : Sentence} (read : Sentence.parse text = .ok s) :
      Means (.sentence text) (.sentence s)

theorem Citation.antecedent_eq_ok {c : Citation} {a : Antecedent} :
    c.antecedent = .ok a ↔ c.Means a := by
  cases c with
  | path p =>
    constructor
    · intro same
      cases same
      exact Means.path p
    · rintro ⟨⟩
      rfl
  | sentence text =>
    rw [Citation.antecedent, mapError_eq_ok_iff]
    constructor
    · intro read
      cases found : Sentence.parse text with
      | error e => rw [found] at read; cases read
      | ok s =>
        rw [found] at read
        cases read
        exact Means.sentence found
    · intro means
      cases means with
      | sentence found =>
        rw [found]
        rfl

theorem Citation.exists_means_iff {c : Citation} :
    (∃ a, c.Means a) ↔ ∀ text, .sentence text = c → ∃ s, Sentence.parse text = .ok s := by
  cases c with
  | path p =>
    constructor
    · rintro - text ⟨⟩
    · exact fun _ => ⟨_, Means.path p⟩
  | sentence text =>
    constructor
    · rintro ⟨_, means⟩ _ ⟨rfl⟩
      cases means with
      | sentence found => exact ⟨_, found⟩
    · intro read
      obtain ⟨s, found⟩ := read text rfl
      exact ⟨_, Means.sentence found⟩

theorem Citation.mem_path {cs : List Citation} {as : List Antecedent}
    (means : List.Forall₂ Citation.Means cs as) (p : Path) : .path p ∈ as ↔ .path p ∈ cs := by
  induction means with
  | nil => simp
  | cons first rest ih =>
    rw [List.mem_cons, List.mem_cons, ih]
    cases first <;> simp

namespace ProofTree

def rule : ProofTree → Option Text
  | node _ rule _ _ _ _ => rule

def antecedents : ProofTree → List Citation
  | node _ _ antecedents _ _ _ => antecedents

def arguments : ProofTree → List Text
  | node _ _ _ arguments _ _ => arguments

def bound : ProofTree → List Text
  | node _ _ _ _ bound _ => bound

def children : ProofTree → List ProofTree
  | node _ _ _ _ _ children => children

def at? : ProofTree → Path → Option ProofTree
  | t, [] => some t
  | t, i :: path => t.children[i]?.bind fun child => child.at? path

structure Grounds (t : ProofTree) (rule : Text) (j : Justification) : Prop where
  rule : Rule.ofName? rule = .ok j.rule
  antecedents : List.Forall₂ Citation.Means t.antecedents j.antecedents
  arguments : List.Forall₂ (fun text term => Term.parse text t.bound = .ok term) t.arguments
    j.arguments

/-- What a node of a file says about the node of a proof in its place. -/
structure Describes (t : ProofTree) (p : Proof) : Prop where
  sentence : Sentence.parse t.sentence = .ok p.sentence
  justification : Option.Rel t.Grounds t.rule p.justification
  children : t.children.length = p.children.length

/-- The proof has the shape of the file and says at every path what the file says there. -/
def Depicts (t : ProofTree) (p : Proof) : Prop :=
  ∀ path, Option.Rel Describes (t.at? path) (p.at? path)

/-- The texts of a node can be read, those of its justification if there is a rule. -/
structure Legible (t : ProofTree) : Prop where
  sentence : ∃ s, Sentence.parse t.sentence = .ok s
  justification : ∀ rule, t.rule = some rule → (∃ r, Rule.ofName? rule = .ok r) ∧
    (∀ text, .sentence text ∈ t.antecedents → ∃ s, Sentence.parse text = .ok s) ∧
    ∀ text ∈ t.arguments, ∃ term, Term.parse text t.bound = .ok term

/-- The texts of all nodes can be read, and where there is a rule the paths that are cited are in
scope and lead to nodes of the file. -/
structure Loadable (t : ProofTree) : Prop where
  legible : ∀ path n, t.at? path = some n → n.Legible
  cites : ∀ path n, t.at? path = some n → n.rule.isSome → ∀ c, .path c ∈ n.antecedents →
    c.inScope path = true ∧ (t.at? c).isSome

@[simp]
theorem at?_nil (t : ProofTree) : t.at? [] = some t := by
  cases t
  rfl

theorem at?_cons (t : ProofTree) (i : Nat) (path : Path) :
    t.at? (i :: path) = t.children[i]?.bind fun child => child.at? path := by
  cases t
  rfl

theorem grounds_iff {t : ProofTree} {rule : Text} (given : t.rule = some rule)
    {j : Option Justification} :
    t.justification = .ok j ↔ ∃ j', j = some j' ∧ t.Grounds rule j' := by
  obtain ⟨s, r, antecedents, arguments, bound, children⟩ := t
  obtain rfl : r = some rule := given
  simp only [justification, bind_eq_ok_iff, pure_eq_ok_iff, mapError_eq_ok_iff, mapM_eq_ok_iff,
    Citation.antecedent_eq_ok]
  constructor
  · rintro ⟨rule', named, antecedents', meant, arguments', read, rfl⟩
    exact ⟨_, rfl, named, meant, read⟩
  · rintro ⟨⟨rule', antecedents', arguments'⟩, rfl, named, meant, read⟩
    exact ⟨rule', named, antecedents', meant, arguments', read, rfl⟩

theorem justification_eq_ok {t : ProofTree} {j : Option Justification} :
    t.justification = .ok j ↔ Option.Rel t.Grounds t.rule j := by
  cases given : t.rule with
  | none =>
    obtain ⟨s, r, antecedents, arguments, bound, children⟩ := t
    obtain rfl : r = none := given
    constructor
    · intro same
      cases same
      exact Option.Rel.none
    · rintro ⟨⟩
      rfl
  | some rule =>
    rw [grounds_iff given]
    constructor
    · rintro ⟨j, rfl, grounds⟩
      exact Option.Rel.some grounds
    · rintro ⟨grounds⟩
      exact ⟨_, rfl, grounds⟩

theorem depicts_iff {t : ProofTree} {p : Proof} :
    t.Depicts p ↔ t.Describes p ∧ List.Forall₂ Depicts t.children p.children := by
  constructor
  · intro depicts
    have root := depicts []
    rw [at?_nil, Proof.at?_nil, Option.rel_some_some] at root
    refine ⟨root, List.forall₂_iff_get.mpr ⟨root.children, ?_⟩⟩
    intro i here there path
    have below := depicts (i :: path)
    rwa [at?_cons, Proof.at?_cons, List.getElem?_eq_getElem here, List.getElem?_eq_getElem there,
      Option.bind_some, Option.bind_some] at below
  · rintro ⟨root, children⟩ path
    cases path with
    | nil =>
      rw [at?_nil, Proof.at?_nil, Option.rel_some_some]
      exact root
    | cons i path =>
      rw [at?_cons, Proof.at?_cons]
      obtain ⟨length, each⟩ := List.forall₂_iff_get.mp children
      by_cases here : i < t.children.length
      · have there : i < p.children.length := length ▸ here
        rw [List.getElem?_eq_getElem here, List.getElem?_eq_getElem there, Option.bind_some,
          Option.bind_some]
        exact each i here there path
      · have beyond : ¬ i < p.children.length := length ▸ here
        rw [List.getElem?_eq_none (Nat.le_of_not_lt here),
          List.getElem?_eq_none (Nat.le_of_not_lt beyond), Option.bind_none, Option.bind_none]
        exact Option.Rel.none

theorem exists_grounds_iff {t : ProofTree} {rule : Text} :
    (∃ j, t.Grounds rule j) ↔ (∃ r, Rule.ofName? rule = .ok r) ∧
      (∀ text, .sentence text ∈ t.antecedents → ∃ s, Sentence.parse text = .ok s) ∧
      ∀ text ∈ t.arguments, ∃ term, Term.parse text t.bound = .ok term := by
  have meant : (∃ as, List.Forall₂ Citation.Means t.antecedents as) ↔
      ∀ text, .sentence text ∈ t.antecedents → ∃ s, Sentence.parse text = .ok s := by
    simp only [exists_forall₂_iff, Citation.exists_means_iff]
    constructor
    · intro read text listed
      exact read _ listed text rfl
    · rintro read c listed text rfl
      exact read text listed
  rw [← meant, ← exists_forall₂_iff]
  constructor
  · rintro ⟨j, named, antecedents, arguments⟩
    exact ⟨⟨_, named⟩, ⟨_, antecedents⟩, _, arguments⟩
  · rintro ⟨⟨r, named⟩, ⟨as, antecedents⟩, terms, arguments⟩
    exact ⟨⟨r, as, terms⟩, named, antecedents, arguments⟩

theorem legible_iff {t : ProofTree} : t.Legible ↔
    (∃ s, Sentence.parse t.sentence = .ok s) ∧ ∃ j, Option.Rel t.Grounds t.rule j := by
  constructor
  · rintro ⟨named, justification⟩
    refine ⟨named, ?_⟩
    cases given : t.rule with
    | none => exact ⟨none, Option.Rel.none⟩
    | some rule =>
      obtain ⟨j, grounds⟩ := exists_grounds_iff.mpr (justification rule given)
      exact ⟨some j, Option.Rel.some grounds⟩
  · rintro ⟨named, j, related⟩
    refine ⟨named, fun rule given => exists_grounds_iff.mp ?_⟩
    obtain ⟨j', -, grounds⟩ := (grounds_iff given).mp (justification_eq_ok.mpr related)
    exact ⟨j', grounds⟩

theorem legible_node_iff {t : ProofTree} : (∀ path n, t.at? path = some n → n.Legible) ↔
    t.Legible ∧ ∀ c ∈ t.children, ∀ path n, c.at? path = some n → n.Legible := by
  constructor
  · intro legible
    refine ⟨legible [] t (at?_nil t), ?_⟩
    intro c listed path n found
    obtain ⟨i, there⟩ := List.mem_iff_getElem?.mp listed
    apply legible (i :: path) n
    rw [at?_cons, there, Option.bind_some, found]
  · rintro ⟨root, children⟩ path n found
    cases path with
    | nil =>
      rw [at?_nil] at found
      cases found
      exact root
    | cons i path =>
      rw [at?_cons] at found
      obtain ⟨c, there, found⟩ := Option.bind_eq_some_iff.mp found
      exact children c (List.mem_of_getElem? there) path n found

mutual

theorem exists_depicts : ∀ t : ProofTree, (∀ path n, t.at? path = some n → n.Legible) →
    ∃ p, t.Depicts p
  | node text rule antecedents arguments bound ts => by
    intro legible
    obtain ⟨root, children⟩ := legible_node_iff.mp legible
    obtain ⟨⟨s, named⟩, j, grounds⟩ := legible_iff.mp root
    obtain ⟨ps, depicted⟩ := exists_depictsAll ts children
    exact ⟨.node s j ps, depicts_iff.mpr ⟨⟨named, grounds, depicted.length_eq⟩, depicted⟩⟩

theorem exists_depictsAll : ∀ ts : List ProofTree,
    (∀ t ∈ ts, ∀ path n, t.at? path = some n → n.Legible) → ∃ ps, List.Forall₂ Depicts ts ps
  | [], _ => ⟨[], List.Forall₂.nil⟩
  | t :: ts, legible => by
    obtain ⟨first, others⟩ := List.forall_mem_cons.mp legible
    obtain ⟨p, depicts⟩ := exists_depicts t first
    obtain ⟨ps, depicted⟩ := exists_depictsAll ts others
    exact ⟨p :: ps, List.Forall₂.cons depicts depicted⟩

end

section Depictions

variable {t : ProofTree} {p q : Proof}

theorem Depicts.isSome (depicts : t.Depicts p) (path : Path) :
    (p.at? path).isSome = (t.at? path).isSome := by
  have related := depicts path
  cases here : t.at? path <;> cases there : p.at? path <;> rw [here, there] at related <;>
    first | rfl | cases related

theorem Depicts.describes (depicts : t.Depicts p) {path : Path} {n : ProofTree}
    (found : t.at? path = some n) : ∃ m, p.at? path = some m ∧ n.Describes m := by
  have related := depicts path
  rw [found] at related
  cases there : p.at? path with
  | none =>
    rw [there] at related
    cases related
  | some m =>
    rw [there] at related
    exact ⟨m, rfl, Option.rel_some_some.mp related⟩

theorem Depicts.legible (depicts : t.Depicts p) (path : Path) (n : ProofTree)
    (found : t.at? path = some n) : n.Legible := by
  obtain ⟨m, -, describes⟩ := depicts.describes found
  exact legible_iff.mpr ⟨⟨_, describes.sentence⟩, _, describes.justification⟩

theorem Describes.mem_citations (describes : t.Describes p) (c : Path) :
    c ∈ p.citations ↔ t.rule.isSome ∧ .path c ∈ t.antecedents := by
  rw [Proof.citations]
  have related := describes.justification
  cases given : t.rule <;> cases justified : p.justification <;> rw [given, justified] at related
  · simp
  · cases related
  · cases related
  · have grounds := Option.rel_some_some.mp related
    simp [Deduction.Justification.mem_citations, Citation.mem_path grounds.antecedents]

theorem Depicts.citesInScope_iff (depicts : t.Depicts p) : p.CitesInScope ↔
    ∀ path n, t.at? path = some n → n.rule.isSome → ∀ c, .path c ∈ n.antecedents →
      c.inScope path = true ∧ (t.at? c).isSome := by
  constructor
  · intro cites path n found given c listed
    obtain ⟨m, there, describes⟩ := depicts.describes found
    obtain ⟨present, visible⟩ := cites path m there c ((describes.mem_citations c).mpr ⟨given, listed⟩)
    exact ⟨visible, depicts.isSome c ▸ present⟩
  · intro cites path m there c cited
    have present : (t.at? path).isSome := by
      rw [← depicts.isSome, there, Option.isSome_some]
    obtain ⟨n, found⟩ := Option.isSome_iff_exists.mp present
    obtain ⟨m', there', describes⟩ := depicts.describes found
    obtain rfl := Option.some.inj (there.symm.trans there')
    obtain ⟨given, listed⟩ := (describes.mem_citations c).mp cited
    obtain ⟨visible, present⟩ := cites path n found given c listed
    exact ⟨(depicts.isSome c).trans present, visible⟩

theorem Describes.label_eq {n : ProofTree} (describes : n.Describes p) (describes' : n.Describes q) :
    p.label = q.label := by
  have sentences := describes.sentence.symm.trans describes'.sentence
  have justifications := (justification_eq_ok.mpr describes.justification).symm.trans
    (justification_eq_ok.mpr describes'.justification)
  rw [Proof.label, Proof.label, Except.ok.inj sentences, Except.ok.inj justifications]

theorem Depicts.unique (depicts : t.Depicts p) (depicts' : t.Depicts q) : p = q := by
  apply Proof.ext_label
  intro path
  cases found : t.at? path with
  | none =>
    have absent := depicts.isSome path
    have absent' := depicts'.isSome path
    rw [found, Option.isSome_none, Option.isSome_eq_false_iff, Option.isNone_iff_eq_none] at absent
    rw [found, Option.isSome_none, Option.isSome_eq_false_iff, Option.isNone_iff_eq_none] at absent'
    rw [absent, absent']
  | some n =>
    obtain ⟨m, there, describes⟩ := depicts.describes found
    obtain ⟨m', there', describes'⟩ := depicts'.describes found
    rw [there, there', Option.map_some, Option.map_some, describes.label_eq describes']

theorem loadable_iff : t.Loadable ↔ ∃ p, t.Depicts p ∧ p.CitesInScope := by
  constructor
  · rintro ⟨legible, cites⟩
    obtain ⟨p, depicts⟩ := exists_depicts t legible
    exact ⟨p, depicts, depicts.citesInScope_iff.mpr cites⟩
  · rintro ⟨p, depicts, cites⟩
    exact ⟨depicts.legible, depicts.citesInScope_iff.mp cites⟩

end Depictions

end ProofTree
end ProofDesk.Files
