import ProofDesk.Proofs.Limits.NaturalKinds
import ProofDesk.Proofs.Limits.TacticInverse

/-!
Readers that try their candidates in other orders.  A list of candidates may be reordered if no text
is for two of them, or if those that share a text stay in order.  The parts of a statement are read
from lists of candidates too, so a reader is taken with these lists as parameters.
-/

namespace ProofDesk.Limits

open Text (splits mem_splits_iff)

section Reordering

variable {α β : Type} [DecidableEq α] {twins xs ys : List α} {f : α → Option β}

/-- The same members, of which some stay in order. -/
structure Reordered (twins xs ys : List α) : Prop where
  perm : xs.Perm ys
  order : xs.filter (· ∈ twins) = ys.filter (· ∈ twins)

omit [DecidableEq α] in
theorem findSome?_filter_of_none {p : α → Bool} (others : ∀ a ∈ xs, p a = false → f a = none) :
    (xs.filter p).findSome? f = xs.findSome? f := by
  induction xs with
  | nil => rfl
  | cons a xs ih =>
    obtain ⟨first, rest⟩ := List.forall_mem_cons.mp others
    cases kept : p a with
    | true => rw [List.filter_cons_of_pos kept, List.findSome?_cons, List.findSome?_cons, ih rest]
    | false =>
      rw [List.filter_cons_of_neg (by simp [kept]), List.findSome?_cons, first kept, ih rest]

theorem findSome?_eq_of_reordered (same : Reordered twins xs ys)
    (unique : ∀ a b, a ≠ b → (f a).isSome ∧ (f b).isSome → a ∈ twins ∧ b ∈ twins) :
    xs.findSome? f = ys.findSome? f := by
  by_cases alone : ∃ a ∈ xs, (f a).isSome ∧ a ∉ twins
  · obtain ⟨a, member, found, other⟩ := alone
    obtain ⟨b, read⟩ := Option.isSome_iff_exists.mp found
    have only (a' : α) (found' : (f a').isSome) : a' = a := by
      by_contra different
      exact other (unique a' a different ⟨found', found⟩).2
    have first {zs : List α} (member : a ∈ zs) : zs.findSome? f = some b :=
      Text.findSome?_eq_some_of_only member read fun a' _ => only a'
    rw [first member, first (same.perm.mem_iff.mp member)]
  · have others (a : α) (member : a ∈ xs) (other : decide (a ∈ twins) = false) : f a = none := by
      rw [Option.eq_none_iff_forall_ne_some]
      intro b read
      exact alone ⟨a, member, by rw [read]; rfl, of_decide_eq_false other⟩
    rw [← findSome?_filter_of_none others, same.order, findSome?_filter_of_none]
    intro a member other
    exact others a (same.perm.mem_iff.mpr member) other

theorem findSome?_eq_of_perm (perm : xs.Perm ys)
    (unique : ∀ a b, (f a).isSome → (f b).isSome → a = b) : xs.findSome? f = ys.findSome? f := by
  have same : Reordered [] xs ys := ⟨perm, by simp⟩
  apply findSome?_eq_of_reordered same
  rintro a b different ⟨found, found'⟩
  exact absurd (unique a b found found') different

omit [DecidableEq α] in
theorem findSome?_congr {g : α → Option β} (agree : ∀ a ∈ xs, f a = g a) :
    xs.findSome? f = xs.findSome? g := by
  induction xs with
  | nil => rfl
  | cons a xs ih =>
    obtain ⟨first, rest⟩ := List.forall_mem_cons.mp agree
    rw [List.findSome?_cons, List.findSome?_cons, first, ih rest]

omit [DecidableEq α] in
theorem findSome?_cons_or (a : α) (as : List α) :
    (a :: as).findSome? f = (f a).or (as.findSome? f) := by
  rw [List.findSome?_cons]
  cases f a <;> rfl

end Reordering

/-- The kinds that the parts of statements may be, in the order in which they are tried. -/
structure Candidates where
  leaves : List Kind
  sides : List Kind
  bodies : List Kind

namespace Candidates

def listed : Candidates := ⟨Kind.leaves, Kind.sides, Kind.bodies⟩

structure Reorders (twins : List Kind) (c : Candidates) : Prop where
  leaves : Reordered twins c.leaves Kind.leaves
  sides : Reordered twins c.sides Kind.sides
  bodies : Reordered twins c.bodies Kind.bodies

end Candidates

/-- What compound statements are made with in a language. -/
structure Grammar where
  operations : List (Text × Operation)
  relations : List (Text × Relation)
  separator : Text
  differenceSides? : Text → Option (Text × Text)
  forAllHeader : Template
  forAllFromHeader : Template
  thereIsHeader : Template

def distance? (differenceSides? : Text → Option (Text × Text)) (leaf : Text → Option Statement)
    (s : Text) : Option Statement := do
  let (left, right) ← differenceSides? s
  return .distance (← leaf left) (← leaf right)

def first? (reader : Kind → Text → Option Statement) (kinds : List Kind) (s : Text) :
    Option Statement :=
  kinds.findSome? fun k => reader k s

section First

variable (reader : Kind → Text → Option Statement) (s : Text)

theorem first?_leaves : first? reader Kind.leaves s =
    (reader .application s).or ((reader .epsilon s).or (reader .identifier s)) := by
  rw [first?, Kind.leaves, findSome?_cons_or, findSome?_cons_or, findSome?_cons_or,
    List.findSome?_nil, Option.or_none]

theorem first?_sides : first? reader Kind.sides s =
    (reader .distance s).or ((reader .arithmetic s).or (first? reader Kind.leaves s)) := by
  rw [first?, Kind.sides, findSome?_cons_or, findSome?_cons_or]
  rfl

theorem first?_bodies : first? reader Kind.bodies s =
    (reader .forAllFrom s).or ((reader .forAll s).or (reader .inequality s)) := by
  rw [first?, Kind.bodies, findSome?_cons_or, findSome?_cons_or, findSome?_cons_or,
    List.findSome?_nil, Option.or_none]

end First

namespace Grammar

/-- Read a statement of some kind, given a reader for the parts of compound statements and one for
statements without parts. -/
def step (g : Grammar) (plain reader : Kind → Text → Option Statement) (c : Candidates) (k : Kind)
    (s : Text) : Option Statement :=
  match k with
  | .arithmetic => arithmetic? g.operations (first? reader c.leaves) s
  | .distance => distance? g.differenceSides? (first? reader c.leaves) s
  | .inequality => inequality? g.relations (first? reader c.sides) s
  | .conjunction => conjunction? g.separator (first? reader c.bodies) s
  | .forAll => forAll? g.forAllHeader (first? reader c.bodies) s
  | .forAllFrom => forAllFrom? g.forAllFromHeader (first? reader c.bodies) s
  | .thereIs => thereIs? g.thereIsHeader (first? reader c.bodies) s
  | k => plain k s

/-- A reader whose statements are less deep than the number says. -/
def read? (g : Grammar) (plain : Kind → Text → Option Statement) (c : Candidates) :
    Nat → Kind → Text → Option Statement
  | 0, _, _ => none
  | n + 1, k, s => g.step plain (g.read? plain c n) c k s

structure Cuts (g : Grammar) : Prop where
  operations : ∀ sep ∈ g.operations, sep.1 ≠ []
  relations : ∀ sep ∈ g.relations, sep.1 ≠ []
  separator : g.separator ≠ []
  difference : ∀ s l r, g.differenceSides? s = some (l, r) →
    l.length < s.length ∧ r.length < s.length
  headers : ∀ header ∈ [g.forAllHeader, g.forAllFromHeader, g.thereIsHeader], ∀ s xs rest,
    header.read? s = some (xs, rest) → rest.length < s.length

end Grammar

/-! Readers that agree on shorter texts. -/

section Congruence

variable {α : Type} {s : Text} {part part' : Text → Option Statement}
  (agree : ∀ t, t.length < s.length → part t = part' t)

include agree

theorem findSome?_splits_congr {seps : List (Text × α)}
    {join : Statement → α → Statement → Statement} (given : ∀ sep ∈ seps, sep.1 ≠ []) :
    (splits seps s).findSome? (readAround part join) =
      (splits seps s).findSome? (readAround part' join) := by
  apply findSome?_congr
  rintro ⟨left, a, right⟩ member
  obtain ⟨sep, known, whole⟩ := (mem_splits_iff given).mp member
  have long : 0 < sep.length := List.length_pos_iff.mpr (given _ known)
  have whole := congrArg List.length whole
  rw [List.length_append, List.length_append] at whole
  rw [readAround, readAround, agree left (by omega), agree right (by omega)]

theorem distance?_congr {differenceSides? : Text → Option (Text × Text)}
    (cuts : ∀ l r, differenceSides? s = some (l, r) → l.length < s.length ∧ r.length < s.length) :
    distance? differenceSides? part s = distance? differenceSides? part' s := by
  unfold distance?
  cases sides : differenceSides? s with
  | none => rfl
  | some cut =>
    obtain ⟨left, right⟩ := cuts cut.1 cut.2 sides
    simp only [Option.bind_eq_bind, Option.bind_some, agree _ left, agree _ right]

theorem underHeader?_congr {header : Template}
    (cuts : ∀ xs rest, header.read? s = some (xs, rest) → rest.length < s.length) :
    underHeader? header part s = underHeader? header part' s := by
  unfold underHeader? headerOf?
  cases found : header.read? s with
  | none => rfl
  | some read =>
    have shorter := cuts read.1 read.2 found
    cases line : isLine read.2 with
    | false => simp [Option.filter, line]
    | true => simp [Option.filter, line, agree _ shorter]

theorem forAll?_congr {header : Template}
    (cuts : ∀ xs rest, header.read? s = some (xs, rest) → rest.length < s.length) :
    forAll? header part s = forAll? header part' s := by
  rw [forAll?, forAll?, underHeader?_congr agree cuts]

theorem forAllFrom?_congr {header : Template}
    (cuts : ∀ xs rest, header.read? s = some (xs, rest) → rest.length < s.length) :
    forAllFrom? header part s = forAllFrom? header part' s := by
  rw [forAllFrom?, forAllFrom?, underHeader?_congr agree cuts]

theorem thereIs?_congr {header : Template}
    (cuts : ∀ xs rest, header.read? s = some (xs, rest) → rest.length < s.length) :
    thereIs? header part s = thereIs? header part' s := by
  rw [thereIs?, thereIs?, underHeader?_congr agree cuts]

end Congruence

namespace Grammar

variable {g : Grammar} {plain reader reader' : Kind → Text → Option Statement} {c c' : Candidates}

theorem step_congr (cuts : g.Cuts) {k : Kind} {s : Text}
    (leaves : ∀ t, t.length < s.length → first? reader c.leaves t = first? reader' c'.leaves t)
    (sides : ∀ t, t.length < s.length → first? reader c.sides t = first? reader' c'.sides t)
    (bodies : ∀ t, t.length < s.length → first? reader c.bodies t = first? reader' c'.bodies t) :
    g.step plain reader c k s = g.step plain reader' c' k s := by
  have header {h : Template} (known : h ∈ [g.forAllHeader, g.forAllFromHeader, g.thereIsHeader])
      (xs : List Text) (rest : Text) (read : h.read? s = some (xs, rest)) :
      rest.length < s.length := cuts.headers h known s xs rest read
  cases k with
  | arithmetic => exact findSome?_splits_congr leaves cuts.operations
  | distance => exact distance?_congr leaves (cuts.difference s)
  | inequality => exact findSome?_splits_congr sides cuts.relations
  | conjunction =>
    have given : ∀ sep ∈ [(g.separator, ())], sep.1 ≠ [] :=
      List.forall_mem_singleton.mpr cuts.separator
    rw [step, step, conjunction?_eq, conjunction?_eq]
    exact findSome?_splits_congr bodies given
  | forAll => exact forAll?_congr bodies (header (by simp))
  | forAllFrom => exact forAllFrom?_congr bodies (header (by simp))
  | thereIs => exact thereIs?_congr bodies (header (by simp))
  | _ => rfl

/-- A reader that reads parts from the listed candidates may read them from others that give the
same. -/
theorem read?_eq (cuts : g.Cuts) (fixed : ∀ k s, reader k s = g.step reader reader .listed k s)
    (leaves : ∀ s, first? reader c.leaves s = first? reader Kind.leaves s)
    (sides : ∀ s, first? reader c.sides s = first? reader Kind.sides s)
    (bodies : ∀ s, first? reader c.bodies s = first? reader Kind.bodies s)
    {n : Nat} {k : Kind} {s : Text} (enough : s.length < n) : g.read? reader c n k s = reader k s := by
  induction n generalizing k s with
  | zero => cases enough
  | succ n ih =>
    have shorter (ks : List Kind) (t : Text) (less : t.length < s.length) :
        first? (g.read? reader c n) ks t = first? reader ks t := by
      apply findSome?_congr
      intro k _
      exact ih (by omega)
    rw [read?, fixed]
    apply step_congr cuts
    · intro t less
      rw [shorter _ t less]
      exact leaves t
    · intro t less
      rw [shorter _ t less]
      exact sides t
    · intro t less
      rw [shorter _ t less]
      exact bodies t

section Bodies

variable {body : Nat → Text → Option Statement} {inequality : Text → Option Statement}
  (cuts : g.Cuts) (none' : ∀ s, body 0 s = none)
  (more : ∀ n s, body (n + 1) s = (forAllFrom? g.forAllFromHeader (body n) s).or
    ((forAll? g.forAllHeader (body n) s).or (inequality s)))
  (empty : inequality [] = none)

include cuts

theorem headers_congr {s : Text} {part part' : Text → Option Statement}
    (agree : ∀ t, t.length < s.length → part t = part' t) :
    forAllFrom? g.forAllFromHeader part s = forAllFrom? g.forAllFromHeader part' s ∧
      forAll? g.forAllHeader part s = forAll? g.forAllHeader part' s := by
  constructor
  · exact forAllFrom?_congr agree (cuts.headers _ (by simp) s)
  · exact forAll?_congr agree (cuts.headers _ (by simp) s)

theorem headers_nil (part : Text → Option Statement) :
    forAllFrom? g.forAllFromHeader part [] = none ∧ forAll? g.forAllHeader part [] = none := by
  have absent {h : Template} (known : h ∈ [g.forAllHeader, g.forAllFromHeader, g.thereIsHeader]) :
      h.read? [] = none := by
    rw [Option.eq_none_iff_forall_ne_some]
    rintro ⟨xs, rest⟩ read
    exact absurd (cuts.headers h known [] xs rest read) (Nat.not_lt_zero _)
  exact ⟨Natural.forAllFrom?_eq_none (absent (by simp)), Natural.forAll?_eq_none (absent (by simp))⟩

include none' more empty

theorem body_eq_of_le {n : Nat} {s : Text} (enough : s.length ≤ n) : body n s = body s.length s := by
  induction n using Nat.strongRecOn generalizing s with
  | ind n ih =>
    cases s with
    | nil =>
      cases n with
      | zero => rfl
      | succ n =>
        obtain ⟨fromBound, quantified⟩ := headers_nil cuts (body n)
        rw [more, fromBound, quantified, empty, List.length_nil, none']
        rfl
    | cons c s =>
      obtain ⟨n, rfl⟩ := Nat.exists_eq_add_one.mpr (Nat.lt_of_lt_of_le (Nat.succ_pos _) enough)
      rw [List.length_cons] at enough
      have agree (t : Text) (less : t.length < (c :: s).length) : body n t = body s.length t := by
        rw [List.length_cons] at less
        rw [ih n (by omega) (by omega), ih s.length (by omega) (by omega)]
      obtain ⟨fromBound, quantified⟩ := headers_congr cuts agree
      rw [more, List.length_cons, more, fromBound, quantified]

theorem body_step (s : Text) :
    body s.length s = (forAllFrom? g.forAllFromHeader (fun t => body t.length t) s).or
      ((forAll? g.forAllHeader (fun t => body t.length t) s).or (inequality s)) := by
  have agree (t : Text) (less : t.length < s.length) : body s.length t = body t.length t :=
    body_eq_of_le cuts none' more empty (Nat.le_of_lt less)
  obtain ⟨fromBound, quantified⟩ := headers_congr cuts agree
  rw [← fromBound, ← quantified, ← more]
  exact (body_eq_of_le cuts none' more empty (Nat.le_succ _)).symm

end Bodies

end Grammar

theorem length_lt_of_read? {w s rest : Text} {ps : Template} {xs : List Text} (given : w ≠ [])
    (closed : Template.guarded false (.lit w :: ps) = true)
    (read : Template.read? (.lit w :: ps) s = some (xs, rest)) : rest.length < s.length := by
  obtain ⟨-, rfl⟩ := (Template.read?_eq_some_iff_of_closed closed).mp read
  have long := List.length_pos_iff.mpr given
  rw [Template.fill, List.length_append, List.length_append]
  omega

namespace Natural

def grammar : Grammar where
  operations := operations
  relations := relations
  separator := " \\wedge "
  differenceSides? := differenceSides?
  forAllHeader := forAllHeader
  forAllFromHeader := forAllFromHeader
  thereIsHeader := thereIsHeader

theorem length_lt_of_differenceSides? {s l r : Text} (sides : differenceSides? s = some (l, r)) :
    l.length < s.length ∧ r.length < s.length := by
  have trimLeft (t : Text) : (Text.trimLeft t).length ≤ t.length :=
    (List.dropWhile_sublist _).length_le
  have trimRight (t : Text) : (Text.trimRight t).length ≤ t.length := by
    have shorter := (List.dropWhile_sublist Text.isBlank (l := t.reverse)).length_le
    rw [List.length_reverse] at shorter
    rwa [Text.trimRight, List.length_reverse]
  obtain ⟨afterLeft, leading, sides⟩ := Option.bind_eq_some_iff.mp sides
  obtain ⟨afterBar, opening, sides⟩ := Option.bind_eq_some_iff.mp sides
  obtain ⟨beforeBar, closing, sides⟩ := Option.bind_eq_some_iff.mp sides
  obtain ⟨inside, trailing, sides⟩ := Option.bind_eq_some_iff.mp sides
  have whole := congrArg List.length (Text.stripLeading?_eq_some_iff.mp leading)
  have bracketed := congrArg List.length (Text.stripTrailing?_eq_some_iff.mp trailing)
  have difference := congrArg List.length (Text.splitFirst?_eq_some sides)
  have opened : afterBar.length ≤ (Text.trimLeft afterLeft).length := by
    rcases Option.or_eq_some_iff.mp opening with bar | ⟨-, bar⟩ <;>
      rw [Text.stripLeading?_eq_some_iff.mp bar, List.length_append] <;> omega
  have barred : beforeBar.length ≤ afterBar.length := by
    rcases Option.or_eq_some_iff.mp closing with bar | ⟨-, bar⟩ <;>
      rw [Text.stripTrailing?_eq_some_iff.mp bar, List.length_append] <;> omega
  have left := trimLeft afterLeft
  have right := trimRight beforeBar
  have both := (trimRight (Text.trimLeft inside)).trans (trimLeft inside)
  have command : 0 < ("\\left" : Text).length := by decide
  simp only [List.length_append, Text.trim] at whole bracketed difference
  omega

theorem grammar_cuts : grammar.Cuts where
  operations := by decide
  relations := by decide
  separator := by decide
  difference _ _ _ sides := length_lt_of_differenceSides? sides
  headers := by
    intro header known s xs rest read
    simp only [grammar, List.mem_cons, List.not_mem_nil, or_false] at known
    rcases known with rfl | rfl | rfl <;>
      exact length_lt_of_read? (by decide) (by decide) read

variable (ctx : Context)

theorem leaves_eq_readLeaf? : first? (fun k => k.math? ctx) Kind.leaves = readLeaf? ctx := by
  funext s
  rw [first?_leaves]
  rfl

theorem sides_eq_readSide? : first? (fun k => k.math? ctx) Kind.sides = readSide? ctx := by
  funext s
  rw [first?_sides, leaves_eq_readLeaf?]
  rfl

theorem bodies_eq_readBody? : first? (fun k => k.math? ctx) Kind.bodies = readBody? ctx := by
  funext s
  have empty : readInequality? ctx [] = none := rfl
  rw [first?_bodies]
  have deeper (n : Nat) (t : Text) : readBodyWithin? ctx (n + 1) t =
      (forAllFrom? grammar.forAllFromHeader (readBodyWithin? ctx n) t).or
        ((forAll? grammar.forAllHeader (readBodyWithin? ctx n) t).or (readInequality? ctx t)) := rfl
  exact (Grammar.body_step grammar_cuts (fun _ => rfl) deeper empty s).symm

theorem math?_eq_step (k : Kind) (s : Text) : k.math? ctx s =
    grammar.step (fun k => k.math? ctx) (fun k => k.math? ctx) .listed k s := by
  unfold Grammar.step Candidates.listed
  dsimp only
  rw [leaves_eq_readLeaf?, sides_eq_readSide?, bodies_eq_readBody?]
  cases k <;> rfl

end Natural

namespace Formal

def grammar : Grammar where
  operations := operations
  relations := relations
  separator := " ∧ "
  differenceSides? := differenceSides?
  forAllHeader := forAllHeader
  forAllFromHeader := forAllFromHeader
  thereIsHeader := thereIsHeader

theorem grammar_cuts : grammar.Cuts where
  operations := by decide
  relations := by decide
  separator := by decide
  difference s l r sides := by
    have whole := congrArg List.length (differenceSides?_eq_some sides)
    simp only [List.length_cons, List.length_append] at whole
    omega
  headers := by
    intro header known s xs rest read
    simp only [grammar, List.mem_cons, List.not_mem_nil, or_false] at known
    rcases known with rfl | rfl | rfl <;>
      exact length_lt_of_read? (by decide) (by decide) read

variable (ctx : Context)

theorem leaves_eq_readLeaf? : first? (fun k => k.formal? ctx) Kind.leaves = readLeaf? ctx := by
  funext s
  rw [first?_leaves]
  rfl

theorem sides_eq_readSide? : first? (fun k => k.formal? ctx) Kind.sides = readSide? ctx := by
  funext s
  rw [first?_sides, leaves_eq_readLeaf?]
  rfl

theorem bodies_eq_readBody? : first? (fun k => k.formal? ctx) Kind.bodies = readBody? ctx := by
  funext s
  have empty : readInequality? ctx [] = none := rfl
  rw [first?_bodies]
  have deeper (n : Nat) (t : Text) : readBodyWithin? ctx (n + 1) t =
      (forAllFrom? grammar.forAllFromHeader (readBodyWithin? ctx n) t).or
        ((forAll? grammar.forAllHeader (readBodyWithin? ctx n) t).or (readInequality? ctx t)) := rfl
  exact (Grammar.body_step grammar_cuts (fun _ => rfl) deeper empty s).symm

theorem formal?_eq_step (k : Kind) (s : Text) : k.formal? ctx s =
    grammar.step (fun k => k.formal? ctx) (fun k => k.formal? ctx) .listed k s := by
  unfold Grammar.step Candidates.listed
  dsimp only
  rw [leaves_eq_readLeaf?, sides_eq_readSide?, bodies_eq_readBody?]
  cases k <;> rfl

end Formal

namespace Kind

def formalFrom? (c : Candidates) (k : Kind) (ctx : Context) (s : Text) : Option Statement :=
  Formal.grammar.read? (fun k => k.formal? ctx) c (s.length + 1) k s

def naturalFrom? (c : Candidates) (k : Kind) (ctx : Context) (inMath : Bool) (s : Text) :
    Option Statement :=
  if k = sequenceDeclaration then Natural.readSequences? s
  else (Natural.inside? inMath s).bind fun t =>
    Natural.grammar.read? (fun k => k.math? ctx) c (t.length + 1) k t

variable {c : Candidates} {ctx : Context} {s : Text}

theorem formalFrom?_eq (same : c.Reorders formalTwins) (k : Kind) :
    k.formalFrom? c ctx s = k.formal? ctx s := by
  have reordered {ks ks' : List Kind} (same : Reordered formalTwins ks ks') (t : Text) :
      first? (fun k => k.formal? ctx) ks t = first? (fun k => k.formal? ctx) ks' t := by
    apply findSome?_eq_of_reordered same
    intro k k' different both
    exact ((reads_formal_both_iff different).mp both).2
  exact Grammar.read?_eq Formal.grammar_cuts (Formal.formal?_eq_step ctx) (reordered same.leaves)
    (reordered same.sides) (reordered same.bodies) (Nat.lt_succ_self _)

theorem naturalFrom?_eq (same : c.Reorders naturalTwins) (k : Kind) (inMath : Bool) :
    k.naturalFrom? c ctx inMath s = k.natural? ctx inMath s := by
  have reordered {ks ks' : List Kind} (same : Reordered naturalTwins ks ks') (t : Text) :
      first? (fun k => k.math? ctx) ks t = first? (fun k => k.math? ctx) ks' t := by
    apply findSome?_eq_of_reordered same
    intro k k' different both
    exact ((reads_math_both_iff different).mp both).2
  have parts (t : Text) : Natural.grammar.read? (fun k => k.math? ctx) c (t.length + 1) k t =
      k.math? ctx t :=
    Grammar.read?_eq Natural.grammar_cuts (Natural.math?_eq_step ctx) (reordered same.leaves)
      (reordered same.sides) (reordered same.bodies) (Nat.lt_succ_self _)
  unfold naturalFrom?
  rw [funext parts]
  rfl

end Kind
end ProofDesk.Limits
