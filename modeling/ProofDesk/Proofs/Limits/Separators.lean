import ProofDesk.Proofs.Limits.NaturalKinds

/-!
Two places of a separator may overlap: the text `a + + b` has a sum sign between spaces twice, and the
places share a space.  Whoever looks for the places from left to right passes over the second one.
That makes no difference, for the left side of a cut there would end as the separator begins, and no
reader of sides takes such a text.
-/

namespace ProofDesk

namespace Text

variable {α β : Type}

/-- Another place of a separator begins before a left side ends, and ends behind it. -/
def Overlaps (s sep left : Text) : Prop :=
  ∃ l r, s = l ++ (sep ++ r) ∧ l.length < left.length ∧ left.length < l.length + sep.length

/-- A separator that begins here, if its last place has ended. -/
def begins? (c : Char) (s : Text) : Text × α × Nat → Option (Text × α × Text)
  | (sep, label, 0) => (stripLeading? sep (c :: s)).map fun rest => ([], label, rest)
  | _ => none

/-- How many characters of the last place of a separator are left behind this one. -/
def pass (c : Char) (s : Text) : Text × α × Nat → Text × α × Nat
  | (sep, label, 0) =>
    (sep, label, if (stripLeading? sep (c :: s)).isSome then sep.length - 1 else 0)
  | (sep, label, n + 1) => (sep, label, n)

/-- The ways to cut a text at places of separators, from left to right, where no two places of one
separator overlap.  With each separator comes what is left of its last place. -/
def splitsApart (seps : List (Text × α × Nat)) : Text → List (Text × α × Text)
  | [] => []
  | c :: s => seps.filterMap (begins? c s) ++
    (splitsApart (seps.map (pass c s)) s).map fun (left, label, right) => (c :: left, label, right)

/-- Before the first character no place has begun. -/
def unplaced (seps : List (Text × α)) : List (Text × α × Nat) :=
  seps.map fun (sep, label) => (sep, label, 0)

def withoutPlace (sep : Text × α × Nat) : Text × α := (sep.1, sep.2.1)

/-- What is left of the last place of a separator does stand there. -/
def Placed (before s : Text) (sep : Text × α × Nat) : Prop :=
  sep.2.2 ≠ 0 → ∃ l r, before ++ s = l ++ (sep.1 ++ r) ∧ l.length < before.length ∧
    l.length + sep.1.length = before.length + sep.2.2

theorem Placed.pass {before s : Text} {c : Char} {sep : Text × α × Nat}
    (placed : Placed before (c :: s) sep) : Placed (before ++ [c]) s (pass c s sep) := by
  rcases sep with ⟨w, a, _ | n⟩
  · intro left
    cases found : stripLeading? w (c :: s) with
    | none => simp [Text.pass, found] at left
    | some rest =>
      have whole := stripLeading?_eq_some_iff.mp found
      refine ⟨before, rest, ?_, by simp, ?_⟩
      · simp [Text.pass, whole]
      · simp [Text.pass, found] at left ⊢
        omega
  · intro left
    rcases placed (Nat.succ_ne_zero n) with ⟨l, r, whole, earlier, ends⟩
    refine ⟨l, r, ?_, ?_, ?_⟩
    · simpa [Text.pass] using whole
    · simp only [List.length_append, List.length_singleton]
      omega
    · simp only [Text.pass, List.length_append, List.length_singleton] at ends ⊢
      omega

theorem placed_of_mem_unplaced {seps : List (Text × α)} {before s : Text} {sep : Text × α × Nat}
    (member : sep ∈ unplaced seps) : Placed before s sep := by
  rcases List.mem_map.mp member with ⟨sep, old, rfl⟩
  intro left
  exact absurd rfl left

theorem map_withoutPlace_pass (c : Char) (s : Text) (seps : List (Text × α × Nat)) :
    (seps.map (pass c s)).map withoutPlace = seps.map withoutPlace := by
  rw [List.map_map]
  apply List.map_congr_left
  intro sep member
  rcases sep with ⟨w, a, _ | n⟩
  · rfl
  · rfl

theorem findSome?_filterMap_congr {γ δ : Type} {xs : List γ} {g g' : γ → Option δ}
    {f : δ → Option β} (same : ∀ x ∈ xs, (g x).bind f = (g' x).bind f) :
    (xs.filterMap g).findSome? f = (xs.filterMap g').findSome? f := by
  induction xs with
  | nil => rfl
  | cons x xs ih =>
    rcases List.forall_mem_cons.mp same with ⟨first, rest⟩
    have tail := ih rest
    cases found : g x <;> cases found' : g' x <;>
      simp_all [List.findSome?_cons]

theorem begins?_bind {f : Text × α × Text → Option β} {before s : Text} {c : Char}
    {sep : Text × α × Nat} (placed : Placed before (c :: s) sep)
    (skips : ∀ r, before ++ c :: s = before ++ (sep.1 ++ r) →
      Overlaps (before ++ c :: s) sep.1 before → f (before, sep.2.1, r) = none) :
    (begins? c s sep).bind (fun cut => f (before ++ cut.1, cut.2)) =
      ((stripLeading? sep.1 (c :: s)).map fun rest => (([] : Text), sep.2.1, rest)).bind
        fun cut => f (before ++ cut.1, cut.2) := by
  rcases sep with ⟨w, a, _ | n⟩
  · rfl
  · rcases placed (Nat.succ_ne_zero n) with ⟨l, r, whole, earlier, ends⟩
    have inside : before.length < l.length + w.length := by
      dsimp only at ends
      omega
    cases found : stripLeading? w (c :: s) with
    | none => simp [begins?]
    | some rest =>
      have there : before ++ c :: s = before ++ (w ++ rest) := by
        rw [stripLeading?_eq_some_iff.mp found]
      have missed := skips rest there ⟨l, r, whole, earlier, inside⟩
      simp [begins?, missed]

/-- What is found must not depend on the places that are passed over. -/
theorem findSome?_splitsApart_from {f : Text × α × Text → Option β} (seps : List (Text × α × Nat))
    (before s : Text) (placed : ∀ sep ∈ seps, Placed before s sep)
    (skips : ∀ sep ∈ seps, ∀ l r, before ++ s = l ++ (sep.1 ++ r) →
      Overlaps (before ++ s) sep.1 l → f (l, sep.2.1, r) = none) :
    (splitsApart seps s).findSome? (fun cut => f (before ++ cut.1, cut.2)) =
      (splits (seps.map withoutPlace) s).findSome? fun cut => f (before ++ cut.1, cut.2) := by
  -- a place that has begun is one of the whole text, so what is passed goes into `before`
  induction s generalizing seps before with
  | nil => rfl
  | cons c s ih =>
    have shape : before ++ c :: s = (before ++ [c]) ++ s := by simp
    have here : (seps.filterMap (begins? c s)).findSome? (fun cut => f (before ++ cut.1, cut.2)) =
        ((seps.map withoutPlace).filterMap fun (sep, label) =>
          (stripLeading? sep (c :: s)).map fun rest => ([], label, rest)).findSome?
            fun cut => f (before ++ cut.1, cut.2) := by
      rw [List.filterMap_map]
      apply findSome?_filterMap_congr
      intro sep member
      exact begins?_bind (placed sep member) (skips sep member before)
    have placed' : ∀ sep ∈ seps.map (pass c s), Placed (before ++ [c]) s sep := by
      intro sep member
      rcases List.mem_map.mp member with ⟨sep, old, rfl⟩
      exact (placed sep old).pass
    have skips' : ∀ sep ∈ seps.map (pass c s), ∀ l r, (before ++ [c]) ++ s = l ++ (sep.1 ++ r) →
        Overlaps ((before ++ [c]) ++ s) sep.1 l → f (l, sep.2.1, r) = none := by
      intro sep member l r whole
      rcases List.mem_map.mp member with ⟨⟨w, a, n⟩, old, rfl⟩
      rw [← shape] at whole ⊢
      cases n <;> exact skips _ old l r whole
    have later := ih _ _ placed' skips'
    rw [map_withoutPlace_pass] at later
    rw [splitsApart, splits, List.findSome?_append, List.findSome?_append, here, List.findSome?_map,
      List.findSome?_map]
    congr 1
    simpa [Function.comp_def] using later

theorem findSome?_splitsApart {f : Text × α × Text → Option β} {seps : List (Text × α)} {s : Text}
    (skips : ∀ sep ∈ seps, ∀ l r, s = l ++ (sep.1 ++ r) → Overlaps s sep.1 l →
      f (l, sep.2, r) = none) :
    (splitsApart (unplaced seps) s).findSome? f = (splits seps s).findSome? f := by
  have labels : (unplaced seps).map withoutPlace = seps := by
    rw [unplaced, List.map_map]
    exact List.map_id _
  have skips' : ∀ sep ∈ unplaced seps, ∀ l r, [] ++ s = l ++ (sep.1 ++ r) →
      Overlaps ([] ++ s) sep.1 l → f (l, sep.2.1, r) = none := by
    intro sep member
    rcases List.mem_map.mp member with ⟨sep, old, rfl⟩
    exact skips sep old
  have whole := findSome?_splitsApart_from (unplaced seps) [] s
    (fun _ member => placed_of_mem_unplaced member) skips'
  rw [labels] at whole
  exact whole

theorem Overlaps.suffix {s w l r : Text} (unspaced : ' ' ∉ w) (whole : s = l ++ (setOff w ++ r))
    (overlaps : Overlaps s (setOff w) l) : w <:+ l := by
  rcases overlaps with ⟨l', r', whole', earlier, ends⟩
  have first : l' <+: s := ⟨_, whole'.symm⟩
  have second : l <+: s := ⟨_, whole.symm⟩
  rcases List.prefix_of_prefix_length_le first second earlier.le with ⟨m, rfl⟩
  have rest : setOff w ++ r' = m ++ (setOff w ++ r) := by
    rw [whole', List.append_assoc] at whole
    exact List.append_cancel_left whole
  cases m with
  | nil => simp at earlier
  | cons c m =>
    rcases List.cons.inj rest with ⟨rfl, behind⟩
    have short : m.length ≤ w.length := by
      simp only [setOff, List.length_append, List.length_cons, List.length_nil] at ends
      omega
    have word : w ++ ([' '] ++ r') = m ++ (setOff w ++ r) := by simpa using behind
    have start : m <+: w := by
      have left : m <+: m ++ (setOff w ++ r) := List.prefix_append _ _
      have right : w <+: m ++ (setOff w ++ r) := word ▸ List.prefix_append _ _
      exact List.prefix_of_prefix_length_le left right short
    rcases start with ⟨k, rfl⟩
    -- the word cannot go on here, where the separator itself begins with a space
    cases k with
    | nil => exact ⟨l' ++ [' '], by simp⟩
    | cons d k =>
      rw [List.append_assoc] at word
      rcases List.cons.inj (List.append_cancel_left word) with ⟨rfl, -⟩
      simp at unspaced

end Text

namespace Limits

open Text (Overlaps setOff foreign spelled splitsApart unplaced)

variable {α : Type} {s : Text} {marks : List Text} {side : Text → Option Statement}
  {join : Statement → α → Statement → Statement} {seps : List (Text × α)}

/-- A compound statement is read off a cut at places that do not overlap if its sides are spelled with
other marks than the separators. -/
theorem read_apart (words : List Text) (signs : ∀ sep ∈ seps, ∃ w ∈ words,
      sep.1 = setOff w ∧ ' ' ∉ w ∧ foreign marks w = true)
    (sides : ∀ t u, side t = some u → spelled marks t = true) :
    (Text.splits seps s).findSome? (readAround side join) =
      (splitsApart (unplaced seps) s).findSome? (readAround side join) := by
  symm
  apply Text.findSome?_splitsApart
  intro sep member l r whole overlaps
  rcases signs sep member with ⟨w, -, shape, unspaced, other⟩
  rw [shape] at whole overlaps
  have unread : side l = none := by
    cases read : side l with
    | none => rfl
    | some u =>
      have inside := (overlaps.suffix unspaced whole).isInfix
      exact absurd inside (Text.not_infix_of_spelled (sides l u read) other)
  simp [readAround, unread]

theorem Formal.read_apart (ctx : Context) (s : Text) :
    readArithmetic? ctx s = (splitsApart (unplaced operations) s).findSome?
        (readAround (readLeaf? ctx) .arithmetic) ∧
      readInequality? ctx s = (splitsApart (unplaced relations) s).findSome?
        (readAround (readSide? ctx) .inequality) ∧
      conjunction? " ∧ " (readBody? ctx) s = (splitsApart (unplaced [(" ∧ ", ())]) s).findSome?
        (readAround (readBody? ctx) fun l _ r => .conjunction l r) := by
  have leaves (t : Text) (u : Statement) (read : readLeaf? ctx t = some u) :
      spelled (single leafMarks) t = true := spelled_single (readLeaf?_all t u read)
  have sides (t : Text) (u : Statement) (read : readSide? ctx t = some u) :
      spelled (single sideMarks) t = true := spelled_single (readSide?_all t u read)
  have bodies (t : Text) (u : Statement) (read : readBody? ctx t = some u) :
      spelled (single bodyMarks) t = true := by
    rcases readBody?_eq_some_iff.mp read with ⟨formed, rfl⟩
    exact spelled_single formed.all
  refine ⟨?_, ?_, ?_⟩
  · exact Limits.read_apart ["+", "-", "*"] (by decide +kernel) leaves
  · exact Limits.read_apart ["<", ">", "≤", "≥"] (by decide +kernel) sides
  · rw [conjunction?_eq]
    exact Limits.read_apart ["∧"] (by decide +kernel) bodies

theorem Natural.read_apart (ctx : Context) (s : Text) :
    readArithmetic? ctx s = (splitsApart (unplaced operations) s).findSome?
        (readAround (readLeaf? ctx) .arithmetic) ∧
      readInequality? ctx s = (splitsApart (unplaced relations) s).findSome?
        (readAround (readSide? ctx) .inequality) ∧
      conjunction? " \\wedge " (readBody? ctx) s =
        (splitsApart (unplaced [(" \\wedge ", ())]) s).findSome?
          (readAround (readBody? ctx) fun l _ r => .conjunction l r) := by
  refine ⟨?_, ?_, ?_⟩
  · exact Limits.read_apart ["+", "-", "\\cdot"] (by decide +kernel) fun _ _ => spelled_of_readLeaf?
  · exact Limits.read_apart ["<", ">", "\\leq", "\\geq"] (by decide +kernel)
      fun _ _ => spelled_of_readSide?
  · rw [conjunction?_eq]
    exact Limits.read_apart ["\\wedge"] (by decide +kernel) spelled_of_readBody?

end Limits
end ProofDesk
