import ProofDesk.Proofs.Text.Cutting

namespace ProofDesk.Text

variable {α β : Type}

theorem fields_append {sep : Char → Bool} {c : Char} (separates : sep c = true) (l r : Text) :
    fields sep (l ++ c :: r) = fields sep l ++ fields sep r := by
  induction l with
  | nil => simp [fields, separates]
  | cons d l ih =>
    rw [List.cons_append, fields, fields, ih]
    split
    · rfl
    · obtain ⟨field, rest, same⟩ := List.exists_cons_of_ne_nil (fields_ne_nil sep l)
      rw [same]
      rfl

theorem fields_of_forall {sep : Char → Bool} {s : Text} (inside : ∀ c ∈ s, sep c = false) :
    fields sep s = [s] := by
  rw [fields_eq_splitOnP]
  apply List.splitOnP_eq_singleton
  intro c member
  simp [inside c member]

theorem fields_of_not_mem {c : Char} {s : Text} (absent : c ∉ s) : fields (· == c) s = [s] := by
  apply fields_of_forall
  intro d member
  apply beq_false_of_ne
  rintro rfl
  exact absent member

def pieces (s : Text) : List Text := fields (· == ' ') s

theorem pieces_append (l r : Text) : pieces (l ++ ' ' :: r) = pieces l ++ pieces r :=
  @fields_append (· == ' ') ' ' rfl l r

theorem pieces_of_not_mem {s : Text} (unspaced : ' ' ∉ s) : pieces s = [s] :=
  fields_of_not_mem unspaced

theorem pieces_inj {s t : Text} (same : pieces s = pieces t) : s = t := by
  rw [← joinWith_fields ' ' s, ← joinWith_fields ' ' t]
  exact congrArg (joinWith [' ']) same

/-- None of some words stands between the spaces of a text. -/
def Without (ws : List Text) (s : Text) : Prop := ∀ w ∈ pieces s, w ∉ ws

theorem without_append {ws : List Text} {l r : Text} :
    Without ws (l ++ ' ' :: r) ↔ Without ws l ∧ Without ws r := by
  simp only [Without, pieces_append, List.mem_append, or_imp, forall_and]

theorem without_of_not_mem {ws : List Text} {s : Text} (unspaced : ' ' ∉ s) (other : s ∉ ws) :
    Without ws s := by
  intro w member
  rw [pieces_of_not_mem unspaced, List.mem_singleton] at member
  rw [member]
  exact other

theorem append_cons_inj_of_unique {p : α → Prop} {l l' r r' : List α} {a a' : α}
    (left : ∀ b ∈ l, ¬p b) (right : ∀ b ∈ r, ¬p b) (here : p a')
    (same : l ++ a :: r = l' ++ a' :: r') : l = l' ∧ a = a' ∧ r = r' := by
  induction l generalizing l' with
  | nil =>
    cases l' with
    | nil => simpa using same
    | cons b l' =>
      obtain ⟨-, rfl⟩ := List.cons.inj same
      exact absurd here (right a' (by simp))
  | cons b l ih =>
    obtain ⟨notFirst, left⟩ := List.forall_mem_cons.mp left
    cases l' with
    | nil =>
      obtain ⟨rfl, -⟩ := List.cons.inj same
      exact absurd here notFirst
    | cons b' l' =>
      obtain ⟨rfl, rest⟩ := List.cons.inj same
      obtain ⟨rfl, found⟩ := ih left rest
      exact ⟨rfl, found⟩

/-- A separator: a word between two spaces. -/
def setOff (w : Text) : Text := ' ' :: (w ++ [' '])

theorem pieces_setOff {w : Text} (unspaced : ' ' ∉ w) (l r : Text) :
    pieces (l ++ (setOff w ++ r)) = pieces l ++ w :: pieces r := by
  have shape : l ++ (setOff w ++ r) = l ++ ' ' :: (w ++ ' ' :: r) := by simp [setOff]
  rw [shape, pieces_append, pieces_append, pieces_of_not_mem unspaced, List.singleton_append]

theorem without_setOff {ws : List Text} {w l r : Text} (unspaced : ' ' ∉ w) :
    Without ws (l ++ (setOff w ++ r)) ↔ Without ws l ∧ w ∉ ws ∧ Without ws r := by
  simp only [Without, pieces_setOff unspaced, List.mem_append, List.mem_cons, or_imp, forall_and,
    forall_eq]

/-- A text is cut at a separator in one place if no separator is a word on either side. -/
theorem setOff_inj {ws : List Text} {w w' l l' r r' : Text} (unspaced : ' ' ∉ w)
    (unspaced' : ' ' ∉ w') (left : Without ws l) (right : Without ws r) (separator : w' ∈ ws)
    (same : l ++ (setOff w ++ r) = l' ++ (setOff w' ++ r')) : l = l' ∧ w = w' ∧ r = r' := by
  have words := congrArg pieces same
  rw [pieces_setOff unspaced, pieces_setOff unspaced'] at words
  obtain ⟨sameLeft, sameWord, sameRight⟩ := append_cons_inj_of_unique left right separator words
  exact ⟨pieces_inj sameLeft, sameWord, pieces_inj sameRight⟩

theorem findSome?_splits_setOff {seps : List (Text × α)} {l r w : Text} {a : α}
    {f : Text × α × Text → Option β} (known : (w, a) ∈ seps)
    (distinct : ∀ b, (w, b) ∈ seps → b = a) (unspaced : ∀ sep ∈ seps, ' ' ∉ sep.1)
    (left : Without (seps.map Prod.fst) l) (right : Without (seps.map Prod.fst) r) :
    (splits (seps.map fun sep => (setOff sep.1, sep.2)) (l ++ (setOff w ++ r))).findSome? f =
      f (l, a, r) := by
  have given : ∀ sep ∈ seps.map fun sep => (setOff sep.1, sep.2), sep.1 ≠ [] := by
    rintro _ member
    obtain ⟨sep, -, rfl⟩ := List.mem_map.mp member
    exact List.cons_ne_nil _ _
  have here : (l, a, r) ∈
      splits (seps.map fun sep => (setOff sep.1, sep.2)) (l ++ (setOff w ++ r)) :=
    (mem_splits_iff given).mpr ⟨setOff w, List.mem_map.mpr ⟨(w, a), known, rfl⟩, rfl⟩
  have only : ∀ cut ∈ splits (seps.map fun sep => (setOff sep.1, sep.2)) (l ++ (setOff w ++ r)),
      cut = (l, a, r) := by
    rintro ⟨l', a', r'⟩ member
    obtain ⟨sep, listed, whole⟩ := (mem_splits_iff given).mp member
    obtain ⟨⟨w', b⟩, known', same⟩ := List.mem_map.mp listed
    cases same
    have separator : w' ∈ seps.map Prod.fst := List.mem_map_of_mem (f := Prod.fst) known'
    obtain ⟨rfl, rfl, rfl⟩ :=
      setOff_inj (unspaced _ known) (unspaced _ known') left right separator whole
    rw [distinct b known']
  cases found : f (l, a, r) with
  | none =>
    rw [List.findSome?_eq_none_iff]
    intro cut member
    rw [only cut member, found]
  | some b =>
    rw [findSome?_eq_some_iff_of_unique]
    · exact ⟨_, here, found⟩
    · intro cut member first cut' member' b' second
      rw [only cut' member', found] at second
      exact (Option.some.inj second).symm

/-- No separator begins before the first one if it is not a word behind a space there. -/
theorem splitFirst?_setOff_of_tail {l r w : Text} (unspaced : ' ' ∉ w)
    (left : w ∉ (pieces l).tail) : splitFirst? (setOff w) (l ++ (setOff w ++ r)) = some (l, r) := by
  induction l with
  | nil =>
    have here := stripLeading?_append (setOff w) r
    rw [List.nil_append]
    rw [setOff, List.cons_append] at here ⊢
    rw [splitFirst?, here]
  | cons c l ih =>
    obtain ⟨first, rest, cut⟩ := List.exists_cons_of_ne_nil (fields_ne_nil (· == ' ') l)
    have apart : stripLeading? (setOff w) (c :: (l ++ (setOff w ++ r))) = none := by
      rw [Option.eq_none_iff_forall_ne_some]
      intro s found
      obtain ⟨rfl, same⟩ := List.cons.inj (stripLeading?_eq_some_iff.mp found)
      have after : w ++ [' '] ++ s = w ++ ' ' :: s := by simp
      have words := congrArg pieces (same.trans after)
      rw [pieces_setOff unspaced, pieces_append, pieces_of_not_mem unspaced, pieces, cut] at words
      obtain ⟨rfl, -⟩ := List.cons.inj words
      have behind : pieces (' ' :: l) = [] :: pieces l := pieces_append [] l
      apply left
      rw [behind, List.tail_cons, pieces, cut]
      exact List.mem_cons_self
    have later : w ∉ (pieces l).tail := by
      intro member
      apply left
      rw [pieces, cut, List.tail_cons] at member
      rw [pieces, fields, cut]
      split
      · exact List.mem_cons_of_mem _ member
      · exact member
    rw [List.cons_append, splitFirst?, apart, ih later]
    rfl

theorem splitFirst?_setOff {l r w : Text} (unspaced : ' ' ∉ w) (left : Without [w] l) :
    splitFirst? (setOff w) (l ++ (setOff w ++ r)) = some (l, r) := by
  apply splitFirst?_setOff_of_tail unspaced
  intro member
  exact left w (List.mem_of_mem_tail member) List.mem_cons_self

def blankPoints : List Nat := [9, 10, 11, 12, 13, 0x20, 0x85, 0xa0, 0x1680, 0x2000, 0x2001, 0x2002,
  0x2003, 0x2004, 0x2005, 0x2006, 0x2007, 0x2008, 0x2009, 0x200a, 0x2028, 0x2029, 0x202f, 0x205f,
  0x3000]

theorem toNat_mem_blankPoints {c : Char} (blank : isBlank c = true) : c.toNat ∈ blankPoints := by
  simp only [isBlank, Bool.or_eq_true, Bool.and_eq_true, decide_eq_true_eq, beq_iff_eq] at blank
  simp only [blankPoints, List.mem_cons, List.not_mem_nil, or_false]
  omega

theorem isBlank_of_isWord {c : Char} (word : isWord c = true) : isBlank c = false := by
  have apart : ∀ n ∈ blankPoints, isWord (Char.ofNat n) = false := by decide +kernel
  rw [Bool.eq_false_iff]
  intro blank
  have other := apart c.toNat (toNat_mem_blankPoints blank)
  rw [Char.ofNat_toNat, word] at other
  cases other

/-- Words without blanks, with one space between neighbours. -/
inductive Tidy : Text → Prop where
  | word {w : Text} (given : w ≠ []) (solid : ∀ c ∈ w, isBlank c = false) : Tidy w
  | space {l r : Text} (left : Tidy l) (right : Tidy r) : Tidy (l ++ ' ' :: r)

theorem unblank_of_all {w : Text} (solid : w.all (fun c => !isBlank c) = true) :
    ∀ c ∈ w, isBlank c = false := by
  intro c member
  simpa using List.all_eq_true.mp solid c member

theorem Tidy.of_solid {w : Text} (solid : (!w.isEmpty && w.all fun c => !isBlank c) = true) :
    Tidy w := by
  obtain ⟨given, unblank⟩ := Bool.and_eq_true_iff.mp solid
  exact .word (by simpa using given) (unblank_of_all unblank)

theorem Tidy.attach {w s : Text} (tidy : Tidy s) (solid : ∀ c ∈ w, isBlank c = false) :
    Tidy (w ++ s) := by
  induction tidy with
  | word given inside =>
    apply Tidy.word (List.append_ne_nil_of_right_ne_nil _ given)
    simpa only [List.mem_append, or_imp, forall_and] using And.intro solid inside
  | space left right ih _ =>
    rw [← List.append_assoc]
    exact .space ih right

theorem Tidy.attachEnd {w s : Text} (tidy : Tidy s) (solid : ∀ c ∈ w, isBlank c = false) :
    Tidy (s ++ w) := by
  induction tidy with
  | word given inside =>
    apply Tidy.word (List.append_ne_nil_of_left_ne_nil given _)
    simpa only [List.mem_append, or_imp, forall_and] using And.intro inside solid
  | space left right _ ih =>
    rw [List.append_assoc, List.cons_append]
    exact .space left ih

theorem Tidy.ne_nil {s : Text} (tidy : Tidy s) : s ≠ [] := by
  cases tidy with
  | word given _ => exact given
  | space left right => simp

theorem Tidy.mem {s : Text} (tidy : Tidy s) {c : Char} (member : c ∈ s) (blank : isBlank c = true) :
    c = ' ' := by
  induction tidy with
  | word _ solid =>
    rw [solid c member] at blank
    cases blank
  | space _ _ left right =>
    rcases List.mem_append.mp member with first | later
    · exact left first
    · rcases List.mem_cons.mp later with here | second
      · exact here
      · exact right second

theorem Tidy.trimLeft_eq {s : Text} (tidy : Tidy s) (t : Text) : trimLeft (s ++ t) = s ++ t := by
  induction tidy generalizing t with
  | @word w given solid =>
    obtain ⟨c, w', rfl⟩ := List.exists_cons_of_ne_nil given
    have first : isBlank c = false := solid c List.mem_cons_self
    rw [trimLeft, List.cons_append, List.dropWhile_cons, first]
    rfl
  | space _ _ left _ =>
    rw [List.append_assoc]
    exact left _

theorem Tidy.trimRight_eq {s : Text} (tidy : Tidy s) (t : Text) : trimRight (t ++ s) = t ++ s := by
  induction tidy generalizing t with
  | @word w given solid =>
    have backwards : w.reverse ≠ [] := by simpa using given
    obtain ⟨c, w', shape⟩ := List.exists_cons_of_ne_nil backwards
    have last : isBlank c = false := by
      apply solid c
      rw [← List.mem_reverse, shape]
      exact List.mem_cons_self
    rw [trimRight, List.reverse_append, shape, List.cons_append, List.dropWhile_cons, last,
      if_neg (by decide), ← List.cons_append, ← shape, List.reverse_append, List.reverse_reverse,
      List.reverse_reverse]
  | @space l r _ _ _ right =>
    have shape : t ++ (l ++ ' ' :: r) = (t ++ (l ++ [' '])) ++ r := by simp
    rw [shape]
    exact right _

theorem trimLeft_append_blank {gap : Text} (blank : gap.all isBlank = true) (s : Text) :
    trimLeft (gap ++ s) = trimLeft s :=
  List.dropWhile_append_of_pos (List.all_eq_true.mp blank)

theorem trimRight_append_blank {gap : Text} (blank : gap.all isBlank = true) (s : Text) :
    trimRight (s ++ gap) = trimRight s := by
  have backwards : ∀ c ∈ gap.reverse, isBlank c = true := by
    intro c member
    exact List.all_eq_true.mp blank c (List.mem_reverse.mp member)
  rw [trimRight, trimRight, List.reverse_append, List.dropWhile_append_of_pos backwards]

theorem Tidy.trim_eq {s : Text} (tidy : Tidy s) : trim s = s := by
  have left : trimLeft s = s := by simpa using tidy.trimLeft_eq []
  have right : trimRight s = s := tidy.trimRight_eq []
  rw [trim, left, right]

theorem joinWith_cons_cons (c : Char) (x y : Text) (ys : List Text) :
    joinWith [c] (x :: y :: ys) = x ++ c :: joinWith [c] (y :: ys) := by
  simp [joinWith, List.intercalate_cons_cons]

theorem joinWith_cons_of_ne_nil (c : Char) (x : Text) {xs : List Text} (given : xs ≠ []) :
    joinWith [c] (x :: xs) = x ++ c :: joinWith [c] xs := by
  obtain ⟨y, ys, rfl⟩ := List.exists_cons_of_ne_nil given
  exact joinWith_cons_cons c x y ys

theorem joinWith_append {sep : Text} {ws ws' : List Text} (given : ws ≠ []) (given' : ws' ≠ []) :
    joinWith sep (ws ++ ws') = joinWith sep ws ++ (sep ++ joinWith sep ws') := by
  induction ws with
  | nil => exact absurd rfl given
  | cons w ws ih =>
    cases ws with
    | nil =>
      obtain ⟨w', rest, rfl⟩ := List.exists_cons_of_ne_nil given'
      simp [joinWith]
    | cons v ws =>
      have rest := ih (List.cons_ne_nil _ _)
      simp only [joinWith, List.cons_append, List.intercalate_cons_cons, List.append_assoc] at rest ⊢
      rw [rest]

theorem not_mem_joinWith {c : Char} {sep : Text} {xs : List Text} (between : c ∉ sep)
    (inside : ∀ x ∈ xs, c ∉ x) : c ∉ joinWith sep xs := by
  induction xs with
  | nil => exact List.not_mem_nil
  | cons x xs ih =>
    obtain ⟨first, rest⟩ := List.forall_mem_cons.mp inside
    cases xs with
    | nil =>
      rw [joinWith, List.intercalate_singleton]
      exact first
    | cons y ys =>
      rw [joinWith, List.intercalate_cons_cons]
      exact List.not_mem_append (List.not_mem_append first between) (ih rest)

theorem Tidy.joinWith_words {s : Text} (tidy : Tidy s) :
    words s ≠ [] ∧ joinWith [' '] (words s) = s := by
  induction tidy with
  | @word w given solid =>
    have whole : words w = [w] := by
      rw [words, fields_of_forall solid]
      simp [given]
    rw [whole]
    exact ⟨List.cons_ne_nil _ _, List.intercalate_singleton⟩
  | @space l r _ _ left right =>
    obtain ⟨given, joined⟩ := left
    obtain ⟨given', joined'⟩ := right
    have both : words (l ++ ' ' :: r) = words l ++ words r := by
      rw [words, fields_append (by decide), List.filter_append]
      rfl
    rw [both, joinWith_append given given', joined, joined']
    exact ⟨List.append_ne_nil_of_left_ne_nil given _, rfl⟩

theorem Tidy.collapse_eq {s : Text} (tidy : Tidy s) : collapse s = s := tidy.joinWith_words.2

theorem Tidy.newline_not_mem {s : Text} (tidy : Tidy s) : '\n' ∉ s := by
  intro member
  have space := tidy.mem member (by decide)
  cases space

theorem Tidy.lines_eq {s : Text} (tidy : Tidy s) : lines s = [s] := by
  rw [lines, fields_of_not_mem tidy.newline_not_mem, linesOfFields, if_neg]
  simpa using tidy.ne_nil

theorem dropReturn_append (s : Text) {t : Text} (given : t ≠ []) (other : t.getLast? ≠ some '\r') :
    dropReturn (s ++ t) = s ++ t := by
  rw [dropReturn, List.getLast?_append, Option.or_of_isSome (by simpa using given)]
  split
  · next same => exact absurd same other
  · rfl

theorem linesOfFields_concat_nil (xs : List Text) : linesOfFields (xs ++ [[]]) = xs.map dropReturn := by
  induction xs with
  | nil => rfl
  | cons x xs ih =>
    cases xs with
    | nil => rfl
    | cons y ys => exact congrArg (dropReturn x :: ·) ih

theorem lines_joinWith {xs : List Text} (given : xs ≠ []) (unbroken : ∀ x ∈ xs, '\n' ∉ x) :
    lines (joinWith "\n" xs ++ "\n") = xs.map dropReturn := by
  have shape : joinWith "\n" xs ++ ("\n" : Text) = joinWith ['\n'] (xs ++ [[]]) := by
    rw [joinWith_append given (List.cons_ne_nil _ _)]
    simp [joinWith]
  have inside : ∀ x ∈ xs ++ [[]], '\n' ∉ x := by
    simpa [or_imp, forall_and] using unbroken
  rw [lines, shape, fields_joinWith (by simp) inside, linesOfFields_concat_nil]

end ProofDesk.Text
