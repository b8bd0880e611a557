import Mathlib.Data.List.TakeWhile
import ProofDesk.Text.Basic

namespace ProofDesk.Text

variable {α β : Type}

theorem stripLeading?_eq_some_iff {lead s rest : Text} :
    stripLeading? lead s = some rest ↔ s = lead ++ rest := by
  fun_induction stripLeading? lead s with
  | case1 s => simp [eq_comm]
  | case2 c lead => simp
  | case3 lead c s ih => simp [ih]
  | case4 c lead d s different => simp [Ne.symm different]

@[simp]
theorem stripLeading?_append (lead rest : Text) : stripLeading? lead (lead ++ rest) = some rest :=
  stripLeading?_eq_some_iff.mpr rfl

theorem stripTrailing?_eq_some_iff {trail s rest : Text} :
    stripTrailing? trail s = some rest ↔ s = rest ++ trail := by
  rw [stripTrailing?, Option.map_eq_some_iff]
  constructor
  · rintro ⟨back, read, rfl⟩
    have whole := stripLeading?_eq_some_iff.mp read
    rw [← List.reverse_reverse s, whole, List.reverse_append, List.reverse_reverse]
  · rintro rfl
    exact ⟨rest.reverse, by simp, List.reverse_reverse rest⟩

theorem between?_eq_some_iff {lead trail s inside : Text} :
    between? lead trail s = some inside ↔ s = lead ++ (inside ++ trail) := by
  rw [between?, Option.bind_eq_some_iff]
  constructor
  · rintro ⟨rest, leading, trailing⟩
    rw [stripLeading?_eq_some_iff.mp leading, stripTrailing?_eq_some_iff.mp trailing]
  · rintro rfl
    exact ⟨inside ++ trail, by simp, stripTrailing?_eq_some_iff.mpr rfl⟩

theorem mem_splits_iff {seps : List (Text × α)} (given : ∀ sep ∈ seps, sep.1 ≠ []) {s l r : Text}
    {a : α} : (l, a, r) ∈ splits seps s ↔ ∃ sep, (sep, a) ∈ seps ∧ s = l ++ (sep ++ r) := by
  induction s generalizing l with
  | nil =>
    constructor
    · intro member
      cases member
    · rintro ⟨sep, member, whole⟩
      have empty : sep = [] := by simp_all
      exact absurd empty (given _ member)
  | cons c s ih =>
    rw [splits, List.mem_append, List.mem_filterMap, List.mem_map]
    constructor
    · rintro (⟨⟨sep, b⟩, member, here⟩ | ⟨⟨l', b, r'⟩, later, same⟩)
      · obtain ⟨rest, leading, same⟩ := Option.map_eq_some_iff.mp here
        cases same
        have whole := stripLeading?_eq_some_iff.mp leading
        exact ⟨sep, member, by rw [whole, List.nil_append]⟩
      · cases same
        obtain ⟨sep, member, rfl⟩ := ih.mp later
        exact ⟨sep, member, rfl⟩
    · rintro ⟨sep, member, whole⟩
      cases l with
      | nil =>
        left
        rw [List.nil_append] at whole
        have read : stripLeading? sep (c :: s) = some r := stripLeading?_eq_some_iff.mpr whole
        exact ⟨(sep, a), member, Option.map_eq_some_iff.mpr ⟨r, read, rfl⟩⟩
      | cons d l =>
        cases whole
        right
        exact ⟨(l, a, r), ih.mpr ⟨sep, member, rfl⟩, rfl⟩

theorem splitFirst?_eq_some {sep s l r : Text} (read : splitFirst? sep s = some (l, r)) :
    s = l ++ (sep ++ r) := by
  fun_induction splitFirst? sep s generalizing l with
  | case1 => cases read
  | case2 c s rest found =>
    cases read
    rw [List.nil_append]
    exact stripLeading?_eq_some_iff.mp found
  | case3 c s none' ih =>
    obtain ⟨⟨l', r'⟩, later, same⟩ := Option.map_eq_some_iff.mp read
    cases same
    rw [ih later, List.cons_append]

theorem splitFirst?_isSome {sep : Text} (given : sep ≠ []) (l r : Text) :
    (splitFirst? sep (l ++ (sep ++ r))).isSome := by
  induction l with
  | nil =>
    cases sep with
    | nil => exact absurd rfl given
    | cons c sep =>
      have found := stripLeading?_append (c :: sep) r
      rw [List.cons_append] at found
      rw [List.nil_append, List.cons_append, splitFirst?, found]
      rfl
  | cons c l ih =>
    rw [List.cons_append, splitFirst?]
    split
    · rfl
    · rw [Option.isSome_map]
      exact ih

theorem splitLast?_eq_some {sep s l r : Text} (read : splitLast? sep s = some (l, r)) :
    s = l ++ (sep ++ r) := by
  fun_induction splitLast? sep s generalizing l with
  | case1 => cases read
  | case2 c s left right later ih =>
    cases read
    rw [ih later, List.cons_append]
  | case3 c s none' ih =>
    obtain ⟨rest, found, same⟩ := Option.map_eq_some_iff.mp read
    cases same
    rw [List.nil_append]
    exact stripLeading?_eq_some_iff.mp found

theorem fields_eq_splitOnP (sep : Char → Bool) (s : Text) : fields sep s = s.splitOnP sep := by
  induction s with
  | nil => rfl
  | cons c s ih =>
    rw [fields, List.splitOnP_cons_eq_if_modifyHead, ih]
    split
    · rfl
    · have given := List.splitOnP_ne_nil sep s
      split
      · next field rest same => rw [same, List.modifyHead_cons]
      · next same => exact absurd same given

theorem fields_ne_nil (sep : Char → Bool) (s : Text) : fields sep s ≠ [] := by
  rw [fields_eq_splitOnP]
  exact List.splitOnP_ne_nil sep s

theorem joinWith_fields (c : Char) (s : Text) : joinWith [c] (fields (· == c) s) = s := by
  rw [joinWith, fields_eq_splitOnP]
  exact List.intercalate_splitOn c

theorem fields_joinWith {c : Char} {xs : List Text} (given : xs ≠ []) (inside : ∀ x ∈ xs, c ∉ x) :
    fields (· == c) (joinWith [c] xs) = xs := by
  rw [joinWith, fields_eq_splitOnP]
  exact List.splitOn_intercalate c inside given

theorem findSome?_eq_some_iff_of_unique {xs : List α} {f : α → Option β} {b : β}
    (unique : ∀ a ∈ xs, f a = some b → ∀ a' ∈ xs, ∀ b', f a' = some b' → b' = b) :
    xs.findSome? f = some b ↔ ∃ a ∈ xs, f a = some b := by
  constructor
  · exact List.exists_of_findSome?_eq_some
  · rintro ⟨a, member, found⟩
    cases first : xs.findSome? f with
    | none =>
      rw [List.findSome?_eq_none_iff.mp first a member] at found
      cases found
    | some b' =>
      obtain ⟨a', member', found'⟩ := List.exists_of_findSome?_eq_some first
      rw [unique a member found a' member' b' found']

theorem findSome?_eq_some_of_only {xs : List α} {f : α → Option β} {a : α} {b : β} (member : a ∈ xs)
    (found : f a = some b) (only : ∀ a' ∈ xs, (f a').isSome → a' = a) : xs.findSome? f = some b := by
  rw [findSome?_eq_some_iff_of_unique]
  · exact ⟨a, member, found⟩
  · intro _ _ _ a' member' b' found'
    obtain rfl := only a' member' (Option.isSome_of_eq_some found')
    exact Option.some.inj (found'.symm.trans found)

theorem append_cons_inj_of_all {p : Char → Bool} {l l' r r' : Text} {c c' : Char}
    (left : l.all p = true) (left' : l'.all p = true) (outside : p c = false)
    (outside' : p c' = false) : l ++ c :: r = l' ++ c' :: r' ↔ l = l' ∧ c = c' ∧ r = r' := by
  constructor
  · intro same
    induction l generalizing l' with
    | nil =>
      cases l' with
      | nil => simpa using same
      | cons d l' =>
        cases same
        simp [outside] at left'
    | cons e l ih =>
      cases l' with
      | nil =>
        cases same
        simp [outside'] at left
      | cons d l' =>
        rw [List.all_cons, Bool.and_eq_true] at left left'
        obtain ⟨rfl, rest⟩ := List.cons.inj same
        obtain ⟨rfl, tail⟩ := ih left.2 left'.2 rest
        exact ⟨rfl, tail⟩
  · rintro ⟨rfl, rfl, rfl⟩
    rfl

/-- No character of a class stands at the beginning of a text. -/
def Ends (p : Char → Bool) (s : Text) : Prop := ∀ c ∈ s.head?, p c = false

theorem ends_nil {p : Char → Bool} : Ends p [] := by
  intro c first
  cases first

theorem ends_cons {p : Char → Bool} {c : Char} {s : Text} : Ends p (c :: s) ↔ p c = false := by
  simp [Ends]

theorem ends_dropWhile {p : Char → Bool} (s : Text) : Ends p (s.dropWhile p) := by
  intro c first
  have known := List.head?_dropWhile_not p s
  rw [Option.mem_def.mp first] at known
  exact known

theorem span_append {p : Char → Bool} {w s : Text} (inside : w.all p = true) (ends : Ends p s) :
    (w ++ s).takeWhile p = w ∧ (w ++ s).dropWhile p = s := by
  have every : ∀ c ∈ w, p c = true := List.all_eq_true.mp inside
  rw [List.takeWhile_append_of_pos every, List.dropWhile_append_of_pos every]
  cases s with
  | nil => simp
  | cons c s => simp [ends_cons.mp ends]

theorem trim_eq_nil_iff {s : Text} : trim s = [] ↔ s.all isBlank = true := by
  have right (u : Text) : trimRight u = [] ↔ ∀ c ∈ u, isBlank c = true := by
    simp [trimRight, List.dropWhile_eq_nil_iff]
  rw [trim, right, List.all_eq_true]
  constructor
  · intro left c member
    rw [← List.takeWhile_append_dropWhile (p := isBlank) (l := s), List.mem_append] at member
    rcases member with taken | dropped
    · exact List.all_eq_true.mp List.all_takeWhile c taken
    · exact left c dropped
  · intro blank c member
    exact blank c ((List.dropWhile_sublist _).subset member)

theorem mem_trim {s : Text} {c : Char} (member : c ∈ s) (solid : isBlank c = false) :
    c ∈ trim s := by
  have kept {u : Text} (inside : c ∈ u) : c ∈ u.dropWhile isBlank := by
    rw [← List.takeWhile_append_dropWhile (p := isBlank) (l := u), List.mem_append] at inside
    rcases inside with blank | rest
    · rw [List.all_eq_true.mp List.all_takeWhile c blank] at solid
      cases solid
    · exact rest
  exact List.mem_reverse.mpr (kept (List.mem_reverse.mpr (kept member)))

theorem not_mem_of_all {p : Char → Bool} {s : Text} {c : Char} (inside : s.all p = true)
    (outside : p c = false) : c ∉ s := by
  intro member
  rw [List.all_eq_true.mp inside c member] at outside
  cases outside

theorem isName_iff {x : Text} : isName x = true ↔ x ≠ [] ∧ x.all isWord = true := by
  simp [isName]

theorem takeName?_eq_some_iff {s x rest : Text} : takeName? s = some (x, rest) ↔
    s = x ++ rest ∧ isName x = true ∧ Ends isWord rest := by
  rw [takeName?, isName_iff]
  constructor
  · intro read
    split at read
    · cases read
    · next given =>
      cases read
      have nonempty : s.takeWhile isWord ≠ [] := by simpa using given
      exact ⟨List.takeWhile_append_dropWhile.symm, ⟨nonempty, List.all_takeWhile⟩,
        ends_dropWhile s⟩
  · rintro ⟨rfl, ⟨given, word⟩, ends⟩
    obtain ⟨taken, left⟩ := span_append word ends
    rw [taken, left, if_neg (by simpa using given)]

end ProofDesk.Text
