import ProofDesk.Proofs.Text.Spacing

namespace ProofDesk.Text

section Replacing

variable {read : Text → Option (Text × Text)} {w s written : Text}

@[simp] theorem replace_nil (read : Text → Option (Text × Text)) : replace read [] = [] := rfl

theorem replaceFrom_skip (read : Text → Option (Text × Text)) (w s : Text) :
    replaceFrom read w.length (w ++ s) = replace read s := by
  induction w with
  | nil => rfl
  | cons c w ih =>
    rw [List.cons_append, List.length_cons, replaceFrom]
    exact ih

theorem replace_cons_of_none {c : Char} (absent : read (c :: s) = none) :
    replace read (c :: s) = c :: replace read s := by
  rw [replace, replaceFrom, absent]
  rfl

/-- An occurrence at the beginning is replaced, and the rest is taken as a text of its own. -/
theorem replace_of_read (given : w ≠ []) (found : read (w ++ s) = some (written, s)) :
    replace read (w ++ s) = written ++ replace read s := by
  obtain ⟨c, w, rfl⟩ := List.exists_cons_of_ne_nil given
  rw [List.cons_append] at found
  have skipped : (w ++ s).length - s.length = w.length := by simp
  rw [replace, List.cons_append, replaceFrom, found]
  dsimp only
  rw [skipped, replaceFrom_skip]

/-- No occurrence begins in a text that is followed by another one. -/
def Unread (read : Text → Option (Text × Text)) (w s : Text) : Prop :=
  ∀ l c r, w = l ++ c :: r → read (c :: (r ++ s)) = none

theorem replace_of_unread (unread : Unread read w s) :
    replace read (w ++ s) = w ++ replace read s := by
  induction w with
  | nil => rfl
  | cons c w ih =>
    have absent : read (c :: (w ++ s)) = none := unread [] c w rfl
    have later : Unread read w s := by
      rintro l d r rfl
      exact unread (c :: l) d r rfl
    rw [List.cons_append, replace_cons_of_none absent, ih later]
    rfl

end Replacing

/-- The second text has some white space where the first has a space. -/
inductive Spaced : Text → Text → Prop
  | nil : Spaced [] []
  | char {c : Char} {s t : Text} (other : c ≠ ' ') (rest : Spaced s t) : Spaced (c :: s) (c :: t)
  | gap {gap s t : Text} (given : gap ≠ []) (blank : gap.all isBlank = true) (rest : Spaced s t) :
    Spaced (' ' :: s) (gap ++ t)

theorem words_append_blank {c : Char} (blank : isBlank c = true) (l r : Text) :
    words (l ++ c :: r) = words l ++ words r := by
  rw [words, fields_append blank, List.filter_append]
  rfl

theorem words_blank_append {gap : Text} (blank : gap.all isBlank = true) (s : Text) :
    words (gap ++ s) = words s := by
  induction gap with
  | nil => rfl
  | cons c gap ih =>
    obtain ⟨first, rest⟩ := Bool.and_eq_true_iff.mp blank
    have split : words ([] ++ c :: (gap ++ s)) = words [] ++ words (gap ++ s) :=
      words_append_blank first [] (gap ++ s)
    rw [ih rest] at split
    exact split

theorem Spaced.words_eq {s t : Text} (spaced : Spaced s t) (before : Text) :
    words (before ++ t) = words (before ++ s) := by
  induction spaced generalizing before with
  | nil => rfl
  | @char c s t _ _ ih =>
    have grown := ih (before ++ [c])
    rw [List.append_assoc, List.append_assoc] at grown
    exact grown
  | @gap gap s t given blank _ ih =>
    obtain ⟨c, gap, rfl⟩ := List.exists_cons_of_ne_nil given
    obtain ⟨first, rest⟩ := Bool.and_eq_true_iff.mp blank
    have same : words t = words s := ih []
    rw [List.cons_append, words_append_blank first, words_blank_append rest,
      words_append_blank (by decide), same]

theorem Spaced.collapse_eq {s t : Text} (spaced : Spaced s t) : collapse t = collapse s := by
  have same : words t = words s := spaced.words_eq []
  rw [collapse, collapse, same]

theorem Spaced.prepend {s t : Text} (spaced : Spaced s t) (before : Text) :
    Spaced (before ++ s) (before ++ t) := by
  induction before with
  | nil => exact spaced
  | cons c before ih =>
    by_cases space : c = ' '
    · rw [space]
      exact @Spaced.gap [' '] _ _ (List.cons_ne_nil _ _) rfl ih
    · exact .char space ih

/-- A text with words that is collapsed to another. -/
structure Collapses (s t : Text) : Prop where
  given : words s ≠ []
  eq : collapse s = t

theorem Tidy.collapses {s : Text} (tidy : Tidy s) : Collapses s s :=
  ⟨tidy.joinWith_words.1, tidy.collapse_eq⟩

theorem Collapses.space {l l' r r' : Text} (left : Collapses l l') (right : Collapses r r') :
    Collapses (l ++ ' ' :: r) (l' ++ ' ' :: r') := by
  have split : words (l ++ ' ' :: r) = words l ++ words r := words_append_blank (by decide) l r
  constructor
  · rw [split]
    exact List.append_ne_nil_of_left_ne_nil left.given _
  · have joined : collapse (l ++ ' ' :: r) = collapse l ++ ' ' :: collapse r := by
      rw [collapse, split]
      exact joinWith_append left.given right.given
    rw [joined, left.eq, right.eq]

theorem fields_attach {sep : Char → Bool} {w : Text} (solid : ∀ c ∈ w, sep c = false) (s : Text) :
    ∃ fs f, fields sep s = fs ++ [f] ∧ fields sep (s ++ w) = fs ++ [f ++ w] := by
  induction s with
  | nil => exact ⟨[], [], rfl, by rw [List.nil_append, fields_of_forall solid]; rfl⟩
  | cons c s ih =>
    obtain ⟨fs, f, alone, attached⟩ := ih
    by_cases separates : sep c = true
    · refine ⟨[] :: fs, f, ?_, ?_⟩
      · rw [fields, if_pos separates, alone]
        rfl
      · rw [List.cons_append, fields, if_pos separates, attached]
        rfl
    · cases fs with
      | nil =>
        refine ⟨[], c :: f, ?_, ?_⟩
        · rw [fields, if_neg separates, alone]
          rfl
        · rw [List.cons_append, fields, if_neg separates, attached]
          rfl
      | cons first fs =>
        refine ⟨(c :: first) :: fs, f, ?_, ?_⟩
        · rw [fields, if_neg separates, alone]
          rfl
        · rw [List.cons_append, fields, if_neg separates, attached]
          rfl

theorem mem_fields {sep : Char → Bool} {s : Text} {c : Char} :
    (∃ f ∈ fields sep s, c ∈ f) ↔ c ∈ s ∧ sep c = false := by
  induction s with
  | nil => simp [fields]
  | cons d s ih =>
    by_cases separates : sep d = true
    · have other : c = d → sep c = true := by
        rintro rfl
        exact separates
      simp only [fields, if_pos separates, List.mem_cons, exists_eq_or_imp, List.not_mem_nil,
        false_or, ih]
      constructor
      · rintro ⟨member, solid⟩
        exact ⟨Or.inr member, solid⟩
      · rintro ⟨rfl | member, solid⟩
        · rw [separates] at solid
          cases solid
        · exact ⟨member, solid⟩
    · obtain ⟨f, fs, shape⟩ := List.exists_cons_of_ne_nil (fields_ne_nil sep s)
      rw [shape] at ih
      rw [fields, if_neg separates, shape]
      simp only [List.mem_cons, exists_eq_or_imp] at ih ⊢
      rw [or_assoc, ih]
      constructor
      · rintro (rfl | ⟨member, solid⟩)
        · exact ⟨Or.inl rfl, by simpa using separates⟩
        · exact ⟨Or.inr member, solid⟩
      · rintro ⟨rfl | member, solid⟩
        · exact Or.inl rfl
        · exact Or.inr ⟨member, solid⟩

theorem joinWith_attach (sep : Text) (fs : List Text) (f w : Text) :
    joinWith sep (fs ++ [f]) ++ w = joinWith sep (fs ++ [f ++ w]) := by
  by_cases alone : fs = []
  · subst alone
    simp [joinWith]
  · rw [joinWith_append alone (List.cons_ne_nil _ _), joinWith_append alone (List.cons_ne_nil _ _)]
    simp [joinWith]

theorem mem_joinWith {sep : Text} {xs : List Text} {x : Text} {c : Char} (member : x ∈ xs)
    (inside : c ∈ x) : c ∈ joinWith sep xs := by
  induction xs with
  | nil => cases member
  | cons y xs ih =>
    by_cases last : xs = []
    · subst last
      rw [List.mem_singleton.mp member] at inside
      rw [joinWith, List.intercalate_singleton]
      exact inside
    · have split : joinWith sep (y :: xs) = joinWith sep [y] ++ (sep ++ joinWith sep xs) :=
        joinWith_append (List.cons_ne_nil y []) last
      rw [split, joinWith, List.intercalate_singleton]
      rcases List.mem_cons.mp member with rfl | later
      · exact List.mem_append_left _ inside
      · exact List.mem_append_right _ (List.mem_append_right _ (ih later))

theorem exists_collapses_attach {w : Text} (given : w ≠ []) (solid : ∀ c ∈ w, isBlank c = false)
    (s : Text) : ∃ s', Collapses (s ++ w) (s' ++ w) ∧ (∀ c ∈ s', c = ' ' ∨ c ∈ s) ∧
      ∀ c ∈ s, isBlank c = false → c ∈ s' := by
  obtain ⟨fs, f, alone, attached⟩ := fields_attach solid s
  let kept := fs.filter fun x => !x.isEmpty
  -- the last field counts as a word even if it was empty before
  have ends : words (s ++ w) = kept ++ [f ++ w] := by
    rw [words, attached, List.filter_append]
    simp [kept, given]
  refine ⟨joinWith [' '] (kept ++ [f]), ⟨?_, ?_⟩, ?_, ?_⟩
  · rw [ends]
    exact List.append_ne_nil_of_right_ne_nil _ (List.cons_ne_nil _ _)
  · rw [collapse, ends]
    exact (joinWith_attach [' '] kept f w).symm
  · intro c member
    by_contra other
    obtain ⟨notSpace, absent⟩ := not_or.mp other
    refine not_mem_joinWith (by simpa using notSpace) ?_ member
    intro x listed inside
    have field : x ∈ fields isBlank s := by
      rw [alone]
      rcases List.mem_append.mp listed with first | last
      · exact List.mem_append_left _ (List.mem_filter.mp first).1
      · exact List.mem_append_right _ last
    exact absent (mem_fields.mp ⟨x, field, inside⟩).1
  · intro c member unblank
    obtain ⟨x, field, inside⟩ := mem_fields.mpr ⟨member, unblank⟩
    rw [alone] at field
    refine mem_joinWith ?_ inside
    rcases List.mem_append.mp field with first | last
    · have nonempty : (!x.isEmpty) = true := by
        simpa using List.ne_nil_of_mem inside
      exact List.mem_append_left _ (List.mem_filter.mpr ⟨first, nonempty⟩)
    · exact List.mem_append_right _ last

end ProofDesk.Text
