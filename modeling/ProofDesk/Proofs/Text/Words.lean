import ProofDesk.Proofs.Text.Replacement

namespace ProofDesk.Text

/-- What can be a word. -/
def Solid (w : Text) : Prop := w ≠ [] ∧ ∀ c ∈ w, isBlank c = false

instance (w : Text) : Decidable (Solid w) :=
  decidable_of_iff (w ≠ [] ∧ w.all (fun c => !isBlank c) = true)
    ⟨fun ⟨given, solid⟩ => ⟨given, unblank_of_all solid⟩,
      fun ⟨given, solid⟩ => ⟨given, by simpa using solid⟩⟩

theorem Solid.tidy {w : Text} (solid : Solid w) : Tidy w := .word solid.1 solid.2

theorem solid_of_mem_words {s w : Text} (member : w ∈ words s) : Solid w := by
  have field := List.mem_filter.mp member
  refine ⟨by simpa using field.2, ?_⟩
  intro c inside
  exact (mem_fields.mp ⟨w, field.1, inside⟩).2

theorem words_of_solid {w : Text} (solid : Solid w) : words w = [w] := by
  rw [words, fields_of_forall solid.2]
  simp [solid.1]

theorem flatMap_words_of_solid {ws : List Text} (solid : ∀ w ∈ ws, Solid w) :
    ws.flatMap words = ws := by
  induction ws with
  | nil => rfl
  | cons w ws ih =>
    have first := words_of_solid (solid w List.mem_cons_self)
    rw [List.flatMap_cons, first, ih fun v member => solid v (List.mem_cons_of_mem _ member)]
    rfl

theorem words_joinWith {c : Char} (blank : isBlank c = true) (xs : List Text) :
    words (joinWith [c] xs) = xs.flatMap words := by
  induction xs with
  | nil => rfl
  | cons x xs ih =>
    cases xs with
    | nil => simp [joinWith]
    | cons y ys =>
      rw [joinWith_cons_cons, words_append_blank blank, ih]
      rfl

theorem words_joinWith_solid {ws : List Text} (solid : ∀ w ∈ ws, Solid w) :
    words (joinWith [' '] ws) = ws := by
  rw [words_joinWith (by decide), flatMap_words_of_solid solid]

theorem words_collapse (s : Text) : words (collapse s) = words s :=
  words_joinWith_solid fun _ => solid_of_mem_words

theorem tidy_joinWith {ws : List Text} (given : ws ≠ []) (solid : ∀ w ∈ ws, Solid w) :
    Tidy (joinWith [' '] ws) := by
  induction ws with
  | nil => exact absurd rfl given
  | cons w ws ih =>
    rw [List.forall_mem_cons] at solid
    cases ws with
    | nil =>
      rw [joinWith, List.intercalate_singleton]
      exact solid.1.tidy
    | cons v ws =>
      rw [joinWith_cons_cons]
      exact .space solid.1.tidy (ih (List.cons_ne_nil _ _) solid.2)

theorem tidy_collapse {s : Text} (given : collapse s ≠ []) : Tidy (collapse s) := by
  apply tidy_joinWith
  · intro none'
    rw [collapse, none'] at given
    exact given rfl
  · exact fun _ => solid_of_mem_words

theorem tidy_iff_pieces {s : Text} : Tidy s ↔ ∀ w ∈ pieces s, Solid w := by
  constructor
  · intro tidy
    induction tidy with
    | @word w given solid =>
      have unspaced : ' ' ∉ w := by
        intro member
        have blank := solid ' ' member
        cases blank
      rw [pieces_of_not_mem unspaced, List.forall_mem_singleton]
      exact ⟨given, solid⟩
    | space _ _ left right =>
      rw [pieces_append]
      exact List.forall_mem_append.mpr ⟨left, right⟩
  · intro solid
    rw [← joinWith_fields ' ' s]
    exact tidy_joinWith (fields_ne_nil _ s) solid

theorem Tidy.solid_head {s : Text} (tidy : Tidy s) {c : Char} (first : s.head? = some c) :
    isBlank c = false := by
  induction tidy with
  | word _ solid => exact solid c (List.mem_of_head? first)
  | space left _ ih _ =>
    rw [List.head?_append, Option.or_of_isSome (by simpa using left.ne_nil)] at first
    exact ih first

theorem Tidy.solid_last {s : Text} (tidy : Tidy s) {c : Char} (last : s.getLast? = some c) :
    isBlank c = false := by
  induction tidy with
  | word _ solid => exact solid c (List.mem_of_getLast? last)
  | space _ right _ ih =>
    rw [List.append_cons, List.getLast?_append,
      Option.or_of_isSome (by simpa using right.ne_nil)] at last
    exact ih last

theorem Tidy.no_double_space {s : Text} (tidy : Tidy s) : ¬[' ', ' '] <:+: s := by
  intro inside
  rcases inside with ⟨l, r, whole⟩
  have shape : s = l ++ ' ' :: ([] ++ ' ' :: r) := by
    rw [← whole]
    simp
  rw [shape, tidy_iff_pieces, pieces_append, pieces_append] at tidy
  have empty : Solid [] := tidy [] (by simp [pieces, fields])
  exact empty.1 rfl

theorem tidy_of_single_spaces {s : Text} (given : s ≠ [])
    (blanks : ∀ c ∈ s, isBlank c = true → c = ' ') (first : s.head? ≠ some ' ')
    (last : s.getLast? ≠ some ' ') (single : ¬[' ', ' '] <:+: s) : Tidy s := by
  rw [tidy_iff_pieces]
  intro w member
  have joined : joinWith [' '] (pieces s) = s := joinWith_fields ' ' s
  constructor
  · rintro rfl
    rcases List.append_of_mem member with ⟨l, r, cut⟩
    rw [cut] at joined
    cases l with
    | nil =>
      cases r with
      | nil => exact given joined.symm
      | cons v r =>
        apply first
        rw [← joined]
        simp [joinWith, List.intercalate_cons_cons]
    | cons u l =>
      rw [joinWith_append (List.cons_ne_nil _ _) (List.cons_ne_nil _ _)] at joined
      cases r with
      | nil =>
        apply last
        rw [← joined]
        simp [joinWith]
      | cons v r =>
        apply single
        refine ⟨joinWith [' '] (u :: l), joinWith [' '] (v :: r), ?_⟩
        rw [← joined]
        simp [joinWith, List.intercalate_cons_cons]
  · intro c inside
    have field := mem_fields.mp ⟨w, member, inside⟩
    rw [Bool.eq_false_iff]
    intro blank
    have same := blanks c field.1 blank
    rw [same] at field
    cases field.2

section Lines

variable {ls : List Text}

theorem fields_joinWith_tidy (given : ls ≠ []) (tidy : ∀ l ∈ ls, Tidy l) :
    fields (· == '\n') (joinWith "\n" ls) = ls :=
  fields_joinWith given fun l member => (tidy l member).newline_not_mem

theorem linesOfFields_of_solid_last (given : ∀ l ∈ ls, l ≠ [])
    (solid : ∀ l ∈ ls, l.getLast? ≠ some '\r') : linesOfFields ls = ls := by
  induction ls with
  | nil => rfl
  | cons l ls ih =>
    rw [List.forall_mem_cons] at given solid
    cases ls with
    | nil => simp [linesOfFields, given.1]
    | cons l' ls =>
      have kept : dropReturn l = l := by
        have whole := dropReturn_append [] given.1 solid.1
        rw [List.nil_append] at whole
        exact whole
      have first : linesOfFields (l :: l' :: ls) = dropReturn l :: linesOfFields (l' :: ls) := rfl
      rw [first, kept, ih given.2 solid.2]

theorem lines_joinWith_tidy (tidy : ∀ l ∈ ls, Tidy l) : lines (joinWith "\n" ls) = ls := by
  by_cases given : ls = []
  · rw [given]
    rfl
  · rw [lines, fields_joinWith_tidy given tidy]
    apply linesOfFields_of_solid_last
    · intro l member
      exact (tidy l member).ne_nil
    · intro l member last
      have solid := (tidy l member).solid_last last
      cases solid

theorem trim_joinWith_tidy (tidy : ∀ l ∈ ls, Tidy l) :
    trim (joinWith "\n" ls) = joinWith "\n" ls := by
  have left : trimLeft (joinWith "\n" ls) = joinWith "\n" ls := by
    cases ls with
    | nil => rfl
    | cons l ls =>
      have first := (tidy l List.mem_cons_self).trimLeft_eq
      cases ls with
      | nil => simpa [joinWith] using first []
      | cons l' ls =>
        rw [joinWith, List.intercalate_cons_cons, List.append_assoc]
        exact first _
  have right : trimRight (joinWith "\n" ls) = joinWith "\n" ls := by
    rcases List.eq_nil_or_concat ls with none' | ⟨front, l, shape⟩
    · rw [none']
      rfl
    · rw [List.concat_eq_append] at shape
      have last := (tidy l (by simp [shape])).trimRight_eq
      by_cases alone : front = []
      · rw [shape, alone]
        simpa [joinWith] using last []
      · have joined : joinWith "\n" ls = (joinWith "\n" front ++ ['\n']) ++ l := by
          rw [shape, joinWith_append alone (List.cons_ne_nil _ _), ← List.append_assoc]
          simp [joinWith]
        rw [joined]
        exact last _
  rw [trim, left, right]

end Lines

theorem words_append_gap {gap : Text} (blank : gap.all isBlank = true) (s : Text) :
    words (s ++ gap) = words s := by
  cases gap with
  | nil => rw [List.append_nil]
  | cons c gap =>
    rw [List.all_cons, Bool.and_eq_true] at blank
    have none' : words gap = [] := by
      have rest := words_blank_append blank.2 []
      rw [List.append_nil] at rest
      exact rest
    rw [words_append_blank blank.1, none', List.append_nil]

theorem exists_trim (s : Text) : ∃ front back, s = front ++ (trim s ++ back) ∧
    front.all isBlank = true ∧ back.all isBlank = true := by
  refine ⟨s.takeWhile isBlank, ((trimLeft s).reverse.takeWhile isBlank).reverse, ?_,
    List.all_takeWhile, ?_⟩
  · have right : trim s ++ ((trimLeft s).reverse.takeWhile isBlank).reverse = trimLeft s := by
      rw [trim, trimRight, ← List.reverse_append, List.takeWhile_append_dropWhile,
        List.reverse_reverse]
    rw [right, trimLeft, List.takeWhile_append_dropWhile]
  · rw [List.all_reverse]
    exact List.all_takeWhile

theorem words_dropReturn (s : Text) : words (dropReturn s) = words s := by
  rw [dropReturn]
  split
  · next last =>
    rcases List.getLast?_eq_some_iff.mp last with ⟨front, rfl⟩
    rw [List.dropLast_concat, words_append_gap (by decide)]
  · rfl

theorem flatMap_words_linesOfFields (xs : List Text) :
    (linesOfFields xs).flatMap words = xs.flatMap words := by
  induction xs with
  | nil => rfl
  | cons x xs ih =>
    cases xs with
    | nil =>
      rw [linesOfFields]
      split
      · next empty => rw [List.isEmpty_iff.mp empty]; rfl
      · rfl
    | cons y ys =>
      have first : linesOfFields (x :: y :: ys) = dropReturn x :: linesOfFields (y :: ys) := rfl
      rw [first, List.flatMap_cons, words_dropReturn, ih]
      rfl

theorem flatMap_words_lines (s : Text) : (lines s).flatMap words = words s := by
  have blank : isBlank '\n' = true := by decide
  rw [lines, flatMap_words_linesOfFields, ← words_joinWith blank (fields (· == '\n') s),
    joinWith_fields]

theorem prefix_iff_first {sep : Char → Bool} {p s f : Text} {fs : List Text}
    (solid : ∀ c ∈ p, sep c = false) (cut : fields sep s = f :: fs) : p <+: s ↔ p <+: f := by
  induction s generalizing p f fs with
  | nil =>
    cases cut
    rfl
  | cons c s ih =>
    cases p with
    | nil => simp
    | cons d p =>
      rw [List.forall_mem_cons] at solid
      by_cases separates : sep c = true
      · rw [fields, if_pos separates] at cut
        cases cut
        have other : d ≠ c := by
          rintro rfl
          rw [separates] at solid
          cases solid.1
        simp [List.cons_prefix_cons, other]
      · rcases List.exists_cons_of_ne_nil (fields_ne_nil sep s) with ⟨g, gs, later⟩
        rw [fields, if_neg separates, later] at cut
        cases cut
        rw [List.cons_prefix_cons, List.cons_prefix_cons, ih solid.2 later]

/-- What has no separating character stands within one field. -/
theorem infix_iff_fields {sep : Char → Bool} {p : Text} (given : p ≠ [])
    (solid : ∀ c ∈ p, sep c = false) (s : Text) : p <:+: s ↔ ∃ f ∈ fields sep s, p <:+: f := by
  induction s with
  | nil => simp [fields]
  | cons c s ih =>
    rcases List.exists_cons_of_ne_nil (fields_ne_nil sep s) with ⟨g, gs, later⟩
    by_cases separates : sep c = true
    · have cut : fields sep (c :: s) = [] :: fields sep s := by rw [fields, if_pos separates]
      rw [List.infix_cons_iff, prefix_iff_first solid cut, ih, cut]
      simp [given]
    · have cut : fields sep (c :: s) = (c :: g) :: gs := by
        rw [fields, if_neg separates, later]
      rw [List.infix_cons_iff, prefix_iff_first solid cut, ih, cut, later]
      simp only [List.mem_cons, exists_eq_or_imp, List.infix_cons_iff, or_assoc]

theorem infix_iff_words {p : Text} (solid : Solid p) (s : Text) :
    p <:+: s ↔ ∃ w ∈ words s, p <:+: w := by
  rw [infix_iff_fields solid.1 solid.2]
  constructor
  · intro found
    rcases found with ⟨f, member, inside⟩
    have given : f ≠ [] := by
      rintro rfl
      exact solid.1 (List.eq_nil_of_infix_nil inside)
    exact ⟨f, List.mem_filter.mpr ⟨member, by simpa using given⟩, inside⟩
  · intro found
    rcases found with ⟨w, member, inside⟩
    exact ⟨w, (List.mem_filter.mp member).1, inside⟩

theorem Solid.infix_congr {p s t : Text} (solid : Solid p) (same : words s = words t) :
    p <:+: s ↔ p <:+: t := by
  rw [infix_iff_words solid, infix_iff_words solid, same]

end ProofDesk.Text
