import ProofDesk.Limits.Session
import ProofDesk.Proofs.Limits.Preparation
import ProofDesk.Proofs.Text.Words

/-!
What preparation leaves of any text.  Its lines are tidy and there is no empty content; it would be
left alone by another preparation if each backslash in it stands apart.  That fails only where a
character has two backslashes behind it: the second one stays next to the first, since the first has
already been separated.  A second preparation separates it.
-/

namespace ProofDesk.Limits

open Text (isBlank Tidy Solid words lines fields joinWith)

/-- What preparation makes of the blanks and of the empty content of a text. -/
structure Neat (t : Text) : Prop where
  noEmptyMath : ¬['$', '$'] <:+: t
  noEmptyLine : t ≠ [] → ∀ line ∈ fields (· == '\n') t, line ≠ []
  lineBegins : ∀ line ∈ fields (· == '\n') t, ∀ c, line.head? = some c → isBlank c = false
  lineEnds : ∀ line ∈ fields (· == '\n') t, ∀ c, line.getLast? = some c → isBlank c = false
  singleSpaces : ¬[' ', ' '] <:+: t
  noOtherBlank : ∀ c ∈ t, isBlank c = true → c = ' ' ∨ c = '\n'

/-- Backslashes stand at the beginning, behind a blank or behind a dollar sign. -/
def Separated (t : Text) : Prop := ∀ c, [c, '\\'] <:+: t → isBlank c = true ∨ c = '$'

/-- Two backslashes have another character before them, neither a blank nor a dollar sign. -/
def Crowded (t : Text) : Prop :=
  ∃ c, isBlank c = false ∧ c ≠ '$' ∧ [c, '\\', '\\'] <:+: t

section Neighbours

variable {a b c : Char} {s : Text}

theorem singleton_prefix_iff : [a] <+: s ↔ s.head? = some a := by
  cases s with
  | nil => simp
  | cons d s => simp [List.cons_prefix_cons, eq_comm]

theorem pair_infix_cons : [a, b] <:+: c :: s ↔ (a = c ∧ s.head? = some b) ∨ [a, b] <:+: s := by
  rw [List.infix_cons_iff, List.cons_prefix_cons, singleton_prefix_iff]

theorem unpaired_cons : ¬['$', '$'] <:+: c :: s ↔
    (c = '$' → s.head? ≠ some '$') ∧ ¬['$', '$'] <:+: s := by
  rw [pair_infix_cons, not_or, not_and, eq_comm]

theorem separated_cons : Separated (c :: s) ↔
    (s.head? = some '\\' → isBlank c = true ∨ c = '$') ∧ Separated s := by
  simp only [Separated, pair_infix_cons, or_imp, forall_and, and_imp, forall_eq]

theorem head?_of_doubled (doubled : [a, a] <+: s) : s.head? = some a := by
  rcases doubled with ⟨r, rfl⟩
  rfl

theorem crowded_cons : Crowded (c :: s) ↔
    (isBlank c = false ∧ c ≠ '$' ∧ ['\\', '\\'] <+: s) ∨ Crowded s := by
  constructor
  · intro crowded
    rcases crowded with ⟨d, solid, other, inside⟩
    rcases List.infix_cons_iff.mp inside with here | later
    · rcases List.cons_prefix_cons.mp here with ⟨rfl, doubled⟩
      exact Or.inl ⟨solid, other, doubled⟩
    · exact Or.inr ⟨d, solid, other, later⟩
  · intro crowded
    rcases crowded with ⟨solid, other, doubled⟩ | ⟨d, solid, other, later⟩
    · exact ⟨c, solid, other, List.infix_cons_iff.mpr
        (Or.inl (List.cons_prefix_cons.mpr ⟨rfl, doubled⟩))⟩
    · exact ⟨d, solid, other, List.infix_cons_iff.mpr (Or.inr later)⟩

theorem not_crowded_nil : ¬Crowded [] := by
  intro crowded
  rcases crowded with ⟨d, _, _, inside⟩
  cases List.eq_nil_of_infix_nil inside

instance decidableCrowded : (t : Text) → Decidable (Crowded t)
  | [] => isFalse not_crowded_nil
  | _ :: s =>
    have := decidableCrowded s
    decidable_of_iff _ crowded_cons.symm

end Neighbours

theorem head?_dropEmptyMath {s : Text} (other : s.head? ≠ some '$') :
    (dropEmptyMath s).head? = s.head? := by
  cases s with
  | nil => rfl
  | cons c s =>
    have different : c ≠ '$' := by simpa using other
    rw [dropEmptyMath_cons fun same => absurd same different]
    rfl

theorem unpaired_dropEmptyMath (s : Text) : ¬['$', '$'] <:+: dropEmptyMath s := by
  fun_induction dropEmptyMath s with
  | case1 s ih => exact ih
  | case2 c s single ih =>
    rw [unpaired_cons]
    refine ⟨?_, ih⟩
    intro dollar
    have other : s.head? ≠ some '$' := by
      intro next
      rcases List.head?_eq_some_iff.mp next with ⟨s', rfl⟩
      exact single s' dollar rfl
    rw [head?_dropEmptyMath other]
    exact other
  | case3 => simp

theorem dropEmptyMath_of_unpaired {s : Text} (unpaired : ¬['$', '$'] <:+: s) :
    dropEmptyMath s = s := by
  induction s with
  | nil => rfl
  | cons c s ih =>
    rw [unpaired_cons] at unpaired
    rw [dropEmptyMath_cons unpaired.1, ih unpaired.2]

theorem dropEmptyMath_append_blank {gap : Text} (blank : gap.all isBlank = true) (s : Text) :
    dropEmptyMath (s ++ gap) = dropEmptyMath s ++ gap := by
  cases gap with
  | nil => simp
  | cons c gap =>
    have other : '$' ∉ c :: gap := Text.not_mem_of_all blank (by decide)
    rw [List.mem_cons, not_or] at other
    rw [dropEmptyMath_append (Ne.symm other.1), dropEmptyMath_of_not_mem other.2]

theorem words_dropEmptyMath_trim (s : Text) :
    words (dropEmptyMath (Text.trim s)) = words (dropEmptyMath s) := by
  rcases Text.exists_trim s with ⟨front, back, whole, blankFront, blankBack⟩
  have noDollar : '$' ∉ front := Text.not_mem_of_all blankFront (by decide)
  have dropped : dropEmptyMath s = front ++ (dropEmptyMath (Text.trim s) ++ back) := by
    calc dropEmptyMath s = dropEmptyMath (front ++ (Text.trim s ++ back)) := by rw [← whole]
      _ = front ++ dropEmptyMath (Text.trim s ++ back) :=
        dropEmptyMath_append_of_not_mem noDollar _
      _ = front ++ (dropEmptyMath (Text.trim s) ++ back) := by
        rw [dropEmptyMath_append_blank blankBack]
  rw [dropped, Text.words_blank_append blankFront, Text.words_append_gap blankBack]

theorem head?_separateCommands (s : Text) : (separateCommands s).head? = s.head? := by
  fun_cases separateCommands s <;> rfl

theorem separateCommands_ne_nil {s : Text} (given : s ≠ []) : separateCommands s ≠ [] := by
  intro empty
  have same := head?_separateCommands s
  rw [empty] at same
  exact given (List.head?_eq_none_iff.mp same.symm)

theorem separated_separateCommands_iff (s : Text) :
    Separated (separateCommands s) ↔ ¬Crowded s := by
  fun_induction separateCommands s with
  | case1 c s joined ih =>
    have apart : isBlank c = true ∨ c = '$' := by simpa using joined
    rw [separated_cons, crowded_cons, ih]
    grind
  | case2 c s joined ih =>
    have apart : isBlank c = false ∧ c ≠ '$' := by simpa using joined
    have solid : isBlank '\\' = false := by decide
    have space : isBlank ' ' = true := by decide
    have next : ['\\', '\\'] <+: '\\' :: s ↔ s.head? = some '\\' := by
      rw [List.cons_prefix_cons, singleton_prefix_iff, and_iff_right rfl]
    have first : ['\\', '\\'] <+: s → s.head? = some '\\' := head?_of_doubled
    -- what is separated goes on behind the backslash, so a second one stays next to it
    rw [separated_cons, separated_cons, separated_cons, head?_separateCommands, ih, crowded_cons,
      crowded_cons, next]
    grind
  | case3 c s plain ih =>
    have first : s.head? ≠ some '\\' := by
      intro next
      rcases List.head?_eq_some_iff.mp next with ⟨s', rfl⟩
      exact plain s' rfl
    have single : ¬['\\', '\\'] <+: s := mt head?_of_doubled first
    rw [separated_cons, crowded_cons, head?_separateCommands, ih]
    grind
  | case4 => simp [Separated, not_crowded_nil]

theorem not_doubled_separateCommands (s : Text) : ¬['\\', '\\'] <+: separateCommands s := by
  intro doubled
  cases s with
  | nil => simp [separateCommands] at doubled
  | cons c s =>
    by_cases next : s.head? = some '\\'
    · rcases List.head?_eq_some_iff.mp next with ⟨s', rfl⟩
      by_cases joined : (isBlank c || c == '$') = true
      · rw [separateCommands_joined joined, List.cons_prefix_cons] at doubled
        rw [← doubled.1] at joined
        revert joined
        decide
      · rw [separateCommands_apart (eq_false_of_ne_true joined)] at doubled
        simp [List.cons_prefix_cons] at doubled
    · rw [separateCommands_cons next, List.cons_prefix_cons, singleton_prefix_iff,
        head?_separateCommands] at doubled
      exact next doubled.2

theorem not_crowded_separateCommands (s : Text) : ¬Crowded (separateCommands s) := by
  fun_induction separateCommands s with
  | case1 c s joined ih =>
    have apart : isBlank c = true ∨ c = '$' := by simpa using joined
    rw [crowded_cons]
    grind
  | case2 c s _ ih =>
    have doubled := not_doubled_separateCommands s
    have space : isBlank ' ' = true := by decide
    rw [crowded_cons, crowded_cons, crowded_cons, List.cons_prefix_cons]
    grind
  | case3 c s _ ih =>
    rw [crowded_cons, not_or]
    exact ⟨fun crowded => not_doubled_separateCommands s crowded.2.2, ih⟩
  | case4 => exact not_crowded_nil

theorem separateCommands_of_separated {t : Text} (separated : Separated t) :
    separateCommands t = t := by
  induction t with
  | nil => rfl
  | cons c s ih =>
    rw [separated_cons] at separated
    have rest := ih separated.2
    by_cases next : s.head? = some '\\'
    · have joined : (isBlank c || c == '$') = true := by simpa using separated.1 next
      rw [separateCommands_joined joined, rest]
    · rw [separateCommands_cons next, rest]

theorem separateCommands_eq_self_iff {t : Text} : separateCommands t = t ↔ Separated t := by
  constructor
  · intro kept
    have separated := (separated_separateCommands_iff (separateCommands t)).mpr
      (not_crowded_separateCommands t)
    rw [kept, kept] at separated
    exact separated
  · exact separateCommands_of_separated

theorem unpaired_separateCommands {s : Text} (unpaired : ¬['$', '$'] <:+: s) :
    ¬['$', '$'] <:+: separateCommands s := by
  fun_induction separateCommands s with
  | case1 c s _ ih =>
    rw [unpaired_cons] at unpaired
    rw [unpaired_cons, head?_separateCommands]
    exact ⟨unpaired.1, ih unpaired.2⟩
  | case2 c s _ ih =>
    rw [unpaired_cons, unpaired_cons] at unpaired
    rw [unpaired_cons, unpaired_cons, unpaired_cons]
    refine ⟨?_, ?_, ?_, ih unpaired.2.2⟩ <;> simp
  | case3 c s _ ih =>
    rw [unpaired_cons] at unpaired
    rw [unpaired_cons, head?_separateCommands]
    exact ⟨unpaired.1, ih unpaired.2⟩
  | case4 => exact unpaired

theorem tidy_cons {c : Char} {t : Text} (solid : isBlank c = false) (rest : t = [] ∨ Tidy t) :
    Tidy (c :: t) := by
  rcases rest with rfl | tidy
  · exact .word (List.cons_ne_nil _ _) (List.forall_mem_singleton.mpr solid)
  · exact tidy.attach (List.forall_mem_singleton.mpr solid)

theorem tidy_separateCommands_of_solid {s : Text} (solid : ∀ c ∈ s, isBlank c = false) :
    separateCommands s = [] ∨ Tidy (separateCommands s) := by
  fun_induction separateCommands s with
  | case1 c s _ ih =>
    rw [List.forall_mem_cons] at solid
    exact Or.inr (tidy_cons solid.1 (ih solid.2))
  | case2 c s _ ih =>
    rw [List.forall_mem_cons, List.forall_mem_cons] at solid
    have first : Tidy [c] := tidy_cons solid.1 (Or.inl rfl)
    exact Or.inr (first.space (tidy_cons solid.2.1 (ih solid.2.2)))
  | case3 c s _ ih =>
    rw [List.forall_mem_cons] at solid
    exact Or.inr (tidy_cons solid.1 (ih solid.2))
  | case4 => exact Or.inl rfl

theorem tidy_separateCommands {s : Text} (tidy : Tidy s) : Tidy (separateCommands s) := by
  induction tidy with
  | word given solid =>
    exact (tidy_separateCommands_of_solid solid).resolve_left (separateCommands_ne_nil given)
  | space _ _ left right =>
    rw [separateCommands_append (by decide)]
    exact .space left right

theorem separateCommands_joinWith (ls : List Text) :
    separateCommands (joinWith "\n" ls) = joinWith "\n" (ls.map separateCommands) := by
  induction ls with
  | nil => rfl
  | cons l ls ih =>
    cases ls with
    | nil => simp [joinWith]
    | cons l' ls =>
      have shape (x y : Text) (ys : List Text) :
          joinWith "\n" (x :: y :: ys) = x ++ '\n' :: joinWith "\n" (y :: ys) :=
        Text.joinWith_cons_cons '\n' x y ys
      rw [shape, separateCommands_append (by decide), ih]
      exact (shape _ _ _).symm

theorem spaces_unbroken : ∀ c ∈ [' ', ' '], (c == '\n') = false := by simp

/-- Tidy lines without empty content. -/
structure Laid (t : Text) : Prop where
  lines : ∃ ls, (∀ l ∈ ls, Tidy l) ∧ t = joinWith "\n" ls
  unpaired : ¬['$', '$'] <:+: t

namespace Laid

variable {s t : Text}

theorem prepare_eq (laid : Laid t) : prepare t = separateCommands t := by
  rcases laid.lines with ⟨ls, tidy, whole⟩
  have kept : wordedLines t = ls := by
    have collapsed : ls.map Text.collapse = ls := by
      rw [List.map_congr_left fun l member => (tidy l member).collapse_eq, List.map_id']
    rw [wordedLines, whole, Text.lines_joinWith_tidy tidy, collapsed, List.filter_eq_self]
    intro l member
    simpa using (tidy l member).ne_nil
  have trimmed : Text.trim t = t := by rw [whole, Text.trim_joinWith_tidy tidy]
  rw [prepare, trimmed, dropEmptyMath_of_unpaired laid.unpaired, kept, ← whole]

theorem separateCommands (laid : Laid t) : Laid (separateCommands t) := by
  rcases laid.lines with ⟨ls, tidy, whole⟩
  refine ⟨⟨ls.map Limits.separateCommands, ?_, ?_⟩, unpaired_separateCommands laid.unpaired⟩
  · intro l member
    rcases List.mem_map.mp member with ⟨l', listed, rfl⟩
    exact tidy_separateCommands (tidy l' listed)
  · rw [whole, separateCommands_joinWith]

theorem fields_cases (laid : Laid t) :
    t = [] ∨ ∀ line ∈ fields (· == '\n') t, Tidy line := by
  rcases laid.lines with ⟨ls, tidy, rfl⟩
  by_cases given : ls = []
  · rw [given]
    exact Or.inl rfl
  · rw [Text.fields_joinWith_tidy given tidy]
    exact Or.inr tidy

theorem neat (laid : Laid t) : Neat t := by
  rcases laid.fields_cases with rfl | tidy
  · constructor <;> simp [fields]
  · constructor
    · exact laid.unpaired
    · intro _ line member
      exact (tidy line member).ne_nil
    · intro line member c first
      exact (tidy line member).solid_head first
    · intro line member c last
      exact (tidy line member).solid_last last
    · intro double
      rw [Text.infix_iff_fields (List.cons_ne_nil _ _) spaces_unbroken] at double
      rcases double with ⟨line, member, inside⟩
      exact (tidy line member).no_double_space inside
    · intro c member blank
      by_cases newline : c = '\n'
      · exact Or.inr newline
      · have found : ∃ line ∈ fields (· == '\n') t, c ∈ line :=
          Text.mem_fields.mpr ⟨member, beq_false_of_ne newline⟩
        rcases found with ⟨line, listed, inside⟩
        exact Or.inl ((tidy line listed).mem inside blank)

end Laid

theorem Neat.laid {t : Text} (neat : Neat t) : Laid t := by
  refine ⟨?_, neat.noEmptyMath⟩
  by_cases given : t = []
  · exact ⟨[], by simp, given⟩
  refine ⟨fields (· == '\n') t, ?_, (Text.joinWith_fields '\n' t).symm⟩
  intro line member
  apply Text.tidy_of_single_spaces (neat.noEmptyLine given line member)
  · intro c inside blank
    have field := Text.mem_fields.mp ⟨line, member, inside⟩
    have other : c ≠ '\n' := by simpa using field.2
    exact (neat.noOtherBlank c field.1 blank).resolve_right other
  · intro first
    have solid := neat.lineBegins line member ' ' first
    cases solid
  · intro last
    have solid := neat.lineEnds line member ' ' last
    cases solid
  · intro double
    apply neat.singleSpaces
    rw [Text.infix_iff_fields (List.cons_ne_nil _ _) spaces_unbroken]
    exact ⟨line, member, double⟩

/-- A text with its blanks and its empty content gone, but its commands where they were. -/
def laidOut (s : Text) : Text := joinWith "\n" (wordedLines (dropEmptyMath (Text.trim s)))

theorem words_laidOut (s : Text) : words (laidOut s) = words (dropEmptyMath s) := by
  have kept (xs : List Text) : ((xs.map Text.collapse).filter fun line =>
      !line.isEmpty).flatMap words = xs.flatMap words := by
    induction xs with
    | nil => rfl
    | cons x xs ih =>
      rw [List.map_cons, List.filter_cons, List.flatMap_cons, ← ih]
      split
      · rw [List.flatMap_cons, Text.words_collapse]
      · next empty =>
        have none' : Text.collapse x = [] := by simpa using empty
        rw [← Text.words_collapse x, none']
        rfl
  have blank : isBlank '\n' = true := by decide
  calc words (laidOut s) = (wordedLines (dropEmptyMath (Text.trim s))).flatMap words :=
        Text.words_joinWith blank _
    _ = (lines (dropEmptyMath (Text.trim s))).flatMap words := kept _
    _ = words (dropEmptyMath (Text.trim s)) := Text.flatMap_words_lines _
    _ = words (dropEmptyMath s) := words_dropEmptyMath_trim s

theorem laid_laidOut (s : Text) : Laid (laidOut s) := by
  constructor
  · refine ⟨wordedLines (dropEmptyMath (Text.trim s)), ?_, rfl⟩
    intro l member
    rcases List.mem_filter.mp member with ⟨collapsed, given⟩
    rcases List.mem_map.mp collapsed with ⟨line, _, rfl⟩
    exact Text.tidy_collapse (by simpa using given)
  · have dollars : Solid ['$', '$'] := by decide
    rw [dollars.infix_congr (words_laidOut s)]
    exact unpaired_dropEmptyMath s

theorem crowded_laidOut_iff (s : Text) : Crowded (laidOut s) ↔ Crowded (dropEmptyMath s) := by
  have crowd {c : Char} (solid : isBlank c = false) : Solid [c, '\\', '\\'] := by
    refine ⟨List.cons_ne_nil _ _, ?_⟩
    rw [List.forall_mem_cons]
    exact ⟨solid, Text.unblank_of_all (by decide)⟩
  constructor
  · intro crowded
    rcases crowded with ⟨c, solid, other, inside⟩
    exact ⟨c, solid, other, ((crowd solid).infix_congr (words_laidOut s)).mp inside⟩
  · intro crowded
    rcases crowded with ⟨c, solid, other, inside⟩
    exact ⟨c, solid, other, ((crowd solid).infix_congr (words_laidOut s)).mpr inside⟩

theorem laid_prepare (s : Text) : Laid (prepare s) := (laid_laidOut s).separateCommands

theorem separated_prepare_iff (s : Text) : Separated (prepare s) ↔ ¬Crowded (dropEmptyMath s) := by
  rw [← crowded_laidOut_iff]
  exact separated_separateCommands_iff (laidOut s)

theorem prepare_eq_self_iff {t : Text} : prepare t = t ↔ Neat t ∧ Separated t := by
  constructor
  · intro kept
    have laid := laid_prepare t
    rw [kept] at laid
    rw [laid.prepare_eq, separateCommands_eq_self_iff] at kept
    exact ⟨laid.neat, kept⟩
  · intro settled
    rw [settled.1.laid.prepare_eq, separateCommands_of_separated settled.2]

theorem prepare_prepare_iff (s : Text) :
    prepare (prepare s) = prepare s ↔ ¬Crowded (dropEmptyMath s) := by
  rw [prepare_eq_self_iff, separated_prepare_iff, and_iff_right (laid_prepare s).neat]

/-- What has been prepared is prepared at most once more. -/
theorem prepare_twice (s : Text) : prepare (prepare (prepare s)) = prepare (prepare s) := by
  rw [prepare_prepare_iff, dropEmptyMath_of_unpaired (laid_prepare s).unpaired]
  exact not_crowded_separateCommands (laidOut s)

namespace Session

/-- The session does not recognize a text, and says so with another one. -/
def Quotes (z : Session) (s q : Text) : Prop :=
  z.addHypothesis s = .error (.hypothesis q) ∨ z.setGoal s = .error (.goal q) ∨
    z.addLine s = .error (.line q)

/-- No session tells one text from the other. -/
def Alike (q s : Text) : Prop := ∀ z : Session,
  z.addHypothesis q = z.addHypothesis s ∧ z.setGoal q = z.setGoal s ∧ z.addLine q = z.addLine s

variable {z : Session} {s q : Text}

theorem Quotes.eq (quotes : z.Quotes s q) : q = prepare s := by
  rcases quotes with refused | refused | refused
  · rw [addHypothesis] at refused
    split at refused <;> cases refused
    rfl
  · rw [setGoal] at refused
    split at refused <;> cases refused
    rfl
  · rw [addLine] at refused
    split at refused
    · cases refused
    · split at refused <;> cases refused
      rfl

theorem alike_of_prepare (same : prepare q = prepare s) : Alike q s := by
  intro z
  rw [addHypothesis, setGoal, addLine, same]
  exact ⟨rfl, rfl, rfl⟩

theorem Quotes.alike_iff (quotes : z.Quotes s q) :
    Alike q s ↔ prepare (prepare s) = prepare s := by
  constructor
  · intro alike
    have again : z.Quotes q q := by
      rw [Quotes, (alike z).1, (alike z).2.1, (alike z).2.2]
      exact quotes
    rw [← quotes.eq]
    exact again.eq.symm
  · intro settled
    apply alike_of_prepare
    rw [quotes.eq, settled]

end Session

/-- What has been prepared is neat.  Its backslashes stand apart, another preparation leaves it
alone, and it can be put in the place of the text that it was made of, unless two backslashes stood
behind another character in that text. -/
theorem prepare_settled_iff (s : Text) :
    Neat (prepare s) ∧ (prepare s = s ↔ Neat s ∧ Separated s) ∧
    (Separated (prepare s) ↔ ¬Crowded (dropEmptyMath s)) ∧
    (prepare (prepare s) = prepare s ↔ ¬Crowded (dropEmptyMath s)) ∧
    (∀ (z : Session) (q : Text), z.Quotes s q →
      (Session.Alike q s ↔ ¬Crowded (dropEmptyMath s))) ∧
    Separated (prepare (prepare s)) ∧ prepare (prepare (prepare s)) = prepare (prepare s) := by
  refine ⟨(laid_prepare s).neat, prepare_eq_self_iff, separated_prepare_iff s,
    prepare_prepare_iff s, ?_, ?_, prepare_twice s⟩
  · intro z q quotes
    rw [quotes.alike_iff, prepare_prepare_iff]
  · exact (prepare_eq_self_iff.mp (prepare_twice s)).2

/-- A command right behind a word is separated once and for all. -/
theorem prepare_settled_iff_command :
    (Session.start "t").Quotes "Let\\alpha" "Let \\alpha" ∧
      Session.Alike "Let \\alpha" "Let\\alpha" := by
  have quotes : (Session.start "t").Quotes "Let\\alpha" "Let \\alpha" := Or.inl (by decide)
  exact ⟨quotes, ((prepare_settled_iff _).2.2.2.2.1 _ _ quotes).mpr (by decide)⟩

/-- Three backslashes in front of a command are not separated at once. -/
theorem not_prepare_settled : ¬∀ s : Text,
    prepare (prepare s) = prepare s ∧ Neat (prepare s) ∧ Separated (prepare s) ∧
      ∀ (z : Session) (q : Text), z.Quotes s q → Session.Alike q s := by
  intro settled
  have kept := (settled "\\\\\\alpha").1
  revert kept
  decide

end ProofDesk.Limits
