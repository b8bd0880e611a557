import ProofDesk.Limits.CheckerState
import ProofDesk.Proofs.Text.Words

/-!
Proof states as a checker may print them.  An entry of the local context is a line of words, and so
is the goal, but any space in it may be replaced by a line break with indentation behind it.  What
is read from a state does not depend on where its lines are broken.
-/

namespace ProofDesk.Limits

open Text (isBlank Solid Tidy lines joinWith pieces setOff)

/-- Names in the local context, and the words of their type. -/
structure StateEntry where
  names : List Text
  type : List Text
  named : names ≠ []
  typed : type ≠ []
  solidNames : ∀ x ∈ names, Solid x
  solidType : ∀ w ∈ type, Solid w
  noColon : [':'] ∉ names
  noGoal : ∀ x ∈ names.head?, x.head? ≠ some '⊢'

namespace StateEntry

def words (e : StateEntry) : List Text := e.names ++ [':'] :: e.type

def text (e : StateEntry) : Text := joinWith [' '] e.words

end StateEntry

inductive LineBreak : Text → Prop
  | feed : LineBreak ['\n']
  | returnFeed : LineBreak ['\r', '\n']

structure Indentation (gap : Text) : Prop where
  given : gap ≠ []
  blank : gap.all isBlank = true
  unbroken : '\n' ∉ gap

/-- Words that are printed with spaces between them, or with line breaks and indentation. -/
inductive Wraps : List Text → Text → Prop
  | word {w : Text} (solid : Solid w) : Wraps [w] w
  | space {w t : Text} {ws : List Text} (solid : Solid w) (rest : Wraps ws t) :
    Wraps (w :: ws) (w ++ ' ' :: t)
  | wrap {w b gap t : Text} {ws : List Text} (solid : Solid w) (ends : LineBreak b)
    (indented : Indentation gap) (rest : Wraps ws t) : Wraps (w :: ws) (w ++ (b ++ (gap ++ t)))

/-- A printed state: entries, each on lines of its own, and then the words of the goal. -/
inductive Shows : List StateEntry → List Text → Text → Prop
  | goal {ws : List Text} {t : Text} (wraps : Wraps (Formal.turnstile :: ws) t) : Shows [] ws t
  | entry {e : StateEntry} {es : List StateEntry} {ws : List Text} {t b s : Text}
    (wraps : Wraps e.words t) (ends : LineBreak b) (rest : Shows es ws s) :
    Shows (e :: es) ws (t ++ (b ++ s))

structure Unbroken (p : Text) : Prop where
  given : p ≠ []
  noFeed : '\n' ∉ p
  noReturn : p.getLast? ≠ some '\r'

theorem Unbroken.of_word {before w : Text} (noFeed : '\n' ∉ before) (solid : Solid w) :
    Unbroken (before ++ w) where
  given := List.append_ne_nil_of_right_ne_nil _ solid.1
  noFeed := List.not_mem_append noFeed solid.tidy.newline_not_mem
  noReturn := by
    intro last
    rw [List.getLast?_append, Option.or_of_isSome (by simpa using solid.1)] at last
    have blank := solid.tidy.solid_last last
    cases blank

/-- What stands behind a line, and the lines in it. -/
inductive Behind : Text → List Text → Prop
  | nothing : Behind [] []
  | lines {b : Text} (ends : LineBreak b) (s : Text) : Behind (b ++ s) (lines s)

theorem lines_append_feed {p : Text} (noFeed : '\n' ∉ p) (s : Text) :
    lines (p ++ '\n' :: s) = Text.dropReturn p :: lines s := by
  rcases List.exists_cons_of_ne_nil (Text.fields_ne_nil (· == '\n') s) with ⟨f, fs, shape⟩
  rw [lines, Text.fields_append rfl, Text.fields_of_not_mem noFeed, lines, shape]
  rfl

theorem Unbroken.lines_append {p rest : Text} {ls : List Text} (line : Unbroken p)
    (behind : Behind rest ls) : lines (p ++ rest) = p :: ls := by
  cases behind with
  | nothing =>
    rw [List.append_nil, lines, Text.fields_of_not_mem line.noFeed, Text.linesOfFields, if_neg]
    simpa using line.given
  | lines ends s =>
    cases ends with
    | feed =>
      have kept : Text.dropReturn p = p := by
        rw [Text.dropReturn]
        split
        · next last => exact absurd last line.noReturn
        · rfl
      have whole := lines_append_feed line.noFeed s
      rw [kept] at whole
      exact whole
    | returnFeed =>
      have dropped : Text.dropReturn (p ++ ['\r']) = p := by simp [Text.dropReturn]
      have noFeed : '\n' ∉ p ++ ['\r'] := List.not_mem_append line.noFeed (by decide)
      have whole := lines_append_feed noFeed s
      rw [dropped, List.append_assoc] at whole
      exact whole

theorem Wraps.ne_nil {ws : List Text} {t : Text} (wraps : Wraps ws t) : ws ≠ [] := by
  cases wraps <;> exact List.cons_ne_nil _ _

def added (more : List Text) : Text := more.flatMap fun line => ' ' :: Text.trim line

theorem added_cons (line : Text) (more : List Text) :
    added (line :: more) = ' ' :: (Text.trim line ++ added more) := rfl

/-- A wrapped text begins in the line of what is before it.  The lines behind that one are indented,
and the spaces come back when they are joined to it. -/
theorem Wraps.exists_lines {ws : List Text} {t : Text} (wraps : Wraps ws t) :
    ∃ first more, Tidy first ∧ (∀ line ∈ more, isIndented line = true) ∧
      first ++ added more = joinWith [' '] ws ∧
      ∀ before rest ls, '\n' ∉ before → Behind rest ls →
        lines (before ++ (t ++ rest)) = (before ++ first) :: (more ++ ls) := by
  -- what is before the text grows at a space, and is the indentation behind a break
  induction wraps with
  | @word w solid =>
    refine ⟨w, [], solid.tidy, by simp, by simp [added, joinWith], ?_⟩
    intro before rest ls noFeed behind
    rw [← List.append_assoc, (Unbroken.of_word noFeed solid).lines_append behind]
    rfl
  | @space w t ws solid wraps ih =>
    rcases ih with ⟨first, more, tidy, indented, joined, cut⟩
    refine ⟨w ++ ' ' :: first, more, solid.tidy.space tidy, indented, ?_, ?_⟩
    · rw [Text.joinWith_cons_of_ne_nil _ w wraps.ne_nil, ← joined, List.append_assoc,
        List.cons_append]
    · intro before rest ls noFeed behind
      have noFeed' : '\n' ∉ before ++ (w ++ [' ']) :=
        List.not_mem_append noFeed (List.not_mem_append solid.tidy.newline_not_mem (by decide))
      have whole := cut _ rest ls noFeed' behind
      simp only [List.append_assoc, List.cons_append, List.nil_append] at whole ⊢
      exact whole
  | @wrap w b gap t ws solid ends gaps wraps ih =>
    rcases ih with ⟨first, more, tidy, indented, joined, cut⟩
    refine ⟨w, (gap ++ first) :: more, solid.tidy, ?_, ?_, ?_⟩
    · rw [List.forall_mem_cons]
      refine ⟨?_, indented⟩
      rcases List.exists_cons_of_ne_nil gaps.given with ⟨c, gap', rfl⟩
      have blank := gaps.blank
      rw [List.all_cons, Bool.and_eq_true] at blank
      exact blank.1
    · have trimmed : Text.trim (gap ++ first) = first := by
        rw [Text.trim, Text.trimLeft_append_blank gaps.blank]
        exact tidy.trim_eq
      rw [Text.joinWith_cons_of_ne_nil _ w wraps.ne_nil, ← joined, added_cons, trimmed]
    · intro before rest ls noFeed behind
      have later := cut gap rest ls gaps.unbroken behind
      have here := (Unbroken.of_word noFeed solid).lines_append (.lines ends (gap ++ (t ++ rest)))
      rw [later] at here
      simp only [List.append_assoc] at here ⊢
      exact here

theorem continuation_indented {line : Text} (indented : isIndented line = true) (ls : List Text) :
    continuation (line :: ls) =
      (' ' :: (Text.trim line ++ (continuation ls).1), (continuation ls).2) := by
  simp [continuation, indented]

theorem continuation_outside {line : Text} (outside : isIndented line = false) (ls : List Text) :
    continuation (line :: ls) =
      ([], (Text.trim line ++ (continuation ls).1) :: (continuation ls).2) := by
  simp [continuation, outside]

theorem continuation_append {more : List Text} (indented : ∀ line ∈ more, isIndented line = true)
    (ls : List Text) : continuation (more ++ ls) =
      (added more ++ (continuation ls).1, (continuation ls).2) := by
  induction more with
  | nil => rfl
  | cons line more ih =>
    rw [List.forall_mem_cons] at indented
    rw [List.cons_append, continuation_indented indented.1, ih indented.2, added_cons,
      List.cons_append, List.append_assoc]

theorem Wraps.continuation_lines {ws : List Text} {t rest : Text} {ls : List Text}
    (wraps : Wraps ws t) (behind : Behind rest ls) (next : (continuation ls).1 = []) :
    continuation (lines (t ++ rest)) = ([], joinWith [' '] ws :: (continuation ls).2) := by
  rcases wraps.exists_lines with ⟨first, more, tidy, indented, joined, cut⟩
  have whole := cut [] rest ls List.not_mem_nil behind
  have outside : isIndented first = false := by
    rcases List.exists_cons_of_ne_nil tidy.ne_nil with ⟨c, first, rfl⟩
    exact tidy.solid_head rfl
  rw [List.nil_append, List.nil_append] at whole
  rw [whole, continuation_outside outside, continuation_append indented, next, List.append_nil,
    tidy.trim_eq, joined]

variable {es : List StateEntry} {goal : List Text} {state : Text}

theorem Shows.continuation_lines (shown : Shows es goal state) : continuation (lines state) =
    ([], es.map StateEntry.text ++ [joinWith [' '] (Formal.turnstile :: goal)]) := by
  induction shown with
  | goal wraps =>
    have whole := wraps.continuation_lines .nothing rfl
    rw [List.append_nil] at whole
    exact whole
  | @entry e es goal t b s wraps ends _ ih =>
    have next : (continuation (lines s)).1 = [] := by rw [ih]
    rw [wraps.continuation_lines (.lines ends s) next, ih]
    rfl

theorem stateEntries_eq {entries : List Text}
    (read : continuation (lines state) = ([], entries)) : stateEntries state = entries := by
  rw [stateEntries]
  cases whole : lines state with
  | nil =>
    rw [whole] at read
    exact congrArg Prod.snd read
  | cons line ls =>
    rw [whole] at read
    by_cases indented : isIndented line = true
    · rw [continuation_indented indented] at read
      cases congrArg Prod.fst read
    · rw [continuation_outside (eq_false_of_ne_true indented)] at read
      exact congrArg Prod.snd read

theorem Shows.stateEntries_eq (shown : Shows es goal state) : stateEntries state =
    es.map StateEntry.text ++ [joinWith [' '] (Formal.turnstile :: goal)] :=
  Limits.stateEntries_eq shown.continuation_lines

theorem entryType?_goal (x : Text) (goal : List Text) :
    entryType? x (joinWith [' '] (Formal.turnstile :: goal)) = none := by
  have begins : Formal.turnstile.isPrefixOf (joinWith [' '] (Formal.turnstile :: goal)) = true := by
    rw [List.isPrefixOf_iff_prefix]
    by_cases alone : goal = []
    · exact ⟨[], by simp [alone, joinWith]⟩
    · rw [Text.joinWith_cons_of_ne_nil _ _ alone]
      exact List.prefix_append _ _
  rw [entryType?, if_pos begins]

namespace StateEntry

theorem text_eq (e : StateEntry) :
    e.text = joinWith [' '] e.names ++ (setOff [':'] ++ joinWith [' '] e.type) := by
  rw [text, words, Text.joinWith_append e.named (List.cons_ne_nil _ _),
    Text.joinWith_cons_of_ne_nil _ _ e.typed]
  rfl

theorem not_turnstile (e : StateEntry) : Formal.turnstile.isPrefixOf e.text = false := by
  rcases List.exists_cons_of_ne_nil e.named with ⟨x, xs, shape⟩
  rcases List.exists_cons_of_ne_nil (e.solidNames x (by simp [shape])).1 with ⟨c, x', rfl⟩
  have other : c ≠ '⊢' := by
    have first := e.noGoal (c :: x') (by simp [shape])
    simpa using first
  have begins : e.text = c :: (x' ++ ' ' :: joinWith [' '] (xs ++ [':'] :: e.type)) := by
    rw [text, words, shape, List.cons_append, Text.joinWith_cons_of_ne_nil _ _ (by simp),
      List.cons_append]
  rw [Bool.eq_false_iff, begins]
  intro turnstile
  have first := List.cons_prefix_cons.mp (List.isPrefixOf_iff_prefix.mp turnstile)
  exact other first.1.symm

theorem without_colon (e : StateEntry) : Text.Without [[':']] (joinWith [' '] e.names) := by
  have unspaced : ∀ x ∈ e.names, ' ' ∉ x := by
    intro x member space
    have blank := (e.solidNames x member).2 ' ' space
    cases blank
  intro w member
  rw [pieces, Text.fields_joinWith e.named unspaced] at member
  intro colon
  rw [List.mem_singleton.mp colon] at member
  exact e.noColon member

theorem entryType?_text (e : StateEntry) (x : Text) : entryType? x e.text =
    if e.names.contains x then some (joinWith " " e.type) else none := by
  have cut : Text.splitFirst? " : " e.text =
      some (joinWith [' '] e.names, joinWith [' '] e.type) := by
    rw [text_eq]
    exact Text.splitFirst?_setOff (by decide) e.without_colon
  have names : Text.words (joinWith [' '] e.names) = e.names :=
    Text.words_joinWith_solid e.solidNames
  have type : Text.collapse (joinWith [' '] e.type) = joinWith [' '] e.type :=
    (Text.tidy_joinWith e.typed e.solidType).collapse_eq
  rw [entryType?, e.not_turnstile, if_neg (by decide), cut, Option.bind_some]
  dsimp only
  rw [names, type]
  rfl

end StateEntry

/-- However a state is wrapped, the type of a name is that of the first entry with this name, on one
line, and nothing else in the state has a type. -/
theorem typeOf?_eq_of_shows (shown : Shows es goal state) (x : Text) : typeOf? state x =
    (es.find? fun e => e.names.contains x).map fun e => joinWith " " e.type := by
  rw [typeOf?, shown.stateEntries_eq, List.findSome?_append, List.findSome?_singleton,
    entryType?_goal, Option.or_none]
  clear shown
  induction es with
  | nil => rfl
  | cons e es ih =>
    rw [List.map_cons, List.findSome?_cons, e.entryType?_text, List.find?_cons]
    by_cases named : x ∈ e.names
    · simp [named]
    · simp [named, ih]

/-- A line of the goal may look like an entry. -/
theorem typeOf?_eq_of_shows_lookalike :
    ∃ es goal, Shows es goal "a\n  b :\r\n\tℕ → ℝ\n⊢ ∃\n  N : ℕ" ∧
      typeOf? "a\n  b :\r\n\tℕ → ℝ\n⊢ ∃\n  N : ℕ" "b" = some "ℕ → ℝ" ∧
      typeOf? "a\n  b :\r\n\tℕ → ℝ\n⊢ ∃\n  N : ℕ" "N" = none := by
  let e : StateEntry := ⟨["a", "b"], ["ℕ", "→", "ℝ"], by decide, by decide, by decide, by decide,
    by decide, by decide⟩
  have spaces : Indentation "  " := ⟨by decide, by decide, by decide⟩
  have tab : Indentation "\t" := ⟨by decide, by decide, by decide⟩
  have type : Wraps ["ℕ", "→", "ℝ"] "ℕ → ℝ" :=
    .space (by decide) (.space (by decide) (.word (by decide)))
  have entry : Wraps e.words "a\n  b :\r\n\tℕ → ℝ" :=
    .wrap (by decide) .feed spaces
      (.space (by decide) (.wrap (by decide) .returnFeed tab type))
  have goal : Wraps ["⊢", "∃", "N", ":", "ℕ"] "⊢ ∃\n  N : ℕ" :=
    .space (by decide) (.wrap (by decide) .feed spaces
      (.space (by decide) (.space (by decide) (.word (by decide)))))
  have shown : Shows [e] ["∃", "N", ":", "ℕ"] "a\n  b :\r\n\tℕ → ℝ\n⊢ ∃\n  N : ℕ" :=
    .entry entry .feed (.goal goal)
  exact ⟨_, _, shown, typeOf?_eq_of_shows shown "b", typeOf?_eq_of_shows shown "N"⟩

end ProofDesk.Limits
