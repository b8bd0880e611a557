import ProofDesk.Limits.Preparation
import ProofDesk.Proofs.Text.Spacing

namespace ProofDesk.Limits

open Text (isBlank isName isName_iff isBlank_of_isWord Tidy not_mem_of_all)

theorem dropEmptyMath_cons {c : Char} {s : Text} (single : c = '$' → s.head? ≠ some '$') :
    dropEmptyMath (c :: s) = c :: dropEmptyMath s := by
  rw [dropEmptyMath.eq_def]
  split
  · next same =>
    obtain ⟨rfl, rfl⟩ := List.cons.inj same
    exact absurd rfl (single rfl)
  · next same =>
    obtain ⟨rfl, rfl⟩ := List.cons.inj same
    rfl
  · next same => cases same

theorem dropEmptyMath_append {c : Char} (other : c ≠ '$') (l r : Text) :
    dropEmptyMath (l ++ c :: r) = dropEmptyMath l ++ c :: dropEmptyMath r := by
  fun_induction dropEmptyMath l with
  | case1 l ih => exact ih
  | case2 d l single ih =>
    have first : dropEmptyMath (d :: (l ++ c :: r)) = d :: dropEmptyMath (l ++ c :: r) := by
      apply dropEmptyMath_cons
      rintro rfl next
      cases l with
      | nil => exact other (Option.some.inj next)
      | cons e l =>
        cases Option.some.inj next
        exact single l rfl rfl
    rw [List.cons_append, first, ih, List.cons_append]
  | case3 => exact dropEmptyMath_cons fun same => absurd same other

theorem dropEmptyMath_append_of_not_mem {l : Text} (absent : '$' ∉ l) (r : Text) :
    dropEmptyMath (l ++ r) = l ++ dropEmptyMath r := by
  induction l with
  | nil => rfl
  | cons c l ih =>
    obtain ⟨other, absent⟩ := not_or.mp (mt List.mem_cons.mpr absent)
    rw [List.cons_append, dropEmptyMath_cons fun same => absurd same.symm other, ih absent,
      List.cons_append]

theorem dropEmptyMath_of_not_mem {s : Text} (absent : '$' ∉ s) : dropEmptyMath s = s := by
  simpa [dropEmptyMath] using dropEmptyMath_append_of_not_mem absent []

section Commands

variable {c : Char}

theorem separateCommands_cons {s : Text} (plain : s.head? ≠ some '\\') :
    separateCommands (c :: s) = c :: separateCommands s := by
  rw [separateCommands.eq_def]
  split
  · next same =>
    obtain ⟨rfl, rfl⟩ := List.cons.inj same
    exact absurd rfl plain
  · next same =>
    obtain ⟨rfl, rfl⟩ := List.cons.inj same
    rfl
  · next same => cases same

theorem separateCommands_joined (joined : (isBlank c || c == '$') = true) (s : Text) :
    separateCommands (c :: s) = c :: separateCommands s := by
  by_cases plain : s.head? = some '\\'
  · obtain ⟨s, rfl⟩ := List.head?_eq_some_iff.mp plain
    rw [separateCommands, if_pos joined]
  · exact separateCommands_cons plain

theorem separateCommands_apart (apart : (isBlank c || c == '$') = false) (s : Text) :
    separateCommands (c :: '\\' :: s) = c :: ' ' :: '\\' :: separateCommands s := by
  rw [separateCommands, if_neg (by rw [apart]; decide)]

theorem separateCommands_append (joined : (isBlank c || c == '$') = true) (l r : Text) :
    separateCommands (l ++ c :: r) = separateCommands l ++ c :: separateCommands r := by
  have other : c ≠ '\\' := by
    rintro rfl
    revert joined
    decide
  fun_induction separateCommands l with
  | case1 d l blank ih => exact (separateCommands_joined blank _).trans (congrArg (d :: ·) ih)
  | case2 d l apart ih =>
    have separated := separateCommands_apart (eq_false_of_ne_true apart) (l ++ c :: r)
    exact separated.trans (congrArg (d :: ' ' :: '\\' :: ·) ih)
  | case3 d l plain ih =>
    have first : separateCommands (d :: (l ++ c :: r)) = d :: separateCommands (l ++ c :: r) := by
      apply separateCommands_cons
      intro next
      cases l with
      | nil => exact other (Option.some.inj next)
      | cons e l =>
        cases Option.some.inj next
        exact plain l rfl
    rw [List.cons_append, first, ih, List.cons_append]
  | case4 => exact separateCommands_joined joined r

end Commands

/-- A word whose first character alone may begin a command. -/
structure Plain (w : Text) : Prop where
  given : w ≠ []
  solid : w.all (fun c => !(isBlank c || c == '$')) = true
  plain : '\\' ∉ w.tail

instance (w : Text) : Decidable (Plain w) :=
  decidable_of_iff (w ≠ [] ∧ w.all (fun c => !(isBlank c || c == '$')) = true ∧ '\\' ∉ w.tail)
    ⟨fun ⟨given, solid, plain⟩ => ⟨given, solid, plain⟩,
      fun word => ⟨word.given, word.solid, word.plain⟩⟩

theorem separateCommands_of_not_mem_tail {s : Text} (plain : '\\' ∉ s.tail) :
    separateCommands s = s := by
  induction s with
  | nil => rfl
  | cons c s ih =>
    rw [List.tail_cons] at plain
    have first : s.head? ≠ some '\\' := fun next => plain (List.mem_of_head? next)
    rw [separateCommands_cons first, ih fun member => plain (List.mem_of_mem_tail member)]

theorem Plain.separateCommands_append {w u : Text} (word : Plain w) (single : u.head? ≠ some '\\') :
    separateCommands (w ++ '\\' :: u) = w ++ ' ' :: separateCommands ('\\' :: u) := by
  obtain ⟨given, solid, plain⟩ := word
  induction w with
  | nil => exact absurd rfl given
  | cons c w ih =>
    rw [List.all_cons, Bool.and_eq_true] at solid
    rw [List.tail_cons] at plain
    cases w with
    | nil =>
      have apart : (isBlank c || c == '$') = false := by simpa using solid.1
      rw [List.singleton_append, separateCommands_apart apart, separateCommands_cons single]
      rfl
    | cons d w =>
      have first : (d :: w ++ '\\' :: u).head? ≠ some '\\' := by
        intro next
        cases Option.some.inj next
        exact plain List.mem_cons_self
      rw [List.cons_append, separateCommands_cons first, ih (List.cons_ne_nil _ _) solid.2
        fun member => plain (List.mem_of_mem_tail member)]
      rfl

theorem Plain.unblank {w : Text} (word : Plain w) : ∀ c ∈ w, isBlank c = false := by
  intro c member
  have solid := List.all_eq_true.mp word.solid c member
  simp only [Bool.not_eq_true', Bool.or_eq_false_iff] at solid
  exact solid.1

theorem Plain.dollar_not_mem {w : Text} (word : Plain w) : '$' ∉ w :=
  not_mem_of_all word.solid (by decide)

theorem plain_of_isName {x : Text} (valid : isName x = true) : Plain x := by
  obtain ⟨given, word⟩ := isName_iff.mp valid
  refine ⟨given, ?_, fun member => not_mem_of_all word (by decide) (List.mem_of_mem_tail member)⟩
  rw [List.all_eq_true] at word ⊢
  intro c member
  have other : c ≠ '$' := by
    rintro rfl
    exact absurd (word _ member) (by decide)
  simp [isBlank_of_isWord (word c member), other]

theorem Plain.append {w u : Text} (word : Plain w)
    (solid : u.all (fun c => !(isBlank c || c == '$')) = true) (absent : '\\' ∉ u) :
    Plain (w ++ u) := by
  refine ⟨List.append_ne_nil_of_left_ne_nil word.given _, ?_, ?_⟩
  · rw [List.all_append, word.solid, solid, Bool.true_and]
  · rw [List.tail_append_of_ne_nil word.given, List.mem_append, not_or]
    exact ⟨word.plain, absent⟩

/-- A tidy text without empty content, and what it becomes when commands are separated. -/
structure Prepares (s t : Text) : Prop where
  tidy : Tidy s
  kept : dropEmptyMath s = s
  separated : separateCommands s = t
  tidyAfter : Tidy t

namespace Prepares

variable {l r s t w l' r' : Text}

theorem prepare_eq (prepares : Prepares s t) : prepare s = t := by
  have given : s.isEmpty = false := by simpa using prepares.tidy.ne_nil
  have one : wordedLines s = [s] := by
    rw [wordedLines, prepares.tidy.lines_eq, List.map_singleton, prepares.tidy.collapse_eq]
    simp [given]
  rw [prepare, prepares.tidy.trim_eq, prepares.kept, one, Text.joinWith, List.intercalate_singleton,
    prepares.separated]

theorem space (left : Prepares l l') (right : Prepares r r') :
    Prepares (l ++ ' ' :: r) (l' ++ ' ' :: r') where
  tidy := .space left.tidy right.tidy
  kept := by rw [dropEmptyMath_append (by decide), left.kept, right.kept]
  separated := by rw [separateCommands_append (by decide), left.separated, right.separated]
  tidyAfter := .space left.tidyAfter right.tidyAfter

theorem word (word : Plain w) : Prepares w w where
  tidy := .word word.given word.unblank
  kept := dropEmptyMath_of_not_mem word.dollar_not_mem
  separated := separateCommands_of_not_mem_tail word.plain
  tidyAfter := .word word.given word.unblank

theorem attach (word : Plain w) (single : s.head? ≠ some '\\') (prepares : Prepares ('\\' :: s) t) :
    Prepares (w ++ '\\' :: s) (w ++ ' ' :: t) where
  tidy := prepares.tidy.attach word.unblank
  kept := by rw [dropEmptyMath_append_of_not_mem word.dollar_not_mem, prepares.kept]
  separated := by rw [word.separateCommands_append single, prepares.separated]
  tidyAfter := .space (.word word.given word.unblank) prepares.tidyAfter

theorem dollar_solid : ∀ c ∈ ['$'], isBlank c = false := List.forall_mem_singleton.mpr (by decide)

theorem enclosed (prepares : Prepares s t) (absent : '$' ∉ s) :
    Prepares ("$" ++ (s ++ "$")) ("$" ++ (t ++ "$")) where
  tidy := (prepares.tidy.attachEnd dollar_solid).attach dollar_solid
  kept := by
    have single : (s ++ ['$']).head? ≠ some '$' := by
      obtain ⟨c, s, rfl⟩ := List.exists_cons_of_ne_nil prepares.tidy.ne_nil
      intro next
      cases Option.some.inj next
      exact absent List.mem_cons_self
    have shape : (("$" : Text) ++ (s ++ "$")) = '$' :: (s ++ ['$']) := rfl
    rw [shape, dropEmptyMath_cons fun _ => single, dropEmptyMath_append_of_not_mem absent]
    rfl
  separated := by
    have shape (u : Text) : (("$" : Text) ++ (u ++ "$")) = '$' :: (u ++ '$' :: []) := rfl
    rw [shape, shape, separateCommands_joined (by decide), separateCommands_append (by decide),
      prepares.separated]
    rfl
  tidyAfter := (prepares.tidyAfter.attachEnd dollar_solid).attach dollar_solid

theorem name {x : Text} (valid : isName x = true) : Prepares x x := .word (plain_of_isName valid)

theorem joined {ws : List Text} (given : ws ≠ []) (words : ∀ w ∈ ws, Plain w) :
    Prepares (Text.joinWith [' '] ws) (Text.joinWith [' '] ws) := by
  induction ws with
  | nil => exact absurd rfl given
  | cons w ws ih =>
    obtain ⟨first, rest⟩ := List.forall_mem_cons.mp words
    cases ws with
    | nil =>
      rw [Text.joinWith, List.intercalate_singleton]
      exact .word first
    | cons v ws =>
      rw [Text.joinWith_cons_cons]
      exact .space (.word first) (ih (List.cons_ne_nil _ _) rest)

theorem phrase (given : Text.words s ≠ []) (words : ∀ w ∈ Text.words s, Plain w)
    (tidy : Text.joinWith [' '] (Text.words s) = s) : Prepares s s := by
  have whole := Prepares.joined given words
  rw [tidy] at whole
  exact whole

end Prepares
end ProofDesk.Limits
