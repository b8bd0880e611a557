import Mathlib.Data.List.Infix
import ProofDesk.Proofs.Text.Filling
import ProofDesk.Proofs.Text.Spacing

/-!
Telling texts apart by the marks in them.  A mark is a text such as a sign or a command; it may be
longer than one character, since some commands differ only further on.  A text that is spelled with
some marks has no mark that begins otherwise than they do.
-/

namespace ProofDesk

namespace Text

/-- Whether there are only word characters where none of the marks begins. -/
def spelled (marks : List Text) : Text → Bool
  | [] => true
  | c :: s => (isWord c || marks.any fun mark => mark.isPrefixOf (c :: s)) && spelled marks s

/-- Whether a mark does not begin as a word, and neither it nor any of the others begins as the
other does. -/
def foreign (marks : List Text) (mark : Text) : Bool :=
  mark.head?.any (fun c => !isWord c) && marks.all fun m => !m.isPrefixOf mark && !mark.isPrefixOf m

variable {marks : List Text} {s l r : Text}

theorem spelled_cons {c : Char} : spelled marks (c :: s) = true ↔
    (isWord c = true ∨ ∃ mark ∈ marks, mark <+: c :: s) ∧ spelled marks s = true := by
  simp [spelled]

theorem spelled_of_all (word : s.all isWord = true) : spelled marks s = true := by
  induction s with
  | nil => rfl
  | cons c s ih =>
    rw [List.all_cons, Bool.and_eq_true] at word
    exact spelled_cons.mpr ⟨Or.inl word.1, ih word.2⟩

theorem spelled_of_isName {x : Text} (valid : isName x = true) : spelled marks x = true :=
  spelled_of_all (isName_iff.mp valid).2

theorem spelled_of_mem {p : Char → Bool} (inside : s.all p = true)
    (known : ∀ c, p c = true → isWord c = true ∨ [c] ∈ marks) : spelled marks s = true := by
  induction s with
  | nil => rfl
  | cons c s ih =>
    rw [List.all_cons, Bool.and_eq_true] at inside
    refine spelled_cons.mpr ⟨?_, ih inside.2⟩
    rcases known c inside.1 with word | mark
    · exact Or.inl word
    · exact Or.inr ⟨[c], mark, s, rfl⟩

/-- A mark at the beginning of what is left of a text is there in a longer text too. -/
theorem spelled_append (left : spelled marks l = true) (right : spelled marks r = true) :
    spelled marks (l ++ r) = true := by
  induction l with
  | nil => exact right
  | cons c l ih =>
    obtain ⟨first, rest⟩ := spelled_cons.mp left
    refine spelled_cons.mpr ⟨?_, ih rest⟩
    rcases first with word | ⟨mark, known, begins⟩
    · exact Or.inl word
    · exact Or.inr ⟨mark, known, begins.trans (List.prefix_append (c :: l) r)⟩

theorem spelled_mono {marks' : List Text} (more : marks ⊆ marks') (known : spelled marks s = true) :
    spelled marks' s = true := by
  induction s with
  | nil => rfl
  | cons c s ih =>
    obtain ⟨first, rest⟩ := spelled_cons.mp known
    refine spelled_cons.mpr ⟨?_, ih rest⟩
    rcases first with word | ⟨mark, member, begins⟩
    · exact Or.inl word
    · exact Or.inr ⟨mark, more member, begins⟩

theorem not_infix_of_spelled {mark : Text} (known : spelled marks s = true)
    (other : foreign marks mark = true) : ¬mark <:+: s := by
  obtain ⟨begins, apart⟩ := Bool.and_eq_true_iff.mp other
  rw [List.all_eq_true] at apart
  induction s with
  | nil =>
    intro inside
    rw [List.infix_nil.mp inside] at begins
    cases begins
  | cons c s ih =>
    obtain ⟨first, rest⟩ := spelled_cons.mp known
    intro inside
    rcases List.infix_cons_iff.mp inside with here | later
    · rcases first with word | ⟨m, member, there⟩
      · obtain ⟨after, whole⟩ := here
        cases mark with
        | nil => cases begins
        | cons d mark =>
          obtain ⟨rfl, -⟩ := List.cons.inj whole
          simp [word] at begins
      · have different := apart m member
        rcases List.prefix_or_prefix_of_prefix there here with before | before <;>
          simp [List.isPrefixOf_iff_prefix.mpr before] at different
    · exact ih rest later

def blanks : List Text := blankPoints.map fun n => [Char.ofNat n]

theorem spelled_of_blank (known : blanks ⊆ marks) (blank : s.all isBlank = true) :
    spelled marks s = true := by
  apply spelled_of_mem blank
  intro c here
  refine Or.inr (known (List.mem_map.mpr ⟨c.toNat, toNat_mem_blankPoints here, ?_⟩))
  rw [Char.ofNat_toNat]

theorem spelled_of_trimLeft (known : blanks ⊆ marks) (inside : spelled marks (trimLeft s) = true) :
    spelled marks s = true := by
  rw [← List.takeWhile_append_dropWhile (p := isBlank) (l := s)]
  exact spelled_append (spelled_of_blank known List.all_takeWhile) inside

theorem spelled_of_trimRight (known : blanks ⊆ marks) (inside : spelled marks (trimRight s) = true) :
    spelled marks s = true := by
  have whole : s = trimRight s ++ (s.reverse.takeWhile isBlank).reverse := by
    rw [trimRight, ← List.reverse_append, List.takeWhile_append_dropWhile, List.reverse_reverse]
  have blank : (s.reverse.takeWhile isBlank).reverse.all isBlank = true := by
    rw [List.all_reverse]
    exact List.all_takeWhile
  rw [whole]
  exact spelled_append inside (spelled_of_blank known blank)

theorem spelled_of_trim (known : blanks ⊆ marks) (inside : spelled marks (trim s) = true) :
    spelled marks s = true :=
  spelled_of_trimLeft known (spelled_of_trimRight known inside)

/-- How texts of some kind are told from others: by the marks that they may have, and by signs of
which they have one. -/
structure Shape where
  marks : List Text
  signs : List Text
  deriving DecidableEq, Repr

namespace Shape

def Has (a : Shape) (s : Text) : Prop :=
  spelled a.marks s = true ∧ ∃ sign ∈ a.signs, sign <:+: s

/-- Whether texts of one shape cannot have any of the signs of the other. -/
def apart (a b : Shape) : Bool := a.signs.all (foreign b.marks) || b.signs.all (foreign a.marks)

theorem Has.not_of_foreign {a b : Shape} (other : b.signs.all (foreign a.marks) = true)
    (has : a.Has s) : ¬b.Has s := by
  rintro ⟨-, sign, known, inside⟩
  exact not_infix_of_spelled has.1 (List.all_eq_true.mp other sign known) inside

theorem Has.not_of_apart {a b : Shape} (different : a.apart b = true) (has : a.Has s) :
    ¬b.Has s := by
  rcases Bool.or_eq_true_iff.mp different with other | other
  · intro has'
    exact has'.not_of_foreign other has
  · exact has.not_of_foreign other

end Shape
end Text

namespace Template

open Text (isName spelled)

def spelledBetween (marks : List Text) (t : Template) : Bool :=
  t.all fun
    | .lit w => spelled marks w
    | .name | .indexed => true

theorem spelled_fill {marks : List Text} {t : Template} {xs : List Text}
    (between : t.spelledBetween marks = true) (names : ∀ x ∈ xs, isName x = true) :
    spelled marks (t.fill xs) = true := by
  have suffix : spelled marks indexSuffix = true := Text.spelled_of_all (by decide)
  induction t generalizing xs with
  | nil => rfl
  | cons p ps ih =>
    obtain ⟨first, rest⟩ := Bool.and_eq_true_iff.mp between
    cases p with
    | lit w => exact Text.spelled_append first (ih rest names)
    | name =>
      cases xs with
      | nil => exact ih rest names
      | cons x xs =>
        obtain ⟨valid, names⟩ := List.forall_mem_cons.mp names
        exact Text.spelled_append (Text.spelled_of_isName valid) (ih rest names)
    | indexed =>
      cases xs with
      | nil => exact Text.spelled_append suffix (ih rest names)
      | cons x xs =>
        obtain ⟨valid, names⟩ := List.forall_mem_cons.mp names
        exact Text.spelled_append
          (Text.spelled_append (Text.spelled_of_isName valid) suffix) (ih rest names)

theorem infix_fill {w : Text} {t : Template} (known : Piece.lit w ∈ t) (xs : List Text) :
    w <:+: t.fill xs := by
  induction t generalizing xs with
  | nil => cases known
  | cons p ps ih =>
    rcases List.mem_cons.mp known with rfl | later
    · exact (List.prefix_append w _).isInfix
    · cases p with
      | lit u => exact (ih later xs).trans (List.suffix_append u _).isInfix
      | name =>
        cases xs with
        | nil => exact ih later []
        | cons x xs => exact (ih later xs).trans (List.suffix_append x _).isInfix
      | indexed =>
        cases xs with
        | nil => exact (ih later []).trans (List.suffix_append indexSuffix _).isInfix
        | cons x xs => exact (ih later xs).trans (List.suffix_append (x ++ indexSuffix) _).isInfix

end Template
end ProofDesk
