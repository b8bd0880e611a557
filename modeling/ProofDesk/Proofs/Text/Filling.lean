import ProofDesk.Proofs.Text.Cutting
import ProofDesk.Text.Template

/-!
Reading the names out of a template and filling them in.  Only names are ever read.  If something
other than a word character stands behind each blank, then reading finds just what was filled in.
-/

namespace ProofDesk.Template

open Text (isName isName_iff isWord Ends takeName?_eq_some_iff)

def blanks : Template → Nat
  | [] => 0
  | .lit _ :: ps => blanks ps
  | .name :: ps => blanks ps + 1
  | .indexed :: ps => blanks ps + 1

def Fits (t : Template) (xs : List Text) : Prop :=
  xs.length = t.blanks ∧ ∀ x ∈ xs, isName x = true

theorem fits_lit (w : Text) (ps : Template) (xs : List Text) :
    Fits (.lit w :: ps) xs ↔ Fits ps xs := Iff.rfl

theorem fits_name {ps : Template} {x : Text} {xs : List Text} :
    Fits (.name :: ps) (x :: xs) ↔ isName x = true ∧ Fits ps xs := by
  simp [Fits, blanks, and_left_comm]

theorem fits_indexed {ps : Template} {x : Text} {xs : List Text} :
    Fits (.indexed :: ps) (x :: xs) ↔ isName x = true ∧ Fits ps xs := by
  simp [Fits, blanks, and_left_comm]

theorem stem?_eq_some_iff {x stem : Text} :
    stem? x = some stem ↔ x = stem ++ indexSuffix ∧ stem ≠ [] := by
  simp [stem?, Option.filter_eq_some_iff, Text.stripTrailing?_eq_some_iff]

theorem isName_indexed {x : Text} (valid : isName x = true) : isName (x ++ indexSuffix) = true := by
  obtain ⟨given, word⟩ := isName_iff.mp valid
  have suffix : indexSuffix.all isWord = true := by decide
  refine isName_iff.mpr ⟨List.append_ne_nil_of_left_ne_nil given _, ?_⟩
  rw [List.all_append, word, suffix, Bool.true_and]

theorem isName_stem {x stem : Text} (valid : isName x = true) (read : stem? x = some stem) :
    isName stem = true := by
  obtain ⟨rfl, given⟩ := stem?_eq_some_iff.mp read
  obtain ⟨-, word⟩ := isName_iff.mp valid
  rw [List.all_append, Bool.and_eq_true] at word
  exact isName_iff.mpr ⟨given, word.1⟩

theorem fits_of_read? {t : Template} {s rest : Text} {xs : List Text}
    (read : t.read? s = some (xs, rest)) : t.Fits xs := by
  induction t generalizing s xs with
  | nil =>
    cases read
    exact ⟨rfl, by simp⟩
  | cons p ps ih =>
    cases p with
    | lit w =>
      obtain ⟨s', -, inside⟩ := Option.bind_eq_some_iff.mp read
      exact ih inside
    | name =>
      obtain ⟨⟨x, s'⟩, taken, further⟩ := Option.bind_eq_some_iff.mp read
      obtain ⟨⟨ys, rest'⟩, inside, same⟩ := Option.map_eq_some_iff.mp further
      cases same
      obtain ⟨-, valid, -⟩ := takeName?_eq_some_iff.mp taken
      exact fits_name.mpr ⟨valid, ih inside⟩
    | indexed =>
      obtain ⟨⟨x, s'⟩, taken, further⟩ := Option.bind_eq_some_iff.mp read
      obtain ⟨stem, cut, further⟩ := Option.bind_eq_some_iff.mp further
      obtain ⟨⟨ys, rest'⟩, inside, same⟩ := Option.map_eq_some_iff.mp further
      cases same
      obtain ⟨-, valid, -⟩ := takeName?_eq_some_iff.mp taken
      exact fits_indexed.mpr ⟨isName_stem valid cut, ih inside⟩

theorem read?_of_match? {t : Template} {s : Text} {xs : List Text} :
    t.match? s = some xs ↔ t.read? s = some (xs, []) := by
  unfold match?
  constructor
  · intro read
    split at read
    · next found =>
      cases read
      exact found
    · cases read
  · intro found
    rw [found]

theorem fits_of_match? {t : Template} {s : Text} {xs : List Text}
    (read : t.match? s = some xs) : t.Fits xs :=
  fits_of_read? (read?_of_match?.mp read)

theorem prefix_of_read? {w s rest : Text} {ps : Template} {xs : List Text}
    (read : Template.read? (.lit w :: ps) s = some (xs, rest)) : w <+: s := by
  obtain ⟨behind, leading, -⟩ := Option.bind_eq_some_iff.mp read
  exact ⟨behind, (Text.stripLeading?_eq_some_iff.mp leading).symm⟩

theorem prefix_of_match? {w s : Text} {ps : Template} {xs : List Text}
    (read : Template.match? (.lit w :: ps) s = some xs) : w <+: s :=
  prefix_of_read? (read?_of_match?.mp read)

def lacks (c : Char) (t : Template) : Bool :=
  t.all fun
    | .lit w => !w.contains c
    | .name | .indexed => true

theorem not_mem_fill {c : Char} {t : Template} {xs : List Text} (other : isWord c = false)
    (between : t.lacks c = true) (names : ∀ x ∈ xs, c ∉ x) : c ∉ t.fill xs := by
  have suffix : c ∉ indexSuffix := Text.not_mem_of_all (by decide) other
  induction t generalizing xs with
  | nil => exact List.not_mem_nil
  | cons p ps ih =>
    obtain ⟨first, rest⟩ := Bool.and_eq_true_iff.mp between
    cases p with
    | lit w => exact List.not_mem_append (by simpa using first) (ih rest names)
    | name =>
      cases xs with
      | nil => exact ih rest names
      | cons x xs =>
        obtain ⟨absent, names⟩ := List.forall_mem_cons.mp names
        exact List.not_mem_append absent (ih rest names)
    | indexed =>
      cases xs with
      | nil => exact List.not_mem_append suffix (ih rest names)
      | cons x xs =>
        obtain ⟨absent, names⟩ := List.forall_mem_cons.mp names
        exact List.not_mem_append (List.not_mem_append absent suffix) (ih rest names)

/-- Whether a template goes on with something that ends a name.  The argument tells whether the end
of the template does. -/
def closes (last : Bool) : Template → Bool
  | [] => last
  | .lit (c :: _) :: _ => !isWord c
  | _ => false

/-- Whether what comes after each blank ends the name. -/
def guarded (last : Bool) : Template → Bool
  | [] => true
  | .lit _ :: ps => guarded last ps
  | .name :: ps => closes last ps && guarded last ps
  | .indexed :: ps => closes last ps && guarded last ps

theorem ends_of_closes {last : Bool} {t : Template} {rest : Text} (closing : t.closes last = true)
    (ends : last = true → Ends isWord rest) (xs : List Text) :
    Ends isWord (t.fill xs ++ rest) := by
  unfold closes at closing
  split at closing
  · exact ends closing
  · next c w ps =>
    have other : isWord c = false := by simpa using closing
    exact Text.ends_cons.mpr other
  · cases closing

theorem eq_fill_of_read? {t : Template} {s rest : Text} {xs : List Text}
    (read : t.read? s = some (xs, rest)) : s = t.fill xs ++ rest := by
  induction t generalizing s xs with
  | nil =>
    cases read
    rfl
  | cons p ps ih =>
    cases p with
    | lit w =>
      obtain ⟨s', leading, inside⟩ := Option.bind_eq_some_iff.mp read
      rw [Text.stripLeading?_eq_some_iff.mp leading, ih inside, fill, List.append_assoc]
    | name =>
      obtain ⟨⟨x, s'⟩, taken, further⟩ := Option.bind_eq_some_iff.mp read
      obtain ⟨⟨ys, rest'⟩, inside, same⟩ := Option.map_eq_some_iff.mp further
      cases same
      obtain ⟨rfl, -, -⟩ := takeName?_eq_some_iff.mp taken
      rw [ih inside, fill, List.append_assoc]
    | indexed =>
      obtain ⟨⟨x, s'⟩, taken, further⟩ := Option.bind_eq_some_iff.mp read
      obtain ⟨stem, cut, further⟩ := Option.bind_eq_some_iff.mp further
      obtain ⟨⟨ys, rest'⟩, inside, same⟩ := Option.map_eq_some_iff.mp further
      cases same
      obtain ⟨rfl, -, -⟩ := takeName?_eq_some_iff.mp taken
      rw [ih inside, (stem?_eq_some_iff.mp cut).1, fill, List.append_assoc (stem ++ indexSuffix)]

/-- Names that end where they should are read as they are filled in. -/
theorem read?_fill {last : Bool} {t : Template} {rest : Text} {xs : List Text}
    (sound : t.guarded last = true) (ends : last = true → Ends isWord rest) (fits : t.Fits xs) :
    t.read? (t.fill xs ++ rest) = some (xs, rest) := by
  induction t generalizing xs with
  | nil =>
    obtain rfl := List.eq_nil_of_length_eq_zero fits.1
    rfl
  | cons p ps ih =>
    cases p with
    | lit w =>
      rw [read?, fill, List.append_assoc, Text.stripLeading?_append, Option.bind_some]
      exact ih sound ((fits_lit w ps xs).mp fits)
    | name =>
      obtain ⟨closing, sound⟩ : closes last ps = true ∧ guarded last ps = true := by
        simpa [guarded] using sound
      cases xs with
      | nil => cases fits.1
      | cons x xs =>
        obtain ⟨valid, fits⟩ := fits_name.mp fits
        have taken : Text.takeName? (x ++ (fill ps xs ++ rest)) = some (x, fill ps xs ++ rest) :=
          takeName?_eq_some_iff.mpr ⟨rfl, valid, ends_of_closes closing ends xs⟩
        rw [read?, fill, List.append_assoc, taken, Option.bind_some]
        dsimp only
        rw [ih sound fits]
        rfl
    | indexed =>
      obtain ⟨closing, sound⟩ : closes last ps = true ∧ guarded last ps = true := by
        simpa [guarded] using sound
      cases xs with
      | nil => cases fits.1
      | cons x xs =>
        obtain ⟨valid, fits⟩ := fits_indexed.mp fits
        have taken : Text.takeName? (x ++ indexSuffix ++ (fill ps xs ++ rest)) =
            some (x ++ indexSuffix, fill ps xs ++ rest) :=
          takeName?_eq_some_iff.mpr ⟨rfl, isName_indexed valid, ends_of_closes closing ends xs⟩
        have cut : stem? (x ++ indexSuffix) = some x :=
          stem?_eq_some_iff.mpr ⟨rfl, (isName_iff.mp valid).1⟩
        rw [read?, fill, List.append_assoc (x ++ indexSuffix), taken, Option.bind_some]
        dsimp only
        rw [cut, Option.bind_some, ih sound fits]
        rfl

theorem read?_eq_some_iff {last : Bool} {t : Template} {s rest : Text} {xs : List Text}
    (sound : t.guarded last = true) (ends : last = true → Ends isWord rest) :
    t.read? s = some (xs, rest) ↔ t.Fits xs ∧ s = t.fill xs ++ rest := by
  constructor
  · intro read
    exact ⟨fits_of_read? read, eq_fill_of_read? read⟩
  · rintro ⟨fits, rfl⟩
    exact read?_fill sound ends fits

theorem read?_eq_some_iff_of_closed {t : Template} {s rest : Text} {xs : List Text}
    (sound : t.guarded false = true) :
    t.read? s = some (xs, rest) ↔ t.Fits xs ∧ s = t.fill xs ++ rest := by
  apply read?_eq_some_iff sound
  intro last
  cases last

theorem match?_eq_some_iff {t : Template} {s : Text} {xs : List Text}
    (sound : t.guarded true = true) : t.match? s = some xs ↔ t.Fits xs ∧ s = t.fill xs := by
  rw [read?_of_match?, read?_eq_some_iff sound fun _ => Text.ends_nil, List.append_nil]

theorem match?_fill {t : Template} {xs : List Text} (sound : t.guarded true = true)
    (fits : t.Fits xs) : t.match? (t.fill xs) = some xs :=
  (match?_eq_some_iff sound).mpr ⟨fits, rfl⟩

end ProofDesk.Template
