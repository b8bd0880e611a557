import ProofDesk.Limits.Reading
import ProofDesk.Proofs.Text.Filling

namespace ProofDesk.Limits

open Text (isName splits mem_splits_iff)

variable {α : Type} {s : Text} {v : Statement}

theorem isLine_iff {t : Text} : isLine t = true ↔ t ≠ [] ∧ '\n' ∉ t := by
  simp [isLine]

theorem identifier?_eq_some_iff :
    identifier? s = some v ↔ v = .identifier s ∧ isName s = true := by
  unfold identifier?
  split
  · next valid => simp [valid, eq_comm]
  · next other => simp [other]

theorem application?_eq_some_iff {ctx : Context} {seq index : Text} :
    application? ctx seq index = some v ↔
      v = .application seq index ∧ ctx.is seq .sequence = true := by
  unfold application?
  split
  · next known => simp [known, eq_comm]
  · next unknown => simp [unknown]

section Leaving

variable {κ : Type} {kinds : List κ} {read : κ → Option α} {leaving : α → Context} {a : α}

theorem eq_leaving_of_map {found : Option α} {ctx : Context}
    (paired : (found.map fun a => (a, leaving a)) = some (a, ctx)) :
    found = some a ∧ ctx = leaving a := by
  obtain ⟨b, found, same⟩ := Option.map_eq_some_iff.mp paired
  cases same
  exact ⟨found, rfl⟩

theorem exists_kind_of_read {ctx : Context}
    (answer : (kinds.findSome? fun k => (read k).map fun a => (a, leaving a)) = some (a, ctx)) :
    ∃ k ∈ kinds, read k = some a ∧ ctx = leaving a := by
  obtain ⟨k, member, paired⟩ := List.exists_of_findSome?_eq_some answer
  exact ⟨k, member, eq_leaving_of_map paired⟩

theorem read_eq_some_of_only {k : κ} (member : k ∈ kinds) (own : read k = some a)
    (only : ∀ k', (read k').isSome → k' = k) :
    (kinds.findSome? fun k => (read k).map fun a => (a, leaving a)) = some (a, leaving a) := by
  apply Text.findSome?_eq_some_of_only member
  · exact Option.map_eq_some_iff.mpr ⟨a, own, rfl⟩
  · intro k' _ found
    exact only k' (Option.isSome_map.symm.trans found)

end Leaving

/-- The statement around a separator, given what its sides are read as. -/
def readAround (side : Text → Option Statement) (join : Statement → α → Statement → Statement)
    (cut : Text × α × Text) : Option Statement := do
  return join (← side cut.1) cut.2.1 (← side cut.2.2)

theorem readAround_eq_some_iff {side : Text → Option Statement}
    {join : Statement → α → Statement → Statement} {left right : Text} {a : α} :
    readAround side join (left, a, right) = some v ↔
      ∃ l r, side left = some l ∧ side right = some r ∧ v = join l a r := by
  simp [readAround, Option.bind_eq_some_iff, @eq_comm _ v]

theorem arithmetic?_eq (ops : List (Text × Operation)) (leaf : Text → Option Statement) :
    arithmetic? ops leaf s = (splits ops s).findSome? (readAround leaf .arithmetic) := rfl

theorem inequality?_eq (relations : List (Text × Relation)) (side : Text → Option Statement) :
    inequality? relations side s =
      (splits relations s).findSome? (readAround side .inequality) := rfl

theorem conjunction?_eq (separator : Text) (body : Text → Option Statement) :
    conjunction? separator body s =
      (splits [(separator, ())] s).findSome? (readAround body fun l _ r => .conjunction l r) := rfl

theorem exists_cut_of_read {seps : List (Text × α)} {side : Text → Option Statement}
    {join : Statement → α → Statement → Statement} (given : ∀ sep ∈ seps, sep.1 ≠ [])
    (read : (splits seps s).findSome? (readAround side join) = some v) :
    ∃ l r a sep left right, (sep, a) ∈ seps ∧ s = left ++ (sep ++ right) ∧
      side left = some l ∧ side right = some r ∧ v = join l a r := by
  obtain ⟨⟨left, a, right⟩, member, around⟩ := List.exists_of_findSome?_eq_some read
  obtain ⟨sep, known, whole⟩ := (mem_splits_iff given).mp member
  obtain ⟨l, r, first, second, same⟩ := readAround_eq_some_iff.mp around
  exact ⟨l, r, a, sep, left, right, known, whole, first, second, same⟩

def around (sign : Char) : Text := [' ', sign, ' ']

theorem cut_inj {p : Char → Bool} {l l' r r' : Text} {c c' : Char} (space : p ' ' = true)
    (left : l.all p = true) (left' : l'.all p = true) (outside : p c = false)
    (outside' : p c' = false) (same : l ++ (around c ++ r) = l' ++ (around c' ++ r')) :
    l = l' ∧ c = c' ∧ r = r' := by
  have before {t : Text} (inside : t.all p = true) : (t ++ [' ']).all p = true := by
    rw [List.all_append, inside]
    simp [space]
  have shape (t u : Text) (d : Char) : t ++ (around d ++ u) = (t ++ [' ']) ++ d :: (' ' :: u) := by
    simp [around]
  rw [shape, shape, Text.append_cons_inj_of_all (before left) (before left') outside outside']
    at same
  obtain ⟨sameLeft, sameSign, sameRight⟩ := same
  exact ⟨List.append_cancel_right sameLeft, sameSign, (List.cons.inj sameRight).2⟩

/-- A compound statement whose separators are signs that do not occur on the left of them. -/
theorem read_around_sign_iff {p : Char → Bool} {sign : α → Char} {seps : List (Text × α)}
    {side : Text → Option Statement} {join : Statement → α → Statement → Statement}
    (space : p ' ' = true) (signs : ∀ sep ∈ seps, sep.1 = around (sign sep.2))
    (outside : ∀ a, p (sign a) = false) (distinct : ∀ a b, sign a = sign b → a = b)
    (inside : ∀ t u, side t = some u → t.all p = true) :
    (splits seps s).findSome? (readAround side join) = some v ↔
      ∃ l r a left right, (around (sign a), a) ∈ seps ∧ s = left ++ (around (sign a) ++ right) ∧
        side left = some l ∧ side right = some r ∧ v = join l a r := by
  have given : ∀ sep ∈ seps, sep.1 ≠ [] := by
    intro sep member
    rw [signs sep member]
    exact List.cons_ne_nil _ _
  constructor
  · intro read
    obtain ⟨l, r, a, sep, left, right, member, whole, found⟩ := exists_cut_of_read given read
    obtain rfl : sep = around (sign a) := signs _ member
    exact ⟨l, r, a, left, right, member, whole, found⟩
  · rintro ⟨l, r, a, left, right, member, whole, first, second, rfl⟩
    -- this cut is read, so some cut is found, and it can only be the same one
    have here : (left, a, right) ∈ splits seps s :=
      (mem_splits_iff given).mpr ⟨_, member, whole⟩
    have found : readAround side join (left, a, right) = some (join l a r) :=
      readAround_eq_some_iff.mpr ⟨l, r, first, second, rfl⟩
    have some' : ((splits seps s).findSome? (readAround side join)).isSome := by
      rw [List.findSome?_isSome_iff]
      exact ⟨_, here, by rw [found]; rfl⟩
    obtain ⟨w, read⟩ := Option.isSome_iff_exists.mp some'
    obtain ⟨l', r', a', sep, left', right', member', whole', first', second', rfl⟩ :=
      exists_cut_of_read given read
    obtain rfl : sep = around (sign a') := signs _ member'
    obtain ⟨rfl, sameSign, rfl⟩ := cut_inj space (inside _ _ first) (inside _ _ first') (outside a)
      (outside a') (whole.symm.trans whole')
    obtain rfl := distinct _ _ sameSign
    rw [first] at first'
    rw [second] at second'
    cases first'
    cases second'
    exact read

theorem underHeader?_eq_some_iff {header : Template} {body : Text → Option Statement}
    {xs : List Text} : underHeader? header body s = some (xs, v) ↔
      ∃ rest, header.read? s = some (xs, rest) ∧ isLine rest = true ∧ body rest = some v := by
  rw [underHeader?, Option.bind_eq_bind, Option.bind_eq_some_iff]
  constructor
  · rintro ⟨⟨ys, rest⟩, found, inside⟩
    obtain ⟨read, line⟩ := Option.filter_eq_some_iff.mp found
    obtain ⟨u, body, same⟩ := Option.bind_eq_some_iff.mp inside
    cases same
    exact ⟨rest, read, line, body⟩
  · rintro ⟨rest, read, line, body⟩
    refine ⟨(xs, rest), Option.filter_eq_some_iff.mpr ⟨read, line⟩, ?_⟩
    exact Option.bind_eq_some_iff.mpr ⟨v, body, rfl⟩

theorem forAll?_eq_some_iff {header : Template} {body : Text → Option Statement} :
    forAll? header body s = some v ↔
      ∃ x u, v = .forAll x u ∧ underHeader? header body s = some ([x], u) := by
  unfold forAll?
  constructor
  · intro read
    split at read
    · next x u found =>
      cases read
      exact ⟨x, u, rfl, found⟩
    · cases read
  · rintro ⟨x, u, rfl, found⟩
    rw [found]

theorem forAllFrom?_eq_some_iff {header : Template} {body : Text → Option Statement} :
    forAllFrom? header body s = some v ↔
      ∃ var bound u, v = .forAllFrom var bound u ∧
        underHeader? header body s = some ([var, bound], u) := by
  unfold forAllFrom?
  constructor
  · intro read
    split at read
    · next var bound u found =>
      cases read
      exact ⟨var, bound, u, rfl, found⟩
    · cases read
  · rintro ⟨var, bound, u, rfl, found⟩
    rw [found]

theorem thereIs?_eq_some_iff {header : Template} {body : Text → Option Statement} :
    thereIs? header body s = some v ↔
      ∃ x u, v = .thereIs x u ∧ underHeader? header body s = some ([x], u) := by
  unfold thereIs?
  constructor
  · intro read
    split at read
    · next x u found =>
      cases read
      exact ⟨x, u, rfl, found⟩
    · cases read
  · rintro ⟨x, u, rfl, found⟩
    rw [found]

theorem exists_form_of_composedLimit? {forms : List (Template × Operation)}
    (read : composedLimit? forms s = some v) : ∃ form op a b l m, (form, op) ∈ forms ∧
      form.match? s = some [a, b, l, m] ∧ v = .composedLimit a b op l m := by
  obtain ⟨⟨form, op⟩, member, found⟩ := List.exists_of_findSome?_eq_some read
  dsimp only at found
  split at found
  · next a b l m names =>
    cases found
    exact ⟨form, op, a, b, l, m, member, names, rfl⟩
  · cases found

end ProofDesk.Limits
