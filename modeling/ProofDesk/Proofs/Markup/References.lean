import ProofDesk.Markup.Reference

namespace ProofDesk.Markup

/-- A text with references and its value; a replaced reference is not read again. -/
inductive Denotes : Text → Text → Prop where
  | nil : Denotes [] []
  | char {c : Char} {s value : Text} (plain : c ≠ '&') (rest : Denotes s value) :
    Denotes (c :: s) (c :: value)
  | reference {name s value : Text} {c : Char} (ends : ';' ∉ name)
    (named : referenced? name = some c) (rest : Denotes s value) :
    Denotes ('&' :: (name ++ ';' :: s)) (c :: value)

theorem decodeFrom_some_iff {begun s value : Text} :
    decodeFrom (some begun) s = some value ↔ ∃ name rest c v, s = name ++ ';' :: rest ∧
      ';' ∉ name ∧ referenced? (begun ++ name) = some c ∧ decodeFrom none rest = some v ∧
      value = c :: v := by
  induction s generalizing begun with
  | nil => simp [decodeFrom]
  | cons d s ih =>
    by_cases ends : d = ';'
    · subst ends
      simp only [decodeFrom, if_true]
      constructor
      · intro read
        obtain ⟨c, named, after⟩ := Option.bind_eq_some_iff.mp read
        obtain ⟨v, rest, same⟩ := Option.map_eq_some_iff.mp after
        exact ⟨[], s, c, v, rfl, by simp, by rwa [List.append_nil], rest, same.symm⟩
      · rintro ⟨name, rest, c, v, whole, ends, named, after, rfl⟩
        cases name with
        | nil =>
          cases whole
          rw [List.append_nil] at named
          rw [named, Option.bind_some, after]
          rfl
        | cons d name =>
          cases whole
          exact absurd List.mem_cons_self ends
    · rw [decodeFrom, if_neg ends, ih]
      constructor
      · rintro ⟨name, rest, c, v, rfl, inside, named, after, same⟩
        refine ⟨d :: name, rest, c, v, rfl, ?_, ?_, after, same⟩
        · simp [inside, Ne.symm ends]
        · rwa [List.append_assoc] at named
      · rintro ⟨name, rest, c, v, whole, inside, named, after, same⟩
        cases name with
        | nil =>
          cases whole
          exact absurd rfl ends
        | cons e name =>
          cases whole
          refine ⟨name, rest, c, v, rfl, fun member => inside (List.mem_cons_of_mem _ member), ?_,
            after, same⟩
          rwa [List.append_assoc]

theorem denotes_of_decode {s value : Text} (read : decodeFrom none s = some value) :
    Denotes s value := by
  cases s with
  | nil =>
    cases read
    exact Denotes.nil
  | cons c s =>
    rw [decodeFrom] at read
    split at read
    · next ampersand =>
      obtain ⟨name, rest, d, v, rfl, ends, named, after, rfl⟩ := decodeFrom_some_iff.mp read
      subst ampersand
      exact Denotes.reference ends named (denotes_of_decode after)
    · next plain =>
      obtain ⟨v, after, rfl⟩ := Option.map_eq_some_iff.mp read
      exact Denotes.char plain (denotes_of_decode after)
termination_by s.length
decreasing_by
  all_goals subst_vars
  all_goals simp +arith

theorem decode_eq_some_iff {s value : Text} : decode s = some value ↔ Denotes s value := by
  constructor
  · exact denotes_of_decode
  · intro denotes
    unfold decode
    induction denotes with
    | nil => rfl
    | char plain rest ih => rw [decodeFrom, if_neg plain, ih, Option.map_some]
    | @reference name s value c ends named rest ih =>
      rw [decodeFrom, if_pos rfl, decodeFrom_some_iff]
      exact ⟨name, s, c, value, rfl, ends, named, ih, rfl⟩

theorem denotes_append {s t v w : Text} (first : Denotes s v) (second : Denotes t w) :
    Denotes (s ++ t) (v ++ w) := by
  induction first with
  | nil => exact second
  | char plain rest ih => exact .char plain ih
  | reference ends named rest ih =>
    rw [List.cons_append, List.append_assoc]
    exact .reference ends named ih

theorem denotes_encodeChar (c : Char) : Denotes (encodeChar c) [c] := by
  unfold encodeChar
  split
  · next same =>
    rw [same]
    have ends : ';' ∉ ("amp" : Text) := by decide
    exact .reference ends (by decide) .nil
  · next plain =>
    split
    · next same =>
      rw [same]
      have ends : ';' ∉ ("lt" : Text) := by decide
      exact .reference ends (by decide) .nil
    · split
      · next same =>
        rw [same]
        have ends : ';' ∉ ("quot" : Text) := by decide
        exact .reference ends (by decide) .nil
      · exact .char plain .nil

theorem denotes_encode (value : Text) : Denotes (encode value) value := by
  induction value with
  | nil => exact .nil
  | cons c value ih => exact denotes_append (denotes_encodeChar c) ih

theorem encode_inside (value : Text) : ∀ c ∈ encode value, c ≠ '"' ∧ c ≠ '<' := by
  intro c member
  obtain ⟨d, _, inside⟩ := List.mem_flatMap.mp member
  have apart {r : Text} (plain : r.all (fun c => c != '"' && c != '<') = true) (inside : c ∈ r) :
      c ≠ '"' ∧ c ≠ '<' := by
    simpa using List.all_eq_true.mp plain c inside
  unfold encodeChar at inside
  split at inside
  · exact apart (r := "&amp;") rfl inside
  · split at inside
    · exact apart (r := "&lt;") rfl inside
    · next plain =>
      split at inside
      · exact apart (r := "&quot;") rfl inside
      · next other =>
        rw [List.mem_singleton.mp inside]
        exact ⟨other, plain⟩

end ProofDesk.Markup
