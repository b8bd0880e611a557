import Mathlib.Data.List.Induction
import ProofDesk.Text.Character
import ProofDesk.Text.Number

namespace ProofDesk.Text

theorem digitIn?_digitChar {d : Nat} (small : d < 10) : digitIn? 10 d.digitChar = some d := by
  revert d
  decide

theorem readDigits?_append (base value : Nat) (s t : Text) :
    readDigits? base value (s ++ t) =
      (readDigits? base value s).bind fun v => readDigits? base v t := by
  induction s generalizing value with
  | nil => rfl
  | cons c s ih =>
    rw [List.cons_append, readDigits?, readDigits?, Option.bind_assoc]
    congr 1
    funext digit
    exact ih (value * base + digit)

theorem readDigits?_ofNat (n : Nat) : readDigits? 10 0 (ofNat n) = some n := by
  induction n using Nat.strongRecOn with
  | ind n ih =>
    rw [ofNat, Nat.toDigits_eq_if (by decide)]
    split
    · next small => simp [readDigits?, digitIn?_digitChar small]
    · next large =>
      have shorter : readDigits? 10 0 (Nat.toDigits 10 (n / 10)) = some (n / 10) :=
        ih (n / 10) (by omega)
      have last : digitIn? 10 (n % 10).digitChar = some (n % 10) := digitIn?_digitChar (by omega)
      rw [readDigits?_append, shorter, Option.bind_some, readDigits?, last, Option.bind_some,
        readDigits?]
      congr 1
      omega

theorem isDigit_of_mem_ofNat {n : Nat} {c : Char} (member : c ∈ ofNat n) : c.isDigit = true :=
  Nat.isDigit_of_mem_toDigits (b := 10) (by decide) (by decide) member

theorem ofNat_ne_nil (n : Nat) : ofNat n ≠ [] := Nat.toDigits_ne_nil

def lowerDigits : Text := "0123456789abcdef"

def upperDigits : Text := "0123456789ABCDEF"

/-- A digit with its value; the letters among the digits may have either case. -/
def IsDigit (base : Nat) (c : Char) (d : Nat) : Prop :=
  d < base ∧ (lowerDigits[d]? = some c ∨ upperDigits[d]? = some c)

/-- One or more digits with the number that they write. -/
inductive Numeral (base : Nat) : Text → Nat → Prop where
  | digit {c : Char} {d : Nat} (value : IsDigit base c d) : Numeral base [c] d
  | further {s : Text} {n : Nat} {c : Char} {d : Nat} (front : Numeral base s n)
    (value : IsDigit base c d) : Numeral base (s ++ [c]) (n * base + d)

theorem digitValue?_eq_some_iff {c : Char} {d : Nat} (small : d < 16) :
    digitValue? c = some d ↔ lowerDigits[d]? = some c ∨ upperDigits[d]? = some c := by
  constructor
  · intro read
    have below {last : Char} (le : c ≤ last) (known : last.toNat < 103) : c.toNat < 103 :=
      Nat.lt_of_le_of_lt (UInt32.le_iff_toNat_le.mp (Char.le_def.mp le)) known
    have low : c.toNat < 103 := by
      unfold digitValue? at read
      split at read
      · next range => exact below range.2 (by decide)
      · split at read
        · next range => exact below range.2 (by decide)
        · split at read
          · next range => exact below range.2 (by decide)
          · cases read
    have known : ∀ n < 103, ∀ d ∈ digitValue? (Char.ofNat n),
        lowerDigits[d]? = some (Char.ofNat n) ∨ upperDigits[d]? = some (Char.ofNat n) := by
      decide +kernel
    have found := known c.toNat low d
    rw [Char.ofNat_toNat] at found
    exact found read
  · have known : ∀ d < 16, lowerDigits[d]?.all (digitValue? · == some d) = true ∧
        upperDigits[d]?.all (digitValue? · == some d) = true := by decide +kernel
    have values := known d small
    intro listed
    rcases listed with lower | upper
    · rw [lower] at values
      simpa using values.1
    · rw [upper] at values
      simpa using values.2

theorem digitIn?_eq_some_iff {base : Nat} (small : base ≤ 16) {c : Char} {d : Nat} :
    digitIn? base c = some d ↔ IsDigit base c d := by
  rw [digitIn?, Option.filter_eq_some_iff, decide_eq_true_eq, IsDigit, and_comm]
  apply and_congr_right
  intro inside
  exact digitValue?_eq_some_iff (by omega)

theorem Numeral.mem_digits {base n : Nat} {s : Text} (numeral : Numeral base s n) :
    ∀ c ∈ s, c ∈ lowerDigits ++ upperDigits := by
  have listed {c : Char} {d : Nat} (value : IsDigit base c d) : c ∈ lowerDigits ++ upperDigits := by
    rcases value.2 with lower | upper
    · exact List.mem_append_left _ (List.mem_of_getElem? lower)
    · exact List.mem_append_right _ (List.mem_of_getElem? upper)
  induction numeral with
  | digit value =>
    intro c member
    rw [List.mem_singleton.mp member]
    exact listed value
  | further front value ih =>
    intro c member
    rcases List.mem_append.mp member with first | last
    · exact ih c first
    · rw [List.mem_singleton.mp last]
      exact listed value

theorem Numeral.ne_nil {base n : Nat} {s : Text} (numeral : Numeral base s n) : s ≠ [] := by
  cases numeral <;> simp

theorem readDigits?_eq_some_iff {base : Nat} (small : base ≤ 16) {s : Text} {n : Nat} :
    s ≠ [] ∧ readDigits? base 0 s = some n ↔ Numeral base s n := by
  have last (value : Nat) (c : Char) (n : Nat) : readDigits? base value [c] = some n ↔
      ∃ d, IsDigit base c d ∧ value * base + d = n := by
    simp only [readDigits?, Option.bind_eq_some_iff, digitIn?_eq_some_iff small, Option.some.injEq]
  constructor
  · intro read
    rcases read with ⟨given, read⟩
    -- the last digit was added to the number of those before it
    induction s using List.reverseRecOn generalizing n with
    | nil => exact absurd rfl given
    | append_singleton s c ih =>
      rw [readDigits?_append, Option.bind_eq_some_iff] at read
      rcases read with ⟨m, front, read⟩
      rcases (last m c n).mp read with ⟨d, value, rfl⟩
      by_cases alone : s = []
      · subst alone
        cases front
        rw [Nat.zero_mul, Nat.zero_add]
        exact .digit value
      · exact .further (ih alone front) value
  · intro numeral
    refine ⟨numeral.ne_nil, ?_⟩
    induction numeral with
    | digit value => exact (last 0 _ _).mpr ⟨_, value, by simp⟩
    | further front value ih =>
      rw [readDigits?_append, ih, Option.bind_some]
      exact (last _ _ _).mpr ⟨_, value, rfl⟩

theorem not_numeral_plus {base n : Nat} {s : Text} : ¬Numeral base ('+' :: s) n := by
  intro numeral
  exact absurd (numeral.mem_digits '+' List.mem_cons_self) (by decide)

/-- A number is read from a numeral that fits, and from such a numeral behind a plus sign. -/
theorem readNumber?_eq_some_iff {base : Nat} (small : base ≤ 16) {bits n : Nat} {s : Text} :
    readNumber? base bits s = some n ↔ n < Nat.pow 2 bits ∧
      (Numeral base s n ∨ ∃ digits, s = '+' :: digits ∧ Numeral base digits n) := by
  have whole : readNumber? base bits s = some n ↔ n < Nat.pow 2 bits ∧ Numeral base (unsigned s) n := by
    rw [readNumber?, ← readDigits?_eq_some_iff small]
    cases unsigned s with
    | nil => simp
    | cons c digits =>
      rw [Option.filter_eq_some_iff, decide_eq_true_eq]
      simp [and_comm]
  rw [whole]
  apply and_congr_right
  intro fits
  unfold unsigned
  split
  · next digits =>
    constructor
    · intro numeral
      exact Or.inr ⟨digits, rfl, numeral⟩
    · intro either
      rcases either with numeral | ⟨others, same, numeral⟩
      · exact absurd numeral not_numeral_plus
      · cases same
        exact numeral
  · next unsigned =>
    constructor
    · exact Or.inl
    · intro either
      rcases either with numeral | ⟨digits, same, numeral⟩
      · exact numeral
      · exact absurd same (unsigned digits)

theorem numeral_ofNat (n : Nat) : Numeral 10 (ofNat n) n :=
  (readDigits?_eq_some_iff (by decide)).mp ⟨ofNat_ne_nil n, readDigits?_ofNat n⟩

theorem readNumber?_ofNat {n bits : Nat} (fits : n < Nat.pow 2 bits) :
    readNumber? 10 bits (ofNat n) = some n :=
  (readNumber?_eq_some_iff (by decide)).mpr ⟨fits, Or.inl (numeral_ofNat n)⟩

theorem isWord_of_isDigit {c : Char} (digit : c.isDigit = true) : isWord c = true := by
  have low : c.toNat < 128 := by
    simp only [Char.isDigit, Bool.and_eq_true, decide_eq_true_eq] at digit
    have := UInt32.le_iff_toNat_le.mp digit.2
    have known : '9'.val.toNat = 57 := rfl
    change c.val.toNat < 128
    omega
  rw [isWord, if_pos low]
  simp [Char.isAlphanum, digit]

end ProofDesk.Text
