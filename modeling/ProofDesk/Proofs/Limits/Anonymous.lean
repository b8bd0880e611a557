import Mathlib.Data.List.Basic
import ProofDesk.Limits.Session
import ProofDesk.Proofs.Text.Cutting
import ProofDesk.Proofs.Text.Number

namespace ProofDesk.Limits

open Text (isName isName_iff)

theorem isName_anonymousName (n : Nat) : isName (anonymousName n) = true := by
  rw [isName_iff]
  refine ⟨List.cons_ne_nil _ _, ?_⟩
  rw [anonymousName, List.all_cons, Bool.and_eq_true]
  refine ⟨by decide, List.all_eq_true.mpr ?_⟩
  intro c member
  exact Text.isWord_of_isDigit (Text.isDigit_of_mem_ofNat member)

theorem anonymousNumber?_anonymousName {n : Nat} (fits : n < UInt32.size) :
    anonymousNumber? (anonymousName n) = some (UInt32.ofNat n) := by
  have stripped : Text.stripLeading? "A" (anonymousName n) = some (Text.ofNat n) :=
    Text.stripLeading?_append "A".toList (Text.ofNat n)
  have number : Text.readNumber? 10 32 (Text.ofNat n) = some n := Text.readNumber?_ofNat fits
  rw [anonymousNumber?, stripped, Option.bind_some, number, Option.map_some]

namespace Context

variable {ctx : Context}

/-- There is a number left for one more anonymous hypothesis. -/
def HasRoom (ctx : Context) : Prop := ctx.anonymous.toNat < UInt32.size - 1

instance : DecidablePred HasRoom :=
  fun ctx => inferInstanceAs (Decidable (ctx.anonymous.toNat < UInt32.size - 1))

theorem HasRoom.toNat_succ (room : ctx.HasRoom) :
    (ctx.anonymous + 1).toNat = ctx.anonymous.toNat + 1 := by
  have fits : ctx.anonymous.toNat + 1 < 2 ^ 32 := Nat.add_lt_of_lt_sub room
  rw [UInt32.toNat_add]
  exact Nat.mod_eq_of_lt fits

theorem succ_eq_zero_of_not_hasRoom (full : ¬ctx.HasRoom) : ctx.anonymous + 1 = 0 := by
  have last : ctx.anonymous.toNat = 2 ^ 32 - 1 :=
    Nat.le_antisymm (Nat.le_sub_one_of_lt ctx.anonymous.toNat_lt) (Nat.le_of_not_lt full)
  rw [← UInt32.toNat_inj, UInt32.toNat_add, last]
  rfl

theorem anonymous_mint_lt_iff : ctx.mint.anonymous < ctx.anonymous ↔ ¬ctx.HasRoom := by
  rw [UInt32.lt_iff_toNat_lt, mint]
  dsimp only
  by_cases room : ctx.HasRoom
  · rw [room.toNat_succ]
    exact iff_of_false (by omega) (not_not_intro room)
  · rw [succ_eq_zero_of_not_hasRoom room, UInt32.toNat_zero]
    have last : UInt32.size - 1 ≤ ctx.anonymous.toNat := Nat.le_of_not_lt room
    exact iff_of_true (Nat.lt_of_lt_of_le (by decide) last) room

theorem anonymous_observe (ctx : Context) (name : Text) : (ctx.observe name).anonymous.toNat =
    max ctx.anonymous.toNat (((anonymousNumber? name).map UInt32.toNat).getD 0) := by
  rw [observe]
  cases anonymousNumber? name with
  | none => simp
  | some n => exact UInt32.toNat_max ctx.anonymous n

theorem observe_anonymousName {n : Nat} (fits : n < UInt32.size) : ctx.observe (anonymousName n) =
    { ctx with anonymous := max ctx.anonymous (UInt32.ofNat n) } := by
  rw [observe, anonymousNumber?_anonymousName fits]

theorem observe_used {n : Nat} (used : n ≤ ctx.anonymous.toNat) :
    ctx.observe (anonymousName n) = ctx := by
  have fits : n < UInt32.size := Nat.lt_of_le_of_lt used ctx.anonymous.toNat_lt
  have same : max ctx.anonymous (UInt32.ofNat n) = ctx.anonymous := by
    rw [← UInt32.toNat_inj, UInt32.toNat_max, UInt32.toNat_ofNat_of_lt' fits, Nat.max_eq_left used]
  rw [observe_anonymousName fits, same]

theorem observe_nextName (room : ctx.HasRoom) : ctx.observe ctx.nextName = ctx.mint := by
  have same : max ctx.anonymous (ctx.anonymous + 1) = ctx.anonymous + 1 := by
    rw [← UInt32.toNat_inj, UInt32.toNat_max, room.toNat_succ]
    exact Nat.max_eq_right (Nat.le_succ _)
  rw [nextName, observe_anonymousName (ctx.anonymous + 1).toNat_lt, UInt32.ofNat_toNat, same, mint]

theorem lookup_updateNames (x y : Text) (f : Classification → Classification)
    (names : List (Text × Classification)) : (updateNames x f names).lookup y =
      if y = x then some (f ((names.lookup x).getD {})) else names.lookup y := by
  induction names with
  | nil =>
    by_cases same : y = x
    · simp [updateNames, same]
    · have other : (y == x) = false := beq_false_of_ne same
      simp [updateNames, List.lookup_cons, same, other]
  | cons entry names ih =>
    obtain ⟨z, c⟩ := entry
    by_cases here : z = x
    · subst here
      by_cases same : y = z
      · simp [updateNames, same]
      · have other : (y == z) = false := beq_false_of_ne same
        simp [updateNames, List.lookup_cons, same, other]
    · have apart : (x == z) = false := beq_false_of_ne (Ne.symm here)
      rw [updateNames, if_neg here, List.lookup_cons, List.lookup_cons, List.lookup_cons, apart, ih]
      by_cases same : y = z
      · subst same
        simp [here]
      · have other : (y == z) = false := beq_false_of_ne same
        simp [other]

theorem associate?_update (ctx : Context) (x y : Text) (f : Classification → Classification) :
    (ctx.update x f).associate? y =
      if y = x then (f ((ctx.get? x).getD {})).associate else ctx.associate? y := by
  rw [associate?, get?, update, lookup_updateNames]
  by_cases same : y = x
  · simp [same, get?]
  · simp [same, associate?, get?]

theorem associate?_add (ctx : Context) (x y : Text) (c : Class) :
    (ctx.add x c).associate? y = ctx.associate? y := by
  have kept (k : Classification) : (k.add c).associate = k.associate := by cases c <;> rfl
  rw [add, associate?_update]
  by_cases same : y = x
  · subst same
    rw [if_pos rfl, kept, associate?]
    cases ctx.get? y <;> rfl
  · rw [if_neg same]

theorem associate?_associate (ctx : Context) (x y hyp : Text) :
    (ctx.associate x hyp).associate? y = if y = x then some hyp else ctx.associate? y := by
  rw [associate, associate?_update]

theorem associate?_declare (ctx : Context) (v : Statement) (y : Text) :
    (ctx.declare v).associate? y = ctx.associate? y := by
  cases v with
  | sequenceDeclaration xs =>
    rw [declare]
    induction xs generalizing ctx with
    | nil => rfl
    | cons x xs ih => rw [List.foldl_cons, ih, associate?_add]
  | realDeclaration x => exact associate?_add ctx x y _
  | naturalDeclaration x => exact associate?_add ctx x y _
  | _ => rfl

theorem anonymous_declare (ctx : Context) (v : Statement) :
    (ctx.declare v).anonymous = ctx.anonymous := by
  cases v with
  | sequenceDeclaration xs =>
    rw [declare]
    induction xs generalizing ctx with
    | nil => rfl
    | cons x xs ih => rw [List.foldl_cons, ih, add, update]
  | _ => rfl

theorem anonymous_advance (ctx : Context) (t : Tactic) :
    (ctx.advance t).anonymous = ctx.anonymous := by
  unfold advance
  split <;> rfl

theorem anonymous_afterNatural (ctx : Context) (t : Tactic) : (ctx.afterNatural t).anonymous =
    if t.hypothesis?.isSome then ctx.anonymous + 1 else ctx.anonymous := by
  cases t <;> rfl

/-! Every hypothesis that comes with a name has been numbered. -/

/-- Whatever comes with a name is called as an anonymous hypothesis, by a number in use. -/
def Numbered (ctx : Context) (used : Nat → Prop) : Prop :=
  ∀ x hyp, ctx.associate? x = some hyp → ∃ n, used n ∧ hyp = anonymousName n

variable {used used' : Nat → Prop}

theorem numbered_empty : Numbered .empty used := by
  intro x hyp found
  cases found

theorem Numbered.mono (numbered : ctx.Numbered used) (more : ∀ n, used n → used' n) :
    ctx.Numbered used' := by
  intro x hyp found
  obtain ⟨n, old, same⟩ := numbered x hyp found
  exact ⟨n, more n old, same⟩

theorem Numbered.declare (numbered : ctx.Numbered used) (v : Statement) :
    (ctx.declare v).Numbered used := by
  intro x hyp found
  rw [associate?_declare] at found
  exact numbered x hyp found

theorem Numbered.setGoal (numbered : ctx.Numbered used) (goal : Option Statement) :
    Numbered { ctx with goal := goal } used := numbered

theorem Numbered.mint (numbered : ctx.Numbered used) : ctx.mint.Numbered used := numbered

theorem Numbered.associate (numbered : ctx.Numbered used) {n : Nat} (new : used n) (x : Text) :
    (ctx.associate x (anonymousName n)).Numbered used := by
  intro y hyp found
  rw [associate?_associate] at found
  split at found
  · cases found
    exact ⟨n, new, rfl⟩
  · exact numbered y hyp found

theorem Numbered.advance (numbered : ctx.Numbered used) (t : Tactic) :
    (ctx.advance t).Numbered used := by
  unfold Context.advance
  split
  · exact numbered.setGoal _
  · exact numbered

end Context

/-- A tactic whose hypotheses are named by a context: the one that it introduces comes next. -/
def Tactic.NamedBy (ctx : Context) (t : Tactic) : Prop :=
  (∀ hyp ∈ t.hypothesis?, hyp = ctx.nextName) ∧
    ∀ hyp ∈ t.toleranceHypothesis?, ∃ x, ctx.associate? x = some hyp

namespace Context

variable {ctx : Context} {t : Tactic} {used : Nat → Prop}

theorem Numbered.afterNatural (numbered : ctx.Numbered used) (named : t.NamedBy ctx)
    (new : t.hypothesis?.isSome → used (ctx.anonymous + 1).toNat) :
    (ctx.afterNatural t).Numbered used := by
  unfold Context.afterNatural
  cases t with
  | fixTolerance ident hyp =>
    obtain rfl := named.1 hyp rfl
    exact numbered.mint.associate (new rfl) _
  | chooseIndex limitDef eps hypEps chosen hypChosen =>
    obtain rfl := named.1 hypChosen rfl
    exact numbered.mint.associate (new rfl) _
  | byProperties _ _ => exact numbered.mint
  | fixIndex _ _ => exact numbered.mint
  | bySentence _ _ _ _ => exact numbered.mint
  | choosePoint _ _ _ => exact numbered.mint
  | _ => exact numbered

theorem afterFormal_eq_afterNatural (covered : ctx.Numbered (· ≤ ctx.anonymous.toNat))
    (room : ctx.HasRoom) (named : t.NamedBy ctx) : ctx.afterFormal t = ctx.afterNatural t := by
  have observed : ∀ hyp ∈ t.toleranceHypothesis?, ctx.observe hyp = ctx := by
    intro hyp member
    obtain ⟨x, found⟩ := named.2 hyp member
    obtain ⟨n, used, rfl⟩ := covered x hyp found
    exact observe_used used
  have minted : ∀ hyp ∈ t.hypothesis?, ctx.observe hyp = ctx.mint := by
    intro hyp member
    rw [named.1 hyp member, observe_nextName room]
  have steps : (t.toleranceHypothesis?.toList ++ t.hypothesis?.toList).foldl observe ctx =
      if t.hypothesis?.isSome then ctx.mint else ctx := by
    have first : t.toleranceHypothesis?.toList.foldl observe ctx = ctx := by
      cases given : t.toleranceHypothesis? with
      | none => rfl
      | some hyp => exact observed hyp given
    rw [List.foldl_append, first]
    cases given : t.hypothesis? with
    | none => rfl
    | some hyp => exact minted hyp given
  rw [afterFormal, steps, afterNatural]

end Context

namespace Session

def minted (lines : List ProofLine) : List Text :=
  lines.filterMap fun line => line.tactic.hypothesis?

theorem minted_append (lines lines' : List ProofLine) :
    minted (lines ++ lines') = minted lines ++ minted lines' := List.filterMap_append

theorem minted_concat (lines : List ProofLine) (t : Tactic) (ctx : Context) :
    minted (lines ++ [⟨t, ctx⟩]) = minted lines ++ t.hypothesis?.toList := by
  rw [minted_append]
  cases own : t.hypothesis? <;> simp [minted, own]

end Session
end ProofDesk.Limits
