import ProofDesk.Proofs.Limits.GoalProgression

/-!
The names of hypotheses that are minted along a session.  They are numbered without a gap, so none is
minted twice before the numbers are used up, and the names of numbered hypotheses begin differently.
But the counter takes no account of the names that a user gives: a minted name is new just if the user
has not given it to something else before.
-/

namespace ProofDesk.Limits

theorem anonymousName_inj {n m : Nat} : anonymousName n = anonymousName m ↔ n = m := by
  constructor
  · intro same
    have digits := congrArg (Text.readDigits? 10 0) (List.cons.inj same).2
    rw [Text.readDigits?_ofNat, Text.readDigits?_ofNat] at digits
    exact Option.some.inj digits
  · rintro rfl
    rfl

theorem Session.exists_number_of_mem_namesFrom {x : Text} {vs : List Statement} {n : Nat}
    (member : some x ∈ namesFrom n vs) : ∃ k, x = 'H' :: Text.ofNat k := by
  induction vs generalizing n with
  | nil => simp [namesFrom] at member
  | cons v vs ih =>
    rw [namesFrom] at member
    split at member
    · rcases List.mem_cons.mp member with same | member
      · cases same
      · exact ih member
    · rcases List.mem_cons.mp member with same | member
      · exact ⟨n, Option.some.inj same⟩
      · exact ih member

theorem Session.anonymousName_not_mem_hypothesisNames (s : Session) (n : Nat) :
    some (anonymousName n) ∉ s.hypothesisNames := by
  intro member
  obtain ⟨k, same⟩ := exists_number_of_mem_namesFrom member
  have first := (List.cons.inj same).1
  exact absurd first (by decide)

def Statement.declared : Statement → List Text
  | sequenceDeclaration xs => xs
  | realDeclaration x => [x]
  | naturalDeclaration x => [x]
  | _ => []

namespace Tactic

def chosen : Tactic → List Text
  | fixTolerance ident _ => [ident.formal]
  | chooseIndex _ _ _ chosen _ => [chosen]
  | letMax ident _ _ => [ident]
  | fixIndex ident _ => [ident]
  | _ => []

def introduced (t : Tactic) : List Text := t.chosen ++ t.hypothesis?.toList

end Tactic

namespace Session

/-- The names that a user has given up to a line with a tactic, and those of all declarations. -/
def given (s : Session) (earlier : List ProofLine) (t : Tactic) : List Text :=
  s.hypotheses.flatMap Statement.declared ++
    (earlier.flatMap (fun line => line.tactic.chosen) ++ t.chosen)

/-- The name of a hypothesis stands for nothing else where it is introduced. -/
structure Fresh (s : Session) (earlier : List ProofLine) (t : Tactic) (hyp : Text) : Prop where
  declared : ∀ v ∈ s.hypotheses, hyp ∉ v.declared
  numbered : some hyp ∉ s.hypothesisNames
  earlier : ∀ line ∈ earlier, hyp ∉ line.tactic.introduced
  here : hyp ∉ t.chosen

variable {name hyp : Text} {es : List Entry} {s : Session} {earlier later : List ProofLine}
  {line : ProofLine}

theorem Built.minted_eq (built : Built name es s) : minted s.proof =
    (List.range (minted s.proof).length).map fun i => anonymousName (UInt32.ofNat (i + 1)).toNat := by
  induction built with
  | start => rfl
  | hypothesis _ added _ ih =>
    obtain ⟨v, ctx, read, rfl⟩ := addHypothesis_eq_ok added
    exact ih
  | goal _ set _ ih =>
    obtain ⟨v, ctx, read, rfl⟩ := setGoal_eq_ok set
    exact ih
  | @line es s _ _ _ built added _ ih =>
    obtain ⟨t, ctx, read, rfl⟩ := addLine_eq_ok added
    obtain ⟨count, numbered⟩ := built.numbered
    obtain ⟨-, named, -⟩ := Tactic.sound_of_readNatural? numbered read
    dsimp only
    rw [minted_concat]
    cases own : t.hypothesis? with
    | none => simpa using ih
    | some hyp =>
      have next : hyp = anonymousName (UInt32.ofNat ((minted s.proof).length + 1)).toNat := by
        rw [named.1 hyp own, Context.nextName, count, UInt32.ofNat_add]
        rfl
      rw [Option.toList_some, List.length_append, List.length_singleton, List.range_succ,
        List.map_append, ← ih, next]
      rfl

theorem Built.minted_at (built : Built name es s) (lines : s.proof = earlier ++ line :: later)
    (own : line.tactic.hypothesis? = some hyp)
    (room : (minted earlier).length < UInt32.size - 1) :
    hyp = anonymousName ((minted earlier).length + 1) ∧
      ∀ x ∈ minted earlier, x ≠ anonymousName ((minted earlier).length + 1) := by
  have all := built.minted_eq
  have first : minted (line :: later) = hyp :: minted later := List.filterMap_cons_some own
  rw [lines, minted_append, first] at all
  have inside : (minted earlier).length < (minted earlier ++ hyp :: minted later).length := by simp
  have fits (i : Nat) (before : i ≤ (minted earlier).length) : (UInt32.ofNat (i + 1)).toNat = i + 1 :=
    UInt32.toNat_ofNat_of_lt' (by omega)
  have before := congrArg (List.take (minted earlier).length) all
  rw [List.take_left, ← List.map_take, List.take_range, Nat.min_eq_left inside.le] at before
  have here := congrArg (fun names => names[(minted earlier).length]?) all
  simp only [List.getElem?_append_right (Nat.le_refl _), Nat.sub_self, List.getElem?_cons_zero,
    List.getElem?_map, List.getElem?_range inside, Option.map_some, Option.some.injEq] at here
  rw [fits _ (Nat.le_refl _)] at here
  refine ⟨here, ?_⟩
  intro x member same
  rw [before] at member
  obtain ⟨i, old, rfl⟩ := List.mem_map.mp member
  have earlier := List.mem_range.mp old
  rw [fits i earlier.le] at same
  have number := anonymousName_inj.mp same
  omega

/-- As long as there are numbers left a name is minted by counting on, and it is new exactly if the
user has not given it. -/
theorem Built.fresh_iff (built : Built name es s) (lines : s.proof = earlier ++ line :: later)
    (own : line.tactic.hypothesis? = some hyp)
    (room : (minted earlier).length < UInt32.size - 1) :
    hyp = anonymousName ((minted earlier).length + 1) ∧
      (s.Fresh earlier line.tactic hyp ↔ hyp ∉ s.given earlier line.tactic) := by
  obtain ⟨rfl, others⟩ := built.minted_at lines own room
  refine ⟨rfl, ?_⟩
  simp only [given, List.mem_append, List.mem_flatMap, not_or, not_exists, not_and]
  constructor
  · rintro ⟨declared, -, before, here⟩
    refine ⟨declared, ?_, here⟩
    intro line member chosen
    exact before line member (List.mem_append_left _ chosen)
  · rintro ⟨declared, before, here⟩
    refine ⟨declared, anonymousName_not_mem_hypothesisNames s _, ?_, here⟩
    intro line member introduced
    rcases List.mem_append.mp introduced with chosen | hypothesis
    · exact before line member chosen
    · apply others _ _ rfl
      exact List.mem_filterMap.mpr ⟨line, member, Option.mem_toList.mp hypothesis⟩

def declaredLimit (l : Text) : Session :=
  let declared : Context := Context.empty.declare (.realDeclaration l)
  let ctx : Context := { declared with goal := some (.limit "a" l) }
  { name := "limit", hypotheses := [.realDeclaration l], goal := ctx.goal, initialContext := ctx,
    context := ctx }

def chosenIndex : Session :=
  ((declaredLimit "l").followedBy (.fixTolerance .epsilon "A1")).followedBy
    (.chooseIndex "H1" .epsilon "A1" "N" "A2")

theorem built_chosenIndex : Built "limit" [.hypothesis (.realDeclaration "l"), .goal (.limit "a" "l"),
    .line (.fixTolerance .epsilon "A1"), .line (.chooseIndex "H1" .epsilon "A1" "N" "A2")]
    chosenIndex := by
  let declared : Session := { name := "limit", hypotheses := [.realDeclaration "l"],
                              context := Context.empty.declare (.realDeclaration "l") }
  let first := (declaredLimit "l").followedBy (.fixTolerance .epsilon "A1")
  have ⟨added, set, line, line'⟩ :
      (Session.start "limit").addHypothesis "$l \\in \\mathbb\x7bR\x7d$" = .ok declared ∧
      declared.setGoal "$a_n \\rightarrow l$" = .ok (declaredLimit "l") ∧
      (declaredLimit "l").addLine "Let $\\epsilon$" = .ok first ∧
      first.addLine "Let's choose $N$ such that H1 uses $\\epsilon$" = .ok chosenIndex := by
    decide +kernel
  have one : Built "limit" [.hypothesis (.realDeclaration "l")] declared := .hypothesis .start added rfl
  have two : Built "limit" [.hypothesis (.realDeclaration "l"), .goal (.limit "a" "l")]
      (declaredLimit "l") := .goal one set rfl
  have three : Built "limit" [.hypothesis (.realDeclaration "l"), .goal (.limit "a" "l"),
      .line (.fixTolerance .epsilon "A1")] first := .line two line rfl
  exact .line three line' rfl

/-- The second minted name is new where the user has given only `l`, `ε` and `N`. -/
theorem fresh_chosenIndex : ∃ line line', chosenIndex.proof = [line] ++ line' :: [] ∧
    line'.tactic.hypothesis? = some ("A2" : Text) ∧ chosenIndex.Fresh [line] line'.tactic "A2" := by
  refine ⟨_, _, rfl, rfl, ?_⟩
  have new : ("A2" : Text) ∉ chosenIndex.given (chosenIndex.proof.take 1)
      (.chooseIndex "H1" .epsilon "A1" "N" "A2") := by decide +kernel
  exact (built_chosenIndex.fresh_iff rfl rfl (by decide)).2.mpr new

/-- A limit that is called as the first minted name has its name taken away. -/
theorem not_fresh : ¬∀ (name hyp : Text) (es : List Entry) (s : Session)
    (earlier later : List ProofLine) (line : ProofLine), Built name es s →
      s.proof = earlier ++ line :: later → line.tactic.hypothesis? = some hyp →
      (minted earlier).length < UInt32.size - 1 → s.Fresh earlier line.tactic hyp := by
  intro fresh
  let declared : Session := { name := "limit", hypotheses := [.realDeclaration "A1"],
                              context := Context.empty.declare (.realDeclaration "A1") }
  let fixed := (declaredLimit "A1").followedBy (.fixTolerance .epsilon "A1")
  have ⟨added, set, line⟩ :
      (Session.start "limit").addHypothesis "$A1 \\in \\mathbb\x7bR\x7d$" = .ok declared ∧
      declared.setGoal "$a_n \\rightarrow A1$" = .ok (declaredLimit "A1") ∧
      (declaredLimit "A1").addLine "Let $\\epsilon$" = .ok fixed := by decide +kernel
  have one : Built "limit" [.hypothesis (.realDeclaration "A1")] declared :=
    .hypothesis .start added rfl
  have two : Built "limit" [.hypothesis (.realDeclaration "A1"), .goal (.limit "a" "A1")]
      (declaredLimit "A1") := .goal one set rfl
  have built : Built "limit" [.hypothesis (.realDeclaration "A1"), .goal (.limit "a" "A1"),
      .line (.fixTolerance .epsilon "A1")] fixed := .line two line rfl
  have new := fresh "limit" "A1" _ _ [] [] _ built rfl rfl (by decide)
  exact new.declared (.realDeclaration "A1") List.mem_cons_self List.mem_cons_self

end Session
end ProofDesk.Limits
