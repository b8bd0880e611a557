import ProofDesk.Proofs.Limits.FormalKinds
import ProofDesk.Proofs.Limits.TacticDispatch
import ProofDesk.Proofs.Limits.TacticSoundness

/-!
A session can be rebuilt from its own formal text.  Whatever it accepted in natural language is read
back from the formal text in the context where it was accepted, and leaves the same context.  What
carries this along a run is that the counter of anonymous hypotheses is not behind as long as there
are numbers left.
-/

namespace ProofDesk.Limits

/-- What a session accepts. -/
inductive Entry where
  | hypothesis (v : Statement)
  | goal (v : Statement)
  | line (t : Tactic)

inductive Telling where
  | hypothesis (text : Text)
  | goal (text : Text)
  | line (text : Text)

namespace Entry

def formal : Entry → Telling
  | hypothesis v => .hypothesis v.formal
  | goal v => .goal v.formal
  | line t => .line t.formal

/-- Nothing in an entry has a meaning of its own in formal text. -/
def Ordinary : Entry → Prop
  | hypothesis v | goal v => ¬v.NamesTolerance
  | line t => t.Ordinary

end Entry

def Session.retell? (s : Session) : Telling → Option Session
  | .hypothesis text => do
    let (v, ctx) ← readFormal? Kind.all s.context text
    return { s with hypotheses := s.hypotheses ++ [v], context := ctx }
  | .goal text => do
    let (v, ctx) ← readFormal? Kind.all s.context text
    let ctx := { ctx with goal := some v }
    return { s with goal := some v, initialContext := ctx, context := ctx }
  | .line text => do
    let (t, ctx) ← Tactic.readFormal? s.context text
    let ctx := ctx.advance t
    return { s with proof := s.proof ++ [⟨t, ctx⟩], context := ctx }

namespace Session

variable {s s' : Session} {text : Text}

theorem addHypothesis_eq_ok (added : s.addHypothesis text = .ok s') : ∃ v ctx,
    readNatural? Kind.hypotheses s.context false (prepare text) = some (v, ctx) ∧
      s' = { s with hypotheses := s.hypotheses ++ [v], context := ctx } := by
  unfold addHypothesis at added
  split at added
  · cases added
  · next v ctx read =>
    cases added
    exact ⟨v, ctx, read, rfl⟩

theorem setGoal_eq_ok (set : s.setGoal text = .ok s') : ∃ v ctx,
    readNatural? Kind.goals s.context false (prepare text) = some (v, ctx) ∧
      s' = { s with goal := some v, initialContext := { ctx with goal := some v },
                    context := { ctx with goal := some v } } := by
  unfold setGoal at set
  split at set
  · cases set
  · next v ctx read =>
    cases set
    exact ⟨v, ctx, read, rfl⟩

theorem addLine_eq_ok (added : s.addLine text = .ok s') : ∃ t ctx,
    Tactic.readNatural? s.context (prepare text) = some (t, ctx) ∧
      s' = { s with proof := s.proof ++ [⟨t, ctx.advance t⟩], context := ctx.advance t } := by
  unfold addLine at added
  split at added
  · cases added
  · split at added
    · cases added
    · next t ctx read =>
      cases added
      exact ⟨t, ctx, read, rfl⟩

end Session

variable {ctx ctx' : Context} {s : Text}

theorem sound_of_readNatural? {kinds : List Kind} {inMath : Bool} {v : Statement}
    (read : readNatural? kinds ctx inMath s = some (v, ctx')) :
    v.kind ∈ kinds ∧ ctx' = ctx.declare v ∧ (¬v.NamesTolerance → v.Formed ctx) := by
  obtain ⟨k, member, found, left⟩ := exists_kind_of_read read
  obtain ⟨rfl, formed⟩ := Kind.formed_of_natural? found
  exact ⟨member, left, formed⟩

theorem Tactic.sound_of_readNatural? {t : Tactic} {used : Nat → Prop}
    (numbered : ctx.Numbered used) (read : Tactic.readNatural? ctx s = some (t, ctx')) :
    ctx' = ctx.afterNatural t ∧ t.NamedBy ctx ∧ (t.Ordinary → t.Formed ctx) := by
  obtain ⟨k, -, found, left⟩ := exists_kind_of_read read
  exact ⟨left, TacticKind.sound_of_natural? numbered found⟩

/-- Sessions that successful operations make of a new one, with the entries they accepted. -/
inductive Session.Built (name : Text) : List Entry → Session → Prop where
  | start : Built name [] (.start name)
  | hypothesis {es : List Entry} {s s' : Session} {text : Text} {v : Statement} (built : Built name es s)
    (added : s.addHypothesis text = .ok s') (entry : s'.hypotheses = s.hypotheses ++ [v]) :
    Built name (es ++ [.hypothesis v]) s'
  | goal {es : List Entry} {s s' : Session} {text : Text} {v : Statement} (built : Built name es s)
    (set : s.setGoal text = .ok s') (entry : s'.goal = some v) : Built name (es ++ [.goal v]) s'
  | line {es : List Entry} {s s' : Session} {text : Text} {t : Tactic} (built : Built name es s)
    (added : s.addLine text = .ok s') (entry : s'.proof = s.proof ++ [⟨t, s'.context⟩]) :
    Built name (es ++ [.line t]) s'

/-- The counter counts the names that were minted, modulo the size of its numbers, and whatever comes
with a name is called by a number that it has had. -/
theorem Session.Built.numbered {name : Text} {es : List Entry} {s : Session}
    (built : Session.Built name es s) :
    s.context.anonymous = UInt32.ofNat (minted s.proof).length ∧
      s.context.Numbered fun n => ∃ k ≤ (minted s.proof).length, n = (UInt32.ofNat k).toNat := by
  induction built with
  | start => exact ⟨rfl, Context.numbered_empty⟩
  | hypothesis _ added _ ih =>
    obtain ⟨v, ctx, read, rfl⟩ := addHypothesis_eq_ok added
    obtain ⟨-, rfl, -⟩ := sound_of_readNatural? read
    exact ⟨(Context.anonymous_declare _ v).trans ih.1, ih.2.declare v⟩
  | goal _ set _ ih =>
    obtain ⟨v, ctx, read, rfl⟩ := setGoal_eq_ok set
    obtain ⟨-, rfl, -⟩ := sound_of_readNatural? read
    exact ⟨(Context.anonymous_declare _ v).trans ih.1, (ih.2.declare v).setGoal _⟩
  | @line es s _ _ _ _ added _ ih =>
    obtain ⟨count, numbered⟩ := ih
    obtain ⟨t, ctx, read, rfl⟩ := addLine_eq_ok added
    obtain ⟨rfl, named, -⟩ := Tactic.sound_of_readNatural? numbered read
    have next : s.context.anonymous + 1 = UInt32.ofNat ((minted s.proof).length + 1) := by
      rw [count, UInt32.ofNat_add]
      rfl
    dsimp only
    rw [minted_concat, Context.anonymous_advance, Context.anonymous_afterNatural]
    cases own : t.hypothesis? with
    | none =>
      have kept := numbered.afterNatural named (by simp [own])
      simpa using ⟨count, kept.advance t⟩
    | some hyp =>
      rw [Option.isSome_some, if_pos rfl, Option.toList_some, List.length_append,
        List.length_singleton]
      refine ⟨next, Context.Numbered.advance ?_ t⟩
      apply Context.Numbered.afterNatural (numbered.mono ?_) named
      · intro _
        exact ⟨_, Nat.le_refl _, congrArg UInt32.toNat next⟩
      · rintro n ⟨k, before, same⟩
        exact ⟨k, Nat.le_succ_of_le before, same⟩

/-- As long as fewer names are minted than there are numbers, the counter is not behind a hypothesis
in use. -/
theorem Session.Built.covered {name : Text} {es : List Entry} {s : Session}
    (built : Session.Built name es s) (room : (minted s.proof).length < UInt32.size - 1) :
    s.context.HasRoom ∧ s.context.Numbered (· ≤ s.context.anonymous.toNat) := by
  obtain ⟨count, numbered⟩ := built.numbered
  have fits (k : Nat) (before : k ≤ (minted s.proof).length) : (UInt32.ofNat k).toNat = k :=
    UInt32.toNat_ofNat_of_lt' (by omega)
  have counted : s.context.anonymous.toNat = (minted s.proof).length := by
    rw [count, fits _ (Nat.le_refl _)]
  constructor
  · rw [Context.HasRoom, counted]
    exact room
  · rw [counted]
    apply numbered.mono
    rintro n ⟨k, before, rfl⟩
    rw [fits k before]
    exact before

theorem readFormal?_natural_iff {kinds : List Kind} {v : Statement}
    (whole : ∀ k ∈ kinds, k ∈ Kind.hypotheses ∨ k ∈ Kind.goals)
    (read : readNatural? kinds ctx false s = some (v, ctx')) (after : Context) :
    readFormal? Kind.all ctx v.formal = some (v, after) ↔ ¬v.NamesTolerance ∧ after = ctx' := by
  obtain ⟨member, rfl, formed⟩ := sound_of_readNatural? read
  constructor
  · intro again
    obtain ⟨k, -, found, left⟩ := exists_kind_of_read again
    obtain ⟨-, formed', -⟩ := Kind.formal?_eq_some_iff.mp found
    refine ⟨formed'.not_namesTolerance ?_, left⟩
    intro kind
    have known := whole _ member
    rw [kind] at known
    revert known
    decide
  · rintro ⟨plain, rfl⟩
    exact (formed plain).readFormal?_all (whole _ member)

theorem Tactic.readFormal?_natural_iff {t : Tactic}
    (covered : ctx.HasRoom ∧ ctx.Numbered (· ≤ ctx.anonymous.toNat))
    (read : Tactic.readNatural? ctx s = some (t, ctx')) (after : Context) :
    Tactic.readFormal? ctx t.formal = some (t, after) ↔ t.Ordinary ∧ after = ctx' := by
  obtain ⟨room, numbered⟩ := covered
  obtain ⟨rfl, named, formed⟩ := Tactic.sound_of_readNatural? numbered read
  have same : ctx.afterFormal t = ctx.afterNatural t :=
    Context.afterFormal_eq_afterNatural numbered room named
  constructor
  · intro again
    obtain ⟨k, -, found, left⟩ := exists_kind_of_read again
    obtain ⟨-, formed', -⟩ := TacticKind.formed_of_formal? found
    exact ⟨formed'.ordinary, left.trans same⟩
  · rintro ⟨ordinary, rfl⟩
    rw [← same]
    exact (formed ordinary).readFormal?_all

namespace Session

variable {name : Text} {es : List Entry} {s : Session}

theorem foldlM_retell?_concat {start s s' : Session} {es : List Entry} {e : Entry}
    (before : (es.map Entry.formal).foldlM retell? start = some s)
    (last : s.retell? e.formal = some s') :
    ((es ++ [e]).map Entry.formal).foldlM retell? start = some s' := by
  rw [List.map_append, List.foldlM_append, before]
  simpa using last

theorem Built.rebuilt (built : Built name es s) (ordinary : ∀ e ∈ es, e.Ordinary)
    (room : (minted s.proof).length < UInt32.size - 1) :
    (es.map Entry.formal).foldlM retell? (.start name) = some s := by
  induction built with
  | start => rfl
  | @hypothesis es s _ _ v _ added entry ih =>
    obtain ⟨earlier, last⟩ := List.forall_mem_append.mp ordinary
    obtain ⟨w, ctx, read, rfl⟩ := addHypothesis_eq_ok added
    obtain rfl : w = v := by simpa using entry
    have plain : ¬w.NamesTolerance := last (.hypothesis w) (by simp)
    have again := (readFormal?_natural_iff (fun _ => Or.inl) read ctx).mpr ⟨plain, rfl⟩
    obtain ⟨-, rfl, -⟩ := sound_of_readNatural? read
    have before := ih earlier room
    apply foldlM_retell?_concat before
    simp [Entry.formal, retell?, again]
  | @goal es s _ _ v _ set entry ih =>
    obtain ⟨earlier, last⟩ := List.forall_mem_append.mp ordinary
    obtain ⟨w, ctx, read, rfl⟩ := setGoal_eq_ok set
    obtain rfl : w = v := by simpa using entry
    have plain : ¬w.NamesTolerance := last (.goal w) (by simp)
    have again := (readFormal?_natural_iff (fun _ => Or.inr) read ctx).mpr ⟨plain, rfl⟩
    obtain ⟨-, rfl, -⟩ := sound_of_readNatural? read
    have before := ih earlier room
    apply foldlM_retell?_concat before
    simp [Entry.formal, retell?, again]
  | @line es s _ _ t built added entry ih =>
    obtain ⟨earlier, last⟩ := List.forall_mem_append.mp ordinary
    obtain ⟨u, ctx, read, rfl⟩ := addLine_eq_ok added
    obtain rfl : u = t := by simpa using entry
    have left : (minted s.proof).length < UInt32.size - 1 := by
      rw [minted_append, List.length_append] at room
      omega
    -- formal text names the hypothesis of a line, so here the counter must not be behind
    have covered := built.covered left
    obtain ⟨rfl, -, -⟩ := Tactic.sound_of_readNatural? covered.2 read
    have ordinaryLine : u.Ordinary := last (.line u) (by simp)
    have again := (Tactic.readFormal?_natural_iff covered read _).mpr ⟨ordinaryLine, rfl⟩
    have before := ih earlier left
    apply foldlM_retell?_concat before
    simp [Entry.formal, retell?, again]

/-- A session is rebuilt from the formal text of its entries.  For whatever its next operation accepts
is read back in the context where it was accepted, and that leaves the context which reading natural
language left.  The exceptions are identifiers named like the tolerance and citations of what is
called as a justification begins.  Fewer names have been minted than there are numbers. -/
theorem Built.accepted_iff_reread (built : Built name es s)
    (room : (minted s.proof).length < UInt32.size - 1) :
    ((∀ e ∈ es, e.Ordinary) →
      (es.map Entry.formal).foldlM retell? (.start name) = some s) ∧
    (∀ text s', s.addHypothesis text = .ok s' → ∃ v ctx,
      readNatural? Kind.hypotheses s.context false (prepare text) = some (v, ctx) ∧
      s' = { s with hypotheses := s.hypotheses ++ [v], context := ctx } ∧
      ∀ after, readFormal? Kind.all s.context v.formal = some (v, after) ↔
        ¬v.NamesTolerance ∧ after = ctx) ∧
    (∀ text s', s.setGoal text = .ok s' → ∃ v ctx,
      readNatural? Kind.goals s.context false (prepare text) = some (v, ctx) ∧
      s' = { s with goal := some v, initialContext := { ctx with goal := some v },
                    context := { ctx with goal := some v } } ∧
      ∀ after, readFormal? Kind.all s.context v.formal = some (v, after) ↔
        ¬v.NamesTolerance ∧ after = ctx) ∧
    ∀ text s', s.addLine text = .ok s' → ∃ t ctx,
      Tactic.readNatural? s.context (prepare text) = some (t, ctx) ∧
      s' = { s with proof := s.proof ++ [⟨t, ctx.advance t⟩], context := ctx.advance t } ∧
      ∀ after, Tactic.readFormal? s.context t.formal = some (t, after) ↔
        (¬t.NamesTolerance ∧ ¬t.CitesBy) ∧ after = ctx := by
  refine ⟨fun ordinary => built.rebuilt ordinary room, ?_, ?_, ?_⟩
  · intro text s' added
    obtain ⟨v, ctx, read, same⟩ := addHypothesis_eq_ok added
    exact ⟨v, ctx, read, same, readFormal?_natural_iff (fun _ => Or.inl) read⟩
  · intro text s' set
    obtain ⟨v, ctx, read, same⟩ := setGoal_eq_ok set
    exact ⟨v, ctx, read, same, readFormal?_natural_iff (fun _ => Or.inr) read⟩
  · intro text s' added
    obtain ⟨t, ctx, read, same⟩ := addLine_eq_ok added
    exact ⟨t, ctx, read, same, Tactic.readFormal?_natural_iff (built.covered room) read⟩

def fixedTolerance : Session :=
  let before : Context := { goal := some (.limit "a" "l") }
  let t : Tactic := .fixTolerance .epsilon "A1"
  let after := (before.afterNatural t).advance t
  { name := "limit", goal := some (.limit "a" "l"), initialContext := before, context := after,
    proof := [⟨t, after⟩] }

theorem built_fixedTolerance :
    Built "limit" [.goal (.limit "a" "l"), .line (.fixTolerance .epsilon "A1")] fixedTolerance := by
  let before : Context := { goal := some (.limit "a" "l") }
  let s : Session := { name := "limit", goal := before.goal, initialContext := before,
                       context := before }
  have ⟨set, added⟩ : (Session.start "limit").setGoal "$a_n \\rightarrow l$" = .ok s ∧
      s.addLine "Let $\\epsilon$" = .ok fixedTolerance := by decide +kernel
  have first : Built "limit" [.goal (.limit "a" "l")] s := .goal .start set rfl
  exact .line first added rfl

/-- The hypothesis about the tolerance is told, and the next one is counted on from it. -/
theorem accepted_iff_reread_fixedTolerance :
    (minted fixedTolerance.proof).length < UInt32.size - 1 ∧
      [Telling.goal "is_limit a l", .line "intros ε A1"].foldlM retell? (.start "limit") =
        some fixedTolerance ∧
      ∃ s', fixedTolerance.addLine "Let's choose $N$ such that h uses $\\epsilon$" = .ok s' ∧
        ∀ after, Tactic.readFormal? fixedTolerance.context "cases h ε A1 with N A2" =
          some (.chooseIndex "h" .epsilon "A1" "N" "A2", after) ↔ after = s'.context := by
  have room : (minted fixedTolerance.proof).length < UInt32.size - 1 := by decide
  let t : Tactic := .chooseIndex "h" .epsilon "A1" "N" "A2"
  let ctx := fixedTolerance.context.afterNatural t
  let s' : Session :=
    { fixedTolerance with proof := fixedTolerance.proof ++ [⟨t, ctx⟩], context := ctx }
  have ⟨added, natural⟩ :
      fixedTolerance.addLine "Let's choose $N$ such that h uses $\\epsilon$" = .ok s' ∧
      Tactic.readNatural? fixedTolerance.context
        (prepare "Let's choose $N$ such that h uses $\\epsilon$") = some (t, ctx) := by
    decide +kernel
  have entries : ∀ e ∈ [Entry.goal (.limit "a" "l"), .line (.fixTolerance .epsilon "A1")],
      e.Ordinary := by simp [Entry.Ordinary, Tactic.Ordinary, Statement.NamesTolerance,
        Tactic.NamesTolerance, Tactic.CitesBy]
  obtain ⟨rebuilt, -, -, lines⟩ := built_fixedTolerance.accepted_iff_reread room
  obtain ⟨t', ctx', read, -, reread⟩ := lines _ s' added
  rw [natural] at read
  cases read
  refine ⟨room, rebuilt entries, s', added, ?_⟩
  intro after
  have ordinary : ¬t.NamesTolerance ∧ ¬t.CitesBy := ⟨not_false, not_false⟩
  have told := reread after
  rw [and_iff_right ordinary] at told
  exact told

end Session
end ProofDesk.Limits
