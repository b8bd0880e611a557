import ProofDesk.Proofs.Limits.Freshness
import ProofDesk.Proofs.Limits.Traceless

/-!
Anonymous names along everything that may happen to a context, in any order.  As long as there are
numbers left, the counter is not behind the number of a name that was minted or that formal text
brought in, so the name that is minted next is new.  Names are compared as texts and the counter
compares numbers: a name that is not written as anonymous ones are is different anyway.
-/

namespace ProofDesk.Limits

/-- What may happen to a context.  Lines are matched in place, with any list of candidates. -/
inductive Event where
  | add (x : Text) (c : Class)
  | associate (x hyp : Text)
  | observe (name : Text)
  | mint
  | setGoal (goal : Option Statement)
  | naturalStatement (kinds : List Kind) (inMath : Bool) (s : Text)
  | formalStatement (kinds : List Kind) (s : Text)
  | naturalTactic (kinds : List TacticKind) (s : Text)
  | formalTactic (kinds : List TacticKind) (s : Text)

namespace Tactic

/-- The hypotheses that formal text names in a tactic: the one that is used for a tolerance, and the
one that is introduced. -/
def named (t : Tactic) : List Text := t.toleranceHypothesis?.toList ++ t.hypothesis?.toList

end Tactic

namespace Event

def after (ctx : Context) : Event → Context
  | add x c => ctx.add x c
  | associate x hyp => ctx.associate x hyp
  | observe name => ((Matching.observe name).on ctx).2
  | mint => (Matching.mint.on ctx).2
  | setGoal goal => { ctx with goal := goal }
  | naturalStatement kinds inMath s =>
    ((Matching.first (Kind.matchNatural inMath s) kinds).on ctx).2
  | formalStatement kinds s => ((Matching.first (Kind.matchFormal s) kinds).on ctx).2
  | naturalTactic kinds s => ((Matching.first (TacticKind.matchNatural s) kinds).on ctx).2
  | formalTactic kinds s => ((Matching.first (TacticKind.matchFormal s) kinds).on ctx).2

def minted? (ctx : Context) : Event → Option Text
  | mint => (Matching.mint.on ctx).1
  | naturalTactic kinds s =>
    ((Matching.first (TacticKind.matchNatural s) kinds).on ctx).1.bind Tactic.hypothesis?
  | _ => none

/-- The names that were chosen elsewhere. -/
def noted (ctx : Context) : Event → List Text
  | observe name => [name]
  | formalTactic kinds s =>
    (((Matching.first (TacticKind.matchFormal s) kinds).on ctx).1.map Tactic.named).getD []
  | _ => []

end Event

/-- A context with the names that were minted and noted before. -/
structure Naming where
  context : Context := .empty
  minted : List Text := []
  noted : List Text := []

namespace Naming

def follow (r : Naming) (e : Event) : Naming where
  context := e.after r.context
  minted := (e.minted? r.context).toList ++ r.minted
  noted := e.noted r.context ++ r.noted

def ofEvents (events : List Event) : Naming := events.foldl follow {}

end Naming

namespace Context

/-- A name that is not that of a number above the counter. -/
def Counts (ctx : Context) (name : Text) : Prop :=
  ∀ n < UInt32.size, name = anonymousName n → n ≤ ctx.anonymous.toNat

variable {ctx after : Context} {name : Text}

theorem Counts.mono (counts : ctx.Counts name) (later : ctx.anonymous ≤ after.anonymous) :
    after.Counts name :=
  fun n fits same => Nat.le_trans (counts n fits same) (UInt32.le_iff_toNat_le.mp later)

theorem counts_observe (ctx : Context) (name : Text) : (ctx.observe name).Counts name := by
  rintro n fits rfl
  rw [anonymous_observe, anonymousNumber?_anonymousName fits, Option.map_some, Option.getD_some,
    UInt32.toNat_ofNat_of_lt' fits]
  exact Nat.le_max_right _ _

theorem counts_foldl_observe {names : List Text} (member : name ∈ names) (ctx : Context) :
    (names.foldl observe ctx).Counts name := by
  induction names generalizing ctx with
  | nil => cases member
  | cons x names ih =>
    rw [List.foldl_cons]
    rcases List.mem_cons.mp member with rfl | member
    · exact (counts_observe ctx name).mono (UInt32.le_iff_toNat_le.mpr (le_foldl_observe names _))
    · exact ih member _

theorem counts_nextName (next : after.anonymous = ctx.anonymous + 1) :
    after.Counts ctx.nextName := by
  intro n _ same
  have number := anonymousName_inj.mp same
  rw [next, number]

theorem Counts.ne_nextName (counts : ctx.Counts name) (room : ctx.HasRoom) :
    name ≠ ctx.nextName := by
  intro same
  have used := counts _ (ctx.anonymous + 1).toNat_lt same
  rw [room.toNat_succ] at used
  omega

end Context

namespace Event

variable {ctx : Context} {name : Text} {e : Event}

theorem anonymous_le_after (e : Event) (room : ctx.HasRoom) :
    ctx.anonymous ≤ (e.after ctx).anonymous := by
  cases e with
  | add x c => exact UInt32.le_refl _
  | associate x hyp => exact UInt32.le_refl _
  | observe name => exact UInt32.le_iff_toNat_le.mpr (Context.le_foldl_observe [name] ctx)
  | mint => exact UInt32.not_lt.mp (mt Context.anonymous_mint_lt_iff.mp (not_not_intro room))
  | setGoal goal => exact UInt32.le_refl _
  | naturalStatement kinds inMath s =>
    have traceless := Kind.matchNatural_traceless inMath s
    exact traceless.lowersWhen_declared.le_first traceless fun _ => not_false
  | formalStatement kinds s =>
    have traceless := Kind.matchFormal_traceless s
    exact traceless.lowersWhen_declared.le_first traceless fun _ => not_false
  | naturalTactic kinds s =>
    exact (TacticKind.matchNatural_lowersWhen s).le_first (TacticKind.matchNatural_traceless s)
      fun _ both => both.1 room
  | formalTactic kinds s =>
    exact (TacticKind.matchFormal_lowersWhen s).le_first (TacticKind.matchFormal_traceless s)
      fun _ => not_false

theorem minted_eq_next (mints : e.minted? ctx = some name) :
    name = ctx.nextName ∧ (e.after ctx).anonymous = ctx.anonymous + 1 := by
  cases e with
  | mint =>
    cases mints
    exact ⟨rfl, rfl⟩
  | naturalTactic kinds s =>
    obtain ⟨t, matched, own⟩ := Option.bind_eq_some_iff.mp mints
    have ran := (TacticKind.matchNatural_traceless s).readsList kinds ctx
    obtain ⟨after, read⟩ := Matching.exists_of_settled (ran ▸ matched)
    obtain ⟨k, -, natural, rfl⟩ := exists_kind_of_read read
    have legible := (TacticKind.found_of_natural? natural).2.1
    refine ⟨legible.namedBy.1 name own, ?_⟩
    rw [Event.after, ran, read]
    change (ctx.afterNatural t).anonymous = _
    rw [Context.anonymous_afterNatural, own]
    rfl
  | _ => cases mints

theorem counts_noted (member : name ∈ e.noted ctx) : (e.after ctx).Counts name := by
  cases e with
  | observe x =>
    obtain rfl := List.mem_singleton.mp member
    exact Context.counts_observe ctx name
  | formalTactic kinds s =>
    have ran := (TacticKind.matchFormal_traceless s).readsList kinds ctx
    rw [noted, ran] at member
    rw [after, ran]
    cases read : kinds.findSome? fun k => k.readFormal? ctx s with
    | none =>
      rw [read] at member
      cases member
    | some result =>
      obtain ⟨t, after⟩ := result
      obtain ⟨k, -, -, rfl⟩ := exists_kind_of_read read
      rw [read] at member
      have named : name ∈ t.named := member
      apply (Context.counts_foldl_observe named ctx).mono
      exact UInt32.le_of_eq (Context.anonymous_associatePair _ t.association?).symm
  | _ => cases member

end Event

namespace Naming

variable {r : Naming} {name : Text}

/-- Every name that was minted or noted is below the counter, if it is numbered at all. -/
def Counted (r : Naming) : Prop := ∀ x ∈ r.minted ++ r.noted, r.context.Counts x

theorem Counted.follow (counted : r.Counted) (room : r.context.HasRoom) (e : Event) :
    (r.follow e).Counted := by
  have before (x : Text) (member : x ∈ r.minted ++ r.noted) : (r.follow e).context.Counts x :=
    (counted x member).mono (e.anonymous_le_after room)
  intro x member
  rcases List.mem_append.mp member with minted | noted
  · rcases List.mem_append.mp minted with new | old
    · obtain ⟨rfl, next⟩ := Event.minted_eq_next (Option.mem_toList.mp new)
      exact Context.counts_nextName next
    · exact before x (List.mem_append_left _ old)
  · rcases List.mem_append.mp noted with new | old
    · exact Event.counts_noted new
    · exact before x (List.mem_append_right _ old)

theorem ofEvents_concat (events : List Event) (e : Event) :
    ofEvents (events ++ [e]) = (ofEvents events).follow e := List.foldl_concat ..

theorem counted_ofEvents (events : List Event)
    (room : ∀ before, before <+: events → (ofEvents before).context.HasRoom) :
    (ofEvents events).Counted := by
  induction events using List.reverseRecOn with
  | nil =>
    intro x member
    cases member
  | append_singleton events e ih =>
    have stays : ∀ before, before <+: events → (ofEvents before).context.HasRoom :=
      fun before inside => room before (inside.trans (List.prefix_append _ _))
    rw [ofEvents_concat]
    exact (ih stays).follow (stays events (List.prefix_refl _)) e

/-- Whatever has happened to a context, as long as there were numbers left all the time, a name that
is minted is none that was minted, observed or named in a formal tactic before. -/
theorem minted_unused (events : List Event) (e : Event) (name : Text)
    (mints : e.minted? (ofEvents events).context = some name)
    (room : ∀ before, before <+: events → (ofEvents before).context.HasRoom) :
    name ∉ (ofEvents events).minted ∧ name ∉ (ofEvents events).noted := by
  have counted := counted_ofEvents events room
  have last := room events (List.prefix_refl _)
  obtain ⟨rfl, -⟩ := Event.minted_eq_next mints
  constructor
  · intro member
    exact (counted _ (List.mem_append_left _ member)).ne_nextName last rfl
  · intro member
    exact (counted _ (List.mem_append_right _ member)).ne_nextName last rfl

/-- A formal line names a hypothesis, one with leading zeros is observed, and the tactic after them
mints the next name. -/
theorem minted_unused_after_formal :
    let events := [Event.formalTactic TacticKind.all "have A4 := H1 n", .observe "A005"]
    let e := Event.naturalTactic TacticKind.all "Let's choose m in H2"
    e.minted? (ofEvents events).context = some "A6" ∧
      (ofEvents events).noted = ["A005", "A4"] ∧
      ("A6" : Text) ∉ (ofEvents events).minted ∧ ("A6" : Text) ∉ (ofEvents events).noted := by
  intro events e
  have mints : e.minted? (ofEvents events).context = some "A6" := by decide +kernel
  have room : ∀ before ∈ events.inits, (ofEvents before).context.HasRoom := by decide +kernel
  refine ⟨mints, by decide +kernel, minted_unused events e "A6" mints ?_⟩
  intro before inside
  exact room before ((List.mem_inits _ _).mpr inside)

end Naming
end ProofDesk.Limits
