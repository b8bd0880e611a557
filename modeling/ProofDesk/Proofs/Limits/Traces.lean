import ProofDesk.Proofs.Limits.Anonymous
import ProofDesk.Proofs.Limits.Matching

/-!
Matching in place gives what reading gives, and a match that fails leaves the context as it was.
Parts of statements are never declarations, so whatever a candidate does before it fails, it only
looks at the context; a tactic that names a hypothesis does so when nothing can fail any more.
-/

namespace ProofDesk.Limits

open Text (splits)

namespace Matching

variable {α β : Type} {ctx : Context}

@[simp]
theorem on_pure (a : α) : (pure a : Matching α).on ctx = (some a, ctx) := rfl

@[simp]
theorem on_lift (x : Option α) : (lift x).on ctx = (x, ctx) := rfl

@[simp]
theorem on_look (question : Context → Option α) : (look question).on ctx = (question ctx, ctx) := rfl

@[simp]
theorem on_change (f : Context → Context) : (change f).on ctx = (some ⟨⟩, f ctx) := rfl

theorem on_bind (m : Matching α) (f : α → Matching β) : (m >>= f).on ctx =
    match m.on ctx with
    | (some a, after) => (f a).on after
    | (none, after) => (none, after) := by
  unfold on
  rw [OptionT.run_bind, Option.elimM, StateT.run_bind]
  change (match m.run.run ctx with | (x, after) => _) = _
  rcases m.run.run ctx with ⟨_ | _, after⟩ <;> rfl

@[simp]
theorem on_map (f : α → β) (m : Matching α) :
    (f <$> m).on ctx = ((m.on ctx).1.map f, (m.on ctx).2) := by
  rw [map_eq_pure_bind, on_bind]
  rcases m.on ctx with ⟨_ | _, after⟩ <;> rfl

theorem on_orElse (m m' : Matching α) : (m <|> m').on ctx =
    match m.on ctx with
    | (some a, after) => (some a, after)
    | (none, after) => m'.on after := by
  unfold on
  rw [OptionT.run_orElse, Option.elimM, StateT.run_bind]
  change (match m.run.run ctx with | (x, after) => _) = _
  rcases m.run.run ctx with ⟨_ | _, after⟩ <;> rfl

/-- What a match amounts to that leaves the context as it was unless it succeeds. -/
def settled (ctx : Context) : Option (α × Context) → Option α × Context
  | some (a, after) => (some a, after)
  | none => (none, ctx)

/-- A match that gives the outcome of a reader. -/
def Gives (m : Matching α) (ctx : Context) (outcome : Option (α × Context)) : Prop :=
  m.on ctx = settled ctx outcome

/-- A match that only looks at the context. -/
def Reads (m : Matching α) (ctx : Context) (x : Option α) : Prop := m.on ctx = (x, ctx)

theorem Reads.gives {m : Matching α} {x : Option α} (reads : m.Reads ctx x) :
    m.Gives ctx (x.map fun a => (a, ctx)) := by
  unfold Gives
  rw [reads]
  cases x <;> rfl

theorem Reads.bind_gives {m : Matching α} {x : Option α} {f : α → Matching β}
    {outcome : α → Option (β × Context)} (reads : m.Reads ctx x)
    (rest : ∀ a, x = some a → (f a).Gives ctx (outcome a)) :
    (m >>= f).Gives ctx (x.bind outcome) := by
  unfold Gives
  rw [on_bind, reads]
  cases x with
  | none => rfl
  | some a => exact rest a rfl

theorem Reads.bind {m : Matching α} {x : Option α} {f : α → Matching β} {y : α → Option β}
    (reads : m.Reads ctx x) (rest : ∀ a, (f a).Reads ctx (y a)) :
    (m >>= f).Reads ctx (x.bind y) := by
  unfold Reads
  rw [on_bind, reads]
  cases x with
  | none => rfl
  | some a => exact rest a

theorem reads_lift (x : Option α) : (lift x).Reads ctx x := rfl

theorem look_gives {question : Context → Option α} {after : α → Context}
    (kept : ∀ a, question ctx = some a → after a = ctx) :
    (look question).Gives ctx ((question ctx).map fun a => (a, after a)) := by
  unfold Gives
  rw [on_look]
  cases found : question ctx with
  | none => rfl
  | some a =>
    rw [Option.map_some, kept a found]
    rfl

theorem first_cons_on (candidate : β → Matching α) (b : β) (bs : List β) :
    (first candidate (b :: bs)).on ctx =
      match (candidate b).on ctx with
      | (some a, after) => (some a, after)
      | (none, after) => (first candidate bs).on after :=
  on_orElse (candidate b) (first candidate bs)

/-- Candidates that fail without a trace leave the context to the next ones. -/
theorem first_gives {candidate : β → Matching α} {outcome : β → Option (α × Context)} {bs : List β}
    (each : ∀ b ∈ bs, (candidate b).Gives ctx (outcome b)) :
    (first candidate bs).Gives ctx (bs.findSome? outcome) := by
  induction bs with
  | nil => rfl
  | cons b bs ih =>
    obtain ⟨head, tail⟩ := List.forall_mem_cons.mp each
    unfold Gives at head ⊢
    rw [first_cons_on, head, List.findSome?_cons]
    cases outcome b with
    | none => exact ih tail
    | some result => rfl

theorem first_reads {candidate : β → Matching α} {x : β → Option α} {bs : List β}
    (each : ∀ b ∈ bs, (candidate b).Reads ctx (x b)) :
    (first candidate bs).Reads ctx (bs.findSome? x) := by
  have gives := first_gives fun b member => (each b member).gives
  have answers : (bs.findSome? fun b => (x b).map fun a => (a, ctx)) =
      (bs.findSome? x).map fun a => (a, ctx) := List.map_findSome?.symm
  unfold Gives at gives
  unfold Reads
  rw [gives, answers]
  cases bs.findSome? x <;> rfl

end Matching

open Matching (Reads Gives)

namespace Statement

theorem isDeclaration_eq_false_iff {v : Statement} :
    v.isDeclaration = false ↔ v.kind ∉ Kind.declarations := by
  cases v <;> simp [isDeclaration, kind, Kind.declarations]

end Statement

theorem Context.declare_eq_self (ctx : Context) {v : Statement} (plain : v.isDeclaration = false) :
    ctx.declare v = ctx := by
  cases v <;> first | rfl | cases plain

section Headers

variable (header : Template) (body : Text → Option Statement) (s : Text)

theorem forAll?_eq_bind : forAll? header body s =
    (underHeader? header body s).bind fun (names, v) => Statement.forAllOf? names v := by
  rw [forAll?]
  rcases underHeader? header body s with _ | ⟨_ | ⟨x, _ | ⟨y, names⟩⟩, v⟩ <;> rfl

theorem forAllFrom?_eq_bind : forAllFrom? header body s =
    (underHeader? header body s).bind fun (names, v) => Statement.forAllFromOf? names v := by
  rw [forAllFrom?]
  rcases underHeader? header body s with _ | ⟨_ | ⟨x, _ | ⟨y, _ | ⟨z, names⟩⟩⟩, v⟩ <;> rfl

theorem thereIs?_eq_bind : thereIs? header body s =
    (underHeader? header body s).bind fun (names, v) => Statement.thereIsOf? names v := by
  rw [thereIs?]
  rcases underHeader? header body s with _ | ⟨_ | ⟨x, _ | ⟨y, names⟩⟩, v⟩ <;> rfl

end Headers

namespace Grammar

variable {g : Grammar} {ctx : Context} {part plain : Kind → Text → Matching Statement}
  {read reader : Kind → Text → Option Statement} {s : Text} {k : Kind}

/-- Parts that none of the kinds leaves a trace of. -/
def PartsRead (part : Kind → Text → Matching Statement) (ctx : Context) (kinds : List Kind)
    (reader : Kind → Text → Option Statement) : Prop :=
  ∀ t, (matchPart part kinds t).Reads ctx (first? reader kinds t)

theorem matchAround_reads {α : Type} {kinds : List Kind} {join : Statement → α → Statement → Statement}
    (parts : PartsRead part ctx kinds reader) (cuts : List (Text × α × Text)) :
    (matchAround part kinds join cuts).Reads ctx
      (cuts.findSome? (readAround (first? reader kinds) join)) := by
  apply Matching.first_reads
  rintro ⟨left, a, right⟩ -
  apply (parts left).bind
  intro l
  exact (parts right).bind fun r => rfl

theorem matchUnder_reads {c : Candidates} {header : Template}
    {join? : List Text → Statement → Option Statement}
    (parts : PartsRead part ctx c.bodies reader) :
    (matchUnder c part header join? s).Reads ctx
      ((underHeader? header (first? reader c.bodies) s).bind fun (names, v) => join? names v) := by
  have steps : ((underHeader? header (first? reader c.bodies) s).bind
      fun (names, v) => join? names v) =
      (headerOf? header s).bind fun found =>
        (first? reader c.bodies found.2).bind fun v => join? found.1 v := by
    simp [underHeader?, Option.bind_assoc]
  rw [steps]
  apply (Matching.reads_lift _).bind
  rintro ⟨names, rest⟩
  exact (parts rest).bind fun v => rfl

theorem matchStep_reads (own : (plain k s).Reads ctx (read k s))
    (parts : ∀ k ∉ Kind.declarations, ∀ t, (part k t).Reads ctx (reader k t)) :
    (g.matchStep .listed part plain k s).Reads ctx (g.step read reader .listed k s) := by
  have listed (kinds : List Kind) (given : ∀ k ∈ kinds, k ∉ Kind.declarations) :
      PartsRead part ctx kinds reader :=
    fun t => Matching.first_reads fun k member => parts k (given k member) t
  have leaves := listed Candidates.listed.leaves (by decide)
  have sides := listed Candidates.listed.sides (by decide)
  have bodies := listed Candidates.listed.bodies (by decide)
  cases k with
  | arithmetic => exact matchAround_reads leaves _
  | inequality => exact matchAround_reads sides _
  | conjunction =>
    rw [step, conjunction?_eq, matchStep]
    exact matchAround_reads bodies _
  | distance =>
    apply (Matching.reads_lift _).bind
    rintro ⟨left, right⟩
    apply (leaves left).bind
    intro l
    exact (leaves right).bind fun r => rfl
  | forAll =>
    rw [step, forAll?_eq_bind]
    exact matchUnder_reads bodies
  | forAllFrom =>
    rw [step, forAllFrom?_eq_bind]
    exact matchUnder_reads bodies
  | thereIs =>
    rw [step, thereIs?_eq_bind]
    exact matchUnder_reads bodies
  | _ => exact own

theorem matchWithin_reads {n : Nat}
    (own : ∀ k ∉ Kind.declarations, ∀ s, (plain k s).Reads ctx (read k s))
    (kept : k ∉ Kind.declarations) :
    (g.matchWithin .listed plain n k s).Reads ctx (g.read? read .listed n k s) := by
  induction n generalizing k s with
  | zero => rfl
  | succ n ih => exact matchStep_reads (own k kept s) fun k kept t => ih kept

theorem matchWithin_declaration {c : Candidates} (declares : k ∈ Kind.declarations) (n : Nat) :
    g.matchWithin c plain (n + 1) k s = plain k s := by
  cases k <;> first | rfl | exact absurd declares (by decide)

theorem read?_listed (cuts : g.Cuts)
    (fixed : ∀ k s, reader k s = g.step reader reader .listed k s) (k : Kind) (s : Text) :
    g.read? reader .listed (s.length + 1) k s = reader k s :=
  read?_eq cuts fixed (fun _ => rfl) (fun _ => rfl) (fun _ => rfl) (Nat.lt_succ_self _)

end Grammar

section Statements

variable {ctx : Context} {read : Kind → Context → Text → Option Statement} {k : Kind} {s : Text}

theorem matchPlain_reads (kept : k ∉ Kind.declarations) :
    (matchPlain read k s).Reads ctx (read k ctx s) := by
  unfold Reads matchPlain
  rw [Matching.on_bind, Matching.on_look]
  cases read k ctx s with
  | none => rfl
  | some v => simp [kept]

theorem matchPlain_gives (declares : k ∈ Kind.declarations) :
    (matchPlain read k s).Gives ctx ((read k ctx s).map (declared ctx)) := by
  unfold Gives matchPlain
  rw [Matching.on_bind, Matching.on_look]
  cases read k ctx s with
  | none => rfl
  | some v => simp [declares, Matching.settled, declared]

theorem map_declared_eq {read : Option Statement} (silent : ∀ v, read = some v → ctx.declare v = ctx) :
    read.map (declared ctx) = read.map fun v => (v, ctx) := by
  cases read with
  | none => rfl
  | some v => rw [Option.map_some, Option.map_some, declared, silent v rfl]

namespace Kind

theorem matchMath_reads (kept : k ∉ declarations) : (k.matchMath s).Reads ctx (k.math? ctx s) := by
  have reads : (k.matchMath s).Reads ctx
      (Natural.grammar.read? (fun k => k.math? ctx) .listed (s.length + 1) k s) :=
    Grammar.matchWithin_reads (fun _ kept _ => matchPlain_reads kept) kept
  rw [Grammar.read?_listed Natural.grammar_cuts (Natural.math?_eq_step ctx)] at reads
  exact reads

theorem matchFormal_reads (kept : k ∉ declarations) :
    (k.matchFormal s).Reads ctx (k.formal? ctx s) := by
  have reads : (k.matchFormal s).Reads ctx
      (Formal.grammar.read? (fun k => k.formal? ctx) .listed (s.length + 1) k s) :=
    Grammar.matchWithin_reads (fun _ kept _ => matchPlain_reads kept) kept
  rw [Grammar.read?_listed Formal.grammar_cuts (Formal.formal?_eq_step ctx)] at reads
  exact reads

theorem matchNatural_reads (kept : k ∉ declarations) (inMath : Bool) :
    (k.matchNatural inMath s).Reads ctx (k.natural? ctx inMath s) := by
  have other : k ≠ sequenceDeclaration := by
    rintro rfl
    exact kept (by decide)
  rw [matchNatural, natural?, if_neg other, if_neg other]
  exact (Matching.reads_lift _).bind fun t => matchMath_reads kept

theorem matchFormal_gives (k : Kind) (ctx : Context) (s : Text) :
    (k.matchFormal s).Gives ctx (k.readFormal? ctx s) := by
  by_cases declares : k ∈ declarations
  · rw [matchFormal, Grammar.matchWithin_declaration declares]
    exact matchPlain_gives declares
  · rw [readFormal?, map_declared_eq]
    · exact (matchFormal_reads declares).gives
    · intro v read
      apply ctx.declare_eq_self
      rw [Statement.isDeclaration_eq_false_iff, (formed_of_formal? read).1]
      exact declares

theorem matchNatural_gives (k : Kind) (ctx : Context) (inMath : Bool) (s : Text) :
    (k.matchNatural inMath s).Gives ctx (k.readNatural? ctx inMath s) := by
  by_cases declares : k ∈ declarations
  · by_cases sequences : k = sequenceDeclaration
    · rw [matchNatural, readNatural?, natural?, if_pos sequences, if_pos sequences]
      unfold Gives
      rw [Matching.on_bind, Matching.on_lift]
      cases Natural.readSequences? s with
      | none => rfl
      | some v => simp [Matching.settled, declared]
    · rw [matchNatural, readNatural?, natural?, if_neg sequences, if_neg sequences, Option.map_bind]
      apply (Matching.reads_lift _).bind_gives
      intro t _
      rw [matchMath, Grammar.matchWithin_declaration declares]
      exact matchPlain_gives declares
  · rw [readNatural?, map_declared_eq]
    · exact (matchNatural_reads declares inMath).gives
    · intro v read
      apply ctx.declare_eq_self
      rw [Statement.isDeclaration_eq_false_iff, (legible_of_natural? read).1]
      exact declares

end Kind
end Statements
end ProofDesk.Limits
