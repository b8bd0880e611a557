import ProofDesk.Proofs.Limits.Candidates

/-!
Matching with one context that every candidate may change in place.  A candidate that fails does not
take back what it has changed, so what the next one sees depends on the order in which each looks,
fails and changes.
-/

namespace ProofDesk.Limits

open Text (splits)

abbrev Matching := OptionT (StateM Context)

namespace Matching

variable {α β : Type}

def on (m : Matching α) (ctx : Context) : Option α × Context := StateT.run (OptionT.run m) ctx

def lift (x : Option α) : Matching α := OptionT.mk fun ctx => (x, ctx)

def look (question : Context → Option α) : Matching α := OptionT.mk fun ctx => (question ctx, ctx)

def change (f : Context → Context) : Matching PUnit := OptionT.mk fun ctx => (some ⟨⟩, f ctx)

def require (gate : Context → Bool) : Matching PUnit :=
  look fun ctx => if gate ctx then some ⟨⟩ else none

def mint : Matching Text := OptionT.mk fun ctx => (some ctx.nextName, ctx.mint)

def observe (name : Text) : Matching PUnit := change fun ctx => ctx.observe name

def associate (x hyp : Text) : Matching PUnit := change fun ctx => ctx.associate x hyp

/-- The first of the candidates that matches; each starts with the context that those before it have
left. -/
def first (candidate : β → Matching α) : List β → Matching α
  | [] => failure
  | b :: bs => candidate b <|> first candidate bs

end Matching

namespace Statement

/-! What quantified statements are made of: the names in their headers and their bodies. -/

def forAllOf? : List Text → Statement → Option Statement
  | [x], v => some (.forAll x v)
  | _, _ => none

def forAllFromOf? : List Text → Statement → Option Statement
  | [var, bound], v => some (.forAllFrom var bound v)
  | _, _ => none

def thereIsOf? : List Text → Statement → Option Statement
  | [x], v => some (.thereIs x v)
  | _, _ => none

end Statement

namespace Grammar

variable (g : Grammar) (c : Candidates) (part : Kind → Text → Matching Statement)

def matchPart (kinds : List Kind) (s : Text) : Matching Statement :=
  Matching.first (fun k => part k s) kinds

def matchAround {α : Type} (kinds : List Kind) (join : Statement → α → Statement → Statement) :
    List (Text × α × Text) → Matching Statement :=
  Matching.first fun (left, a, right) => do
    let l ← matchPart part kinds left
    let r ← matchPart part kinds right
    return join l a r

def matchUnder (header : Template) (join? : List Text → Statement → Option Statement) (s : Text) :
    Matching Statement := do
  let (names, rest) ← Matching.lift (headerOf? header s)
  let v ← matchPart part c.bodies rest
  Matching.lift (join? names v)

/-- Match a compound statement by matching its parts, from left to right. -/
def matchStep (plain : Kind → Text → Matching Statement) (k : Kind) (s : Text) :
    Matching Statement :=
  match k with
  | .arithmetic => matchAround part c.leaves .arithmetic (splits g.operations s)
  | .distance => do
    let (left, right) ← Matching.lift (g.differenceSides? s)
    let l ← matchPart part c.leaves left
    let r ← matchPart part c.leaves right
    return .distance l r
  | .inequality => matchAround part c.sides .inequality (splits g.relations s)
  | .conjunction =>
    matchAround part c.bodies (fun l _ r => .conjunction l r) (splits [(g.separator, ())] s)
  | .forAll => matchUnder c part g.forAllHeader Statement.forAllOf? s
  | .forAllFrom => matchUnder c part g.forAllFromHeader Statement.forAllFromOf? s
  | .thereIs => matchUnder c part g.thereIsHeader Statement.thereIsOf? s
  | k => plain k s

def matchWithin (plain : Kind → Text → Matching Statement) : Nat → Kind → Text → Matching Statement
  | 0, _, _ => failure
  | n + 1, k, s => g.matchStep c (matchWithin plain n) plain k s

end Grammar

/-- Match a statement without parts.  The names that it declares become known as soon as its text has
been read. -/
def matchPlain (read : Kind → Context → Text → Option Statement) (k : Kind) (s : Text) :
    Matching Statement := do
  let v ← Matching.look fun ctx => read k ctx s
  if k ∈ Kind.declarations then Matching.change fun ctx => ctx.declare v
  return v

namespace Kind

def matchMath (k : Kind) (s : Text) : Matching Statement :=
  Natural.grammar.matchWithin .listed (matchPlain math?) (s.length + 1) k s

def matchNatural (inMath : Bool) (s : Text) (k : Kind) : Matching Statement :=
  if k = sequenceDeclaration then do
    let v ← Matching.lift (Natural.readSequences? s)
    Matching.change fun ctx => ctx.declare v
    return v
  else do
    let t ← Matching.lift (Natural.inside? inMath s)
    k.matchMath t

def matchFormal (s : Text) (k : Kind) : Matching Statement :=
  Formal.grammar.matchWithin .listed (matchPlain formal?) (s.length + 1) k s

def idents : List Kind := [epsilon, identifier]

end Kind

namespace Statement

def ident? : Statement → Option Statement
  | identifier x => some (identifier x)
  | epsilon => some epsilon
  | _ => none

end Statement

namespace Natural

def matchIdent (s : Text) : Matching Statement := do
  let v ← Matching.first (Kind.matchNatural true s) Kind.idents
  Matching.lift v.ident?

def matchFixTolerance (s : Text) : Matching Tactic := do
  let text ← Matching.lift (Text.between? fixStart "$" s)
  Matching.require Context.hasLimitGoal
  let ident ← matchIdent text
  let hyp ← Matching.mint
  Matching.associate ident.formal hyp
  return .fixTolerance ident hyp

def matchChooseIndex (s : Text) : Matching Tactic := do
  match ← Matching.lift (chooseIndexHeader.read? s) with
  | ([chosen, limitDef], rest) =>
    let text ← Matching.lift (Text.stripTrailing? "$" rest)
    let eps ← matchIdent text
    let hypEps ← Matching.look fun ctx => ctx.associate? eps.formal
    let hypChosen ← Matching.mint
    Matching.associate chosen hypChosen
    return .chooseIndex limitDef eps hypEps chosen hypChosen
  | _ => failure

def matchByProperties (s : Text) : Matching Tactic := do
  let rest ← Matching.lift ((Text.stripLeading? byPropertiesStart s).filter isLine)
  let sentence ← Kind.inequality.matchNatural false rest
  let hyp ← Matching.mint
  return .byProperties hyp sentence

def matchFixIndex (s : Text) : Matching Tactic := do
  match ← Matching.lift (fixIndexForm.match? s) with
  | [ident] =>
    Matching.require Context.hasIndexGoal
    let hyp ← Matching.mint
    return .fixIndex ident hyp
  | _ => failure

def matchBySentence (s : Text) : Matching Tactic := do
  match ← Matching.lift (beforeTail? " by " [.name, " with ", .name] s) with
  | (left, [source, point]) =>
    let sentence ← Kind.inequality.matchNatural false left
    let hyp ← Matching.mint
    return .bySentence hyp sentence source point
  | _ => failure

def matchChoosePoint (s : Text) : Matching Tactic := do
  match ← Matching.lift (choosePointForm.match? s) with
  | [point, source] =>
    let hyp ← Matching.mint
    return .choosePoint hyp source point
  | _ => failure

end Natural

namespace Formal

def matchIdent (s : Text) : Matching Statement := do
  let v ← Matching.first (Kind.matchFormal s) Kind.idents
  Matching.lift v.ident?

def matchFixTolerance (s : Text) : Matching Tactic := do
  match ← Matching.lift (fixForm.match? s) with
  | [text, hyp] =>
    Matching.require Context.hasLimitGoal
    let ident ← matchIdent text
    Matching.observe hyp
    Matching.associate ident.formal hyp
    return .fixTolerance ident hyp
  | _ => failure

def matchChooseIndex (s : Text) : Matching Tactic := do
  match ← Matching.lift (chooseIndexForm.match? s) with
  | [limitDef, text, hypEps, chosen, hypChosen] =>
    let eps ← matchIdent text
    Matching.observe hypEps
    Matching.observe hypChosen
    Matching.associate chosen hypChosen
    return .chooseIndex limitDef eps hypEps chosen hypChosen
  | _ => failure

def matchByProperties (s : Text) : Matching Tactic := do
  match ← Matching.lift (haveHeader.read? s) with
  | ([hyp], rest) =>
    let text ← Matching.lift ((Text.stripTrailing? byPropertiesEnd rest).filter isLine)
    let sentence ← Kind.inequality.matchFormal text
    Matching.observe hyp
    return .byProperties hyp sentence
  | _ => failure

def matchFixIndex (s : Text) : Matching Tactic := do
  match ← Matching.lift (fixForm.match? s) with
  | [ident, hyp] =>
    Matching.require Context.hasIndexGoal
    Matching.observe hyp
    return .fixIndex ident hyp
  | _ => failure

def matchBySentence (s : Text) : Matching Tactic := do
  match ← Matching.lift (haveHeader.read? s) with
  | ([hyp], rest) =>
    match ← Matching.lift (beforeTail? " := " [.name, " ", .name] rest) with
    | (left, [source, point]) =>
      if source = "by" then failure
      let sentence ← Kind.inequality.matchFormal left
      Matching.observe hyp
      return .bySentence hyp sentence source point
    | _ => failure
  | _ => failure

def matchChoosePoint (s : Text) : Matching Tactic := do
  match ← Matching.lift (choosePointForm.match? s) with
  | [hyp, source, point] =>
    Matching.observe hyp
    return .choosePoint hyp source point
  | _ => failure

end Formal

namespace TacticKind

/-- Match a line in natural language.  Tactics that name no hypothesis leave the context alone. -/
def matchNatural (s : Text) (k : TacticKind) : Matching Tactic :=
  match k with
  | fixTolerance => Natural.matchFixTolerance s
  | chooseIndex => Natural.matchChooseIndex s
  | byProperties => Natural.matchByProperties s
  | fixIndex => Natural.matchFixIndex s
  | bySentence => Natural.matchBySentence s
  | choosePoint => Natural.matchChoosePoint s
  | letMax | claim | absoluteValue | separate | splitGoal | splitAll | linearArithmetic =>
    Matching.look fun ctx => k.natural? ctx s

def matchFormal (s : Text) (k : TacticKind) : Matching Tactic :=
  match k with
  | fixTolerance => Formal.matchFixTolerance s
  | chooseIndex => Formal.matchChooseIndex s
  | byProperties => Formal.matchByProperties s
  | fixIndex => Formal.matchFixIndex s
  | bySentence => Formal.matchBySentence s
  | choosePoint => Formal.matchChoosePoint s
  | letMax | claim | absoluteValue | separate | splitGoal | splitAll | linearArithmetic =>
    Matching.look fun ctx => k.formal? ctx s

end TacticKind
end ProofDesk.Limits
