import ProofDesk.Limits.Tactic

/-!
Reading tactics from proof lines in natural language and in formal text.  Two kinds of tactics share
their text: what `Let` introduces depends on the current goal.  A line in natural language leaves
the introduced hypothesis unnamed, and the context names it; formal text names every hypothesis.
-/

namespace ProofDesk.Limits

/-- The text before a separator and the names behind it, if these fill a template up to the end. -/
def beforeTail? (separator : Text) (tail : Template) (s : Text) : Option (Text × List Text) :=
  (Text.splits [(separator, ())] s).findSome? fun (left, _, right) =>
    if isLine left then (tail.match? right).map fun names => (left, names) else none

def spacedItems? (s : Text) : Option (List Text) :=
  match Text.fields (· == ' ') s with
  | [] :: item :: items => some (item :: items)
  | _ => none

namespace Context

def hasLimitGoal (ctx : Context) : Bool := (ctx.goal.map Statement.kind) == some .limit

def hasIndexGoal (ctx : Context) : Bool := (ctx.goal.map Statement.kind) == some .forAllFrom

end Context

namespace Natural

def readIdent? (s : Text) : Option Statement := (readEpsilon? s).or (identifier? s)

def readFixTolerance? (ctx : Context) (s : Text) : Option Tactic := do
  let ident ← readIdent? (← Text.between? fixStart "$" s)
  if ctx.hasLimitGoal then some (.fixTolerance ident ctx.nextName) else none

def readChooseIndex? (ctx : Context) (s : Text) : Option Tactic :=
  match chooseIndexHeader.read? s with
  | some ([chosen, limitDef], rest) => do
    let eps ← readIdent? (← Text.stripTrailing? "$" rest)
    let hypEps ← ctx.associate? eps.formal
    return .chooseIndex limitDef eps hypEps chosen ctx.nextName
  | _ => none

def readLetMax? (s : Text) : Option Tactic :=
  [letMaxForm [] [], letMaxForm [] " ", letMaxForm " " [], letMaxForm " " " "].findSome? fun form =>
    match form.match? s with
    | some [ident, left, right] => some (.letMax ident left right)
    | _ => none

def readClaim? (s : Text) : Option Tactic :=
  match claimForm.match? s with
  | some [x] => some (.claim x)
  | _ => none

def readByProperties? (ctx : Context) (s : Text) : Option Tactic := do
  let rest ← (Text.stripLeading? byPropertiesStart s).filter isLine
  return .byProperties ctx.nextName (← Kind.inequality.natural? ctx false rest)

def readFixIndex? (ctx : Context) (s : Text) : Option Tactic :=
  match fixIndexForm.match? s with
  | some [ident] => if ctx.hasIndexGoal then some (.fixIndex ident ctx.nextName) else none
  | _ => none

def readBySentence? (ctx : Context) (s : Text) : Option Tactic :=
  match beforeTail? " by " [.name, " with ", .name] s with
  | some (left, [source, point]) => do
    return .bySentence ctx.nextName (← Kind.inequality.natural? ctx false left) source point
  | _ => none

def readChoosePoint? (ctx : Context) (s : Text) : Option Tactic :=
  match choosePointForm.match? s with
  | some [point, source] => some (.choosePoint ctx.nextName source point)
  | _ => none

def readAbsoluteValue? (s : Text) : Option Tactic := do
  let items ← spacedItems? (← Text.stripLeading? absoluteValueStart s)
  if items.all Text.isName then
    match items.reverse with
    | last :: on :: and :: firsts =>
      if on = "on" ∧ and = "and" then some (.absoluteValue (firsts.reverse ++ [last])) else none
    | _ => none
  else none

def readSeparate? (s : Text) : Option Tactic :=
  match separateForm.match? s with
  | some [x] => some (.separate x)
  | _ => none

end Natural

def TacticKind.natural? (k : TacticKind) (ctx : Context) (s : Text) : Option Tactic :=
  match k with
  | fixTolerance => Natural.readFixTolerance? ctx s
  | chooseIndex => Natural.readChooseIndex? ctx s
  | letMax => Natural.readLetMax? s
  | claim => Natural.readClaim? s
  | byProperties => Natural.readByProperties? ctx s
  | fixIndex => Natural.readFixIndex? ctx s
  | bySentence => Natural.readBySentence? ctx s
  | choosePoint => Natural.readChoosePoint? ctx s
  | absoluteValue => Natural.readAbsoluteValue? s
  | separate => Natural.readSeparate? s
  | splitGoal => if s = Natural.splitGoalText then some .splitGoal else none
  | splitAll => if s = Natural.splitAllText then some .splitAll else none
  | linearArithmetic =>
    if s = Natural.linearArithmeticText then some .linearArithmetic else none

namespace Formal

def readIdent? (s : Text) : Option Statement := (readEpsilon? s).or (identifier? s)

def readFixTolerance? (ctx : Context) (s : Text) : Option Tactic :=
  match fixForm.match? s with
  | some [ident, hyp] =>
    if ctx.hasLimitGoal then (readIdent? ident).map fun ident => .fixTolerance ident hyp else none
  | _ => none

def readChooseIndex? (s : Text) : Option Tactic :=
  match chooseIndexForm.match? s with
  | some [limitDef, eps, hypEps, chosen, hypChosen] =>
    (readIdent? eps).map fun eps => .chooseIndex limitDef eps hypEps chosen hypChosen
  | _ => none

def readLetMax? (s : Text) : Option Tactic :=
  match letMaxForm.match? s with
  | some [ident, left, right] => some (.letMax ident left right)
  | _ => none

def readClaim? (s : Text) : Option Tactic :=
  match claimForm.match? s with
  | some [x] => some (.claim x)
  | _ => none

def readByProperties? (ctx : Context) (s : Text) : Option Tactic :=
  match haveHeader.read? s with
  | some ([hyp], rest) => do
    let sentence ← (Text.stripTrailing? byPropertiesEnd rest).filter isLine
    return .byProperties hyp (← readInequality? ctx sentence)
  | _ => none

def readFixIndex? (ctx : Context) (s : Text) : Option Tactic :=
  match fixForm.match? s with
  | some [ident, hyp] => if ctx.hasIndexGoal then some (.fixIndex ident hyp) else none
  | _ => none

/-- What follows `by` is a justification and not a hypothesis. -/
def readBySentence? (ctx : Context) (s : Text) : Option Tactic :=
  match haveHeader.read? s with
  | some ([hyp], rest) =>
    match beforeTail? " := " [.name, " ", .name] rest with
    | some (left, [source, point]) =>
      if source = "by" then none
      else (readInequality? ctx left).map fun sentence => .bySentence hyp sentence source point
    | _ => none
  | _ => none

def readChoosePoint? (s : Text) : Option Tactic :=
  match choosePointForm.match? s with
  | some [hyp, source, point] => some (.choosePoint hyp source point)
  | _ => none

def readAbsoluteValue? (s : Text) : Option Tactic := do
  let items ← spacedItems? (← Text.stripLeading? absoluteValueStart s)
  if items.all fun x => Text.isName x || x == turnstile then
    some (.absoluteValue (items.map fun x => if x = turnstile then goalName else x))
  else none

def readSeparate? (s : Text) : Option Tactic :=
  match separateForm.match? s with
  | some [x] => some (.separate x)
  | _ => none

end Formal

def TacticKind.formal? (k : TacticKind) (ctx : Context) (s : Text) : Option Tactic :=
  match k with
  | fixTolerance => Formal.readFixTolerance? ctx s
  | chooseIndex => Formal.readChooseIndex? s
  | letMax => Formal.readLetMax? s
  | claim => Formal.readClaim? s
  | byProperties => Formal.readByProperties? ctx s
  | fixIndex => Formal.readFixIndex? ctx s
  | bySentence => Formal.readBySentence? ctx s
  | choosePoint => Formal.readChoosePoint? s
  | absoluteValue => Formal.readAbsoluteValue? s
  | separate => Formal.readSeparate? s
  | splitGoal => if s = "split" then some .splitGoal else none
  | splitAll => if s = "split;" then some .splitAll else none
  | linearArithmetic => if s = "linarith" then some .linearArithmetic else none

namespace TacticKind

def readNatural? (k : TacticKind) (ctx : Context) (s : Text) : Option (Tactic × Context) :=
  (k.natural? ctx s).map fun t => (t, ctx.afterNatural t)

def readFormal? (k : TacticKind) (ctx : Context) (s : Text) : Option (Tactic × Context) :=
  (k.formal? ctx s).map fun t => (t, ctx.afterFormal t)

end TacticKind

namespace Tactic

def readNatural? (ctx : Context) (s : Text) : Option (Tactic × Context) :=
  TacticKind.all.findSome? fun k => k.readNatural? ctx s

def readFormal? (ctx : Context) (s : Text) : Option (Tactic × Context) :=
  TacticKind.all.findSome? fun k => k.readFormal? ctx s

end Tactic
end ProofDesk.Limits
