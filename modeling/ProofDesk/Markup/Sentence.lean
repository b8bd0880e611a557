import ProofDesk.Logic.Sentence
import ProofDesk.Markup.Element

/-!
Sentences as XML documents.  The root element `sentence` holds one sentence element.  Names stand in
the attribute `symbol`; the attributes `value`, `connector` and `quantifier` tell the forms of
truth values, compound and quantified sentences apart.
-/

namespace ProofDesk.Markup

open Logic (Symbol Term Arguments Sentence Connective Quantifier)

def connectiveName : Connective → Text
  | .conjunction => "conjunction"
  | .disjunction => "disjunction"
  | .implication => "implication"
  | .equivalence => "biconditional"

def connectiveOfName? (s : Text) : Option Connective :=
  [Connective.conjunction, .disjunction, .implication, .equivalence].find? fun c =>
    connectiveName c == s

def quantifierName : Quantifier → Text
  | .universal => "universal"
  | .existential => "existential"

def quantifierOfName? (s : Text) : Option Quantifier :=
  [Quantifier.universal, .existential].find? fun q => quantifierName q == s

def symbolElement (name : Text) (x : Symbol) (children : List Element) : Element :=
  .node name [("symbol", x.name)] children

mutual

def ofTerm : Term → Element
  | .const c => symbolElement "constant" c []
  | .var x => symbolElement "variable" x []
  | .app f ts => symbolElement "function" f (ofArguments ts)

def ofArguments : Arguments → List Element
  | .one t => [ofTerm t]
  | .cons t ts => ofTerm t :: ofArguments ts

end

def ofSentence : Sentence → Element
  | .truth b => .node "boolean" [("value", if b then "true" else "false")] []
  | .proposition p => symbolElement "constantPredicate" p []
  | .predicate p ts => symbolElement "predicate" p (ofArguments ts)
  | .negation s => .node "unaryConnectorSentence" [("connector", "negation")] [ofSentence s]
  | .binary c l r =>
    .node "binaryConnectorSentence" [("connector", connectiveName c)] [ofSentence l, ofSentence r]
  | .quantified q x s =>
    .node "quantifierSentence" [("quantifier", quantifierName q)]
      [symbolElement "variable" x [], ofSentence s]

def documentOf (s : Sentence) : Element := .node "sentence" [] [ofSentence s]

def write (s : Sentence) : Text := (documentOf s).write

namespace Element

def symbol (e : Element) : Except Error Symbol := do
  (Symbol.ofText? (← e.attribute? "symbol")).mapError .formation

def childrenError (e : Element) : Error := .wrongChildren e.name e.children.length

def leaf (e : Element) : Except Error Unit :=
  if e.children.isEmpty then .ok () else .error e.childrenError

def argumentsOf (e : Element) (ts : List Term) : Except Error Arguments :=
  (Arguments.ofList? ts).mapError fun _ => e.childrenError

mutual

def toTerm : Element → Except Error Term
  | e@(.node name _ children) =>
    if name = "constant" then do
      let c ← e.symbol
      e.leaf
      return .const c
    else if name = "variable" then do
      let x ← e.symbol
      e.leaf
      return .var x
    else if name = "function" then do
      let f ← e.symbol
      let ts ← toTerms children
      return .app f (← e.argumentsOf ts)
    else .error (.unexpectedElement name)

def toTerms : List Element → Except Error (List Term)
  | [] => .ok []
  | e :: es => do return (← e.toTerm) :: (← toTerms es)

end

/-- The form of a sentence as its element tells it without the sentences among the children. -/
inductive Form where
  | complete (s : Sentence)
  | negation
  | binary (c : Connective)
  | quantified (q : Quantifier)

def truthOfName? (s : Text) : Option Bool :=
  if s = "true" then some true else if s = "false" then some false else none

def negationOfName? (s : Text) : Option Unit := if s = "negation" then some () else none

def attributeAs {α : Type} (e : Element) (key : Text) (meaning : Text → Option α) :
    Except Error α := do
  let value ← e.attribute? key
  match meaning value with
  | some a => return a
  | none => .error (.invalidAttribute key value)

def form (e : Element) : Except Error Form :=
  if e.name = "boolean" then do
    e.leaf
    return .complete (.truth (← e.attributeAs "value" truthOfName?))
  else if e.name = "constantPredicate" then do
    let p ← e.symbol
    e.leaf
    return .complete (.proposition p)
  else if e.name = "predicate" then do
    let p ← e.symbol
    let ts ← toTerms e.children
    return .complete (.predicate p (← e.argumentsOf ts))
  else if e.name = "unaryConnectorSentence" then do
    e.attributeAs "connector" negationOfName?
    return .negation
  else if e.name = "binaryConnectorSentence" then do
    return .binary (← e.attributeAs "connector" connectiveOfName?)
  else if e.name = "quantifierSentence" then do
    return .quantified (← e.attributeAs "quantifier" quantifierOfName?)
  else .error (.unexpectedElement e.name)

def boundVariable (e : Element) : Except Error Symbol :=
  if e.name = "variable" then do
    e.leaf
    e.symbol
  else .error (.unexpectedElement e.name)

def toSentence : Element → Except Error Sentence
  | .node name attributes [s] =>
    match form (.node name attributes [s]) with
    | .error e => .error e
    | .ok (.complete t) => .ok t
    | .ok .negation => (toSentence s).map .negation
    | .ok _ => .error (childrenError (.node name attributes [s]))
  | .node name attributes [l, r] =>
    match form (.node name attributes [l, r]) with
    | .error e => .error e
    | .ok (.complete t) => .ok t
    | .ok .negation => .error (childrenError (.node name attributes [l, r]))
    | .ok (.binary c) => do return .binary c (← toSentence l) (← toSentence r)
    | .ok (.quantified q) => do return .quantified q (← l.boundVariable) (← toSentence r)
  | e =>
    match form e with
    | .error e => .error e
    | .ok (.complete t) => .ok t
    | .ok _ => .error e.childrenError

end Element

def read (document : Text) : Except Error Sentence := do
  let root ← Element.parse document
  if root.name = "sentence" then
    match root.children with
    | [s] => s.toSentence
    | _ => .error root.childrenError
  else .error (.unexpectedElement root.name)

end ProofDesk.Markup
