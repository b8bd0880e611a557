import ProofDesk.Logic.Symbol
import ProofDesk.Markup.Token

namespace ProofDesk.Markup

inductive SyntaxFault where
  | expectedStartTag
  | expectedElementName
  | expectedAttributeValue
  | expectedAttribute
  | unexpectedData
  | contentAfterRoot
  deriving DecidableEq, Repr

def SyntaxFault.message : SyntaxFault → Text
  | expectedStartTag => "expected start tag"
  | expectedElementName => "expected element name"
  | expectedAttributeValue => "expected quoted attribute value"
  | expectedAttribute => "expected attribute or end of tag"
  | unexpectedData => "unexpected character data"
  | contentAfterRoot => "content after root element"

inductive Error where
  | malformed (fault : SyntaxFault)
  | unclosed (element : Text)
  | unexpectedElement (element : Text)
  | missingAttribute (element key : Text)
  | invalidAttribute (key value : Text)
  | wrongChildren (element : Text) (found : Nat)
  | formation (e : Logic.FormationError)
  deriving DecidableEq, Repr

def Error.message (e : Error) : Text :=
  "XML error: " ++ match e with
    | malformed fault => "syntax error: " ++ fault.message
    | unclosed element => "element " ++ element ++ " is not closed"
    | unexpectedElement element => "unexpected element " ++ element
    | missingAttribute element key => "element " ++ element ++ " lacks attribute " ++ key
    | invalidAttribute key value =>
      "invalid value \"" ++ value ++ "\" for attribute " ++ key
    | wrongChildren element found =>
      "element " ++ element ++ " has wrong number of children (" ++ Text.ofNat found ++ ")"
    | formation e => e.message

inductive Element where
  | node (name : Text) (attributes : List (Text × Text)) (children : List Element)

namespace Element

def name : Element → Text
  | node x _ _ => x

def attributes : Element → List (Text × Text)
  | node _ as _ => as

def children : Element → List Element
  | node _ _ es => es

def attribute? (e : Element) (key : Text) : Except Error Text :=
  match e.attributes.lookup key with
  | some value => .ok value
  | none => .error (.missingAttribute e.name key)

def writeAttributes : List (Text × Text) → Text
  | [] => []
  | (key, value) :: rest => " " ++ key ++ "=\"" ++ encode value ++ "\"" ++ writeAttributes rest

mutual

def write : Element → Text
  | node name attributes [] => "<" ++ name ++ writeAttributes attributes ++ " />"
  | node name attributes (e :: es) =>
    "<" ++ name ++ writeAttributes attributes ++ ">" ++ writeAll (e :: es) ++ "</" ++ name ++ ">"

def writeAll : List Element → Text
  | [] => []
  | e :: es => e.write ++ writeAll es

end

end Element

/-- The attributes of a start tag, whether it closes the element at once, and the tokens after the
tag. -/
def readAttributes : List Token → Except Error (List (Text × Text) × Bool × List Token)
  | .name key :: .equals :: .value v :: ts => do
    let (attributes, closed, rest) ← readAttributes ts
    return ((key, v) :: attributes, closed, rest)
  | .name _ :: _ => .error (.malformed .expectedAttributeValue)
  | .emptyClosing :: ts => .ok ([], true, ts)
  | .closing :: ts => .ok ([], false, ts)
  | _ => .error (.malformed .expectedAttribute)

def readEnd (name : Text) : List Token → Except Error (List Token)
  | .data :: _ => .error (.malformed .unexpectedData)
  | .endOpening :: .name closed :: .closing :: ts =>
    if closed = name then .ok ts else .error (.unclosed name)
  | _ => .error (.unclosed name)

mutual

def readElement : Nat → List Token → Except Error (Element × List Token)
  | n + 1, .opening :: .name name :: ts => do
    let (attributes, closed, rest) ← readAttributes ts
    if closed then return (.node name attributes [], rest)
    let (children, rest) ← readChildren n rest
    let rest ← readEnd name rest
    return (.node name attributes children, rest)
  | _, .opening :: _ => .error (.malformed .expectedElementName)
  | _, _ => .error (.malformed .expectedStartTag)

def readChildren : Nat → List Token → Except Error (List Element × List Token)
  | n + 1, .opening :: ts => do
    let (child, rest) ← readElement n (.opening :: ts)
    let (children, rest) ← readChildren n rest
    return (child :: children, rest)
  | _, ts => .ok ([], ts)

end

def Element.parse (document : Text) : Except Error Element := do
  let ts := tokenize document
  let (root, rest) ← readElement (2 * ts.length + 2) ts
  match rest with
  | [] => return root
  | _ :: _ => .error (.malformed .contentAfterRoot)

end ProofDesk.Markup
