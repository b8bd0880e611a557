import ProofDesk.Markup.Sentence
import ProofDesk.Proofs.Logic.Scoping
import ProofDesk.Proofs.Markup.Elements

namespace ProofDesk.Markup

open Logic (Symbol Term Arguments Sentence Connective Quantifier)

namespace Element

mutual

/-- An element that says what a written one says: it has the same name, for every attribute of the
written one the same value where that attribute stands first, and children that say the same. -/
def Agrees : Element → Element → Prop
  | .node x given es, .node y asked fs =>
    x = y ∧ (∀ a ∈ asked, given.lookup a.1 = some a.2) ∧ AllAgree es fs

def AllAgree : List Element → List Element → Prop
  | [], [] => True
  | e :: es, f :: fs => e.Agrees f ∧ AllAgree es fs
  | _, _ => False

end

theorem agrees_one_iff {e : Element} {name key v : Text} {children : List Element} :
    e.Agrees (.node name [(key, v)] children) ↔
      e.name = name ∧ e.attributes.lookup key = some v ∧ AllAgree e.children children := by
  cases e with
  | node x given es => simp [Agrees, Element.name, attributes, Element.children]

theorem allAgree_nil_iff {es : List Element} : AllAgree es [] ↔ es = [] := by
  cases es <;> simp [AllAgree]

theorem allAgree_cons_iff {es fs : List Element} {f : Element} :
    AllAgree es (f :: fs) ↔ ∃ e rest, es = e :: rest ∧ e.Agrees f ∧ AllAgree rest fs := by
  cases es <;> simp [AllAgree, and_assoc]

theorem attribute?_eq_ok_iff {e : Element} {key v : Text} :
    e.attribute? key = .ok v ↔ e.attributes.lookup key = some v := by
  unfold attribute?
  split
  · next found => simp [found]
  · next missing => simp [missing]

theorem symbol_eq_ok_iff {e : Element} {x : Symbol} :
    e.symbol = .ok x ↔ e.attributes.lookup ("symbol" : Text) = some x.name := by
  rw [symbol, bind_eq_ok_iff]
  constructor
  · rintro ⟨v, found, formed⟩
    rw [mapError_eq_ok_iff, Logic.ofText?_eq_ok] at formed
    rw [attribute?_eq_ok_iff.mp found, formed]
  · intro found
    refine ⟨x.name, attribute?_eq_ok_iff.mpr found, ?_⟩
    rw [mapError_eq_ok_iff, Logic.ofText?_eq_ok]

theorem leaf_eq_ok_iff {e : Element} {u : Unit} : e.leaf = .ok u ↔ e.children = [] := by
  unfold leaf
  split
  · next empty => simpa using empty
  · next given => simpa using given

theorem symbolLeaf_eq_ok_iff {α : Type} {e : Element} {f : Symbol → α} {a : α} :
    (do let x ← e.symbol; e.leaf; return f x) = Except.ok a ↔
      ∃ x, f x = a ∧ e.attributes.lookup ("symbol" : Text) = some x.name ∧
        AllAgree e.children [] := by
  rw [bind_eq_ok_iff, allAgree_nil_iff]
  constructor
  · rintro ⟨x, symbol, rest⟩
    obtain ⟨_, leaf, same⟩ := bind_eq_ok_iff.mp rest
    exact ⟨x, pure_eq_ok_iff.mp same, symbol_eq_ok_iff.mp symbol, leaf_eq_ok_iff.mp leaf⟩
  · rintro ⟨x, same, symbol, children⟩
    refine ⟨x, symbol_eq_ok_iff.mpr symbol, ?_⟩
    exact bind_eq_ok_iff.mpr ⟨(), leaf_eq_ok_iff.mpr children, pure_eq_ok_iff.mpr same⟩

theorem argumentsOf_eq_ok_iff {e : Element} {ts : List Term} {us : Arguments} :
    e.argumentsOf ts = .ok us ↔ us.toList = ts := by
  rw [argumentsOf, mapError_eq_ok_iff]
  constructor
  · exact Logic.ofList?_eq_ok
  · rintro rfl
    exact Logic.ofList?_toList us

theorem attributeAs_eq_ok_iff {α : Type} {e : Element} {key : Text} {meaning : Text → Option α}
    {a : α} : e.attributeAs key meaning = .ok a ↔
      ∃ v, e.attributes.lookup key = some v ∧ meaning v = some a := by
  rw [attributeAs, bind_eq_ok_iff]
  constructor
  · rintro ⟨v, found, means⟩
    refine ⟨v, attribute?_eq_ok_iff.mp found, ?_⟩
    split at means
    · next b same =>
      cases means
      exact same
    · cases means
  · rintro ⟨v, found, means⟩
    refine ⟨v, attribute?_eq_ok_iff.mpr found, ?_⟩
    rw [means]
    rfl

end Element

theorem ofArguments_eq_map (ts : Arguments) : ofArguments ts = ts.toList.map ofTerm := by
  cases ts with
  | one t => rfl
  | cons t ts => rw [ofArguments, ofArguments_eq_map ts, Arguments.toList, List.map_cons]

namespace Element

theorem symbolWithArguments_eq_ok_iff {α : Type} {e : Element} {f : Symbol → Arguments → α} {a : α}
    (children : ∀ ts, toTerms e.children = .ok ts ↔ AllAgree e.children (ts.map ofTerm)) :
    (do let x ← e.symbol; let ts ← toTerms e.children; return f x (← e.argumentsOf ts)) =
        Except.ok a ↔
      ∃ x ts, f x ts = a ∧ e.attributes.lookup ("symbol" : Text) = some x.name ∧
        AllAgree e.children (ofArguments ts) := by
  rw [bind_eq_ok_iff]
  constructor
  · rintro ⟨x, symbol, rest⟩
    obtain ⟨ts, inside, formed⟩ := bind_eq_ok_iff.mp rest
    obtain ⟨us, arguments, same⟩ := bind_eq_ok_iff.mp formed
    obtain rfl := argumentsOf_eq_ok_iff.mp arguments
    have agree := (children _).mp inside
    rw [← ofArguments_eq_map] at agree
    exact ⟨x, us, pure_eq_ok_iff.mp same, symbol_eq_ok_iff.mp symbol, agree⟩
  · rintro ⟨x, us, same, symbol, agree⟩
    rw [ofArguments_eq_map] at agree
    refine ⟨x, symbol_eq_ok_iff.mpr symbol, bind_eq_ok_iff.mpr ⟨_, (children _).mpr agree, ?_⟩⟩
    exact bind_eq_ok_iff.mpr ⟨us, argumentsOf_eq_ok_iff.mpr rfl, pure_eq_ok_iff.mpr same⟩

mutual

theorem toTerm_eq_ok_iff : ∀ {e : Element} {t : Term}, e.toTerm = .ok t ↔ e.Agrees (ofTerm t)
  | .node name given children, t => by
    have inside (ts : List Term) : toTerms children = .ok ts ↔ AllAgree children (ts.map ofTerm) :=
      toTerms_eq_ok_iff
    rw [toTerm]
    constructor
    · intro read
      split at read
      · next constant =>
        obtain ⟨c, rfl, symbol, none'⟩ := symbolLeaf_eq_ok_iff.mp read
        exact agrees_one_iff.mpr ⟨constant, symbol, none'⟩
      · split at read
        · next variable' =>
          obtain ⟨x, rfl, symbol, none'⟩ := symbolLeaf_eq_ok_iff.mp read
          exact agrees_one_iff.mpr ⟨variable', symbol, none'⟩
        · split at read
          · next function =>
            obtain ⟨f, ts, rfl, symbol, agree⟩ :=
              (symbolWithArguments_eq_ok_iff (e := .node name given children) inside).mp read
            exact agrees_one_iff.mpr ⟨function, symbol, agree⟩
          · cases read
    · intro agrees
      cases t with
      | const c =>
        obtain ⟨same, symbol, none'⟩ := agrees_one_iff.mp agrees
        have constant : name = "constant" := same
        rw [if_pos constant]
        exact symbolLeaf_eq_ok_iff.mpr ⟨c, rfl, symbol, none'⟩
      | var x =>
        obtain ⟨same, symbol, none'⟩ := agrees_one_iff.mp agrees
        have variable' : name = "variable" := same
        have other : name ≠ "constant" := by rw [variable']; decide
        rw [if_neg other, if_pos variable']
        exact symbolLeaf_eq_ok_iff.mpr ⟨x, rfl, symbol, none'⟩
      | app f ts =>
        obtain ⟨same, symbol, agree⟩ := agrees_one_iff.mp agrees
        have function : name = "function" := same
        have notConstant : name ≠ "constant" := by rw [function]; decide
        have notVariable : name ≠ "variable" := by rw [function]; decide
        rw [if_neg notConstant, if_neg notVariable, if_pos function]
        exact (symbolWithArguments_eq_ok_iff (e := .node name given children) inside).mpr
          ⟨f, ts, rfl, symbol, agree⟩

theorem toTerms_eq_ok_iff :
    ∀ {es : List Element} {ts : List Term}, toTerms es = .ok ts ↔ AllAgree es (ts.map ofTerm)
  | [], ts => by
    cases ts <;> simp [toTerms, AllAgree]
  | e :: es, ts => by
    rw [toTerms, bind_eq_ok_iff]
    constructor
    · rintro ⟨t, first, rest⟩
      obtain ⟨us, others, same⟩ := bind_eq_ok_iff.mp rest
      cases same
      exact ⟨toTerm_eq_ok_iff.mp first, toTerms_eq_ok_iff.mp others⟩
    · intro agree
      cases ts with
      | nil => cases agree
      | cons t ts =>
        refine ⟨t, toTerm_eq_ok_iff.mpr agree.1, ?_⟩
        rw [toTerms_eq_ok_iff.mpr agree.2]
        rfl

end

theorem truthOfName?_eq_some_iff {v : Text} {b : Bool} :
    truthOfName? v = some b ↔ v = if b then ("true" : Text) else "false" := by
  unfold truthOfName?
  constructor
  · intro read
    split at read
    · next yes =>
      obtain rfl := Option.some.inj read
      exact yes
    · split at read
      · next no =>
        obtain rfl := Option.some.inj read
        exact no
      · cases read
  · intro written
    rw [written]
    cases b <;> decide

theorem connectiveOfName?_eq_some_iff {v : Text} {c : Connective} :
    connectiveOfName? v = some c ↔ v = connectiveName c := by
  unfold connectiveOfName?
  constructor
  · intro found
    have same := List.find?_some found
    exact (eq_of_beq same).symm
  · rintro rfl
    cases c <;> decide

theorem quantifierOfName?_eq_some_iff {v : Text} {q : Quantifier} :
    quantifierOfName? v = some q ↔ v = quantifierName q := by
  unfold quantifierOfName?
  constructor
  · intro found
    have same := List.find?_some found
    exact (eq_of_beq same).symm
  · rintro rfl
    cases q <;> decide

theorem negationOfName?_eq_some_iff {v : Text} {u : Unit} :
    negationOfName? v = some u ↔ v = "negation" := by
  unfold negationOfName?
  constructor
  · intro read
    split at read
    · next same => exact same
    · cases read
  · intro written
    rw [if_pos written]

def formOf : Sentence → Form
  | .negation _ => .negation
  | .binary c _ _ => .binary c
  | .quantified q _ _ => .quantified q
  | s => .complete s

/-- What the name and the attributes of an element of a form are. -/
def HasForm (e : Element) : Form → Prop
  | .complete s => e.Agrees (ofSentence s)
  | .negation =>
    e.name = "unaryConnectorSentence" ∧ e.attributes.lookup ("connector" : Text) = some "negation"
  | .binary c =>
    e.name = "binaryConnectorSentence" ∧
      e.attributes.lookup ("connector" : Text) = some (connectiveName c)
  | .quantified q =>
    e.name = "quantifierSentence" ∧
      e.attributes.lookup ("quantifier" : Text) = some (quantifierName q)

theorem hasForm_of_form {e : Element} {f : Form} (read : e.form = .ok f) : e.HasForm f := by
  unfold form at read
  split at read
  · next boolean =>
    obtain ⟨_, leaf, rest⟩ := bind_eq_ok_iff.mp read
    obtain ⟨b, value, same⟩ := bind_eq_ok_iff.mp rest
    obtain ⟨v, found, means⟩ := attributeAs_eq_ok_iff.mp value
    cases same
    rw [truthOfName?_eq_some_iff.mp means] at found
    exact agrees_one_iff.mpr ⟨boolean, found, allAgree_nil_iff.mpr (leaf_eq_ok_iff.mp leaf)⟩
  · split at read
    · next proposition =>
      obtain ⟨p, rfl, symbol, none'⟩ :=
        symbolLeaf_eq_ok_iff (f := fun p => Form.complete (.proposition p)).mp read
      exact agrees_one_iff.mpr ⟨proposition, symbol, none'⟩
    · split at read
      · next predicate =>
        obtain ⟨p, ts, rfl, symbol, agree⟩ := (symbolWithArguments_eq_ok_iff
          (f := fun p ts => Form.complete (.predicate p ts)) fun _ => toTerms_eq_ok_iff).mp read
        exact agrees_one_iff.mpr ⟨predicate, symbol, agree⟩
      · split at read
        · next unary =>
          obtain ⟨_, value, same⟩ := bind_eq_ok_iff.mp read
          obtain ⟨v, found, means⟩ := attributeAs_eq_ok_iff.mp value
          cases same
          rw [negationOfName?_eq_some_iff.mp means] at found
          exact ⟨unary, found⟩
        · split at read
          · next binary =>
            obtain ⟨c, value, same⟩ := bind_eq_ok_iff.mp read
            obtain ⟨v, found, means⟩ := attributeAs_eq_ok_iff.mp value
            cases same
            rw [connectiveOfName?_eq_some_iff.mp means] at found
            exact ⟨binary, found⟩
          · split at read
            · next quantified =>
              obtain ⟨q, value, same⟩ := bind_eq_ok_iff.mp read
              obtain ⟨v, found, means⟩ := attributeAs_eq_ok_iff.mp value
              cases same
              rw [quantifierOfName?_eq_some_iff.mp means] at found
              exact ⟨quantified, found⟩
            · cases read

theorem form_of_agrees {e : Element} {s : Sentence} (agrees : e.Agrees (ofSentence s)) :
    e.form = .ok (formOf s) := by
  unfold form
  cases s with
  | truth b =>
    obtain ⟨name, value, none'⟩ := agrees_one_iff.mp agrees
    rw [if_pos name]
    have read : e.attributeAs "value" truthOfName? = .ok b :=
      attributeAs_eq_ok_iff.mpr ⟨_, value, truthOfName?_eq_some_iff.mpr rfl⟩
    have leaf : e.leaf = .ok () := leaf_eq_ok_iff.mpr (allAgree_nil_iff.mp none')
    rw [leaf, read]
    rfl
  | proposition p =>
    obtain ⟨name, symbol, none'⟩ := agrees_one_iff.mp agrees
    rw [if_neg (by rw [name]; decide), if_pos name]
    exact symbolLeaf_eq_ok_iff.mpr ⟨p, rfl, symbol, none'⟩
  | predicate p ts =>
    obtain ⟨name, symbol, agree⟩ := agrees_one_iff.mp agrees
    rw [if_neg (by rw [name]; decide), if_neg (by rw [name]; decide), if_pos name]
    exact (symbolWithArguments_eq_ok_iff fun _ => toTerms_eq_ok_iff).mpr
      ⟨p, ts, rfl, symbol, agree⟩
  | negation s =>
    obtain ⟨name, value, -⟩ := agrees_one_iff.mp agrees
    rw [if_neg (by rw [name]; decide), if_neg (by rw [name]; decide),
      if_neg (by rw [name]; decide), if_pos name]
    have read : e.attributeAs "connector" negationOfName? = .ok () :=
      attributeAs_eq_ok_iff.mpr ⟨_, value, negationOfName?_eq_some_iff.mpr rfl⟩
    rw [read]
    rfl
  | binary c l r =>
    obtain ⟨name, value, -⟩ := agrees_one_iff.mp agrees
    rw [if_neg (by rw [name]; decide), if_neg (by rw [name]; decide),
      if_neg (by rw [name]; decide), if_neg (by rw [name]; decide), if_pos name]
    have read : e.attributeAs "connector" connectiveOfName? = .ok c :=
      attributeAs_eq_ok_iff.mpr ⟨_, value, connectiveOfName?_eq_some_iff.mpr rfl⟩
    rw [read]
    rfl
  | quantified q x s =>
    obtain ⟨name, value, -⟩ := agrees_one_iff.mp agrees
    rw [if_neg (by rw [name]; decide), if_neg (by rw [name]; decide),
      if_neg (by rw [name]; decide), if_neg (by rw [name]; decide),
      if_neg (by rw [name]; decide), if_pos name]
    have read : e.attributeAs "quantifier" quantifierOfName? = .ok q :=
      attributeAs_eq_ok_iff.mpr ⟨_, value, quantifierOfName?_eq_some_iff.mpr rfl⟩
    rw [read]
    rfl

theorem boundVariable_eq_ok_iff {e : Element} {x : Symbol} :
    e.boundVariable = .ok x ↔ e.Agrees (symbolElement "variable" x []) := by
  unfold boundVariable
  constructor
  · intro read
    split at read
    · next name =>
      obtain ⟨_, leaf, symbol⟩ := bind_eq_ok_iff.mp read
      exact agrees_one_iff.mpr
        ⟨name, symbol_eq_ok_iff.mp symbol, allAgree_nil_iff.mpr (leaf_eq_ok_iff.mp leaf)⟩
    · cases read
  · intro agrees
    obtain ⟨name, symbol, none'⟩ := agrees_one_iff.mp agrees
    rw [if_pos name]
    exact bind_eq_ok_iff.mpr
      ⟨(), leaf_eq_ok_iff.mpr (allAgree_nil_iff.mp none'), symbol_eq_ok_iff.mpr symbol⟩

theorem toSentence_of_complete {e : Element} {s : Sentence} (complete : e.form = .ok (.complete s)) :
    e.toSentence = .ok s := by
  fun_cases toSentence e <;> grind

theorem agrees_of_toSentence {e : Element} {s : Sentence} (read : e.toSentence = .ok s) :
    e.Agrees (ofSentence s) := by
  fun_induction toSentence e generalizing s with
  | case2 name given e t complete =>
    obtain rfl := Except.ok.inj read
    exact hasForm_of_form complete
  | case3 name given e negation ih =>
    obtain ⟨t, inside, rfl⟩ := map_eq_ok_iff.mp read
    obtain ⟨same, value⟩ := hasForm_of_form negation
    exact agrees_one_iff.mpr ⟨same, value, ih inside, trivial⟩
  | case6 name given e f t complete =>
    obtain rfl := Except.ok.inj read
    exact hasForm_of_form complete
  | case8 name given e f c binary leftIh rightIh =>
    obtain ⟨l, left, rest⟩ := bind_eq_ok_iff.mp read
    obtain ⟨r, right, formed⟩ := bind_eq_ok_iff.mp rest
    obtain rfl := pure_eq_ok_iff.mp formed
    obtain ⟨same, value⟩ := hasForm_of_form binary
    exact agrees_one_iff.mpr ⟨same, value, leftIh left, rightIh right, trivial⟩
  | case9 name given e f q quantified ih =>
    obtain ⟨x, bound, rest⟩ := bind_eq_ok_iff.mp read
    obtain ⟨t, inside, formed⟩ := bind_eq_ok_iff.mp rest
    obtain rfl := pure_eq_ok_iff.mp formed
    obtain ⟨same, value⟩ := hasForm_of_form quantified
    exact agrees_one_iff.mpr
      ⟨same, value, boundVariable_eq_ok_iff.mp bound, ih inside, trivial⟩
  | case11 e one two t complete =>
    obtain rfl := Except.ok.inj read
    exact hasForm_of_form complete
  -- The other elements are refused: those with a fault in the form or with other children.
  | _ => cases read

theorem toSentence_of_agrees {e : Element} {s : Sentence} (agrees : e.Agrees (ofSentence s)) :
    e.toSentence = .ok s := by
  have form := form_of_agrees agrees
  induction s generalizing e with
  | truth b => exact toSentence_of_complete form
  | proposition p => exact toSentence_of_complete form
  | predicate p ts => exact toSentence_of_complete form
  | negation s ih =>
    obtain ⟨name, given, es⟩ := e
    obtain ⟨-, -, children⟩ := agrees_one_iff.mp agrees
    obtain ⟨e, _, same, inside, none'⟩ := allAgree_cons_iff.mp children
    obtain rfl := allAgree_nil_iff.mp none'
    obtain rfl : es = [e] := same
    rw [toSentence, form]
    have read : e.toSentence = .ok s := ih inside (form_of_agrees inside)
    rw [formOf, read]
    rfl
  | binary c l r leftIh rightIh =>
    obtain ⟨name, given, es⟩ := e
    obtain ⟨-, -, children⟩ := agrees_one_iff.mp agrees
    obtain ⟨e, _, same, left, others⟩ := allAgree_cons_iff.mp children
    obtain ⟨f, _, rfl, right, none'⟩ := allAgree_cons_iff.mp others
    obtain rfl := allAgree_nil_iff.mp none'
    obtain rfl : es = [e, f] := same
    rw [toSentence, form]
    have readLeft : e.toSentence = .ok l := leftIh left (form_of_agrees left)
    have readRight : f.toSentence = .ok r := rightIh right (form_of_agrees right)
    rw [formOf, readLeft, readRight]
    rfl
  | quantified q x s ih =>
    obtain ⟨name, given, es⟩ := e
    obtain ⟨-, -, children⟩ := agrees_one_iff.mp agrees
    obtain ⟨e, _, same, bound, others⟩ := allAgree_cons_iff.mp children
    obtain ⟨f, _, rfl, inside, none'⟩ := allAgree_cons_iff.mp others
    obtain rfl := allAgree_nil_iff.mp none'
    obtain rfl : es = [e, f] := same
    rw [toSentence, form]
    have readVariable : e.boundVariable = .ok x := boundVariable_eq_ok_iff.mpr bound
    have readInside : f.toSentence = .ok s := ih inside (form_of_agrees inside)
    rw [formOf, readVariable, readInside]
    rfl

theorem toSentence_eq_ok_iff {e : Element} {s : Sentence} :
    e.toSentence = .ok s ↔ e.Agrees (ofSentence s) :=
  ⟨agrees_of_toSentence, toSentence_of_agrees⟩

end Element

open Element (AllAgree agrees_one_iff)

theorem named_one {name key v : Text} {children : List Element} (valid : IsName name)
    (validKey : IsName key) (inside : Element.AllNamed children) :
    (Element.node name [(key, v)] children).Named := by
  refine ⟨valid, ?_, inside⟩
  intro first member
  obtain rfl := List.mem_singleton.mp member
  exact validKey

mutual

theorem named_ofTerm : ∀ t : Term, (ofTerm t).Named
  | .const _ => named_one (by decide) (by decide) trivial
  | .var _ => named_one (by decide) (by decide) trivial
  | .app _ ts => named_one (by decide) (by decide) (named_ofArguments ts)

theorem named_ofArguments : ∀ ts : Arguments, Element.AllNamed (ofArguments ts)
  | .one t => ⟨named_ofTerm t, trivial⟩
  | .cons t ts => ⟨named_ofTerm t, named_ofArguments ts⟩

end

theorem named_ofSentence (s : Sentence) : (ofSentence s).Named := by
  induction s with
  | truth b => exact named_one (by decide) (by decide) trivial
  | proposition p => exact named_one (by decide) (by decide) trivial
  | predicate p ts => exact named_one (by decide) (by decide) (named_ofArguments ts)
  | negation s ih => exact named_one (by decide) (by decide) ⟨ih, trivial⟩
  | binary c l r leftIh rightIh =>
    exact named_one (by decide) (by decide) ⟨leftIh, rightIh, trivial⟩
  | quantified q x s ih =>
    have bound : (symbolElement "variable" x []).Named := named_one (by decide) (by decide) trivial
    exact named_one (by decide) (by decide) ⟨bound, ih, trivial⟩

/-! An element that is written says what it says itself. -/

theorem agrees_one_self {name key v : Text} {children : List Element}
    (inside : AllAgree children children) :
    (Element.node name [(key, v)] children).Agrees (.node name [(key, v)] children) := by
  have given : [(key, v)].lookup key = some v := by simp
  exact agrees_one_iff.mpr ⟨rfl, given, inside⟩

mutual

theorem agrees_ofTerm : ∀ t : Term, (ofTerm t).Agrees (ofTerm t)
  | .const _ => agrees_one_self trivial
  | .var _ => agrees_one_self trivial
  | .app _ ts => agrees_one_self (agrees_ofArguments ts)

theorem agrees_ofArguments : ∀ ts : Arguments, AllAgree (ofArguments ts) (ofArguments ts)
  | .one t => ⟨agrees_ofTerm t, trivial⟩
  | .cons t ts => ⟨agrees_ofTerm t, agrees_ofArguments ts⟩

end

theorem agrees_ofSentence (s : Sentence) : (ofSentence s).Agrees (ofSentence s) := by
  induction s with
  | truth b => exact agrees_one_self trivial
  | proposition p => exact agrees_one_self trivial
  | predicate p ts => exact agrees_one_self (agrees_ofArguments ts)
  | negation s ih => exact agrees_one_self ⟨ih, trivial⟩
  | binary c l r leftIh rightIh => exact agrees_one_self ⟨leftIh, rightIh, trivial⟩
  | quantified q x s ih =>
    have bound : (symbolElement "variable" x []).Agrees (symbolElement "variable" x []) :=
      agrees_one_self trivial
    exact agrees_one_self ⟨bound, ih, trivial⟩

theorem document_write (s : Sentence) : Document (documentOf s) (write s) := by
  have named : (documentOf s).Named := ⟨by decide, by simp, named_ofSentence s, trivial⟩
  exact named.document

theorem read_eq_ok_iff {document : Text} {s : Sentence} :
    read document = .ok s ↔ ∃ e, Document e document ∧ e.Agrees (documentOf s) := by
  rw [read, bind_eq_ok_iff]
  constructor
  · rintro ⟨e, parsed, rest⟩
    refine ⟨e, parse_eq_ok_iff.mp parsed, ?_⟩
    split at rest
    · next root =>
      split at rest
      · next inside child =>
        obtain ⟨name, given, es⟩ := e
        obtain rfl : es = [inside] := child
        exact ⟨root, by simp, Element.toSentence_eq_ok_iff.mp rest, trivial⟩
      · cases rest
    · cases rest
  · rintro ⟨e, stands, agrees⟩
    refine ⟨e, parse_eq_ok_iff.mpr stands, ?_⟩
    obtain ⟨name, given, es⟩ := e
    obtain ⟨root, -, children⟩ := agrees
    obtain ⟨inside, _, rfl, agrees, none'⟩ := Element.allAgree_cons_iff.mp children
    obtain rfl := Element.allAgree_nil_iff.mp none'
    have named : (Element.node name given [inside]).name = "sentence" := root
    rw [if_pos named]
    exact Element.toSentence_eq_ok_iff.mpr agrees

/-- Reading a document gives a sentence exactly if the document stands for an element tree that says
what the one of the written sentence says.  No document stands for two trees, so writing a sentence
and reading it again gives the sentence. -/
theorem read_iff_agrees_written :
    (∀ document s, read document = .ok s ↔
      ∃ e w, Document e document ∧ Document w (write s) ∧ e.Agrees w) ∧
    (∀ document e, Element.parse document = .ok e ↔ Document e document) ∧
    ∀ s, read (write s) = .ok s := by
  have exact' (document : Text) (s : Sentence) : read document = .ok s ↔
      ∃ e w, Document e document ∧ Document w (write s) ∧ e.Agrees w := by
    rw [read_eq_ok_iff]
    constructor
    · rintro ⟨e, stands, agrees⟩
      exact ⟨e, documentOf s, stands, document_write s, agrees⟩
    · rintro ⟨e, w, stands, written, agrees⟩
      rw [written.unique (document_write s)] at agrees
      exact ⟨e, stands, agrees⟩
  refine ⟨exact', fun _ _ => parse_eq_ok_iff, ?_⟩
  intro s
  have agrees : (documentOf s).Agrees (documentOf s) := ⟨rfl, by simp, agrees_ofSentence s, trivial⟩
  exact read_eq_ok_iff.mpr ⟨documentOf s, document_write s, agrees⟩

end ProofDesk.Markup
