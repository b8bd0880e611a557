import ProofDesk.Markup.Element
import ProofDesk.Proofs.Markup.Lexing
import ProofDesk.Proofs.Outcome

namespace ProofDesk.Markup

open Text (Ends)

def attributeTokens : List (Text × Text) → List Token
  | [] => []
  | (key, v) :: rest => .name key :: .equals :: .value v :: attributeTokens rest

mutual

/-- An element is one empty tag, or its children between a start tag and an end tag. -/
inductive ElementForm : Element → List Token → Prop where
  | empty (name : Text) (attributes : List (Text × Text)) :
    ElementForm (.node name attributes [])
      (.opening :: .name name :: (attributeTokens attributes ++ [.emptyClosing]))
  | tags {children : List Element} {inside : List Token} (name : Text)
    (attributes : List (Text × Text)) (content : ElementsForm children inside) :
    ElementForm (.node name attributes children)
      (.opening :: .name name :: (attributeTokens attributes ++
        .closing :: (inside ++ [.endOpening, .name name, .closing])))

inductive ElementsForm : List Element → List Token → Prop where
  | nil : ElementsForm [] []
  | cons {e : Element} {es : List Element} {first rest : List Token} (element : ElementForm e first)
    (further : ElementsForm es rest) : ElementsForm (e :: es) (first ++ rest)

end

/-- A text that stands for an element tree. -/
def Document (e : Element) (document : Text) : Prop :=
  ∃ tokens, Spells tokens document ∧ ElementForm e tokens

def tagEnd (closed : Bool) : Token := if closed then .emptyClosing else .closing

theorem readAttributes_eq_ok_iff {tokens rest : List Token} {attributes : List (Text × Text)}
    {closed : Bool} : readAttributes tokens = .ok (attributes, closed, rest) ↔
      tokens = attributeTokens attributes ++ tagEnd closed :: rest := by
  constructor
  · intro read
    fun_induction readAttributes tokens generalizing attributes with
    | case1 key v tokens ih =>
      obtain ⟨⟨further, closed', rest'⟩, inside, same⟩ := bind_eq_ok_iff.mp read
      cases same
      rw [ih inside]
      rfl
    | case2 => cases read
    | case3 tokens =>
      cases read
      rfl
    | case4 tokens =>
      cases read
      rfl
    | case5 => cases read
  · rintro rfl
    induction attributes with
    | nil => cases closed <;> rfl
    | cons first attributes ih =>
      change (readAttributes (attributeTokens attributes ++ tagEnd closed :: rest) >>= _) = _
      rw [ih]
      rfl

theorem readEnd_eq_ok_iff {name : Text} {tokens rest : List Token} :
    readEnd name tokens = .ok rest ↔ tokens = .endOpening :: .name name :: .closing :: rest := by
  constructor
  · intro read
    unfold readEnd at read
    split at read
    · cases read
    · split at read
      · next same =>
        cases read
        rw [same]
      · cases read
    · cases read
  · rintro rfl
    exact if_pos rfl

theorem readElement_succ (n : Nat) (name : Text) (tokens : List Token) :
    readElement (n + 1) (.opening :: .name name :: tokens) =
      (readAttributes tokens >>= fun read =>
        if read.2.1 then pure (.node name read.1 [], read.2.2)
        else readChildren n read.2.2 >>= fun inside => readEnd name inside.2 >>= fun rest =>
          pure (.node name read.1 inside.1, rest)) := rfl

mutual

theorem elementForm_of_read {n : Nat} {tokens rest : List Token} {e : Element}
    (read : readElement n tokens = .ok (e, rest)) :
    ∃ used, tokens = used ++ rest ∧ ElementForm e used := by
  unfold readElement at read
  split at read
  · next n name ts =>
    obtain ⟨⟨attributes, closed, after⟩, tag, further⟩ := bind_eq_ok_iff.mp read
    obtain rfl := readAttributes_eq_ok_iff.mp tag
    cases closed with
    | true =>
      cases further
      exact ⟨_, by simp [tagEnd], .empty name attributes⟩
    | false =>
      obtain ⟨⟨children, behind⟩, inside, last⟩ := bind_eq_ok_iff.mp further
      obtain ⟨rest', ends, same⟩ := bind_eq_ok_iff.mp last
      cases same
      obtain ⟨used, rfl, content⟩ := elementsForm_of_read inside
      obtain rfl := readEnd_eq_ok_iff.mp ends
      exact ⟨_, by simp [tagEnd], .tags name attributes content⟩
  · cases read
  · cases read

theorem elementsForm_of_read {n : Nat} {tokens rest : List Token} {es : List Element}
    (read : readChildren n tokens = .ok (es, rest)) :
    ∃ used, tokens = used ++ rest ∧ ElementsForm es used := by
  unfold readChildren at read
  split at read
  · next n ts =>
    obtain ⟨⟨child, after⟩, first, further⟩ := bind_eq_ok_iff.mp read
    obtain ⟨⟨children, behind⟩, others, same⟩ := bind_eq_ok_iff.mp further
    cases same
    obtain ⟨used, whole, element⟩ := elementForm_of_read first
    obtain ⟨more, rfl, elements⟩ := elementsForm_of_read others
    exact ⟨used ++ more, by rw [whole, List.append_assoc], .cons element elements⟩
  · cases read
    exact ⟨[], rfl, .nil⟩

end

/-- Tokens at which the children of an element end. -/
def NoElement (rest : List Token) : Prop := rest.head? ≠ some .opening

theorem ElementForm.head {e : Element} {tokens : List Token} (form : ElementForm e tokens) :
    ∃ rest, tokens = .opening :: rest ∧ 2 ≤ rest.length := by
  cases form with
  | empty name attributes => exact ⟨_, rfl, by simp⟩
  | tags name attributes content => exact ⟨_, rfl, by simp +arith⟩

theorem readChildren_none (n : Nat) {rest : List Token} (ends : NoElement rest) :
    readChildren n rest = .ok ([], rest) := by
  cases n with
  | zero => rfl
  | succ n =>
    cases rest with
    | nil => rfl
    | cons token rest =>
      cases token with
      | opening => exact absurd rfl ends
      | endOpening | closing | emptyClosing | equals | name | value | data | unknown => rfl

mutual

theorem ElementForm.read {e : Element} {tokens : List Token} (form : ElementForm e tokens) {n : Nat}
    (enough : 2 * tokens.length ≤ n) (rest : List Token) :
    readElement n (tokens ++ rest) = .ok (e, rest) := by
  cases form with
  | empty name attributes =>
    cases n with
    | zero => simp at enough
    | succ n =>
      have tag : readAttributes (attributeTokens attributes ++ .emptyClosing :: rest) =
          .ok (attributes, true, rest) := readAttributes_eq_ok_iff.mpr rfl
      simp only [List.cons_append, List.append_assoc, List.nil_append]
      rw [readElement_succ, tag]
      rfl
  | @tags children inside name attributes content =>
    cases n with
    | zero => simp at enough
    | succ n =>
      simp only [List.length_cons, List.length_append, List.length_nil] at enough
      have tag (behind : List Token) :
          readAttributes (attributeTokens attributes ++ .closing :: behind) =
            .ok (attributes, false, behind) := readAttributes_eq_ok_iff.mpr rfl
      have ends : NoElement (.endOpening :: .name name :: .closing :: rest) := by simp [NoElement]
      have read := content.read (n := n) (by omega) _ ends
      have closes : readEnd name (.endOpening :: .name name :: .closing :: rest) = .ok rest :=
        readEnd_eq_ok_iff.mpr rfl
      simp only [List.cons_append, List.append_assoc, List.nil_append]
      rw [readElement_succ, tag]
      change (readChildren n _ >>= _) = _
      rw [read]
      change (readEnd name _ >>= _) = _
      rw [closes]
      rfl

theorem ElementsForm.read {es : List Element} {tokens : List Token} (form : ElementsForm es tokens)
    {n : Nat} (enough : 2 * tokens.length + 1 ≤ n) (rest : List Token) (ends : NoElement rest) :
    readChildren n (tokens ++ rest) = .ok (es, rest) := by
  cases form with
  | nil => exact readChildren_none n ends
  | @cons e es first later element further =>
    cases n with
    | zero => simp at enough
    | succ n =>
      obtain ⟨behind, begins, long⟩ := element.head
      simp only [List.length_append] at enough
      have positive : 3 ≤ first.length := by
        rw [begins, List.length_cons]
        omega
      have read := element.read (n := n) (by omega) (later ++ rest)
      have others := further.read (n := n) (by omega) rest ends
      rw [List.append_assoc]
      rw [begins] at read ⊢
      change (readElement n (.opening :: behind ++ (later ++ rest)) >>= _) = _
      rw [read]
      change (readChildren n (later ++ rest) >>= _) = _
      rw [others]
      rfl

end

theorem known_attributeTokens (attributes : List (Text × Text)) :
    Known (attributeTokens attributes) := by
  induction attributes with
  | nil => simp [Known, attributeTokens]
  | cons first attributes ih =>
    simp only [Known, attributeTokens, List.mem_cons, not_or] at ih ⊢
    simp [ih]

mutual

theorem ElementForm.known :
    ∀ {e : Element} {tokens : List Token}, ElementForm e tokens → Known tokens
  | _, _, .empty name attributes => by
    have inside := known_attributeTokens attributes
    simp [Known, inside.1, inside.2]
  | _, _, .tags name attributes content => by
    have tag := known_attributeTokens attributes
    have inside := content.known
    simp [Known, tag.1, tag.2, inside.1, inside.2]

theorem ElementsForm.known :
    ∀ {es : List Element} {tokens : List Token}, ElementsForm es tokens → Known tokens
  | _, _, .nil => by simp [Known]
  | _, _, .cons element further => by
    have first := element.known
    have rest := further.known
    simp [Known, first.1, first.2, rest.1, rest.2]

end

/-- Reading succeeds with the element tree that the text stands for. -/
theorem parse_eq_ok_iff {document : Text} {e : Element} :
    Element.parse document = .ok e ↔ Document e document := by
  rw [Element.parse, bind_eq_ok_iff]
  constructor
  · rintro ⟨⟨root, rest⟩, read, ends⟩
    obtain ⟨used, whole, form⟩ := elementForm_of_read read
    dsimp only at ends
    split at ends
    · cases ends
      rw [List.append_nil] at whole
      rw [← whole] at form
      exact ⟨tokenize document, tokenize_eq_iff.mp ⟨rfl, form.known⟩, form⟩
    · cases ends
  · rintro ⟨tokens, spells, form⟩
    have enough : 2 * tokens.length ≤ 2 * tokens.length + 2 := by omega
    have read := form.read enough []
    rw [List.append_nil] at read
    rw [spells.tokenize]
    exact ⟨(e, []), read, rfl⟩

theorem Document.unique {e f : Element} {document : Text} (first : Document e document)
    (second : Document f document) : e = f := by
  have read := parse_eq_ok_iff.mpr first
  rw [parse_eq_ok_iff.mpr second] at read
  cases read
  rfl

mutual

def Element.Named : Element → Prop
  | .node name attributes children =>
    IsName name ∧ (∀ first ∈ attributes, IsName first.1) ∧ Element.AllNamed children

def Element.AllNamed : List Element → Prop
  | [] => True
  | e :: es => e.Named ∧ Element.AllNamed es

end

theorem ends_name {p : Char → Bool} {x : Text} (valid : IsName x) (s : Text)
    (apart : ∀ c, p c = true → startsName c = false) : Ends p (x ++ s) := by
  cases x with
  | nil => cases valid
  | cons c x =>
    apply Text.ends_cons.mpr
    rw [Bool.eq_false_iff]
    intro inClass
    have starts := apart c inClass
    rw [valid.1] at starts
    cases starts

theorem startsName_of_isSpace (c : Char) (blank : isSpace c = true) : startsName c = false := by
  rcases isSpace_iff.mp blank with rfl | rfl | rfl | rfl <;> rfl

theorem startsName_of_extendsOpening (c : Char) (extends' : extendsOpening c = true) :
    startsName c = false := by
  simp only [extendsOpening, Bool.or_eq_true, beq_iff_eq] at extends'
  rcases extends' with (rfl | rfl) | rfl <;> rfl

theorem spells_blank {ts : List Token} {s : Text} (ends : Ends isSpace s) (rest : Spells ts s) :
    Spells ts (' ' :: s) := .piece (t := none) (w := [' ']) (.blanks (by simp) rfl ends) rest

theorem spells_name {x s : Text} {ts : List Token} (valid : IsName x) (ends : Ends continuesName s)
    (rest : Spells ts s) : Spells (.name x :: ts) (x ++ s) := .piece (.name valid ends) rest

theorem spells_value (v : Text) {ts : List Token} {s : Text} (rest : Spells ts s) :
    Spells (.equals :: .value v :: ts) ('=' :: '"' :: (encode v ++ '"' :: s)) := by
  have quoted : Piece (some (.value v)) ('"' :: (encode v ++ ['"'])) s :=
    .value s (Or.inl rfl) (encode_inside v) (denotes_encode v)
  have whole := Spells.piece (.equals _) (.piece quoted rest)
  simpa using whole

theorem spells_attributes {attributes : List (Text × Text)}
    (named : ∀ first ∈ attributes, IsName first.1) {ts : List Token} {s : Text}
    (rest : Spells ts s) :
    Spells (attributeTokens attributes ++ ts) (Element.writeAttributes attributes ++ s) := by
  induction attributes with
  | nil => exact rest
  | cons first attributes ih =>
    obtain ⟨key, v⟩ := first
    obtain ⟨valid, named⟩ := List.forall_mem_cons.mp named
    have value := spells_value v (ih named)
    have name := spells_name valid (Text.ends_cons.mpr rfl) value
    have whole := spells_blank (ends_name valid _ startsName_of_isSpace) name
    simpa [Element.writeAttributes, attributeTokens] using whole

theorem ends_attributes (attributes : List (Text × Text)) {s : Text} (ends : Ends continuesName s) :
    Ends continuesName (Element.writeAttributes attributes ++ s) := by
  cases attributes with
  | nil => exact ends
  | cons first attributes => exact Text.ends_cons.mpr rfl

theorem spells_tag {name : Text} {attributes : List (Text × Text)} (valid : IsName name)
    (named : ∀ first ∈ attributes, IsName first.1) {ts : List Token} {s : Text}
    (ends : Ends continuesName s) (rest : Spells ts s) :
    Spells (.opening :: .name name :: (attributeTokens attributes ++ ts))
      ("<" ++ (name ++ (Element.writeAttributes attributes ++ s))) := by
  have inside := spells_attributes named rest
  have first := spells_name valid (ends_attributes attributes ends) inside
  exact .piece (.opening (ends_name valid _ startsName_of_extendsOpening)) first

mutual

theorem Element.Named.spells {e : Element} (named : e.Named) {ts : List Token} {s : Text}
    (rest : Spells ts s) : ∃ used, ElementForm e used ∧ Spells (used ++ ts) (e.write ++ s) := by
  cases e with
  | node name attributes children =>
    obtain ⟨valid, keys, inside⟩ := named
    cases children with
    | nil =>
      refine ⟨_, .empty name attributes, ?_⟩
      have closes : Spells (.emptyClosing :: ts) (' ' :: '/' :: '>' :: s) :=
        spells_blank (Text.ends_cons.mpr rfl) (.piece (.emptyClosing s) rest)
      have whole := spells_tag valid keys (Text.ends_cons.mpr rfl) closes
      simpa [Element.write] using whole
    | cons e es =>
      have last : Spells (.endOpening :: .name name :: .closing :: ts) ("</" ++ (name ++ (">" ++ s))) :=
        .piece (.endOpening _) (spells_name valid (Text.ends_cons.mpr rfl)
          (.piece (.closing s) rest))
      obtain ⟨used, content, spelled⟩ := spells_all inside last
      refine ⟨_, .tags name attributes content, ?_⟩
      have start : Spells (.closing :: (used ++ _)) ('>' :: (Element.writeAll (e :: es) ++ _)) :=
        .piece (.closing _) spelled
      have whole := spells_tag valid keys (Text.ends_cons.mpr rfl) start
      simpa [Element.write] using whole

theorem spells_all {es : List Element} (named : Element.AllNamed es) {ts : List Token} {s : Text}
    (rest : Spells ts s) :
    ∃ used, ElementsForm es used ∧ Spells (used ++ ts) (Element.writeAll es ++ s) := by
  cases es with
  | nil => exact ⟨[], .nil, rest⟩
  | cons e es =>
    obtain ⟨later, further, spelled⟩ := spells_all named.2 rest
    obtain ⟨first, element, whole⟩ := named.1.spells spelled
    refine ⟨first ++ later, .cons element further, ?_⟩
    simpa [Element.writeAll] using whole

end

theorem Element.Named.document {e : Element} (named : e.Named) : Document e e.write := by
  obtain ⟨used, form, spelled⟩ := named.spells .nil
  simp only [List.append_nil] at spelled
  exact ⟨used, spelled, form⟩

end ProofDesk.Markup
