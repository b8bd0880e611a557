import Mathlib.Data.List.Chain
import ProofDesk.Proofs.Logic.Printing

namespace ProofDesk.Logic

structure Placed where
  token : Token
  gap : Text
  written : token.Written
  blank : gap.all isSpace = true

namespace Placed

def text (p : Placed) : Text := p.token.text ++ p.gap

/-- There is white space between the two if both are words. -/
def Parted (p q : Placed) : Prop :=
  p.token.isWord = true → q.token.isWord = true → p.gap ≠ []

end Placed

/-- Placed tokens behind some white space, no two words touching. -/
structure Layout where
  opening : Text
  placed : List Placed
  blank : opening.all isSpace = true
  parted : placed.IsChain Placed.Parted

namespace Layout

def tokens (layout : Layout) : List Token := layout.placed.map Placed.token

def text (layout : Layout) : Text := layout.opening ++ layout.placed.flatMap Placed.text

end Layout

theorem not_continuesName_of_isSpace {c : Char} (blank : isSpace c = true) :
    continuesName c = false := by
  simp only [isSpace, Bool.or_eq_true, beq_iff_eq] at blank
  rcases blank with (((rfl | rfl) | rfl) | rfl) | rfl <;> decide

theorem apart_of_sign {t : Token} (written : t.Written) (sign : t.isWord = false) (s : Text) :
    Apart (t.text ++ s) := by
  cases t with
  | implies | iff | not | opening | closing | comma => exact apart_cons (by decide)
  | unknown => cases written
  | name x => cases sign
  | verum | falsum | and | or | forAll | exist => exact absurd sign (by decide)

theorem not_apart_of_word {t : Token} (written : t.Written) (word : t.isWord = true) (s : Text) :
    ¬Apart (t.text ++ s) := by
  obtain ⟨c, w, same, starts, -⟩ := isWord_of_written written word
  intro apart
  have ends : continuesName c = false := apart c (by rw [same]; rfl)
  rw [continuesName, starts, Bool.true_or] at ends
  cases ends

theorem apart_gap_iff {gap : Text} {placed : List Placed} (blank : gap.all isSpace = true) :
    Apart (gap ++ placed.flatMap Placed.text) ↔
      ∀ q ∈ placed.head?, q.token.isWord = true → gap ≠ [] := by
  cases gap with
  | cons c gap =>
    rw [List.all_cons, Bool.and_eq_true] at blank
    have apart := apart_cons (s := gap ++ placed.flatMap Placed.text)
      (not_continuesName_of_isSpace blank.1)
    exact iff_of_true apart fun _ _ _ => List.cons_ne_nil c gap
  | nil =>
    cases placed with
    | nil => exact iff_of_true (by simp [Apart]) (by simp)
    | cons q placed =>
      rw [List.nil_append, List.flatMap_cons, Placed.text, List.append_assoc]
      cases word : q.token.isWord with
      | true =>
        have touching := not_apart_of_word q.written word (q.gap ++ placed.flatMap Placed.text)
        exact iff_of_false touching fun gapped => gapped q rfl word rfl
      | false =>
        have apart := apart_of_sign q.written word (q.gap ++ placed.flatMap Placed.text)
        refine iff_of_true apart ?_
        intro p first isWord
        cases first
        rw [word] at isWord
        cases isWord

theorem Spells.behind_blank {gap s : Text} {ts : List Token} (blank : gap.all isSpace = true)
    (rest : Spells ts s) : Spells ts (gap ++ s) := by
  induction gap with
  | nil => exact rest
  | cons c gap ih =>
    rw [List.all_cons, Bool.and_eq_true] at blank
    exact Spells.space blank.1 (ih blank.2)

theorem spells_placed {placed : List Placed} (parted : placed.IsChain Placed.Parted) :
    Spells (placed.map Placed.token) (placed.flatMap Placed.text) := by
  induction placed with
  | nil => exact Spells.nil
  | cons p placed ih =>
    rw [List.isChain_cons] at parted
    have further := (ih parted.2).behind_blank p.blank
    have apart (word : p.token.isWord = true) : Apart (p.gap ++ placed.flatMap Placed.text) :=
      (apart_gap_iff p.blank).mpr fun q first => parted.1 q first word
    have whole := Spells.token p.written apart further
    rwa [List.map_cons, List.flatMap_cons, Placed.text, List.append_assoc]

theorem Layout.spells (layout : Layout) : Spells layout.tokens layout.text :=
  (spells_placed layout.parted).behind_blank layout.blank

theorem Spells.exists_layout {ts : List Token} {s : Text} (spells : Spells ts s) :
    ∃ layout : Layout, layout.tokens = ts ∧ layout.text = s := by
  induction spells with
  | nil => exact ⟨⟨[], [], rfl, .nil⟩, rfl, rfl⟩
  | @space c ts s blank rest ih =>
    rcases ih with ⟨⟨opening, placed, blanks, parted⟩, rfl, rfl⟩
    have blanks' : (c :: opening).all isSpace = true := by rw [List.all_cons, blank, blanks]; rfl
    exact ⟨⟨c :: opening, placed, blanks', parted⟩, rfl, rfl⟩
  | @token t ts s written apart rest ih =>
    -- what opened the layout of the rest stands behind the token
    rcases ih with ⟨⟨opening, placed, blanks, parted⟩, rfl, rfl⟩
    have parted' : (⟨t, opening, written, blanks⟩ :: placed).IsChain Placed.Parted :=
      List.isChain_cons.mpr
        ⟨fun q first word => (apart_gap_iff blanks).mp (apart word) q first, parted⟩
    refine ⟨⟨[], _, rfl, parted'⟩, rfl, ?_⟩
    simp [Layout.text, Placed.text]

theorem spells_iff_layout {ts : List Token} {s : Text} :
    Spells ts s ↔ ∃ layout : Layout, layout.tokens = ts ∧ layout.text = s := by
  constructor
  · exact Spells.exists_layout
  · intro laid
    rcases laid with ⟨layout, rfl, rfl⟩
    exact layout.spells

theorem exists_spells {ts : List Token} (written : ∀ t ∈ ts, t.Written) : ∃ s, Spells ts s := by
  induction ts with
  | nil => exact ⟨[], Spells.nil⟩
  | cons t ts ih =>
    rw [List.forall_mem_cons] at written
    rcases ih written.2 with ⟨s, rest⟩
    have behind := Spells.space (c := ' ') rfl rest
    exact ⟨_, Spells.token written.1 (fun _ => apart_cons (by decide)) behind⟩

theorem exists_layout_iff {ts : List Token} :
    (∃ layout : Layout, layout.tokens = ts) ↔ ∀ t ∈ ts, t.Written := by
  constructor
  · intro laid t member
    rcases laid with ⟨layout, rfl⟩
    rcases List.mem_map.mp member with ⟨p, -, rfl⟩
    exact p.written
  · intro written
    rcases exists_spells written with ⟨s, spells⟩
    rcases spells.exists_layout with ⟨layout, same, -⟩
    exact ⟨layout, same⟩

/-- Exactly the lists of tokens that can be written have layouts, and the lexer reads each layout
back as its tokens.  Conversely a text whose tokens are all known is a layout of them. -/
theorem tokenize_layout :
    (∀ ts : List Token, (∃ layout : Layout, layout.tokens = ts) ↔ ∀ t ∈ ts, t.Written) ∧
    (∀ layout : Layout, tokenize layout.text = layout.tokens) ∧
    ∀ (ts : List Token) (s : Text), tokenize s = ts ∧ Token.unknown ∉ ts ↔
      ∃ layout : Layout, layout.tokens = ts ∧ layout.text = s := by
  refine ⟨fun ts => exists_layout_iff, fun layout => layout.spells.tokenize, ?_⟩
  intro ts s
  rw [tokenize_eq_iff, spells_iff_layout]

def touching : Layout where
  opening := "\t"
  placed := [⟨.name "ANDs", [], rfl, rfl⟩, ⟨.iff, [], trivial, rfl⟩,
    ⟨.implies, [], trivial, rfl⟩, ⟨.not, [], trivial, rfl⟩, ⟨.name "true'", "\n ", rfl, rfl⟩,
    ⟨.or, [], trivial, rfl⟩, ⟨.closing, " ", trivial, rfl⟩]
  blank := rfl
  parted := by simp [Placed.Parted, Token.isWord, Token.keywords]

theorem tokenize_layout_touching :
    touching.text = "\tANDs<=>=>-true'\n OR) " ∧ tokenize "\tANDs<=>=>-true'\n OR) " =
      [.name "ANDs", .iff, .implies, .not, .name "true'", .or, .closing] := by
  have written : touching.text = "\tANDs<=>=>-true'\n OR) " := by decide
  have read := tokenize_layout.2.1 touching
  rw [written] at read
  exact ⟨written, read⟩

end ProofDesk.Logic
