import PerfGate.Json.Reader
import PerfGate.Json.Value
import Mathlib.Tactic

/-!
# What spells a document

The grammar of JSON as a relation between a document and the texts that spell it: blanks between
any two tokens, characters of a literal as themselves or escaped, numerals with or without a
fraction and an exponent. A document that has a spelling is whole.
-/

set_option autoImplicit false

namespace PerfGate.Json

/-! ## The grammar -/

def Blanks (b : List Char) : Prop :=
  ∀ c ∈ b, isBlank c = true

theorem blanks_nil : Blanks [] := List.forall_mem_nil _

inductive Piece.Spells : Piece → List Char → Prop where
  | plain {c : Char} (quote : c ≠ '"') (backslash : c ≠ '\\') (control : 32 ≤ c.toNat) :
      Spells (.char c) [c]
  | escaped {e c : Char} (h : escapeChar? e = some c) : Spells (.char c) ['\\', e]
  | numbered {a b c d : Char} {n : Nat} (h : hex4? a b c d = some n) :
      Spells (.unit n) ['\\', 'u', a, b, c, d]

inductive PiecesSpell : List Piece → List Char → Prop where
  | closed : PiecesSpell [] ['"']
  | cons {p : Piece} {ps : List Piece} {s rest : List Char} (piece : p.Spells s)
      (others : PiecesSpell ps rest) : PiecesSpell (p :: ps) (s ++ rest)

/-- A literal without its opening quote. -/
structure Literal.Spells (l : Literal) (s : List Char) : Prop where
  whole : l.broken = none
  pieces : PiecesSpell l.pieces s

structure Digits (ds : List Char) : Prop where
  some_digit : ds ≠ []
  digits : ∀ c ∈ ds, isDigit c = true

inductive FractionSpells : Option (List Char) → List Char → Prop where
  | without : FractionSpells none []
  | digits {ds : List Char} (h : Digits ds) : FractionSpells (some ds) ('.' :: ds)

inductive ExponentSpells : Option (Bool × List Char) → List Char → Prop where
  | without : ExponentSpells none []
  | unsigned {e : Char} {ds : List Char} (letter : e = 'e' ∨ e = 'E') (h : Digits ds) :
      ExponentSpells (some (false, ds)) (e :: ds)
  | plus {e : Char} {ds : List Char} (letter : e = 'e' ∨ e = 'E') (h : Digits ds) :
      ExponentSpells (some (false, ds)) (e :: '+' :: ds)
  | minus {e : Char} {ds : List Char} (letter : e = 'e' ∨ e = 'E') (h : Digits ds) :
      ExponentSpells (some (true, ds)) (e :: '-' :: ds)

/-- No zero stands in front of other digits. -/
inductive Numeral.Spells : Numeral → List Char → Prop where
  | unsigned {whole f e : List Char} {fraction : Option (List Char)}
      {exponent : Option (Bool × List Char)} (digits : Digits whole)
      (zero : whole.head? = some '0' → whole = ['0']) (hf : FractionSpells fraction f)
      (he : ExponentSpells exponent e) :
      Spells ⟨false, whole, fraction, exponent⟩ (whole ++ (f ++ e))
  | negative {whole f e : List Char} {fraction : Option (List Char)}
      {exponent : Option (Bool × List Char)} (digits : Digits whole)
      (zero : whole.head? = some '0' → whole = ['0']) (hf : FractionSpells fraction f)
      (he : ExponentSpells exponent e) :
      Spells ⟨true, whole, fraction, exponent⟩ ('-' :: (whole ++ (f ++ e)))

mutual

inductive Node.Spells : Node → List Char → Prop where
  | null : Node.Spells .null ['n', 'u', 'l', 'l']
  | trueWord : Node.Spells (.boolean true) ['t', 'r', 'u', 'e']
  | falseWord : Node.Spells (.boolean false) ['f', 'a', 'l', 's', 'e']
  | numeral {n : Numeral} {s : List Char} (h : n.Spells s) : Node.Spells (.numeral n) s
  | literal {l : Literal} {s : List Char} (h : l.Spells s) : Node.Spells (.literal l) ('"' :: s)
  | array {items : Items} {s : List Char} (h : Items.Spells true items s) :
      Node.Spells (.array items) ('[' :: s)
  | object {members : Members} {s : List Char} (h : Members.Spells true members s) :
      Node.Spells (.object members) ('\x7b' :: s)

/-- The items of a list and its bracket; all but the first item follow a comma. -/
inductive Items.Spells : Bool → Items → List Char → Prop where
  | closed {first : Bool} {b : List Char} (hb : Blanks b) :
      Items.Spells first (.ending .closed) (b ++ [']'])
  | first {node : Node} {items : Items} {b s t : List Char} (hb : Blanks b)
      (hnode : node.Spells s) (hitems : Items.Spells false items t) :
      Items.Spells true (.item node items) (b ++ (s ++ t))
  | next {node : Node} {items : Items} {b b' s t : List Char} (hb : Blanks b)
      (hb' : Blanks b') (hnode : node.Spells s) (hitems : Items.Spells false items t) :
      Items.Spells false (.item node items) (b ++ ',' :: (b' ++ (s ++ t)))

inductive Members.Spells : Bool → Members → List Char → Prop where
  | closed {first : Bool} {b : List Char} (hb : Blanks b) :
      Members.Spells first (.ending .closed) (b ++ ['\x7d'])
  | first {key : Literal} {node : Node} {members : Members} {b s t : List Char}
      (hb : Blanks b) (hmember : MemberSpells key node s)
      (hmembers : Members.Spells false members t) :
      Members.Spells true (.member key node members) (b ++ '"' :: (s ++ t))
  | next {key : Literal} {node : Node} {members : Members} {b b' s t : List Char}
      (hb : Blanks b) (hb' : Blanks b') (hmember : MemberSpells key node s)
      (hmembers : Members.Spells false members t) :
      Members.Spells false (.member key node members)
        (b ++ ',' :: (b' ++ '"' :: (s ++ t)))

/-- A key without its opening quote, a colon and a value. -/
inductive MemberSpells : Literal → Node → List Char → Prop where
  | mk {key : Literal} {node : Node} {k b b' s : List Char} (hkey : key.Spells k) (hb : Blanks b)
      (hb' : Blanks b') (hnode : node.Spells s) :
      MemberSpells key node (k ++ (b ++ ':' :: (b' ++ s)))

end

inductive Node.SpelledBy : Node → String → Prop where
  | mk {node : Node} {text : String} {b b' s : List Char} (hb : Blanks b) (hb' : Blanks b')
      (hnode : node.Spells s) (text_eq : text.toList = b ++ (s ++ b')) : SpelledBy node text

/-! ## Where values begin and end -/

/-- What can follow a value: the end of the text, a blank, a comma or a closing bracket. -/
def Follows (rest : List Char) : Prop :=
  ∀ c ∈ rest.head?, isBlank c = true ∨ c = ',' ∨ c = ']' ∨ c = '\x7d'

theorem follows_append {b rest : List Char} (hb : Blanks b) (h : Follows rest) :
    Follows (b ++ rest) := by
  cases b with
  | nil => exact h
  | cons c b =>
    intro d hd
    obtain rfl : c = d := Option.some.inj hd
    exact .inl (hb c List.mem_cons_self)

theorem follows_cons {c : Char} (rest : List Char) (hc : c = ',' ∨ c = ']' ∨ c = '\x7d') :
    Follows (c :: rest) := by
  intro d hd
  obtain rfl : c = d := Option.some.inj hd
  exact .inr hc

theorem Items.Spells.follows {items : Items} {s : List Char} (h : items.Spells false s)
    (rest : List Char) : Follows (s ++ rest) := by
  cases h with
  | closed hb =>
    rw [List.append_assoc]
    exact follows_append hb (follows_cons _ (by decide))
  | next hb =>
    rw [List.append_assoc]
    exact follows_append hb (follows_cons _ (by decide))

theorem Members.Spells.follows {members : Members} {s : List Char} (h : members.Spells false s)
    (rest : List Char) : Follows (s ++ rest) := by
  cases h with
  | closed hb =>
    rw [List.append_assoc]
    exact follows_append hb (follows_cons _ (by decide))
  | next hb =>
    rw [List.append_assoc]
    exact follows_append hb (follows_cons _ (by decide))

theorem isBlank_of_isDigit {c : Char} (h : isDigit c = true) : isBlank c = false := by
  simp only [isDigit, Bool.and_eq_true, decide_eq_true_eq] at h
  simp only [isBlank, Bool.or_eq_false_iff, decide_eq_false_iff_not]
  refine ⟨⟨⟨?_, ?_⟩, ?_⟩, ?_⟩ <;> (rintro rfl; exact absurd h (by decide))

theorem Numeral.Spells.head {n : Numeral} {s : List Char} (h : n.Spells s) :
    ∃ c more, s = c :: more ∧ (c = '-' ∨ isDigit c = true) := by
  cases h with
  | unsigned digits =>
    obtain ⟨d, ds, rfl⟩ := List.exists_cons_of_ne_nil digits.some_digit
    exact ⟨d, _, rfl, .inr (digits.digits d List.mem_cons_self)⟩
  | negative => exact ⟨'-', _, rfl, .inl rfl⟩

/-- A value does not start like what stands between values. -/
theorem Node.Spells.head {node : Node} {s : List Char} (h : node.Spells s) :
    ∃ c more, s = c :: more ∧ isBlank c = false ∧ c ≠ ']' := by
  cases h with
  | null => exact ⟨_, _, rfl, by decide⟩
  | trueWord => exact ⟨_, _, rfl, by decide⟩
  | falseWord => exact ⟨_, _, rfl, by decide⟩
  | literal => exact ⟨_, _, rfl, by decide⟩
  | array => exact ⟨_, _, rfl, by decide⟩
  | object => exact ⟨_, _, rfl, by decide⟩
  | numeral h =>
    obtain ⟨c, more, rfl, rfl | hc⟩ := h.head
    · exact ⟨_, _, rfl, by decide⟩
    · refine ⟨c, more, rfl, isBlank_of_isDigit hc, ?_⟩
      rintro rfl
      exact absurd hc (by decide)

theorem Node.Spells.length_pos {node : Node} {s : List Char} (h : node.Spells s) :
    0 < s.length := by
  obtain ⟨c, more, rfl, -⟩ := h.head
  simp

theorem Items.Spells.length_pos {first : Bool} {items : Items} {s : List Char}
    (h : items.Spells first s) : 0 < s.length := by
  cases h with
  | closed => simp
  | first hb hnode =>
    have := hnode.length_pos
    simp only [List.length_append]
    omega
  | next => simp

theorem Members.Spells.length_pos {first : Bool} {members : Members} {s : List Char}
    (h : members.Spells first s) : 0 < s.length := by
  cases h <;> simp

/-! ## Whole documents -/

mutual

/-- A document that can be spelled has the shape of JSON everywhere. -/
theorem Node.Spells.skip {node : Node} {s : List Char} (h : node.Spells s) :
    node.skip = .ok () := by
  match h with
  | .null => rfl
  | .trueWord => rfl
  | .falseWord => rfl
  | .numeral _ => rfl
  | .literal h => rw [Node.skip, Literal.skip, h.whole]
  | .array h => exact Items.Spells.skip h
  | .object h => exact Members.Spells.skip h

theorem Items.Spells.skip {first : Bool} {items : Items} {s : List Char}
    (h : items.Spells first s) : items.skip = .ok () := by
  match h with
  | .closed _ => rfl
  | .first _ hnode hitems => rw [Items.skip, hnode.skip, hitems.skip]
  | .next _ _ hnode hitems => rw [Items.skip, hnode.skip, hitems.skip]

theorem Members.Spells.skip {first : Bool} {members : Members} {s : List Char}
    (h : members.Spells first s) : members.skip = .ok () := by
  match h with
  | .closed _ => rfl
  | .first _ (.mk hkey _ _ hnode) hmembers =>
    rw [Members.skip, Literal.skip, hkey.whole, hnode.skip, hmembers.skip]
  | .next _ _ (.mk hkey _ _ hnode) hmembers =>
    rw [Members.skip, Literal.skip, hkey.whole, hnode.skip, hmembers.skip]

end

theorem Node.SpelledBy.skip {node : Node} {text : String} (h : node.SpelledBy text) :
    node.skip = .ok () := by
  cases h with
  | mk _ _ hnode => exact hnode.skip

end PerfGate.Json
