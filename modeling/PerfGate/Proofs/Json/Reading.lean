import PerfGate.Proofs.Json.Spelling

/-!
# Reading what is spelled

The reader gets a document back from each of its spellings. A token is read up to its own end,
since what can follow it is no part of it: this is a statement on each part of the reader, with
the rest of the text after it. The fuel of the reader covers three steps for each character.
-/

set_option autoImplicit false

namespace PerfGate.Json

/-! ## Blanks -/

theorem skipBlanks_append {b : List Char} (hb : Blanks b) (s : List Char) :
    skipBlanks (b ++ s) = skipBlanks s :=
  List.dropWhile_append_of_pos hb

theorem skipBlanks_cons {c : Char} (hc : isBlank c = false) (s : List Char) :
    skipBlanks (c :: s) = c :: s := by
  rw [skipBlanks, List.dropWhile_cons_of_neg (by simp [hc])]

/-! ## Reading literals and numerals -/

theorem readLiteral_quote (rest : List Char) :
    readLiteral ('"' :: rest) = (⟨[], none⟩, some rest) := by
  rw [readLiteral.eq_def]
  rfl

theorem readLiteral_plain {c : Char} (quote : c ≠ '"') (backslash : c ≠ '\\')
    (control : 32 ≤ c.toNat) (rest : List Char) :
    readLiteral (c :: rest) = Literal.cons (.char c) (readLiteral rest) := by
  rw [readLiteral.eq_def]
  dsimp only
  rw [if_neg quote, if_neg backslash, if_neg (by omega)]

theorem readLiteral_escaped {e c : Char} (h : escapeChar? e = some c) (rest : List Char) :
    readLiteral ('\\' :: e :: rest) = Literal.cons (.char c) (readLiteral rest) := by
  have hletter : e ≠ 'u' := by
    rintro rfl
    exact nomatch h
  rw [readLiteral.eq_4 _ _ _ fun _ _ _ _ _ heq _ => hletter heq, if_neg (by decide), if_pos rfl,
    if_neg hletter, h]

theorem readLiteral_numbered {a b c d : Char} {n : Nat} (h : hex4? a b c d = some n)
    (rest : List Char) :
    readLiteral ('\\' :: 'u' :: a :: b :: c :: d :: rest) =
      Literal.cons (.unit n) (readLiteral rest) := by
  rw [readLiteral.eq_3, if_neg (by decide), if_pos rfl, h]

theorem readLiteral_append {ps : List Piece} {s : List Char} (h : PiecesSpell ps s)
    (rest : List Char) : readLiteral (s ++ rest) = (⟨ps, none⟩, some rest) := by
  induction h with
  | closed => exact readLiteral_quote rest
  | cons piece _ ih =>
    rw [List.append_assoc]
    cases piece with
    | plain quote backslash control =>
      rw [List.singleton_append, readLiteral_plain quote backslash control, ih]
      rfl
    | escaped h =>
      rw [List.cons_append, List.singleton_append, readLiteral_escaped h, ih]
      rfl
    | numbered h =>
      simp only [List.cons_append, List.nil_append]
      rw [readLiteral_numbered h, ih]
      rfl

section
variable {ds rest : List Char}

def NoDigit (rest : List Char) : Prop :=
  ∀ c ∈ rest.head?, isDigit c = false

theorem takeWhile_digits (h : Digits ds) (hrest : NoDigit rest) :
    (ds ++ rest).takeWhile isDigit = ds := by
  rw [List.takeWhile_append_of_pos h.digits]
  cases rest with
  | nil => simp
  | cons c rest => simp [hrest c rfl]

theorem dropWhile_digits (h : Digits ds) (hrest : NoDigit rest) :
    (ds ++ rest).dropWhile isDigit = rest := by
  rw [List.dropWhile_append_of_pos h.digits]
  cases rest with
  | nil => rfl
  | cons c rest => simp [hrest c rfl]

theorem readWhole_append (h : Digits ds) (zero : ds.head? = some '0' → ds = ['0'])
    (hrest : NoDigit rest) : readWhole (ds ++ rest) = .ok (ds, rest) := by
  rw [readWhole, takeWhile_digits h hrest, dropWhile_digits h hrest]
  split
  next heq => exact absurd rfl h.some_digit
  next => exact nomatch zero rfl
  next => rfl

def NoPoint (rest : List Char) : Prop :=
  rest.head? ≠ some '.'

theorem readFraction_append {fraction : Option (List Char)} {f : List Char}
    (h : FractionSpells fraction f) (hdigit : NoDigit rest) (hpoint : NoPoint rest) :
    readFraction (f ++ rest) = .ok (fraction, rest) := by
  cases h with
  | without =>
    rw [List.nil_append, readFraction.eq_def]
    split
    next => exact absurd rfl hpoint
    next => rfl
  | digits h =>
    rw [List.cons_append, readFraction, takeWhile_digits h hdigit, dropWhile_digits h hdigit]
    split
    next heq => exact absurd rfl h.some_digit
    next => rfl

theorem Digits.head_ne {c : Char} (h : Digits ds) (hc : isDigit c = false) :
    ∀ more, ds ++ rest ≠ c :: more := by
  intro more heq
  cases ds with
  | nil => exact h.some_digit rfl
  | cons d ds =>
    obtain rfl : d = c := (List.cons.inj heq).1
    exact absurd (h.digits d List.mem_cons_self) (by simp [hc])

theorem readExponent_append {exponent : Option (Bool × List Char)} {e : List Char}
    (h : ExponentSpells exponent e) (hdigit : NoDigit rest)
    (hletter : ∀ c ∈ rest.head?, ¬ (c = 'e' ∨ c = 'E')) :
    readExponent (e ++ rest) = .ok (exponent, rest) := by
  cases h with
  | without =>
    cases rest with
    | nil => rfl
    | cons c rest => rw [List.nil_append, readExponent.eq_def]; exact if_neg (hletter c rfl)
  | unsigned letter h =>
    rw [List.cons_append, readExponent.eq_3 _ _ (h.head_ne (by decide)) (h.head_ne (by decide)),
      if_pos letter, takeWhile_digits h hdigit, dropWhile_digits h hdigit]
    obtain ⟨d, ds, rfl⟩ := List.exists_cons_of_ne_nil h.some_digit
    rfl
  | plus letter h =>
    rw [List.cons_append, List.cons_append, readExponent.eq_1, if_pos letter,
      takeWhile_digits h hdigit, dropWhile_digits h hdigit]
    obtain ⟨d, ds, rfl⟩ := List.exists_cons_of_ne_nil h.some_digit
    rfl
  | minus letter h =>
    rw [List.cons_append, List.cons_append, readExponent.eq_2, if_pos letter,
      takeWhile_digits h hdigit, dropWhile_digits h hdigit]
    obtain ⟨d, ds, rfl⟩ := List.exists_cons_of_ne_nil h.some_digit
    rfl

theorem Follows.not_digit (h : Follows rest) : NoDigit rest := by
  intro c hc
  have hblank : isBlank c = true → isDigit c = false := by
    intro hblank
    simp only [isBlank, Bool.or_eq_true, decide_eq_true_eq] at hblank
    obtain ((rfl | rfl) | rfl) | rfl := hblank <;> decide
  obtain hc | rfl | rfl | rfl := h c hc
  · exact hblank hc
  · decide
  · decide
  · decide

theorem Follows.ne {c : Char} (h : Follows rest) (hc : isBlank c = false)
    (hcomma : c ≠ ',') (hbracket : c ≠ ']') (hbrace : c ≠ '\x7d') : rest.head? ≠ some c := by
  intro heq
  obtain hblank | rfl | rfl | rfl := h c heq
  · exact absurd hblank (by simp [hc])
  · exact hcomma rfl
  · exact hbracket rfl
  · exact hbrace rfl

theorem ExponentSpells.not_digit {exponent : Option (Bool × List Char)} {e : List Char}
    (h : ExponentSpells exponent e) (hrest : NoDigit rest) : NoDigit (e ++ rest) := by
  have hletter : ∀ c, (c = 'e' ∨ c = 'E') → isDigit c = false := by
    rintro c (rfl | rfl) <;> decide
  intro c hc
  cases h with
  | without => exact hrest c hc
  | unsigned letter => exact Option.some.inj hc ▸ hletter _ letter
  | plus letter => exact Option.some.inj hc ▸ hletter _ letter
  | minus letter => exact Option.some.inj hc ▸ hletter _ letter

theorem ExponentSpells.no_point {exponent : Option (Bool × List Char)} {e : List Char}
    (h : ExponentSpells exponent e) (hrest : NoPoint rest) : NoPoint (e ++ rest) := by
  have hletter : ∀ c, (c = 'e' ∨ c = 'E') → c ≠ '.' := by
    rintro c (rfl | rfl) <;> decide
  intro heq
  cases h with
  | without => exact hrest heq
  | unsigned letter => exact hletter _ letter (Option.some.inj heq)
  | plus letter => exact hletter _ letter (Option.some.inj heq)
  | minus letter => exact hletter _ letter (Option.some.inj heq)

theorem FractionSpells.not_digit {fraction : Option (List Char)} {f : List Char}
    (h : FractionSpells fraction f) (hrest : NoDigit rest) : NoDigit (f ++ rest) := by
  intro c hc
  cases h with
  | without => exact hrest c hc
  | digits =>
    obtain rfl := Option.some.inj hc
    decide

theorem readUnsigned_append {whole f e : List Char} {fraction : Option (List Char)}
    {exponent : Option (Bool × List Char)} (negative : Bool) (h : Digits whole)
    (zero : whole.head? = some '0' → whole = ['0']) (hf : FractionSpells fraction f)
    (he : ExponentSpells exponent e) (hrest : Follows rest) :
    readUnsigned negative (whole ++ (f ++ e) ++ rest) =
      .ok (⟨negative, whole, fraction, exponent⟩, rest) := by
  have hdigit := he.not_digit hrest.not_digit
  have hpoint := he.no_point
    (show NoPoint rest from hrest.ne (by decide) (by decide) (by decide) (by decide))
  have hletter : ∀ c ∈ rest.head?, ¬ (c = 'e' ∨ c = 'E') := by
    rintro c hc (rfl | rfl)
    · exact hrest.ne (by decide) (by decide) (by decide) (by decide) hc
    · exact hrest.ne (by decide) (by decide) (by decide) (by decide) hc
  rw [List.append_assoc, List.append_assoc, readUnsigned,
    readWhole_append h zero (hf.not_digit hdigit)]
  simp only [bind, Except.bind, readFraction_append hf hdigit hpoint,
    readExponent_append he hrest.not_digit hletter]
  rfl

theorem readNumeral_append {n : Numeral} {s : List Char} (h : n.Spells s) (hrest : Follows rest) :
    readNumeral (s ++ rest) = .ok (n, rest) := by
  cases h with
  | unsigned digits zero hf he =>
    rw [readNumeral.eq_2]
    · exact readUnsigned_append false digits zero hf he hrest
    · intro more
      rw [List.append_assoc]
      exact digits.head_ne (by decide) more
  | negative digits zero hf he => exact readUnsigned_append true digits zero hf he hrest

end

/-! ## Reading documents -/

section
variable {fuel : Nat} {b s rest : List Char}

/-- What one step of the reader does with a value, by its first character. -/
theorem readNode_word {word : List Char} {node : Node} {c : Char}
    (hc : (c, word, node) ∈ [('n', ['u', 'l', 'l'], Node.null),
      ('t', ['r', 'u', 'e'], .boolean true), ('f', ['a', 'l', 's', 'e'], .boolean false)])
    (hb : Blanks b) : readNode (fuel + 1) (b ++ (c :: word ++ rest)) = (node, some rest) := by
  simp only [List.mem_cons, Prod.mk.injEq, List.not_mem_nil, or_false] at hc
  obtain ⟨rfl, rfl, rfl⟩ | ⟨rfl, rfl, rfl⟩ | ⟨rfl, rfl, rfl⟩ := hc
  · rw [readNode, skipBlanks_append hb]; rfl
  · rw [readNode, skipBlanks_append hb]; rfl
  · rw [readNode, skipBlanks_append hb]; rfl

theorem readNode_numeral {n : Numeral} (h : n.Spells s) (hb : Blanks b) (hrest : Follows rest) :
    readNode (fuel + 1) (b ++ (s ++ rest)) = (.numeral n, some rest) := by
  have hread := readNumeral_append h hrest
  obtain ⟨c, more, rfl, hc⟩ := h.head
  have hne : c ≠ 'n' ∧ c ≠ 't' ∧ c ≠ 'f' ∧ c ≠ '"' ∧ c ≠ '[' ∧ c ≠ '\x7b' := by
    refine ⟨?_, ?_, ?_, ?_, ?_, ?_⟩ <;> (rintro rfl; exact absurd hc (by decide))
  have hblank : isBlank c = false := by
    obtain rfl | hc := hc
    · decide
    · exact isBlank_of_isDigit hc
  rw [readNode, skipBlanks_append hb, List.cons_append, skipBlanks_cons hblank]
  dsimp only
  rw [if_neg hne.1, if_neg hne.2.1, if_neg hne.2.2.1, if_neg hne.2.2.2.1, if_neg hne.2.2.2.2.1,
    if_neg hne.2.2.2.2.2, if_pos hc, ← List.cons_append, hread]

theorem readNode_literal {l : Literal} (h : l.Spells s) (hb : Blanks b) :
    readNode (fuel + 1) (b ++ ('"' :: s ++ rest)) = (.literal l, some rest) := by
  obtain ⟨pieces, broken⟩ := l
  obtain rfl : broken = none := h.whole
  rw [readNode, skipBlanks_append hb, List.cons_append, skipBlanks_cons (by decide)]
  dsimp only
  rw [if_neg (by decide), if_neg (by decide), if_neg (by decide), if_pos rfl,
    readLiteral_append h.pieces]

theorem readNode_array {items : Items} (hb : Blanks b)
    (hitems : readItems fuel true (s ++ rest) = (items, some rest)) :
    readNode (fuel + 1) (b ++ ('[' :: s ++ rest)) = (.array items, some rest) := by
  rw [readNode, skipBlanks_append hb, List.cons_append, skipBlanks_cons (by decide)]
  dsimp only
  rw [if_neg (by decide), if_neg (by decide), if_neg (by decide), if_neg (by decide),
    if_pos rfl, hitems]

theorem readNode_object {members : Members} (hb : Blanks b)
    (hmembers : readMembers fuel true (s ++ rest) = (members, some rest)) :
    readNode (fuel + 1) (b ++ ('\x7b' :: s ++ rest)) = (.object members, some rest) := by
  rw [readNode, skipBlanks_append hb, List.cons_append, skipBlanks_cons (by decide)]
  dsimp only
  rw [if_neg (by decide), if_neg (by decide), if_neg (by decide), if_neg (by decide),
    if_neg (by decide), if_pos rfl, hmembers]

theorem readItems_closed {first : Bool} (hb : Blanks b) :
    readItems (fuel + 1) first (b ++ [']'] ++ rest) = (.ending .closed, some rest) := by
  rw [List.append_assoc, readItems, skipBlanks_append hb, List.singleton_append,
    skipBlanks_cons (by decide)]
  exact if_pos rfl

theorem readItems_first {c : Char} (hb : Blanks b) (hblank : isBlank c = false) (hc : c ≠ ']') :
    readItems (fuel + 1) true (b ++ c :: s) = readItem fuel (c :: s) := by
  rw [readItems, skipBlanks_append hb, skipBlanks_cons hblank]
  dsimp only
  rw [if_neg hc, if_pos rfl]

theorem readItems_next {c : Char} {b' : List Char} (hb : Blanks b) (hb' : Blanks b')
    (hblank : isBlank c = false) (hc : c ≠ ']') :
    readItems (fuel + 1) false (b ++ ',' :: (b' ++ c :: s)) = readItem fuel (c :: s) := by
  rw [readItems, skipBlanks_append hb, skipBlanks_cons (by decide)]
  dsimp only
  rw [if_neg (by decide), if_neg (by decide), if_pos rfl, skipBlanks_append hb',
    skipBlanks_cons hblank]
  exact if_neg hc

theorem readItem_append {node : Node} {items : Items} {t : List Char}
    (hnode : readNode fuel (s ++ (t ++ rest)) = (node, some (t ++ rest)))
    (hitems : readItems fuel false (t ++ rest) = (items, some rest)) :
    readItem (fuel + 1) (s ++ (t ++ rest)) = (.item node items, some rest) := by
  rw [readItem, hnode]
  dsimp only
  rw [hitems]

theorem readMembers_closed {first : Bool} (hb : Blanks b) :
    readMembers (fuel + 1) first (b ++ ['\x7d'] ++ rest) = (.ending .closed, some rest) := by
  rw [List.append_assoc, readMembers, skipBlanks_append hb, List.singleton_append,
    skipBlanks_cons (by decide)]
  exact if_pos rfl

theorem readMembers_first (hb : Blanks b) :
    readMembers (fuel + 1) true (b ++ '"' :: s) = readMember fuel s := by
  rw [readMembers, skipBlanks_append hb, skipBlanks_cons (by decide)]
  dsimp only
  rw [if_neg (by decide), if_pos rfl, if_pos rfl]

theorem readMembers_next {b' : List Char} (hb : Blanks b) (hb' : Blanks b') :
    readMembers (fuel + 1) false (b ++ ',' :: (b' ++ '"' :: s)) = readMember fuel s := by
  rw [readMembers, skipBlanks_append hb, skipBlanks_cons (by decide)]
  dsimp only
  rw [if_neg (by decide), if_neg (by decide), if_pos rfl, skipBlanks_append hb',
    skipBlanks_cons (by decide)]
  exact if_pos rfl

theorem readMember_append {key : Literal} {node : Node} {members : Members} {k t : List Char}
    (hkey : key.Spells k) (hb : Blanks b)
    (hnode : readNode fuel (s ++ (t ++ rest)) = (node, some (t ++ rest)))
    (hmembers : readMembers fuel false (t ++ rest) = (members, some rest)) :
    readMember (fuel + 1) (k ++ (b ++ ':' :: (s ++ (t ++ rest)))) =
      (.member key node members, some rest) := by
  obtain ⟨pieces, broken⟩ := key
  obtain rfl : broken = none := hkey.whole
  rw [readMember, readLiteral_append hkey.pieces]
  dsimp only
  rw [skipBlanks_append hb, skipBlanks_cons (by decide)]
  dsimp only
  rw [if_pos rfl, hnode]
  dsimp only
  rw [hmembers]

end

mutual

theorem readNode_append {node : Node} {s : List Char} (h : node.Spells s) (fuel : Nat)
    (hfuel : 3 * s.length ≤ fuel) {b : List Char} (hb : Blanks b) {rest : List Char}
    (hrest : Follows rest) : readNode fuel (b ++ (s ++ rest)) = (node, some rest) := by
  obtain ⟨fuel, rfl⟩ := Nat.exists_eq_succ_of_ne_zero (n := fuel)
    (by have := h.length_pos; omega)
  match h with
  | .null => exact readNode_word (by simp) hb
  | .trueWord => exact readNode_word (by simp) hb
  | .falseWord => exact readNode_word (by simp) hb
  | .numeral h => exact readNode_numeral h hb hrest
  | .literal h => exact readNode_literal h hb
  | .array h =>
    rw [List.length_cons] at hfuel
    exact readNode_array hb (readItems_append h fuel (by omega) rest)
  | .object h =>
    rw [List.length_cons] at hfuel
    exact readNode_object hb (readMembers_append h fuel (by omega) rest)

theorem readItems_append {first : Bool} {items : Items} {s : List Char} (h : items.Spells first s)
    (fuel : Nat) (hfuel : 3 * s.length ≤ fuel) (rest : List Char) :
    readItems fuel first (s ++ rest) = (items, some rest) := by
  obtain ⟨fuel, rfl⟩ := Nat.exists_eq_add_of_le' (show 3 ≤ fuel by have := h.length_pos; omega)
  match h with
  | .closed hb => exact readItems_closed hb
  | .first (s := s) (t := t) hb hnode hitems =>
    simp only [List.length_append] at hfuel
    have hs := hnode.length_pos
    have ht := hitems.length_pos
    have hitem := readItem_append
      (readNode_append hnode (fuel + 1) (by omega) (b := []) (by simp [Blanks])
        (hitems.follows rest))
      (readItems_append hitems (fuel + 1) (by omega) rest)
    obtain ⟨c, more, hcons, hblank, hc⟩ := hnode.head
    rw [List.append_assoc, List.append_assoc]
    rw [hcons] at hitem ⊢
    exact (readItems_first hb hblank hc).trans hitem
  | .next (s := s) (t := t) hb hb' hnode hitems =>
    simp only [List.length_append, List.length_cons] at hfuel
    have hitem := readItem_append
      (readNode_append hnode (fuel + 1) (by omega) (b := []) (by simp [Blanks])
        (hitems.follows rest))
      (readItems_append hitems (fuel + 1) (by omega) rest)
    obtain ⟨c, more, hcons, hblank, hc⟩ := hnode.head
    rw [List.append_assoc, List.cons_append, List.append_assoc, List.append_assoc]
    rw [hcons] at hitem ⊢
    exact (readItems_next hb hb' hblank hc).trans hitem

theorem readMembers_append {first : Bool} {members : Members} {s : List Char}
    (h : members.Spells first s) (fuel : Nat) (hfuel : 3 * s.length ≤ fuel) (rest : List Char) :
    readMembers fuel first (s ++ rest) = (members, some rest) := by
  obtain ⟨fuel, rfl⟩ := Nat.exists_eq_add_of_le' (show 3 ≤ fuel by have := h.length_pos; omega)
  match h with
  | .closed hb => exact readMembers_closed hb
  | .first (s := s) (t := t) hb hmember hmembers =>
    simp only [List.length_append, List.length_cons] at hfuel
    rw [List.append_assoc, List.cons_append, List.append_assoc]
    exact (readMembers_first hb).trans (readMember_spells hmember (fuel + 1) (by omega)
      (hmembers.follows rest) (readMembers_append hmembers (fuel + 1) (by omega) rest))
  | .next (s := s) (t := t) hb hb' hmember hmembers =>
    simp only [List.length_append, List.length_cons] at hfuel
    rw [List.append_assoc, List.cons_append, List.append_assoc, List.cons_append,
      List.append_assoc]
    exact (readMembers_next hb hb').trans (readMember_spells hmember (fuel + 1) (by omega)
      (hmembers.follows rest) (readMembers_append hmembers (fuel + 1) (by omega) rest))

theorem readMember_spells {key : Literal} {node : Node} {members : Members} {s t : List Char}
    (h : MemberSpells key node s) (fuel : Nat) (hfuel : 3 * s.length ≤ fuel) {rest : List Char}
    (hfollows : Follows (t ++ rest))
    (hmembers : readMembers fuel false (t ++ rest) = (members, some rest)) :
    readMember (fuel + 1) (s ++ (t ++ rest)) = (.member key node members, some rest) := by
  match h with
  | .mk (k := k) (s := v) hkey hb hb' hnode =>
    simp only [List.length_append, List.length_cons] at hfuel
    have hread := readMember_append (s := _ ++ v) hkey hb
      ((List.append_assoc _ v _).symm ▸ readNode_append hnode fuel (by omega) hb' hfollows) hmembers
    simpa using hread

end

/-- A text is read as the document that it spells, whatever the layout. -/
theorem read_of_spelledBy {node : Node} {text : String} (h : node.SpelledBy text) :
    read text = ⟨node, true⟩ := by
  obtain ⟨hb, hb', hnode, htext⟩ := h
  rename_i b b' s
  have hrest : Follows b' := by simpa using follows_append hb' (show Follows [] from nofun)
  have hlength : 3 * s.length ≤ 3 * text.toList.length + 3 := by
    rw [htext]
    simp
    omega
  rw [htext] at hlength
  rw [read, htext]
  rw [readNode_append hnode _ hlength hb hrest]
  dsimp only
  rw [← List.append_nil b', skipBlanks_append hb']
  rfl

end PerfGate.Json
