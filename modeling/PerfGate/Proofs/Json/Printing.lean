import PerfGate.Json.Printer
import PerfGate.Proofs.Json.Spelling
import PerfGate.Proofs.Json.Values

/-!
# What is printed

The printed text of a value spells a document that says the value, if each of its numbers is
printed as a numeral that is read back. Texts need no such condition: every character is printed
as itself or as an escape that stands for it.
-/

set_option autoImplicit false

namespace PerfGate.Json

/-! ## Texts -/

def pieceOf (c : Char) : Piece :=
  if c.toNat < 32 ∧ c ∉ ['\x08', '\x0c', '\n', '\r', '\t'] then .unit c.toNat else .char c

def literalOf (s : String) : Literal :=
  ⟨s.toList.map pieceOf, none⟩

theorem hexDigits_of_lt {n : Nat} (h : n < 32) :
    hexDigits n = [Nat.digitChar (n / 16), Nat.digitChar (n % 16)] ∧
      hex4? '0' '0' (Nat.digitChar (n / 16)) (Nat.digitChar (n % 16)) = some n := by
  have hall : ∀ n < 32, hexDigits n = [Nat.digitChar (n / 16), Nat.digitChar (n % 16)] ∧
      hex4? '0' '0' (Nat.digitChar (n / 16)) (Nat.digitChar (n % 16)) = some n := by
    decide
  exact hall n h

theorem pieceOf_spells (c : Char) : (pieceOf c).Spells (escaped c) := by
  rw [escaped]
  split_ifs with hquote hbackslash hb hf hn hr ht hcontrol
  · subst hquote; exact .escaped rfl
  · subst hbackslash; exact .escaped rfl
  · subst hb; exact .escaped rfl
  · subst hf; exact .escaped rfl
  · subst hn; exact .escaped rfl
  · subst hr; exact .escaped rfl
  · subst ht; exact .escaped rfl
  · obtain ⟨hdigits, hhex⟩ := hexDigits_of_lt hcontrol
    rw [pieceOf, if_pos ⟨hcontrol, by simp [*]⟩, hdigits]
    exact .numbered hhex
  · rw [pieceOf, if_neg fun h => hcontrol h.1]
    exact .plain hquote hbackslash (by omega)

theorem literalOf_spells (s : String) :
    (literalOf s).Spells (s.toList.flatMap escaped ++ ['"']) := by
  refine ⟨rfl, ?_⟩
  rw [literalOf]
  induction s.toList with
  | nil => exact .closed
  | cons c cs ih =>
    rw [List.map_cons, List.flatMap_cons, List.append_assoc]
    exact .cons (pieceOf_spells c) ih

theorem joinPieces_map (cs : List Char) : joinPieces none (cs.map pieceOf) = .ok cs := by
  induction cs with
  | nil => rfl
  | cons c cs ih =>
    rw [List.map_cons, pieceOf]
    split
    next h =>
      have htrailing : isTrailing c.toNat = false := by
        simp only [isTrailing, Bool.and_eq_false_iff, decide_eq_false_iff_not]
        omega
      have hleading : isLeading c.toNat = false := by
        simp only [isLeading, Bool.and_eq_false_iff, decide_eq_false_iff_not]
        omega
      rw [joinPieces.eq_def]
      simp only [htrailing, hleading, ih, Char.ofNat_toNat]
      rfl
    next =>
      rw [joinPieces, ih]
      rfl

theorem literalOf_text (s : String) : (literalOf s).text = .ok s := by
  rw [Literal.text, literalOf, joinPieces_map]
  exact congrArg Except.ok String.ofList_toList

/-! ## Numbers -/

def Number.Readable (r : Rounding) (k : Number) : Prop :=
  ∃ n : Numeral, n.Spells (numberChars k) ∧ n.numberBy r = .ok k

mutual

def Value.Readable (r : Rounding) : Value → Prop
  | .number k => k.Readable r
  | .array vs => ReadableItems r vs
  | .object kvs => ReadableMembers r kvs
  | _ => True

def ReadableItems (r : Rounding) : List Value → Prop
  | [] => True
  | v :: vs => v.Readable r ∧ ReadableItems r vs

def ReadableMembers (r : Rounding) : List (String × Value) → Prop
  | [] => True
  | (_, v) :: kvs => v.Readable r ∧ ReadableMembers r kvs

end

/-! ## Values -/

theorem blanks_indent (depth : Nat) : Blanks (indent depth) := by
  intro c hc
  rcases List.mem_cons.mp hc with rfl | hc
  · rfl
  · rw [List.eq_of_mem_replicate hc]
    rfl

theorem memberSpells (k : String) {node : Node} {s : List Char} (h : node.Spells s) :
    MemberSpells (literalOf k) node
      (k.toList.flatMap escaped ++ ['"'] ++ ([] ++ ':' :: ([' '] ++ s))) :=
  .mk (literalOf_spells k) blanks_nil (by simp [Blanks, isBlank]) h

section
variable {depth : Nat}

theorem itemChars_spelled {vs : List Value} {nodes : List Node}
    (h : List.Forall₂ (fun v node => node.Spells (v.chars depth)) vs nodes) (outer : Nat) :
    ∃ items : Items, items.Spells false (itemChars depth vs ++ (indent outer ++ [']'])) ∧
      items.Lists nodes := by
  induction h with
  | nil => exact ⟨_, .closed (blanks_indent outer), .nil⟩
  | cons hnode _ ih =>
    obtain ⟨items, hspells, hlists⟩ := ih
    refine ⟨_, ?_, .cons hlists⟩
    simpa [itemChars] using Items.Spells.next blanks_nil (blanks_indent depth) hnode hspells

/-- A list of what its items are printed as. -/
theorem array_spelled {vs : List Value} {nodes : List Node}
    (h : List.Forall₂ (fun v node => node.Spells (v.chars (depth + 1))) vs nodes) :
    ∃ items : Items, (Node.array items).Spells ((Value.array vs).chars depth) ∧
      items.Lists nodes := by
  cases h with
  | nil => exact ⟨_, .array (.closed blanks_nil), .nil⟩
  | cons hnode hrest =>
    obtain ⟨items, hspells, hlists⟩ := itemChars_spelled hrest depth
    refine ⟨_, ?_, .cons hlists⟩
    simpa [Value.chars] using Node.Spells.array (.first (blanks_indent (depth + 1)) hnode hspells)

def MemberPrinted (depth : Nat) (kv : String × Value) (p : String × Node) : Prop :=
  p.1 = kv.1 ∧ p.2.Spells (kv.2.chars depth)

theorem memberChars_spelled {kvs : List (String × Value)} {ps : List (String × Node)}
    (h : List.Forall₂ (MemberPrinted depth) kvs ps) (outer : Nat) :
    ∃ members : Members,
      members.Spells false (memberChars depth kvs ++ (indent outer ++ ['\x7d'])) ∧
        members.Lists ps := by
  induction h with
  | nil => exact ⟨_, .closed (blanks_indent outer), .nil⟩
  | @cons kv p _ _ hmember _ ih =>
    obtain ⟨k, v⟩ := kv
    obtain ⟨_, node⟩ := p
    obtain ⟨rfl, hnode⟩ := hmember
    obtain ⟨members, hspells, hlists⟩ := ih
    refine ⟨_, ?_, .cons (literalOf_text _) hlists⟩
    simpa [memberChars, literalChars] using Members.Spells.next blanks_nil (blanks_indent depth)
      (memberSpells _ hnode) hspells

theorem object_spelled {kvs : List (String × Value)} {ps : List (String × Node)}
    (h : List.Forall₂ (MemberPrinted (depth + 1)) kvs ps) :
    ∃ members : Members, (Node.object members).Spells ((Value.object kvs).chars depth) ∧
      members.Lists ps := by
  cases h with
  | nil => exact ⟨_, .object (.closed blanks_nil), .nil⟩
  | @cons kv p _ _ hmember hrest =>
    obtain ⟨k, v⟩ := kv
    obtain ⟨_, node⟩ := p
    obtain ⟨rfl, hnode⟩ := hmember
    obtain ⟨members, hspells, hlists⟩ := memberChars_spelled hrest depth
    refine ⟨_, ?_, .cons (literalOf_text _) hlists⟩
    simpa [Value.chars, literalChars] using Node.Spells.object
      (.first (blanks_indent (depth + 1)) (memberSpells _ hnode) hspells)

end

section
variable {r : Rounding}

mutual

theorem Value.Readable.printed {v : Value} (h : v.Readable r) (depth : Nat) :
    ∃ node : Node, node.Spells (v.chars depth) ∧ node.Says r v := by
  match v with
  | .null => exact ⟨.null, .null, .null⟩
  | .boolean true => exact ⟨_, .trueWord, .boolean⟩
  | .boolean false => exact ⟨_, .falseWord, .boolean⟩
  | .number k =>
    obtain ⟨n, hspells, hreads⟩ := h
    exact ⟨.numeral n, .numeral hspells, .numeral hreads⟩
  | .text s => exact ⟨_, .literal (literalOf_spells s), .literal (literalOf_text s)⟩
  | .array vs =>
    obtain ⟨nodes, hprinted, hsay⟩ := ReadableItems.printed h (depth + 1)
    obtain ⟨items, hspells, hlists⟩ := array_spelled hprinted
    exact ⟨_, hspells, .array (hlists.say hsay)⟩
  | .object kvs =>
    obtain ⟨ps, hprinted, hsay⟩ := ReadableMembers.printed h (depth + 1)
    obtain ⟨members, hspells, hlists⟩ := object_spelled hprinted
    exact ⟨_, hspells, .object (hlists.say hsay)⟩

theorem ReadableItems.printed {vs : List Value} (h : ReadableItems r vs) (depth : Nat) :
    ∃ nodes, List.Forall₂ (fun v node => node.Spells (v.chars depth)) vs nodes ∧
      List.Forall₂ (Node.Says r) nodes vs := by
  match vs with
  | [] => exact ⟨[], .nil, .nil⟩
  | v :: vs =>
    obtain ⟨node, hspells, hsays⟩ := Value.Readable.printed h.1 depth
    obtain ⟨nodes, hprinted, hsay⟩ := ReadableItems.printed h.2 depth
    exact ⟨node :: nodes, .cons hspells hprinted, .cons hsays hsay⟩

theorem ReadableMembers.printed {kvs : List (String × Value)} (h : ReadableMembers r kvs)
    (depth : Nat) :
    ∃ ps, List.Forall₂ (MemberPrinted depth) kvs ps ∧
      List.Forall₂ (fun p kv => p.1 = kv.1 ∧ p.2.Says r kv.2) ps kvs := by
  match kvs with
  | [] => exact ⟨[], .nil, .nil⟩
  | (k, v) :: kvs =>
    obtain ⟨node, hspells, hsays⟩ := Value.Readable.printed h.1 depth
    obtain ⟨ps, hprinted, hsay⟩ := ReadableMembers.printed h.2 depth
    exact ⟨(k, node) :: ps, .cons ⟨rfl, hspells⟩ hprinted, .cons ⟨rfl, hsays⟩ hsay⟩

end

theorem Value.Readable.pretty {v : Value} (h : v.Readable r) :
    ∃ node : Node, node.SpelledBy v.pretty ∧ node.Says r v := by
  obtain ⟨node, hspells, hsays⟩ := h.printed 0
  refine ⟨node, ?_, hsays⟩
  exact .mk blanks_nil blanks_nil hspells (by simp [Value.pretty, String.toList_ofList])

end

end PerfGate.Json
