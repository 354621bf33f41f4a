import PerfGate.Proofs.Json.Records

/-!
# What documents say

A document says a value as it is written: its members in their order and as often as they are
given. Where the value is kept, the members of each object become a map. How deep a document may
be nested is counted in the brackets around its innermost value.
-/

set_option autoImplicit false

namespace PerfGate.Json

/-! ## Values as written -/

mutual

inductive Node.Says (r : Rounding) : Node → Value → Prop where
  | null : Node.Says r .null .null
  | boolean {b : Bool} : Node.Says r (.boolean b) (.boolean b)
  | numeral {n : Numeral} {k : Number} (h : n.numberBy r = .ok k) :
      Node.Says r (.numeral n) (.number k)
  | literal {l : Literal} {s : String} (h : l.text = .ok s) : Node.Says r (.literal l) (.text s)
  | array {items : Items} {vs : List Value} (h : Items.Say r items vs) :
      Node.Says r (.array items) (.array vs)
  | object {members : Members} {kvs : List (String × Value)} (h : Members.Say r members kvs) :
      Node.Says r (.object members) (.object kvs)

inductive Items.Say (r : Rounding) : Items → List Value → Prop where
  | nil : Items.Say r (.ending .closed) []
  | cons {node : Node} {v : Value} {items : Items} {vs : List Value} (hnode : node.Says r v)
      (hitems : Items.Say r items vs) : Items.Say r (.item node items) (v :: vs)

inductive Members.Say (r : Rounding) : Members → List (String × Value) → Prop where
  | nil : Members.Say r (.ending .closed) []
  | cons {key : Literal} {k : String} {node : Node} {v : Value} {members : Members}
      {kvs : List (String × Value)} (hkey : key.text = .ok k) (hnode : node.Says r v)
      (hmembers : Members.Say r members kvs) :
      Members.Say r (.member key node members) ((k, v) :: kvs)

end

/-! ## Values as kept -/

mutual

/-- The value with the members of its objects in ascending order, the last of equal keys. -/
def Value.settled : Value → Value
  | .array vs => .array (settledItems vs)
  | .object kvs => .object (merged (settledMembers kvs))
  | v => v

def settledItems : List Value → List Value
  | [] => []
  | v :: vs => v.settled :: settledItems vs

def settledMembers : List (String × Value) → List (String × Value)
  | [] => []
  | (k, v) :: kvs => (k, v.settled) :: settledMembers kvs

end

mutual

/-- How many brackets are open around the innermost value. -/
def Node.nesting : Node → Nat
  | .array items => items.nesting + 1
  | .object members => members.nesting + 1
  | _ => 0

def Items.nesting : Items → Nat
  | .ending _ => 0
  | .item node items => max node.nesting items.nesting

def Members.nesting : Members → Nat
  | .ending _ => 0
  | .member _ node members => max node.nesting members.nesting

end

section
variable {r : Rounding}

mutual

/-- A value is kept if there are brackets left for it. -/
theorem Node.Says.value {node : Node} {v : Value} (h : node.Says r v) {depth : Nat}
    (hdepth : node.nesting < depth) : node.value r depth = .ok v.settled := by
  match h with
  | .null => rfl
  | .boolean => rfl
  | .numeral h =>
    rw [Node.value, h]
    rfl
  | .literal h =>
    rw [Node.value, h]
    rfl
  | .array h =>
    rw [Node.nesting] at hdepth
    rw [Node.value, if_neg (by omega), Items.Say.values h (by omega)]
    rfl
  | .object h =>
    rw [Node.nesting] at hdepth
    rw [Node.value, if_neg (by omega), Members.Say.values h (by omega)]
    rfl

theorem Items.Say.values {items : Items} {vs : List Value} (h : items.Say r vs) {depth : Nat}
    (hdepth : items.nesting < depth) : items.values r depth = .ok (settledItems vs) := by
  match h with
  | .nil => rfl
  | .cons hnode hitems =>
    rw [Items.nesting, max_lt_iff] at hdepth
    rw [Items.values, hnode.value hdepth.1, hitems.values hdepth.2]
    rfl

theorem Members.Say.values {members : Members} {kvs : List (String × Value)}
    (h : members.Say r kvs) {depth : Nat} (hdepth : members.nesting < depth)
    (kept : List (String × Value)) :
    members.values r depth kept =
      .ok ((settledMembers kvs).foldl (fun m kv => insertMember kv.1 kv.2 m) kept) := by
  match h with
  | .nil => rfl
  | .cons hkey hnode hmembers =>
    rw [Members.nesting, max_lt_iff] at hdepth
    rw [Members.values, hkey, hnode.value hdepth.1]
    exact hmembers.values hdepth.2 _

end

theorem Items.Say.lists {items : Items} {vs : List Value} (h : items.Say r vs) :
    ∃ nodes, items.Lists nodes ∧ List.Forall₂ (Node.Says r) nodes vs := by
  match h with
  | .nil => exact ⟨[], .nil, .nil⟩
  | .cons hnode hitems =>
    obtain ⟨nodes, hlists, hsay⟩ := hitems.lists
    exact ⟨_ :: nodes, .cons hlists, .cons hnode hsay⟩

theorem Members.Say.lists {members : Members} {kvs : List (String × Value)}
    (h : members.Say r kvs) : ∃ ps, members.Lists ps ∧
      List.Forall₂ (fun p kv => p.1 = kv.1 ∧ p.2.Says r kv.2) ps kvs := by
  match h with
  | .nil => exact ⟨[], .nil, .nil⟩
  | .cons hkey hnode hmembers =>
    obtain ⟨ps, hlists, hsay⟩ := hmembers.lists
    exact ⟨(_, _) :: ps, .cons hkey hlists, .cons ⟨rfl, hnode⟩ hsay⟩

end

theorem Items.Lists.say {r : Rounding} {items : Items} {nodes : List Node}
    (h : items.Lists nodes) {vs : List Value} (hsay : List.Forall₂ (Node.Says r) nodes vs) :
    items.Say r vs := by
  induction h generalizing vs with
  | nil =>
    cases hsay
    exact .nil
  | cons _ ih =>
    cases hsay with
    | cons hnode hrest => exact .cons hnode (ih hrest)

theorem Members.Lists.say {r : Rounding} {members : Members} {ps : List (String × Node)}
    (h : members.Lists ps) {kvs : List (String × Value)}
    (hsay : List.Forall₂ (fun p kv => p.1 = kv.1 ∧ p.2.Says r kv.2) ps kvs) :
    members.Say r kvs := by
  induction h generalizing kvs with
  | nil =>
    cases hsay
    exact .nil
  | cons hkey _ ih =>
    cases hsay with
    | @cons _ kv _ _ hmember hrest =>
      obtain ⟨_, v⟩ := kv
      obtain ⟨rfl, hnode⟩ := hmember
      exact .cons hkey hnode (ih hrest)

/-- Under each key the document lists what the value has there. -/
theorem valuesOf_forall₂ {r : Rounding} {ps : List (String × Node)} {kvs : List (String × Value)}
    (h : List.Forall₂ (fun p kv => p.1 = kv.1 ∧ p.2.Says r kv.2) ps kvs) (key : String) :
    List.Forall₂ (Node.Says r) (valuesOf key ps) (valuesOf key kvs) := by
  induction h with
  | nil => exact .nil
  | @cons p kv ps kvs hpair _ ih =>
    obtain ⟨k, node⟩ := p
    obtain ⟨_, v⟩ := kv
    obtain ⟨rfl, hsays⟩ := hpair
    by_cases hkey : k = key
    · subst hkey
      rw [valuesOf_cons_self, valuesOf_cons_self]
      exact .cons hsays ih
    · rw [valuesOf_cons_ne hkey, valuesOf_cons_ne hkey]
      exact ih

theorem gives_of_forall₂ {r : Rounding} {ps : List (String × Node)} {kvs : List (String × Value)}
    (h : List.Forall₂ (fun p kv => p.1 = kv.1 ∧ p.2.Says r kv.2) ps kvs) {key : String}
    {v : Value} (hv : valuesOf key kvs = [v]) : Gives ps key (Node.Says r) v := by
  have hsays := valuesOf_forall₂ h key
  rw [hv, List.forall₂_cons_right_iff] at hsays
  obtain ⟨node, rest, hnode, hrest, hvalues⟩ := hsays
  rw [List.forall₂_nil_right_iff] at hrest
  exact ⟨node, hvalues.trans (by rw [hrest]), hnode⟩

/-! ## Plain values -/

def Node.IsText (node : Node) (s : String) : Prop :=
  ∃ l, node = .literal l ∧ l.text = .ok s

/-- The document is a numeral that is read as this number; a whole number is rounded. -/
def Node.IsReal (r : Rounding) (node : Node) (x : Float) : Prop :=
  ∃ n k, node = .numeral n ∧ n.numberBy r = .ok k ∧ k.toFloat = x

def Node.IsCount (node : Node) (c : Nat) : Prop :=
  ∃ n, node = .numeral n ∧ n.integer? = some (c : Int)

section
variable {r : Rounding} {node : Node}

theorem Node.Says.isText {s : String} (h : node.Says r (.text s)) : node.IsText s := by
  cases h with
  | literal h => exact ⟨_, rfl, h⟩

theorem Node.Says.isReal {x : Float} (h : node.Says r (.number (.real x))) : node.IsReal r x := by
  cases h with
  | numeral h => exact ⟨_, _, rfl, h, rfl⟩

theorem Node.Says.isCount {c : Nat} (h : node.Says r (.number (.integer c))) :
    node.IsCount c := by
  cases h with
  | @numeral n _ h =>
    rw [Numeral.numberBy] at h
    split at h
    next i hi =>
      cases h
      exact ⟨n, rfl, hi⟩
    next => split at h <;> cases h

theorem Node.IsText.decoded {s : String} (h : node.IsText s) : text node = .ok s := by
  obtain ⟨l, rfl, hl⟩ := h
  rw [text, hl]
  rfl

theorem Node.IsReal.decoded {x : Float} (h : node.IsReal r x) : realBy r node = .ok x := by
  obtain ⟨n, k, rfl, hn, rfl⟩ := h
  rw [realBy, hn]
  rfl

theorem numberBy_of_integer {n : Numeral} {i : Int} (h : n.integer? = some i) (r : Rounding) :
    n.numberBy r = .ok (.integer i) := by
  rw [Numeral.numberBy, h]

theorem integer_lt {n : Numeral} {i : Int} (h : n.integer? = some i) : i < unsignedLimit := by
  rw [Numeral.integer?] at h
  dsimp only at h
  split_ifs at h
  · obtain rfl := Option.some.inj h
    omega
  · obtain rfl := Option.some.inj h
    omega

theorem Node.IsCount.decoded {c : Nat} (h : node.IsCount c) : count node = .ok c := by
  obtain ⟨n, rfl, hn⟩ := h
  have hlt := integer_lt hn
  rw [count, whole, Numeral.number, numberBy_of_integer hn]
  dsimp only
  rw [if_pos ⟨by omega, by omega⟩]
  rfl

end

end PerfGate.Json
