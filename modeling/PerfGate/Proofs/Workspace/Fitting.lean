import PerfGate.Workspace.Regular
import Mathlib.Tactic

/-!
# Where expressions fit

What an expression takes from a text is told by a relation between places. A fit that is found is
one of the relation, and it lies within the text.
-/

set_option autoImplicit false

namespace PerfGate.Regular

variable {all : List Char} {same : Char → Char → Bool}

/-- The character is in the set, or one that counts as the same is. -/
def InSet (same : Char → Char → Bool) (negative : Bool) (members : List Wildcard.Member)
    (d : Char) : Prop :=
  ((Wildcard.contains false members d || members.any (fun
    | .one c => same c d
    | .range a b => (a ≤ d.toLower && d.toLower ≤ b && same d d.toLower) ||
        (a ≤ d.toUpper && d.toUpper ≤ b && same d d.toUpper)
    | _ => false)) != negative) = true

/-- An expression leads from a place to a place. -/
inductive Leads (all : List Char) (same : Char → Char → Bool) : Regular → Place → Place → Prop
  | nothing (p : Place) : Leads all same .nothing p p
  | exactly {c d : Char} {p q : Place} (hstep : p.step = some (d, q)) (hsame : same c d = true) :
      Leads all same (.exactly c) p q
  | any {d : Char} {p q : Place} (hstep : p.step = some (d, q)) : Leads all same .any p q
  | oneOf {negative : Bool} {members : List Wildcard.Member} {d : Char} {p q : Place}
      (hstep : p.step = some (d, q)) (hset : InSet same negative members d) :
      Leads all same (.oneOf negative members) p q
  | start {p : Place} (h : p.index = 0) : Leads all same .start p p
  | finish {p : Place} (h : p.rest.isEmpty = true) : Leads all same .finish p p
  | edge {p : Place} (h : atEdge p = true) : Leads all same .edge p p
  | group {index : Nat} {inside : Regular} {p q : Place} (h : Leads all same inside p q) :
      Leads all same (.group index inside) p
        { q with groups := (index, p.index, q.index) :: q.groups }
  | again {index a b : Nat} {p q : Place} (hgroup : p.groups.lookup index = some (a, b))
      (hpast : past same ((all.drop a).take (b - a)) p = some q) :
      Leads all same (.again index) p q
  | both {first second : Regular} {p q s : Place} (h : Leads all same first p q)
      (h' : Leads all same second q s) : Leads all same (.both first second) p s
  | left {first second : Regular} {p q : Place} (h : Leads all same first p q) :
      Leads all same (.either first second) p q
  | right {first second : Regular} {p q : Place} (h : Leads all same second p q) :
      Leads all same (.either first second) p q
  | stop {least : Nat} {most : Option Nat} {r : Regular} {p : Place}
      (h : least = 0 ∨ r.canBeEmpty = true) : Leads all same (.repeated least most r) p p
  | more {least : Nat} {most : Option Nat} {r : Regular} {p q s : Place} (hmost : most ≠ some 0)
      (h : Leads all same r p q) (hmoved : q.index ≠ p.index)
      (h' : Leads all same (.repeated (least - 1) (most.map (· - 1)) r) q s) :
      Leads all same (.repeated least most r) p s

/-! ## Fits are told by the relation -/

theorem orElse_eq_some_iff {α : Type} {first second : Option α} {a : α} :
    (first <|> second) = some a ↔ first = some a ∨ first = none ∧ second = some a := by
  cases first <;> simp

section
variable {fuel : Nat} {r : Regular} {p s : Place} {next : Place → Option Place}

theorem repeated_leads {least : Nat} {most : Option Nat}
    (ih : ∀ {r : Regular} {p s : Place} {next : Place → Option Place},
      fit all same fuel r p next = some s → ∃ q, Leads all same r p q ∧ next q = some s)
    (h : fit all same (fuel + 1) (.repeated least most r) p next = some s) :
    ∃ q, Leads all same (.repeated least most r) p q ∧ next q = some s := by
  rw [fit] at h
  -- Once more, if that is allowed and takes something.
  generalize hmore : (if most = some 0 then none
    else fit all same fuel r p fun q => if q.index = p.index then none
      else fit all same fuel (.repeated (least - 1) (most.map (· - 1)) r) q next) = more at h
  have hagain (h : more = some s) :
      ∃ q, Leads all same (.repeated least most r) p q ∧ next q = some s := by
    rw [h] at hmore
    split at hmore
    · exact nomatch hmore
    next hmost =>
      obtain ⟨q, hfirst, hrest⟩ := ih hmore
      split at hrest
      · exact nomatch hrest
      next hmoved =>
        obtain ⟨q', hlater, hnext⟩ := ih hrest
        exact ⟨q', .more hmost hfirst hmoved hlater, hnext⟩
  have hstop (hempty : least = 0 ∨ r.canBeEmpty = true) (h : (more <|> next p) = some s) :
      ∃ q, Leads all same (.repeated least most r) p q ∧ next q = some s := by
    rcases orElse_eq_some_iff.mp h with h | ⟨-, h⟩
    · exact hagain h
    · exact ⟨p, .stop hempty, h⟩
  split at h
  next hleast => exact hstop (.inl hleast) h
  split at h
  next hempty => exact hstop (.inr hempty) h
  · exact hagain h

theorem fit_leads (h : fit all same fuel r p next = some s) :
    ∃ q, Leads all same r p q ∧ next q = some s := by
  induction fuel generalizing r p next s with
  | zero => exact nomatch h
  | succ fuel ih =>
    cases r with
    | nothing => exact ⟨p, .nothing p, h⟩
    | exactly c =>
      rw [fit] at h
      split at h
      next d q hstep =>
        obtain ⟨hsame, hnext⟩ := Option.ite_none_right_eq_some.mp h
        exact ⟨q, .exactly hstep hsame, hnext⟩
      · exact nomatch h
    | any =>
      rw [fit] at h
      obtain ⟨⟨d, q⟩, hstep, hnext⟩ := Option.bind_eq_some_iff.mp h
      exact ⟨q, .any hstep, hnext⟩
    | oneOf negative members =>
      rw [fit] at h
      split at h
      next d q hstep =>
        obtain ⟨hset, hnext⟩ := Option.ite_none_right_eq_some.mp h
        exact ⟨q, .oneOf hstep hset, hnext⟩
      · exact nomatch h
    | start =>
      obtain ⟨hstart, hnext⟩ := Option.ite_none_right_eq_some.mp h
      exact ⟨p, .start hstart, hnext⟩
    | finish =>
      obtain ⟨hfinish, hnext⟩ := Option.ite_none_right_eq_some.mp h
      exact ⟨p, .finish hfinish, hnext⟩
    | edge =>
      obtain ⟨hedge, hnext⟩ := Option.ite_none_right_eq_some.mp h
      exact ⟨p, .edge hedge, hnext⟩
    | group index inside =>
      rw [fit] at h
      obtain ⟨q, hinside, hnext⟩ := ih h
      exact ⟨_, .group hinside, hnext⟩
    | again index =>
      rw [fit] at h
      split at h
      next a b hgroup =>
        split at h
        next q hpast => exact ⟨q, .again hgroup hpast, h⟩
        · exact nomatch h
      · exact nomatch h
    | both first second =>
      rw [fit] at h
      obtain ⟨q, hfirst, hrest⟩ := ih h
      obtain ⟨q', hsecond, hnext⟩ := ih hrest
      exact ⟨q', .both hfirst hsecond, hnext⟩
    | either first second =>
      rw [fit] at h
      rcases orElse_eq_some_iff.mp h with h | ⟨-, h⟩
      · obtain ⟨q, hfirst, hnext⟩ := ih h
        exact ⟨q, .left hfirst, hnext⟩
      · obtain ⟨q, hsecond, hnext⟩ := ih h
        exact ⟨q, .right hsecond, hnext⟩
    | repeated least most r => exact repeated_leads ih h

end

/-! ## Fits lie within the text -/

/-- The second place comes after a piece of the text. -/
def Reaches (p q : Place) : Prop :=
  ∃ piece, p.rest = piece ++ q.rest ∧ q.index = p.index + piece.length

section
variable {p q s : Place}

theorem reaches_self (p : Place) : Reaches p p :=
  ⟨[], rfl, rfl⟩

theorem Reaches.trans (h : Reaches p q) (h' : Reaches q s) : Reaches p s := by
  obtain ⟨piece, hrest, hindex⟩ := h
  obtain ⟨piece', hrest', hindex'⟩ := h'
  refine ⟨piece ++ piece', ?_, ?_⟩
  · rw [hrest, hrest', List.append_assoc]
  · rw [hindex', hindex, List.length_append, Nat.add_assoc]

theorem reaches_step {d : Char} (h : p.step = some (d, q)) : Reaches p q := by
  rw [Place.step] at h
  split at h
  · exact nomatch h
  next c rest hrest =>
    obtain ⟨rfl, rfl⟩ := Prod.mk.inj (Option.some.inj h)
    exact ⟨[c], hrest, rfl⟩

theorem reaches_past {cs : List Char} (h : past same cs p = some q) : Reaches p q := by
  induction cs generalizing p with
  | nil =>
    obtain rfl := Option.some.inj h
    exact reaches_self p
  | cons c cs ih =>
    rw [past] at h
    split at h
    next d between hstep =>
      split at h
      · exact (reaches_step hstep).trans (ih h)
      · exact nomatch h
    · exact nomatch h

theorem Leads.reaches {r : Regular} (h : Leads all same r p q) : Reaches p q := by
  induction h with
  | nothing | start | finish | edge | stop => exact reaches_self _
  | exactly hstep | any hstep | oneOf hstep => exact reaches_step hstep
  | again _ hpast => exact reaches_past hpast
  | group _ ih | left _ ih | right _ ih => exact ih
  | both _ _ ih ih' => exact ih.trans ih'
  | more _ _ _ _ ih ih' => exact ih.trans ih'

end

theorem fitFrom_leads {r : Regular} {rest : List Char} {before : Option Char} {index : Nat}
    {f : Fit} (hrest : rest = all.drop index) (h : fitFrom same r all rest before index = some f) :
    ∃ p q, Leads all same r p q ∧ p.index = f.first ∧ p.rest = all.drop f.first ∧
      q.index = f.last ∧ index ≤ f.first ∧ f.first ≤ index + rest.length := by
  induction rest generalizing before index with
  | nil =>
    rw [fitFrom] at h
    split at h
    next q hfit =>
      obtain rfl := Option.some.inj h
      obtain ⟨q', hleads, hq⟩ := fit_leads hfit
      obtain rfl := Option.some.inj hq
      exact ⟨_, q', hleads, rfl, hrest, rfl, Nat.le_refl _, Nat.le_refl _⟩
    · exact nomatch h
  | cons c rest ih =>
    rw [fitFrom] at h
    split at h
    next q hfit =>
      obtain rfl := Option.some.inj h
      obtain ⟨q', hleads, hq⟩ := fit_leads hfit
      obtain rfl := Option.some.inj hq
      exact ⟨_, q', hleads, rfl, hrest, rfl, Nat.le_refl _, Nat.le_add_right _ _⟩
    · have hnext : rest = all.drop (index + 1) := by
        rw [← List.tail_drop, ← hrest, List.tail_cons]
      obtain ⟨p, q, hleads, hfirst, hplace, hlast, hle, hbound⟩ := ih hnext h
      refine ⟨p, q, hleads, hfirst, hplace, hlast, by omega, ?_⟩
      rw [List.length_cons]
      omega

/-- A fit that is found is one of the expression, and it is a piece of the text. -/
theorem find?_leads {r : Regular} {start : Nat} {f : Fit} (hstart : start ≤ all.length)
    (h : find? same r all start = some f) :
    start ≤ f.first ∧ f.first ≤ f.last ∧ f.last ≤ all.length ∧ ∃ p q, Leads all same r p q ∧
      p.index = f.first ∧ p.rest = all.drop f.first ∧ q.index = f.last ∧
        q.rest = all.drop f.last := by
  obtain ⟨p, q, hleads, hfirst, hrest, hlast, hle, hbound⟩ := fitFrom_leads rfl h
  obtain ⟨piece, hpiece, hindex⟩ := hleads.reaches
  rw [List.length_drop] at hbound
  have hlength : (all.drop f.first).length = piece.length + q.rest.length := by
    rw [← hrest, hpiece, List.length_append]
  rw [List.length_drop] at hlength
  refine ⟨hle, by omega, by omega, p, q, hleads, hfirst, hrest, hlast, ?_⟩
  have hdrop : all.drop f.last = (all.drop f.first).drop piece.length := by
    rw [List.drop_drop]
    congr 1
    omega
  rw [hdrop, ← hrest, hpiece, List.drop_left]

end PerfGate.Regular
