import PerfGate.Measurement.Simulation
import PerfGate.Proofs.Measurement.Ascending
import PerfGate.Proofs.Number.Defined

/-!
# Simulated durations are numbers

A word is stretched to a number from 1 up to, but never as far as, 10: the greatest fraction
there is still falls short of the end by one step of the grid, however the product and the sum
are rounded. So no draw is repeated, and one word is drawn for each duration. The recorded
tables hold numbers too. Simulated durations are numbers whatever the words are, and there are
as many of them as were asked for.
-/

set_option autoImplicit false

namespace PerfGate.Simulation

open Number
open Statistics (Numbers)

/-! ## The range of a draw -/

def fraction (w : UInt64) : Nat := w.toNat / 2 ^ 12

theorem fraction_lt (w : UInt64) : fraction w < 2 ^ 52 := by
  have hlt : w.toNat < 2 ^ 64 := w.toNat_lt
  rw [fraction]
  omega

theorem value_literals : value 1.0 = 1 ∧ value 9.0 = 9 ∧ value 10.0 = 10 := by
  have hone := value_literal 1 (by decide)
  have hnine := value_literal 9 (by decide)
  have hten := value_literal 10 (by decide)
  exact ⟨by exact_mod_cast hone, by exact_mod_cast hnine, by exact_mod_cast hten⟩

theorem unitInterval_value (w : UInt64) :
    (unitInterval w).isFinite = true ∧ value (unitInterval w) = 1 + fraction w * 2 ^ (-52 : ℤ) := by
  have hf := fraction_lt w
  have hi : infinityWord = 2047 * 2 ^ 52 := rfl
  have hbit : (2 ^ 52 + fraction w) + 1022 * 2 ^ 52 < Decimal.Binary.signBit :=
    show _ < 2 ^ 63 by omega
  have hword : ((w >>> 12) ||| 0x3ff0000000000000).toNat =
      (2 ^ 52 + fraction w) + 1022 * 2 ^ 52 := by
    have hor := Nat.shiftLeft_add_eq_or_of_lt hf 1023
    rw [UInt64.toNat_or, UInt64.toNat_shiftRight, Nat.or_comm, Nat.shiftRight_eq_div_pow]
    change 1023 <<< 52 ||| fraction w = _
    rw [← hor, Nat.shiftLeft_eq]
    omega
  have hmod : ((w >>> 12) ||| 0x3ff0000000000000).toNat % Decimal.Binary.signBit =
      (2 ^ 52 + fraction w) + 1022 * 2 ^ 52 := by
    rw [hword, Nat.mod_eq_of_lt hbit]
  obtain ⟨hsign, hmagnitude⟩ := ofBits_components (hmod.trans_le (by omega))
  rw [hword, if_pos hbit] at hsign
  rw [hmod] at hmagnitude
  have hplace : place (unitInterval w) = ((2 ^ 52 + fraction w) + 1022 * 2 ^ 52 : Nat) := by
    rw [place, unitInterval, hsign, hmagnitude]
    rfl
  constructor
  · rw [isFinite_iff, magnitude_eq_natAbs_place, hplace]
    omega
  · rw [value_packed hplace (by omega) (by omega)]
    push_cast
    norm_num
    ring

/-- The fraction of a word, exactly. -/
theorem unitInterval_sub_one (w : UInt64) :
    (unitInterval w - 1.0).isFinite = true ∧
      value (unitInterval w - 1.0) = fraction w * 2 ^ (-52 : ℤ) := by
  obtain ⟨hfinite, hvalue⟩ := unitInterval_value w
  have hrounds := sub_rounds hfinite (show (1.0 : Float).isFinite = true by decide)
  rw [hvalue, value_literals.1, add_sub_cancel_left,
    show (-52 : ℤ) = (1022 : ℕ) - 1074 by norm_num] at hrounds
  have hlt : fraction w < 2 ^ 53 := (fraction_lt w).trans (by norm_num)
  refine ⟨hrounds.isFinite_of_le hlt (by omega) (abs_of_nonneg (by positivity)).le, ?_⟩
  exact hrounds.value_eq_packed hlt (by omega)

/-- The greatest product is one step of the grid below nine. -/
theorem scaled_range (w : UInt64) :
    ((unitInterval w - 1.0) * 9.0).isFinite = true ∧
      0 ≤ value ((unitInterval w - 1.0) * 9.0) ∧
      value ((unitInterval w - 1.0) * 9.0) ≤ 9 - 2 ^ (-49 : ℤ) := by
  have hnonneg : 0 ≤ (fraction w : ℚ) * 2 ^ (-52 : ℤ) * 9 := by positivity
  have hlt : (fraction w : ℚ) + 1 ≤ 2 ^ 52 := by exact_mod_cast fraction_lt w
  have hbelow : (fraction w : ℚ) * 2 ^ (-52 : ℤ) * 9 ≤ 9 - 2 ^ (-49 : ℤ) := by
    norm_num
    linarith
  obtain ⟨hfinite, hvalue⟩ := unitInterval_sub_one w
  have hproduct := mul_rounds hfinite (show (9.0 : Float).isFinite = true by decide)
  rw [hvalue, value_literals.2.1] at hproduct
  have hstep : ((9 * 2 ^ 49 - 1 : ℕ) : ℚ) * 2 ^ (((1025 : ℕ) : ℤ) - 1074) =
      9 - 2 ^ (-49 : ℤ) := by
    norm_num
  have hhigh := hproduct.value_le_packed (m := 9 * 2 ^ 49 - 1) (k := 1025) (by omega) (by omega)
    (hstep ▸ hbelow)
  rw [hstep] at hhigh
  refine ⟨hproduct.isFinite_of_le (m := 9 * 2 ^ 49 - 1) (k := 1025) (by omega) (by omega) ?_,
    hproduct.nonneg hnonneg, hhigh⟩
  rw [abs_of_nonneg hnonneg, hstep]
  exact hbelow

theorem stretched_range (w : UInt64) :
    (stretched w).isFinite = true ∧ 1 ≤ value (stretched w) ∧ value (stretched w) < 10 := by
  obtain ⟨hone, -, -⟩ := value_literals
  obtain ⟨hfinite, hnonneg, hbelow⟩ := scaled_range w
  have hsum := add_rounds hfinite (show (1.0 : Float).isFinite = true by decide)
  rw [hone] at hsum
  have hstep : ((10 * 2 ^ 49 - 1 : ℕ) : ℚ) * 2 ^ (((1025 : ℕ) : ℤ) - 1074) =
      10 - 2 ^ (-49 : ℤ) := by
    norm_num
  have hlow := hsum.le_value (y := 1.0) (by decide) (by rw [hone]; linarith)
  have hhigh := hsum.value_le_packed (m := 10 * 2 ^ 49 - 1) (k := 1025) (by omega) (by omega)
    (by rw [hstep]; linarith)
  rw [hone] at hlow
  rw [hstep] at hhigh
  refine ⟨hsum.isFinite_of_le (m := 10 * 2 ^ 49 - 1) (k := 1025) (by omega) (by omega) ?_,
    hlow, hhigh.trans_lt (by norm_num)⟩
  rw [abs_of_nonneg (by linarith), hstep]
  linarith

theorem stretched_lt (w : UInt64) : stretched w < 10.0 := by
  obtain ⟨hfinite, -, hlt⟩ := stretched_range w
  rw [lt_iff_value (isNaN_of_isFinite hfinite) (by decide), value_literals.2.2]
  exact hlt

/-! ## Draws -/

/-- The first draw stands, so one word is drawn for it. -/
theorem draw_eq {m : Type → Type} [Monad m] [LawfulMonad m] (word : m UInt64) (attempts : Nat) :
    draw word (attempts + 1) = stretched <$> word := by
  rw [draw, map_eq_pure_bind]
  exact bind_congr fun w => if_pos (stretched_lt w)

section
variable {σ : Type} (word : StateM σ UInt64)

theorem draws_numbers (n : Nat) (source : σ) :
    Numbers ((draws word n).run source).1 ∧ ((draws word n).run source).1.length = n := by
  induction n generalizing source with
  | zero => exact ⟨List.forall_mem_nil _, rfl⟩
  | succ n ih =>
    have hrun : ((draws word (n + 1)).run source).1 =
        stretched (word.run source).1 :: ((draws word n).run (word.run source).2).1 := by
      rw [draws, draw_eq]
      rfl
    obtain ⟨hnumbers, hlength⟩ := ih (word.run source).2
    have hfirst := isNaN_of_isFinite (stretched_range (word.run source).1).1
    rw [hrun, List.length_cons, hlength]
    exact ⟨List.forall_mem_cons.mpr ⟨hfirst, hnumbers⟩, rfl⟩

end

/-! ## Recorded timings -/

theorem cycled_numbers {table : List Float} (h : Numbers table) (n : Nat) :
    Numbers (cycled table n) := by
  intro x hx
  obtain ⟨i, -, rfl⟩ := List.mem_map.mp hx
  rcases Nat.lt_or_ge (i % table.length) table.length with hlt | hge
  · rw [List.getD_eq_getElem _ _ hlt]
    exact h _ (List.getElem_mem hlt)
  · rw [List.getD_eq_default _ _ hge]
    decide

theorem table?_recorded {name : String} {table : List Float} (h : table? name = some table) :
    0 < table.length ∧ Numbers table := by
  unfold table? at h
  split at h
  · obtain rfl := Option.some.inj h
    decide
  · split at h
    · obtain rfl := Option.some.inj h
      decide
    · split at h
      · obtain rfl := Option.some.inj h
        decide
      · exact nomatch h

theorem durations_numbers {σ : Type} (word : StateM σ UInt64) (name : String) (n : Nat)
    (source : σ) :
    Numbers ((durations word name n).run source).1 ∧
      ((durations word name n).run source).1.length = n := by
  unfold durations
  split
  next table htable =>
    have hlength : (cycled table n).length = n := by rw [cycled, List.length_map, List.length_range]
    exact ⟨cycled_numbers (table?_recorded htable).2 n, hlength⟩
  next => exact draws_numbers word n source

/-! ## Samples -/

theorem labelled_durations (name : String) (durations : List Float) :
    (labelled name durations).map (·.duration) = durations := by
  refine List.ext_getElem? fun i => ?_
  rw [labelled, List.getElem?_map, List.getElem?_mapIdx, Option.map_map]
  exact Option.map_id'

end PerfGate.Simulation
