import PerfGate.Path
import PerfGate.ResultsFile
import PerfGate.Proofs.Number.WholePart

/-!
# Names of results files

A results file is named for a second that is read off a rounded number: the microseconds of the
start, divided by a million. Up to the year 2242 the microseconds themselves are exact, and the
numbers between two seconds are so close to each other that even the last microsecond of a second
is not rounded up to the next one. So the name has the second in which the run started.
-/

set_option autoImplicit false

namespace PerfGate.Naming

open Number
open ResultsFile (new wholeSeconds)

/-- Instants from 1970 on whose seconds have at most 33 bits. -/
structure Nameable (t : Instant) : Prop where
  nonneg : 0 ≤ t.seconds
  below : t.seconds < 2 ^ 33
  nanos : t.nanos < 10 ^ 9

/-! ## Whole seconds -/

theorem wholeSeconds_of_nonneg {x : Float} (hx : x.isFinite = true) (hnonneg : 0 ≤ value x)
    (hword : ⌊value x⌋₊ < 2 ^ 64) : wholeSeconds x = ⌊value x⌋₊ := by
  have hnumber := isNaN_of_isFinite hx
  have hsign : ¬ x < 0.0 := by
    rw [lt_iff_value hnumber (by decide), value_zero, not_lt]
    exact hnonneg
  have habs : value x.abs = value x := by
    rw [value_abs hnumber, abs_of_nonneg hnonneg]
  have hfinite : x.abs.isFinite = true := isFinite_between hx hx habs.ge habs.le
  rw [wholeSeconds, if_neg hsign, toUInt64_toNat hfinite, habs]
  exact congrArg Nat.cast (min_eq_left (Nat.le_sub_one_of_lt hword))

section
variable {started : Instant} (summaries : List Summary)

theorem value_million : value 1000000.0 = 1000000 := by
  have hmillion := value_literal 1000000 (by decide)
  exact_mod_cast hmillion

/-- The microseconds are exact, so the timestamp is rounded only once. -/
theorem timestamp_rounds {n : Nat} (hmicros : started.micros = n) (hn : n < 2 ^ 53) :
    Rounds (n / 1000000) (new started summaries).timestamp := by
  obtain ⟨hvalue, hfinite⟩ := (ofNat_rounds n).value_eq_natCast hn
  have hrounds := div_rounds (y := 1000000.0) hfinite (by decide) (by rw [value_million]; norm_num)
  rw [hvalue, value_million] at hrounds
  rw [new, hmicros]
  exact hrounds

/-- Between the last microsecond of a second and the next second lies a step of the grid. -/
theorem wholeSeconds_of_micros {x : Float} {s m : Nat} (hs : s < 2 ^ 33) (hm : m < 1000000)
    (hx : Rounds ((s * 1000000 + m : Nat) / 1000000) x) : wholeSeconds x = s := by
  obtain ⟨hsecond, hsecondFinite⟩ := (ofNat_rounds s).value_eq_natCast (by omega)
  have hquotient : ((s * 1000000 + m : Nat) : ℚ) / 1000000 = s + m / 1000000 := by
    push_cast
    field_simp
  have hfraction : (m : ℚ) + 1 ≤ 1000000 := by exact_mod_cast hm
  rw [hquotient] at hx
  have hlow : s ≤ value x := by
    rw [← hsecond]
    apply hx.le_value (isNaN_of_isFinite hsecondFinite)
    rw [hsecond]
    exact le_add_of_nonneg_right (by positivity)
  have hhigh : (s : ℚ) + m / 1000000 ≤ s + 1 - 1 / 2 ^ 20 := by
    norm_num
    linarith
  obtain ⟨hfinite, hfloor⟩ := hx.floor_eq (by omega) (by positivity) hlow hhigh
  rw [wholeSeconds_of_nonneg hfinite (s.cast_nonneg.trans hlow) (by omega), hfloor]

theorem wholeSeconds_timestamp (h : Nameable started) :
    wholeSeconds (new started summaries).timestamp = started.seconds := by
  obtain ⟨seconds, nanos⟩ := started
  obtain ⟨hnonneg, hbelow, hnanos⟩ := h
  obtain ⟨s, rfl⟩ := Int.eq_ofNat_of_zero_le hnonneg
  have hs : s < 2 ^ 33 := by
    change (s : Int) < 2 ^ 33 at hbelow
    omega
  have hm : nanos / 1000 < 1000000 := by
    change nanos < 10 ^ 9 at hnanos
    omega
  have hmicros : Instant.micros ⟨s, nanos⟩ = (s * 1000000 + nanos / 1000 : Nat) := by
    rw [Instant.micros]
    push_cast
    rfl
  exact wholeSeconds_of_micros hs hm (timestamp_rounds summaries hmicros (by omega))

end

/-! ## Names -/

def nameOf (second : Int) : String := "results-" ++ toString second ++ ".json"

theorem nameOf_inj {m n : Int} : nameOf m = nameOf n ↔ m = n := by
  rw [nameOf, nameOf, ← String.toList_inj]
  simp [Int.toString_eq_repr, String.toList_inj]

theorem nameOf_not_absolute (n : Int) : Path.isAbsolute (nameOf n) = false := by
  simp [Path.isAbsolute, nameOf]

/-- In a directory different names have different paths. -/
theorem joined_inj {directory path path' : String} (h : Path.isAbsolute path = false)
    (h' : Path.isAbsolute path' = false) :
    Path.joined directory path = Path.joined directory path' ↔ path = path' := by
  rw [Path.joined, Path.joined, h, h']
  by_cases hempty : directory.isEmpty = true
  · simp [hempty]
  · by_cases hslash : directory.toList.getLast? = some '/'
    · simp [hempty, hslash, ← String.toList_inj]
    · simp [hempty, hslash, ← String.toList_inj]

/-- A results file is named for the second in which its run started. So runs that started in
different seconds have files of different names, and in one directory of different paths. -/
theorem file_named_for_second {started : Instant} (h : Nameable started)
    (summaries : List Summary) :
    wholeSeconds (new started summaries).timestamp = started.seconds ∧
    (new started summaries).fileName = "results-" ++ toString started.seconds ++ ".json" ∧
    ∀ (other : Instant) (others : List Summary), Nameable other →
      ((new started summaries).fileName = (new other others).fileName ↔
        started.seconds = other.seconds) ∧
      ∀ directory : String, Path.joined directory (new started summaries).fileName =
        Path.joined directory (new other others).fileName ↔ started.seconds = other.seconds := by
  have hname : ∀ {t : Instant} (ht : Nameable t) (summaries : List Summary),
      (new t summaries).fileName = nameOf t.seconds := by
    intro t ht summaries
    rw [ResultsFile.fileName, wholeSeconds_timestamp summaries ht, nameOf]
  refine ⟨wholeSeconds_timestamp summaries h, hname h summaries, ?_⟩
  intro other others hother
  rw [hname h, hname hother]
  refine ⟨nameOf_inj, ?_⟩
  intro directory
  rw [joined_inj (nameOf_not_absolute _) (nameOf_not_absolute _), nameOf_inj]

/-- The last microsecond of the last second, where the grid is coarsest, and the second before. -/
theorem file_named_for_second_last :
    (Nameable ⟨8589934591, 999999999⟩ ∧ Nameable ⟨8589934590, 999999999⟩) ∧
    (new ⟨8589934591, 999999999⟩ []).fileName = "results-8589934591.json" ∧
    (new ⟨8589934591, 999999999⟩ []).fileName ≠ (new ⟨8589934590, 999999999⟩ []).fileName := by
  have hlast : Nameable ⟨8589934591, 999999999⟩ := ⟨by decide, by decide, by decide⟩
  have hbefore : Nameable ⟨8589934590, 999999999⟩ := ⟨by decide, by decide, by decide⟩
  obtain ⟨-, hname, hothers⟩ := file_named_for_second hlast []
  refine ⟨⟨hlast, hbefore⟩, hname.trans (by decide), ?_⟩
  rw [Ne, (hothers ⟨8589934590, 999999999⟩ [] hbefore).1]
  decide

end PerfGate.Naming
