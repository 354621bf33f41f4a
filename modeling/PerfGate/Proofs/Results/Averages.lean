import PerfGate.Proofs.Measurement.Bounds
import PerfGate.Proofs.Number.Monotone
import PerfGate.Proofs.Results.Findings

/-!
# Averages of ratios

An average is a sum, rounded at each step, over a count, and is not brought back between the
extremes afterwards. It lies between the average of as many copies of the least ratio and that of
as many copies of the greatest. These averages are where their ratio is for one copy or two; for
more the rounded sum of copies may have run ahead of it, and then the average of equal ratios is
greater than all of them.
-/

set_option autoImplicit false

namespace PerfGate.Averages

open Findings Number
open Statistics (isFinite_of_mem_replicate Numbers)

/-! ## Averages in order -/

section
variable {xs ys : List Float} {t u x : Float}

def Below (xs ys : List Float) : Prop :=
  List.Forall₂ (fun x y => value x ≤ value y) xs ys

theorem foldl_add_le (h : Below xs ys) (hxs : ∀ x ∈ xs, x.isFinite = true)
    (hys : ∀ y ∈ ys, y.isFinite = true) (ht : t.isNaN = false) (hu : u.isNaN = false)
    (htu : value t ≤ value u) : value (xs.foldl (· + ·) t) ≤ value (ys.foldl (· + ·) u) := by
  induction h generalizing t u with
  | nil => exact htu
  | cons hxy _ ih =>
    obtain ⟨hx, hxs⟩ := List.forall_mem_cons.mp hxs
    obtain ⟨hy, hys⟩ := List.forall_mem_cons.mp hys
    exact ih hxs hys (add_isNaN ht hx) (add_isNaN hu hy) (add_value_le ht hu hx hy htu hxy)

theorem sum_isNaN (hxs : ∀ x ∈ xs, x.isFinite = true) : (xs.foldl (· + ·) 0.0).isNaN = false :=
  Statistics.foldl_add_isNaN (by decide) hxs

theorem leftMean_le (h : Below xs ys) (hne : xs ≠ []) (hlength : xs.length < 2 ^ 64)
    (hxs : ∀ x ∈ xs, x.isFinite = true) (hys : ∀ y ∈ ys, y.isFinite = true) :
    value (leftMean xs) ≤ value (leftMean ys) := by
  obtain ⟨hfinite, hpos⟩ := ofNat_pos (List.length_pos_iff.mpr hne) hlength
  rw [leftMean, leftMean, ← h.length_eq]
  exact div_value_le (sum_isNaN hxs) (sum_isNaN hys) hfinite hpos
    (foldl_add_le h hxs hys (by decide) (by decide) le_rfl)

theorem leftMean_isNaN (hne : xs ≠ []) (hlength : xs.length < 2 ^ 64)
    (hxs : ∀ x ∈ xs, x.isFinite = true) : (leftMean xs).isNaN = false := by
  obtain ⟨hfinite, hpos⟩ := ofNat_pos (List.length_pos_iff.mpr hne) hlength
  exact div_isNaN (sum_isNaN hxs) hfinite hpos

/-- An average is finite if the sum is. -/
theorem leftMean_isFinite (hne : xs ≠ []) (hlength : xs.length < 2 ^ 64)
    (hsum : (xs.foldl (· + ·) 0.0).isFinite = true) : (leftMean xs).isFinite = true :=
  div_isFinite hsum (ofNat_isFinite hlength) (one_le_ofNat (List.length_pos_iff.mpr hne))

/-! ## Averages of copies -/

def level (n : Nat) (x : Float) : Float :=
  leftMean (List.replicate n x)

theorem forall₂_replicate {R : Float → Float → Prop} (h : ∀ y ∈ xs, R y x) :
    List.Forall₂ R xs (List.replicate xs.length x) := by
  induction xs with
  | nil => exact .nil
  | cons y xs ih =>
    obtain ⟨hy, hrest⟩ := List.forall_mem_cons.mp h
    exact .cons hy (ih hrest)

section
variable (hne : xs ≠ []) (hlength : xs.length < 2 ^ 64) (hxs : ∀ y ∈ xs, y.isFinite = true)
  (hx : x.isFinite = true)
include hne hlength hxs hx

theorem leftMean_le_level (h : ∀ y ∈ xs, value y ≤ value x) :
    value (leftMean xs) ≤ value (level xs.length x) :=
  leftMean_le (forall₂_replicate h) hne hlength hxs (isFinite_of_mem_replicate hx)

theorem level_le_leftMean (h : ∀ y ∈ xs, value x ≤ value y) :
    value (level xs.length x) ≤ value (leftMean xs) := by
  have hbelow := (forall₂_replicate (R := fun y x => value x ≤ value y) h).flip
  refine leftMean_le hbelow ?_ ?_ (isFinite_of_mem_replicate hx) hxs
  · simpa using hne
  · simpa using hlength

end

theorem level_isNaN {n : Nat} (hpos : 0 < n) (hlt : n < 2 ^ 64) (hx : x.isFinite = true) :
    (level n x).isNaN = false := by
  refine leftMean_isNaN ?_ ?_ (isFinite_of_mem_replicate hx)
  · simpa using hpos.ne'
  · simpa using hlt

/-! ## One number, and two -/

theorem zero_add_value (hx : x.isFinite = true) :
    value (0.0 + x) = value x ∧ (0.0 + x).isFinite = true := by
  have hsum := add_rounds (show (0.0 : Float).isFinite = true by decide) hx
  rw [value_zero, zero_add] at hsum
  have heq := hsum.value_eq (isNaN_of_isFinite hx) rfl
  exact ⟨heq, isFinite_between hx hx heq.ge heq.le⟩

/-- A list of at most two numbers has its average wherever both of them lie. -/
theorem leftMean_between {lo hi : Float} (hne : xs ≠ []) (hshort : xs.length ≤ 2)
    (hxs : ∀ x ∈ xs, x.isFinite = true) (hsum : (xs.foldl (· + ·) 0.0).isFinite = true)
    (hlo : lo.isFinite = true) (hhi : hi.isFinite = true)
    (h : ∀ x ∈ xs, value lo ≤ value x ∧ value x ≤ value hi) :
    value lo ≤ value (leftMean xs) ∧ value (leftMean xs) ≤ value hi := by
  match xs with
  | [] => exact absurd rfl hne
  | [x] =>
    obtain ⟨hvalue, hfinite⟩ := zero_add_value (hxs x List.mem_cons_self)
    obtain ⟨hone, honefinite⟩ := (ofNat_rounds 1).value_eq_natCast (by omega)
    have hmean := div_rounds hfinite honefinite (by rw [hone]; norm_num)
    rw [hvalue, hone, Nat.cast_one, div_one] at hmean
    have heq := hmean.value_eq (isNaN_of_isFinite (hxs x List.mem_cons_self)) rfl
    change value lo ≤ value ((0.0 + x) / Float.ofNat 1) ∧ value ((0.0 + x) / Float.ofNat 1) ≤ _
    rw [heq]
    exact h x List.mem_cons_self
  | [x, y] =>
    obtain ⟨hvalue, hfinite⟩ := zero_add_value (hxs x (by simp))
    obtain ⟨htwo, htwofinite⟩ := (ofNat_rounds 2).value_eq_natCast (by omega)
    have hxs' := h x (by simp)
    rw [← hvalue] at hxs'
    exact half_add_between hfinite (hxs y (by simp)) hlo hhi hxs' (h y (by simp)) hsum htwofinite
      htwo
  | _ :: _ :: _ :: _ => exact absurd hshort (by simp)

end

/-! ## Extremes -/

/-- What is kept while a list is passed through comes from it or from before, and nothing beats
it. -/
theorem foldl_extreme {r : Float → Float → Prop} [DecidableRel r] {v : Float → ℚ}
    (hr : ∀ {x y : Float}, x.isNaN = false → y.isNaN = false → (r x y ↔ v x ≤ v y))
    {xs : List Float} (hxs : Numbers xs) {m : Float} (hm : m.isNaN = false) :
    (xs.foldl (fun m x => if r m x then x else m) m = m ∨
      xs.foldl (fun m x => if r m x then x else m) m ∈ xs) ∧
    v m ≤ v (xs.foldl (fun m x => if r m x then x else m) m) ∧
    ∀ x ∈ xs, v x ≤ v (xs.foldl (fun m x => if r m x then x else m) m) := by
  induction xs generalizing m with
  | nil => exact ⟨.inl rfl, le_rfl, fun x hx => nomatch hx⟩
  | cons x xs ih =>
    obtain ⟨hx, hrest⟩ := List.forall_mem_cons.mp hxs
    rw [List.foldl_cons]
    by_cases h : r m x
    · obtain ⟨hmem, hkept, hall⟩ := ih hrest hx
      rw [if_pos h]
      refine ⟨.inr ?_, ((hr hm hx).mp h).trans hkept, List.forall_mem_cons.mpr ⟨hkept, hall⟩⟩
      rcases hmem with heq | hmem
      · rw [heq]
        exact List.mem_cons_self
      · exact List.mem_cons_of_mem x hmem
    · obtain ⟨hmem, hkept, hall⟩ := ih hrest hm
      have hbeaten := (not_le.mp (h ∘ (hr hm hx).mpr)).le
      rw [if_neg h]
      exact ⟨hmem.imp_right (List.mem_cons_of_mem x), hkept,
        List.forall_mem_cons.mpr ⟨hbeaten.trans hkept, hall⟩⟩

/-- What is beaten by a part of the list is not kept. -/
theorem foldl_extreme_mem {r : Float → Float → Prop} [DecidableRel r] {v : Float → ℚ}
    (hr : ∀ {x y : Float}, x.isNaN = false → y.isNaN = false → (r x y ↔ v x ≤ v y))
    {xs : List Float} (hxs : Numbers xs) {m : Float} (hm : m.isNaN = false)
    (hbeaten : ∃ x ∈ xs, v m < v x) :
    xs.foldl (fun m x => if r m x then x else m) m ∈ xs ∧
      ∀ x ∈ xs, v x ≤ v (xs.foldl (fun m x => if r m x then x else m) m) := by
  obtain ⟨hmem, -, hall⟩ := foldl_extreme hr hxs hm
  obtain ⟨x, hx, hlt⟩ := hbeaten
  refine ⟨hmem.resolve_left fun heq => ?_, hall⟩
  have hle := hall x hx
  rw [heq] at hle
  exact absurd hlt (not_lt.mpr hle)

theorem value_infinity {x : Float} (hx : x.isFinite = true) :
    value (-infinity) < value x ∧ value x < value infinity := by
  have hbelow : place (-infinity) = -infinityWord := by decide
  have habove : place infinity = infinityWord := by decide
  rw [isFinite_iff, magnitude_eq_natAbs_place] at hx
  rw [value_lt_iff_place, value_lt_iff_place, hbelow, habove]
  omega

section
variable {rows : List ComparisonRow}

theorem ratios_finite (hfinite : ∀ row ∈ rows, row.ratio.isFinite = true) :
    ∀ x ∈ rows.map (·.ratio), x.isFinite = true :=
  List.forall_mem_map.mpr hfinite

theorem bestRatio_extreme (hne : rows ≠ [])
    (hfinite : ∀ row ∈ rows, row.ratio.isFinite = true) :
    bestRatio rows ∈ rows.map (·.ratio) ∧
      ∀ x ∈ rows.map (·.ratio), value x ≤ value (bestRatio rows) := by
  have hbest : bestRatio rows =
      (rows.map (·.ratio)).foldl (fun m x => if m ≤ x then x else m) (-infinity) := by
    rw [bestRatio, List.foldl_map]
  obtain ⟨row, hrow⟩ := List.exists_mem_of_ne_nil rows hne
  rw [hbest]
  exact foldl_extreme_mem (r := (· ≤ ·)) (fun hx hy => le_iff_value hx hy)
    (fun x hx => isNaN_of_isFinite (ratios_finite hfinite x hx)) (by decide)
    ⟨row.ratio, List.mem_map_of_mem hrow, (value_infinity (hfinite row hrow)).1⟩

theorem leastRatio_extreme (hne : rows ≠ [])
    (hfinite : ∀ row ∈ rows, row.ratio.isFinite = true) :
    leastRatio rows ∈ rows.map (·.ratio) ∧
      ∀ x ∈ rows.map (·.ratio), value (leastRatio rows) ≤ value x := by
  have hleast : leastRatio rows =
      (rows.map (·.ratio)).foldl (fun m x => if x ≤ m then x else m) infinity := by
    rw [leastRatio, List.foldl_map]
  obtain ⟨row, hrow⟩ := List.exists_mem_of_ne_nil rows hne
  obtain ⟨hmem, hall⟩ := foldl_extreme_mem (r := fun m x => x ≤ m) (v := fun x => -value x)
    (fun hx hy => (le_iff_value hy hx).trans neg_le_neg_iff.symm)
    (fun x hx => isNaN_of_isFinite (ratios_finite hfinite x hx))
    (show infinity.isNaN = false by decide)
    ⟨row.ratio, List.mem_map_of_mem hrow, neg_lt_neg (value_infinity (hfinite row hrow)).2⟩
  rw [hleast]
  exact ⟨hmem, fun x hx => neg_le_neg_iff.mp (hall x hx)⟩

end

/-! ## Averages of rows -/

structure Placed (rows : List ComparisonRow) (average : Float) : Prop where
  isFinite : average.isFinite = true
  best_mem : ∃ row ∈ rows, row.ratio = bestRatio rows
  least_mem : ∃ row ∈ rows, row.ratio = leastRatio rows
  ratios : ∀ row ∈ rows, leastRatio rows ≤ row.ratio ∧ row.ratio ≤ bestRatio rows
  levels : level rows.length (leastRatio rows) ≤ average ∧
    average ≤ level rows.length (bestRatio rows)
  /-- No copies of the greatest ratio carry beyond it, and then the average does not either. -/
  le_best : level rows.length (bestRatio rows) ≤ bestRatio rows → average ≤ bestRatio rows
  least_le : leastRatio rows ≤ level rows.length (leastRatio rows) → leastRatio rows ≤ average
  short : rows.length ≤ 2 → leastRatio rows ≤ average ∧ average ≤ bestRatio rows

section
variable {rows : List ComparisonRow}

theorem ratioSum_eq (rows : List ComparisonRow) :
    ratioSum rows = (rows.map (·.ratio)).foldl (· + ·) 0.0 := by
  rw [ratioSum, List.foldl_map]

theorem leftMean_placed (hne : rows ≠ []) (hlength : rows.length < 2 ^ 64)
    (hfinite : ∀ row ∈ rows, row.ratio.isFinite = true)
    (hsum : (ratioSum rows).isFinite = true) : Placed rows (leftMean (rows.map (·.ratio))) := by
  obtain ⟨hbest, hbelow⟩ := bestRatio_extreme hne hfinite
  obtain ⟨hleast, habove⟩ := leastRatio_extreme hne hfinite
  have hratios := ratios_finite hfinite
  have hmapped : rows.map (·.ratio) ≠ [] := by simpa using hne
  have hcount : (rows.map (·.ratio)).length = rows.length := List.length_map _
  have hlengths := hcount ▸ hlength
  have hlow := level_le_leftMean hmapped hlengths hratios (hratios _ hleast) habove
  have hhigh := leftMean_le_level hmapped hlengths hratios (hratios _ hbest) hbelow
  have hpos := hcount ▸ List.length_pos_iff.mpr hmapped
  have hlowest := level_isNaN hpos hlength (hratios _ hleast)
  have hhighest := level_isNaN hpos hlength (hratios _ hbest)
  rw [hcount] at hlow hhigh
  rw [ratioSum_eq] at hsum
  have haverage := leftMean_isFinite hmapped hlengths hsum
  have hnumber (x : Float) (hx : x.isFinite = true) := isNaN_of_isFinite hx
  refine ⟨haverage, List.mem_map.mp hbest, List.mem_map.mp hleast, fun row hrow => ?_, ?_, ?_, ?_,
    fun hshort => ?_⟩
  · have hrow := List.mem_map_of_mem (f := (·.ratio)) hrow
    rw [le_iff_value (hnumber _ (hratios _ hleast)) (hnumber _ (hratios _ hrow)),
      le_iff_value (hnumber _ (hratios _ hrow)) (hnumber _ (hratios _ hbest))]
    exact ⟨habove _ hrow, hbelow _ hrow⟩
  · rw [le_iff_value hlowest (hnumber _ haverage), le_iff_value (hnumber _ haverage) hhighest]
    exact ⟨hlow, hhigh⟩
  · rw [le_iff_value hhighest (hnumber _ (hratios _ hbest)),
      le_iff_value (hnumber _ haverage) (hnumber _ (hratios _ hbest))]
    exact hhigh.trans
  · rw [le_iff_value (hnumber _ (hratios _ hleast)) hlowest,
      le_iff_value (hnumber _ (hratios _ hleast)) (hnumber _ haverage)]
    exact fun h => h.trans hlow
  · rw [le_iff_value (hnumber _ (hratios _ hleast)) (hnumber _ haverage),
      le_iff_value (hnumber _ haverage) (hnumber _ (hratios _ hbest))]
    exact leftMean_between hmapped (hcount.trans_le hshort) hratios hsum (hratios _ hleast)
      (hratios _ hbest) fun x hx => ⟨habove x hx, hbelow x hx⟩

theorem bestRatio_replicate {row : ComparisonRow} {n : Nat} (hpos : 0 < n)
    (hfinite : row.ratio.isFinite = true) :
    bestRatio (List.replicate n row) = row.ratio ∧
      leastRatio (List.replicate n row) = row.ratio := by
  have hne : List.replicate n row ≠ [] := by simpa using hpos.ne'
  have hall : ∀ r ∈ List.replicate n row, r.ratio.isFinite = true :=
    fun _ hr => List.eq_of_mem_replicate hr ▸ hfinite
  have hbest := (bestRatio_extreme hne hall).1
  have hleast := (leastRatio_extreme hne hall).1
  rw [List.map_replicate] at hbest hleast
  exact ⟨List.eq_of_mem_replicate hbest, List.eq_of_mem_replicate hleast⟩

/-- No average of so many rows goes beyond a ratio that is the greatest of them, or the least,
exactly if that of as many copies of it does not. -/
theorem kept_iff {row : ComparisonRow} {n : Nat} (hpos : 0 < n) (hlt : n < 2 ^ 64)
    (hfinite : row.ratio.isFinite = true)
    (hsum : (ratioSum (List.replicate n row)).isFinite = true) :
    ((∀ others : List ComparisonRow, others.length = n →
        (∀ r ∈ others, r.ratio.isFinite = true) → (ratioSum others).isFinite = true →
        bestRatio others = row.ratio → leftMean (others.map (·.ratio)) ≤ row.ratio) ↔
      level n row.ratio ≤ row.ratio) ∧
    ((∀ others : List ComparisonRow, others.length = n →
        (∀ r ∈ others, r.ratio.isFinite = true) → (ratioSum others).isFinite = true →
        leastRatio others = row.ratio → row.ratio ≤ leftMean (others.map (·.ratio))) ↔
      row.ratio ≤ level n row.ratio) := by
  obtain ⟨hbest, hleast⟩ := bestRatio_replicate hpos hfinite
  have hcopies : ∀ r ∈ List.replicate n row, r.ratio.isFinite = true :=
    fun _ hr => List.eq_of_mem_replicate hr ▸ hfinite
  have hplaced {others : List ComparisonRow} (hothers : others.length = n)
      (hall : ∀ r ∈ others, r.ratio.isFinite = true)
      (htotal : (ratioSum others).isFinite = true) :=
    leftMean_placed (List.length_pos_iff.mp (hothers ▸ hpos)) (hothers ▸ hlt) hall htotal
  constructor
  · constructor
    · intro h
      have hle := h _ List.length_replicate hcopies hsum hbest
      rwa [List.map_replicate] at hle
    · rintro h others rfl hall htotal heq
      exact heq ▸ (hplaced rfl hall htotal).le_best (heq.symm ▸ h)
  · constructor
    · intro h
      have hle := h _ List.length_replicate hcopies hsum hleast
      rwa [List.map_replicate] at hle
    · rintro h others rfl hall htotal heq
      exact heq ▸ (hplaced rfl hall htotal).least_le (heq.symm ▸ h)

end

/-- Averages of finite ratios whose sum is finite lie between those of as many copies of the
least and of the greatest ratio, over all rows, over those of a category and over those of a
scale. So they lie between the extremes for one row or two; for more rows they do exactly if no
copies of an extreme carry beyond it. -/
theorem averages_between_levels (totalTests : Nat) (rows : List ComparisonRow)
    (hlength : rows.length < 2 ^ 64) (hfinite : ∀ row ∈ rows, row.ratio.isFinite = true) :
    (rows ≠ [] → (ratioSum rows).isFinite = true →
      ∃ s, improvementSummary totalTests rows = some s ∧ s.best = bestRatio rows ∧
        s.minimum = leastRatio rows ∧ Placed rows s.average) ∧
    (∀ finding ∈ categoryFindings rows,
      (ratioSum (inCategory rows finding.category)).isFinite = true →
      Placed (inCategory rows finding.category) finding.average) ∧
    (∀ finding ∈ scaleFindings rows,
      (ratioSum (ofScale rows finding.scale)).isFinite = true →
      Placed (ofScale rows finding.scale) finding.average) ∧
    (rows ≠ [] → ∀ row : ComparisonRow, row.ratio.isFinite = true →
      (ratioSum (List.replicate rows.length row)).isFinite = true →
      ((∀ others : List ComparisonRow, others.length = rows.length →
          (∀ r ∈ others, r.ratio.isFinite = true) → (ratioSum others).isFinite = true →
          bestRatio others = row.ratio → leftMean (others.map (·.ratio)) ≤ row.ratio) ↔
        level rows.length row.ratio ≤ row.ratio) ∧
      ((∀ others : List ComparisonRow, others.length = rows.length →
          (∀ r ∈ others, r.ratio.isFinite = true) → (ratioSum others).isFinite = true →
          leastRatio others = row.ratio → row.ratio ≤ leftMean (others.map (·.ratio))) ↔
        row.ratio ≤ level rows.length row.ratio)) := by
  have hpart {part : List ComparisonRow} (hsub : part.Sublist rows) (hne : part ≠ [])
      (hsum : (ratioSum part).isFinite = true) : Placed part (leftMean (part.map (·.ratio))) :=
    leftMean_placed hne (hsub.length_le.trans_lt hlength)
      (fun row hrow => hfinite row (hsub.subset hrow)) hsum
  refine ⟨fun hne hsum => ?_, fun finding hfinding hsum => ?_, fun finding hfinding hsum => ?_,
    fun hne row hrow hsum => kept_iff (List.length_pos_iff.mpr hne) hlength hrow hsum⟩
  · have hsummary := (improvementSummary_eq totalTests rows).trans (if_neg hne)
    exact ⟨_, hsummary, rfl, rfl, hpart (List.Sublist.refl rows) hne hsum⟩
  · obtain ⟨category, hne, rfl⟩ := mem_categoryFindings.mp hfinding
    exact hpart List.filter_sublist hne hsum
  · rw [scaleFindings_eq] at hfinding
    obtain ⟨scale, hscale, rfl⟩ := List.mem_map.mp hfinding
    have hne : ofScale rows scale ≠ [] := by simpa using (List.mem_filter.mp hscale).2
    exact hpart List.filter_sublist hne hsum

/-- Two rows have their average between their ratios. -/
theorem averages_between_levels_pair :
    ∃ s, improvementSummary 0 [exampleRow "single_row_incremental" "small" 0.1,
        exampleRow "single_row_incremental" "small" 0.3] = some s ∧
      s.minimum ≤ s.average ∧ s.average ≤ s.best := by
  obtain ⟨hsummary, -⟩ := averages_between_levels 0
    [exampleRow "single_row_incremental" "small" 0.1,
      exampleRow "single_row_incremental" "small" 0.3] (by decide) (by decide)
  obtain ⟨s, hs, hbest, hleast, hplaced⟩ := hsummary (by decide) (by decide)
  refine ⟨s, hs, ?_⟩
  rw [hbest, hleast]
  exact hplaced.short (by decide)

def tenths : List ComparisonRow :=
  List.replicate 3 (exampleRow "single_row_incremental" "small" 0.1)

/-- The average of three tenths is greater than each of them, over all rows, over their category
and over their scale. -/
theorem average_of_tenths :
    (∀ row ∈ tenths, row.ratio = 0.1) ∧ (ratioSum tenths).isFinite = true ∧
      (∃ s, improvementSummary 0 tenths = some s ∧ s.best = 0.1 ∧ 0.1 < s.average) ∧
      (∃ finding ∈ categoryFindings tenths, 0.1 < finding.average) ∧
      ∃ finding ∈ scaleFindings tenths, 0.1 < finding.average := by
  refine ⟨fun row hrow => List.eq_of_mem_replicate hrow ▸ rfl, by decide +kernel,
    ⟨_, rfl, (bestRatio_replicate (by decide) (by decide)).1, by decide +kernel⟩, ?_, ?_⟩
  · decide +kernel
  · decide +kernel

end PerfGate.Averages
