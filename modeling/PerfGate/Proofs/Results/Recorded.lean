import PerfGate.ResultsFile
import PerfGate.Proofs.Json.Numerals
import PerfGate.Proofs.Json.Reading

/-!
# Recorded runs read back

What is printed for a results file says the file, member by member, and the reader of such files
decodes what the text says. So a file whose figures are numbers and whose counts fit their word
is read back as it was written.
-/

set_option autoImplicit false

namespace PerfGate.Recorded

open Json

/-! ## What is decoded -/

section
variable {r : Rounding} {node : Node}

theorem decoded_result {result : RecordedResult} (h : node.Says r result.value)
    (hskip : node.skip = .ok ()) : RecordedResult.decoder r node = .ok result := by
  cases h with
  | object h =>
    obtain ⟨ps, hlists, hsay⟩ := h.lists
    have hpresented : (RecordedResult.slots r).Presented ps
        (result.name, result.mean, result.deviation, result.p95, result.n, ()) :=
      ⟨presented_of_gives (fun _ _ h => h.isText.decoded) (gives_of_forall₂ hsay rfl),
        presented_of_gives (fun _ _ h => h.isReal.decoded) (gives_of_forall₂ hsay rfl),
        presented_of_gives (fun _ _ h => h.isReal.decoded) (gives_of_forall₂ hsay rfl),
        presented_of_gives (fun _ _ h => h.isReal.decoded) (gives_of_forall₂ hsay rfl),
        presented_of_gives (fun _ _ h => h.isCount.decoded) (gives_of_forall₂ hsay rfl), trivial⟩
    have hnames : (RecordedResult.slots r).names.Nodup := by
      change ["name", "mean_ms", "stddev_ms", "p95_ms", "n"].Nodup
      decide
    rw [RecordedResult.decoder, (record_eq_ok_iff hnames hlists hskip).mpr hpresented]
    rfl

theorem decoded_results {results : List RecordedResult}
    (h : node.Says r (.array (results.map RecordedResult.value))) (hskip : node.skip = .ok ()) :
    Json.list (RecordedResult.decoder r) node = .ok results := by
  cases h with
  | @array items _ h =>
    obtain ⟨nodes, hlists, hsay⟩ := h.lists
    rw [List.forall₂_map_right_iff] at hsay
    have hwhole := (List.forall₂_and_left _ _).mpr ⟨skip_of_items hlists hskip, hsay⟩
    rw [Json.list, decodeItems_eq hlists]
    exact Attempts.mapM_of_forall₂ (hwhole.imp fun _ _ h => decoded_result h.2 h.1)

theorem decoded_file {file : ResultsFile} (h : node.Says r file.value)
    (hskip : node.skip = .ok ()) :
    Json.record "ResultsFile" (ResultsFile.slots r) node =
      .ok (file.timestamp, file.date, file.results, ()) := by
  cases h with
  | object h =>
    obtain ⟨ps, hlists, hsay⟩ := h.lists
    have hnames : (ResultsFile.slots r).names.Nodup := by
      change ["timestamp", "date", "results"].Nodup
      decide
    refine (record_eq_ok_iff hnames hlists hskip).mpr
      ⟨presented_of_gives (fun _ _ h => h.isReal.decoded) (gives_of_forall₂ hsay rfl),
        presented_of_gives (fun _ _ h => h.isText.decoded) (gives_of_forall₂ hsay rfl),
        presented_of_gives (fun node hnode h => decoded_results h ?_) (gives_of_forall₂ hsay rfl),
        trivial⟩
    exact skip_of_mem_valuesOf hlists hskip hnode

/-- A file whose numbers read back reads back. -/
theorem parse_json {file : ResultsFile} (h : file.value.Readable r) :
    ResultsFile.parse r file.json = .ok file := by
  obtain ⟨node, hspelled, hsays⟩ := h.pretty
  rw [ResultsFile.parse, decode, ResultsFile.json, read_of_spelledBy hspelled]
  simp only [decoded_file hsays hspelled.skip]
  rfl

end

/-! ## What can be recorded -/

structure Storable (s : Summary) : Prop where
  mean : s.mean.isFinite = true
  deviation : s.deviation.isFinite = true
  p95 : s.p95.isFinite = true
  n : s.n < unsignedLimit

theorem timestamp_isFinite {started : Instant} (h : started.micros.natAbs < 2 ^ 64)
    (summaries : List Summary) : (ResultsFile.new started summaries).timestamp.isFinite = true := by
  have hmillion : (1000000.0 : Float).isFinite = true := by decide
  have hone : Float.ofBits 0x3ff0000000000000 ≤ (1000000.0 : Float) := by decide
  rw [Number.le_iff_value (by decide) (by decide), Number.value_one] at hone
  exact Number.div_isFinite (Number.ofInt_isFinite h) hmillion hone

theorem result_readable {s : Summary} (h : Storable s) :
    (RecordedResult.ofSummary s).value.Readable .nearest :=
  ⟨trivial, real_readable h.mean, real_readable h.deviation, real_readable h.p95,
    count_readable _ h.n, trivial⟩

theorem results_readable {summaries : List Summary} (h : ∀ s ∈ summaries, Storable s) :
    ReadableItems .nearest ((summaries.map RecordedResult.ofSummary).map RecordedResult.value) := by
  induction summaries with
  | nil => trivial
  | cons s summaries ih =>
    obtain ⟨hs, hrest⟩ := List.forall_mem_cons.mp h
    exact ⟨result_readable hs, ih hrest⟩

/-- A recorded run is read back as it was written, if the nearest number is read for each
numeral: its time, its date, and its results in their order, with the same words for all figures
and the same counts. The names are any texts. The time is counted in microseconds that fit a
signed word. -/
theorem recorded_reads_back (started : Instant) (summaries : List Summary)
    (hstarted : -(signedLimit : Int) ≤ started.micros ∧ started.micros < signedLimit)
    (hsummaries : ∀ s ∈ summaries, Storable s) :
    ResultsFile.parse .nearest (ResultsFile.new started summaries).json =
      .ok (ResultsFile.new started summaries) := by
  have hword : started.micros.natAbs < 2 ^ 64 := by
    rw [signedLimit] at hstarted
    omega
  exact parse_json ⟨real_readable (timestamp_isFinite hword summaries), trivial,
    results_readable hsummaries, trivial⟩

/-- Names with quotes, backslashes and controls; the least number, the greatest one, a negative
zero; the greatest count. -/
theorem recorded_reads_back_extremes :
    let started : Instant := ⟨-62135596801, 999999999⟩
    let summaries : List Summary := [
      ⟨"say \"a\\b\"\t\x00", "", 18446744073709551615, 0.1, 0.1, Float.ofBits 1, 0.1, 0.1,
        Float.ofBits 0x7fefffffffffffff⟩,
      ⟨"Zeit 時間", "", 0, Float.ofBits 0x8000000000000000, 0.0, 1e16, 0.0, 0.0, 1.5⟩]
    (-(signedLimit : Int) ≤ started.micros ∧ started.micros < signedLimit) ∧
      (∀ s ∈ summaries, Storable s) ∧
      ResultsFile.parse .nearest (ResultsFile.new started summaries).json =
        .ok (ResultsFile.new started summaries) := by
  intro started summaries
  have hstarted : -(signedLimit : Int) ≤ started.micros ∧ started.micros < signedLimit := by
    decide
  have hsummaries : ∀ s ∈ summaries, Storable s := by
    intro s hs
    rcases List.mem_cons.mp hs with rfl | hs
    · exact ⟨by decide, by decide, by decide, by decide⟩
    · obtain rfl := List.mem_singleton.mp hs
      exact ⟨by decide, by decide, by decide, by decide⟩
  exact ⟨hstarted, hsummaries, recorded_reads_back started summaries hstarted hsummaries⟩

end PerfGate.Recorded
