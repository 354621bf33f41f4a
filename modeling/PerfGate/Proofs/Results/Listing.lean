import PerfGate.ResultsFile
import PerfGate.Proofs.Json.Numerals

/-!
# What a results file lists

The text of a results file spells a document whose results are one object for each summary, in
their order, with the name and the figures of the summary. This needs nothing of the summaries: a
figure that is no number is written as null, and the name is spelled whatever it is.
-/

set_option autoImplicit false

namespace PerfGate.Recorded

open Json

/-! ## Documents of results -/

/-- The figure, if it is a number, and null otherwise. -/
def IsFigure (node : Node) (x : Float) : Prop :=
  (x.isFinite = true → node.IsReal .nearest x) ∧ (¬ x.isFinite = true → node = .null)

def IsSize (node : Node) (n : Nat) : Prop :=
  ∃ ds, node = .numeral ⟨false, ds, none, none⟩ ∧ digitsValue ds = n

def IsResult (s : Summary) (node : Node) : Prop :=
  ∃ members ps, node = .object members ∧ members.Lists ps ∧
    Gives ps "name" Node.IsText s.name ∧ Gives ps "mean_ms" IsFigure s.mean ∧
    Gives ps "stddev_ms" IsFigure s.deviation ∧ Gives ps "p95_ms" IsFigure s.p95 ∧
    Gives ps "n" IsSize s.n

/-- The text is an object whose results are a list with one object for each summary, in order. -/
def Listed (text : String) (summaries : List Summary) : Prop :=
  ∃ members ps items nodes, (Node.object members).SpelledBy text ∧ members.Lists ps ∧
    valuesOf "results" ps = [.array items] ∧ items.Lists nodes ∧
    List.Forall₂ IsResult summaries nodes

/-! ## What is printed -/

section
variable (depth : Nat)

theorem text_spelled (s : String) :
    ∃ node : Node, node.Spells ((Value.text s).chars depth) ∧ node.IsText s :=
  ⟨_, .literal (literalOf_spells s), literalOf s, rfl, literalOf_text s⟩

theorem figure_spelled (x : Float) :
    ∃ node : Node, node.Spells ((Value.number (.real x)).chars depth) ∧ IsFigure node x := by
  by_cases hx : x.isFinite = true
  · obtain ⟨n, hspells, hreads⟩ := real_readable hx
    exact ⟨.numeral n, .numeral hspells, fun _ => ⟨n, _, rfl, hreads, rfl⟩, fun h => absurd hx h⟩
  · refine ⟨.null, ?_, fun h => absurd h hx, fun _ => rfl⟩
    rw [Value.chars, numberChars, numberText_of_not_finite hx]
    exact .null

theorem size_spelled (n : Nat) :
    ∃ node : Node, node.Spells ((Value.number (.integer n)).chars depth) ∧ IsSize node n :=
  ⟨_, .numeral (count_spells n), _, rfl, digitsValue_digitsOf n⟩

theorem result_spelled (s : Summary) :
    ∃ node : Node, node.Spells ((RecordedResult.ofSummary s).value.chars depth) ∧
      IsResult s node := by
  obtain ⟨name, hname, hisName⟩ := text_spelled (depth + 1) s.name
  obtain ⟨mean, hmean, hisMean⟩ := figure_spelled (depth + 1) s.mean
  obtain ⟨deviation, hdeviation, hisDeviation⟩ := figure_spelled (depth + 1) s.deviation
  obtain ⟨p95, hp95, hisP95⟩ := figure_spelled (depth + 1) s.p95
  obtain ⟨n, hn, hisSize⟩ := size_spelled (depth + 1) s.n
  have hprinted : List.Forall₂ (MemberPrinted (depth + 1))
      [("name", .text s.name), ("mean_ms", .number (.real s.mean)),
        ("stddev_ms", .number (.real s.deviation)), ("p95_ms", .number (.real s.p95)),
        ("n", .number (.integer s.n))]
      [("name", name), ("mean_ms", mean), ("stddev_ms", deviation), ("p95_ms", p95), ("n", n)] :=
    .cons ⟨rfl, hname⟩ (.cons ⟨rfl, hmean⟩ (.cons ⟨rfl, hdeviation⟩ (.cons ⟨rfl, hp95⟩
      (.cons ⟨rfl, hn⟩ .nil))))
  obtain ⟨members, hspells, hlists⟩ := object_spelled hprinted
  exact ⟨_, hspells, members, _, rfl, hlists, ⟨name, rfl, hisName⟩, ⟨mean, rfl, hisMean⟩,
    ⟨deviation, rfl, hisDeviation⟩, ⟨p95, rfl, hisP95⟩, ⟨n, rfl, hisSize⟩⟩

end

theorem results_spelled (depth : Nat) (summaries : List Summary) :
    ∃ nodes, List.Forall₂ (fun v (node : Node) => node.Spells (v.chars depth))
        ((summaries.map RecordedResult.ofSummary).map RecordedResult.value) nodes ∧
      List.Forall₂ IsResult summaries nodes := by
  induction summaries with
  | nil => exact ⟨[], .nil, .nil⟩
  | cons s summaries ih =>
    obtain ⟨node, hspells, hresult⟩ := result_spelled depth s
    obtain ⟨nodes, hprinted, hresults⟩ := ih
    exact ⟨node :: nodes, .cons hspells hprinted, .cons hresult hresults⟩

theorem json_listed (started : Instant) (summaries : List Summary) :
    Listed (ResultsFile.new started summaries).json summaries := by
  let file := ResultsFile.new started summaries
  obtain ⟨timestamp, htimestamp, -⟩ := figure_spelled 1 file.timestamp
  obtain ⟨date, hdate, -⟩ := text_spelled 1 file.date
  obtain ⟨nodes, hprinted, hresults⟩ := results_spelled 2 summaries
  obtain ⟨items, hitems, hlists⟩ := array_spelled hprinted
  have hprinted : List.Forall₂ (MemberPrinted 1)
      [("timestamp", .number (.real file.timestamp)), ("date", .text file.date),
        ("results", .array (file.results.map RecordedResult.value))]
      [("timestamp", timestamp), ("date", date), ("results", Node.array items)] :=
    .cons ⟨rfl, htimestamp⟩ (.cons ⟨rfl, hdate⟩ (.cons ⟨rfl, hitems⟩ .nil))
  obtain ⟨members, hspells, hmembers⟩ := object_spelled hprinted
  refine ⟨members, _, items, nodes, ?_, hmembers, rfl, hlists, hresults⟩
  refine .mk blanks_nil blanks_nil hspells ?_
  rw [ResultsFile.json, Value.pretty, String.toList_ofList, List.append_nil, List.nil_append]
  rfl

end PerfGate.Recorded
