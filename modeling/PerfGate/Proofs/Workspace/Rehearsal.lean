import PerfGate.Proofs.Commands.Reporting
import PerfGate.Proofs.Workspace.Files
import PerfGate.Proofs.Workspace.Octets
import PerfGate.Workspace.Basic

/-!
# Rehearsed commands

A command that starts no program keeps the files of the workspace it is rehearsed in: what can be
read in the end was there at the start or is a text that the command has written.
-/

set_option autoImplicit false

namespace PerfGate.Workspace

open Dialogue Process

variable {w w' : Workspace} {path text : String} {α : Type}

def Settled (w : Workspace) : Prop := w.process.Settled

def find (w : Workspace) (path : String) : Except FileFault Nat :=
  w.process.tree.find w.process.home (Octets.encode path)

/-- The path leads to a file of this text. -/
def Holds (w : Workspace) (path text : String) : Prop :=
  ∃ node executable, w.find path = .ok node ∧
    w.process.tree.entry node = .file (Octets.encode text) executable

/-! ## Answers -/

theorem doing_eq (w : Workspace) (d : Doing α) :
    w.doing d = ((d.run w.process).1, { w with process := (d.run w.process).2 }) := rfl

theorem Holds.read (h : w.Holds path text) : (w.read path).1 = .ok text := by
  obtain ⟨node, executable, hfind, hentry⟩ := h
  have hread := Doing.readPath_of_file hfind hentry
  rw [Workspace.read, doing_eq, hread]
  dsimp only
  rw [(Octets.decode_encode text).1]

theorem process_read (w : Workspace) (path : String) :
    (w.read path).2.process = ((Doing.readPath (Octets.encode path)).run w.process).2 := by
  rw [read, doing_eq]
  cases ((Doing.readPath (Octets.encode path)).run w.process).1 with
  | error cause => rfl
  | ok text =>
    dsimp only
    split <;> rfl

def StartsNothing : Request → Prop
  | .execute _ _ => False
  | _ => True

def writtenBy (r : Request) (text : Octets) : Prop :=
  ∃ path new, r = .write path new ∧ text = Octets.encode new

theorem answer_goes (hw : w.Settled) (r : Request) (h : StartsNothing r) :
    w.process.Goes (fun _ => writtenBy r) (machine.answer r w).2.process := by
  have hw : w.process.Settled := hw
  have hanswer : machine.answer r w = answer r w := rfl
  rw [hanswer]
  cases r with
  | read path =>
    rw [answer, process_read]
    exact Doing.readPath_goes hw
  | present path => exact hw.goes rfl rfl
  | makeDirectory path =>
    rw [answer, makeDirectory, doing_eq]
    exact Doing.change_goes hw fun _ => Tree.makeDirectory_grows hw.tree hw.home
  | write path text =>
    rw [answer, write, doing_eq]
    exact (Doing.writePath_goes hw _ _).mono fun _ _ h => ⟨path, text, rfl, h.1⟩
  | execute program arguments => exact h.elim
  | now => exact hw.goes rfl rfl
  | word =>
    have hdraw : w.draw.2.process = w.process := by
      rw [draw]
      split <;> rfl
    rw [answer, hdraw]
    exact hw.goes rfl rfl
  | say notice =>
    rw [answer, say, doing_eq]
    exact Doing.say_goes hw

theorem run_goes {d : Dialogue α} {Q : α → Prop} (h : d.Ensures StartsNothing Q)
    (hw : w.Settled) : w.process.Goes (fun _ text => ∃ r ∈ d.requests machine w, writtenBy r text)
      (d.run machine w).2.process := by
  induction d generalizing w with
  | done a => exact Settled.goes hw rfl rfl
  | ask r next ih =>
    have hfirst := answer_goes hw r h.1
    have hrest := ih (machine.answer r w).1 (h.2 _) hfirst.settled
    rw [Dialogue.run, Dialogue.requests]
    refine (hfirst.mono fun _ text hwritten => ?_).trans (hrest.mono fun _ text hwritten => ?_)
    · exact ⟨r, List.mem_cons_self, hwritten⟩
    · obtain ⟨other, hother, hwritten⟩ := hwritten
      exact ⟨other, List.mem_cons_of_mem _ hother, hwritten⟩

/-! ## Runs -/

/-- A file is found where it was, with the text it had or with one that has been written. -/
theorem run_holds {d : Dialogue α} {Q : α → Prop} (h : d.Ensures StartsNothing Q)
    (hw : w.Settled) (hholds : w.Holds path text) : ∃ text', (d.run machine w).2.Holds path text' ∧
      (text' = text ∨ ∃ other, Request.write other text' ∈ d.requests machine w) := by
  have hgoes := run_goes h hw
  obtain ⟨node, executable, hfind, hentry⟩ := hholds
  have hfile : (w.process.tree.entry node).IsFile := ⟨_, _, hentry⟩
  have hlt := Tree.lt_size_of_file hfile
  have hfind' : (d.run machine w).2.find path = .ok node := by
    rw [find, hgoes.home]
    exact Tree.find_extends hgoes.extended hw.tree hw.home hfind
  obtain ⟨new, executable', hentry'⟩ := (hgoes.extended.isFile_iff hlt).mpr hfile
  have hnew : (d.run machine w).2.process.tree.textOf node = new := by
    rw [Tree.textOf, hentry']
  have hold : w.process.tree.textOf node = Octets.encode text := by
    rw [Tree.textOf, hentry]
  have htexts := hgoes.texts node hlt
  rw [hnew, hold] at htexts
  rcases htexts with rfl | ⟨r, hr, other, text', rfl, rfl⟩
  · exact ⟨text, ⟨node, executable', hfind', hentry'⟩, .inl rfl⟩
  · exact ⟨text', ⟨node, executable', hfind', hentry'⟩, .inr ⟨other, hr⟩⟩

/-! ## Written texts -/

/-- The path leads to a file, or to a name that a file can be given. -/
def Writable (w : Workspace) (path : String) : Prop :=
  ∃ directory name,
    w.process.tree.locate w.process.home (Octets.encode path) = .ok (.name directory name false) ∧
      ∀ node, w.process.tree.child? directory name = some node →
        (w.process.tree.entry node).IsFile

theorem Writable.openForWriting (hw : w.Settled) (h : w.Writable path) : ∃ t node,
    w.process.tree.openForWriting w.process.home (Octets.encode path) = .ok (t, node) ∧
      (t.entry node).IsFile := by
  obtain ⟨directory, name, hlocate, hfile⟩ := h
  cases hchild : w.process.tree.child? directory name with
  | some node =>
    obtain ⟨old, executable, hentry⟩ := hfile node hchild
    have hdirectory : ¬ w.process.tree.isDirectory node = true := by
      rw [Tree.isDirectory, hentry]
      exact Bool.false_ne_true
    exact ⟨_, _, (Tree.openForWriting_of_some hlocate hchild).trans (if_neg hdirectory),
      old, executable, hentry⟩
  | none =>
    obtain ⟨hlt, -⟩ := Tree.locateBy_within hw.tree hw.home hlocate
    exact ⟨_, _, Tree.openForWriting_of_none hlocate hchild, "", false,
      (Tree.adds_add hlt name _).made⟩

theorem write_holds (hw : w.Settled) (h : w.Writable path) (text : String) :
    ∃ w', w.write path text = (.ok (), w') ∧ w'.Settled ∧ w'.Holds path text := by
  obtain ⟨t, node, hopen, hfile⟩ := h.openForWriting hw
  obtain ⟨p', hrun, hsettled, hfind, executable, hentry⟩ :=
    Doing.writePath_holds hw hopen hfile (Octets.encode text)
  refine ⟨{ w with process := p' }, ?_, hsettled, node, executable, hfind, hentry⟩
  rw [write, doing_eq, hrun]

theorem holds_of_write (hw : w.Settled) (h : w.write path text = (.ok (), w'))
    (hfile : ∀ node, w'.find path = .ok node → (w'.process.tree.entry node).IsFile) :
    w'.Settled ∧ w'.Holds path text := by
  have hgoes := answer_goes hw (.write path text) trivial
  have hwrite : machine.answer (.write path text) w = w.write path text := rfl
  rw [hwrite, h] at hgoes
  refine ⟨hgoes.settled, ?_⟩
  rw [write, doing_eq] at h
  cases hopen : w.process.tree.openForWriting w.process.home (Octets.encode path) with
  | error cause =>
    rw [Doing.writePath_eq_error hopen] at h
    exact nomatch h
  | ok opened =>
    obtain ⟨t, node⟩ := opened
    by_cases hmade : (t.entry node).IsFile
    · obtain ⟨p', hrun, -, hfind, executable, hentry⟩ :=
        Doing.writePath_holds hw hopen hmade (Octets.encode text)
      rw [hrun] at h
      obtain ⟨-, rfl⟩ := Prod.mk.inj h
      exact ⟨node, executable, hfind, hentry⟩
    · -- Then the path has led to something else before, and it does so still.
      obtain ⟨-, hfind, rfl | ⟨hentry, -⟩⟩ := Tree.openForWriting_grows hw.tree hw.home hopen
      · have hfind' : w'.find path = .ok node := by
          rw [find, hgoes.home]
          exact Tree.find_extends hgoes.extended hw.tree hw.home hfind
        exact absurd ((hgoes.extended.isFile_iff (Tree.find_lt hw.tree hw.home hfind)).mp
          (hfile node hfind')) hmade
      · exact absurd ⟨_, _, hentry⟩ hmade

/-! ## Saved documents -/

theorem load_starts {β : Type} (path : String) (decode : String → Except Json.Fault β) :
    Obeys StartsNothing (fun _ => True) (Document.load path decode) :=
  ⟨trivial, fun _ _ _ => trivial⟩

theorem makeDirectory_starts (path : String) :
    Obeys StartsNothing (fun _ => True) (Document.makeDirectory path) :=
  ⟨trivial, fun _ _ _ => trivial⟩

theorem write_starts (path text : String) :
    Obeys StartsNothing (fun _ => True) (Document.write path text) :=
  ⟨trivial, fun _ _ _ => trivial⟩

theorem save_starts (path text : String) :
    Obeys StartsNothing (fun _ => True) (Document.save path text) := by
  rw [Saving.save_eq]
  cases Saving.directory? path with
  | none => exact write_starts path text
  | some directory => exact (makeDirectory_starts directory).bind fun _ _ => write_starts path text

theorem settled_save {asked : List Request} (hw : w.Settled)
    (h : Takes machine (Document.save path text) w (.ok ()) asked w') :
    ∃ between last, between.Settled ∧
      Takes machine (Document.write path text) between (.ok ()) last w' := by
  rw [Saving.save_eq] at h
  cases hdirectory : Saving.directory? path with
  | none =>
    rw [hdirectory] at h
    exact ⟨w, asked, hw, h⟩
  | some directory =>
    rw [hdirectory] at h
    obtain ⟨made, first, last, between, hmake, hwrite, -⟩ := h.parts
    have hgoes := run_goes (makeDirectory_starts directory) hw
    rw [hmake.run] at hgoes
    exact ⟨between, last, hgoes.settled, hwrite⟩

/-- What has been saved in a file is what is loaded from it. -/
theorem saved_loads {β : Type} {asked : List Request} (hw : w.Settled)
    (h : Takes machine (Document.save path text) w (.ok ()) asked w')
    (hfile : ∀ node, w'.find path = .ok node → (w'.process.tree.entry node).IsFile)
    (decode : String → Except Json.Fault β) :
    w'.Settled ∧ Takes machine (Document.load path decode) w'
      (Document.decoded path decode (.ok text)) [.read path] (w'.read path).2 := by
  obtain ⟨between, last, hbetween, hwrite⟩ := settled_save hw h
  have hwritten : between.write path text = (.ok (), w') := by
    cases hresult : between.write path text with
    | mk result next =>
      have hanswer : machine.answer (.write path text) between = (result, next) := hresult
      have htakes := Finishing.write_takes (congrArg Prod.fst hanswer)
      obtain ⟨hnamed, -, rfl⟩ := htakes.unique hwrite
      rw [hanswer]
      cases result with
      | error cause => exact nomatch hnamed
      | ok made => rfl
  obtain ⟨hsettled, hholds⟩ := holds_of_write hbetween hwritten hfile
  have hload := Saving.load_takes machine path decode w'
  have hcontent : Saving.contentOf machine path w' = .ok text := hholds.read
  rw [hcontent] at hload
  exact ⟨hsettled, hload⟩

/-! ## Workspaces of files -/

theorem foldl_plantEntry {α : Type} {t : Tree} (hp : t.Proper) (names : α → List Octets)
    (entries : α → Entry) (hentries : ∀ a parent below, entries a ≠ .directory parent below)
    (xs : List α) :
    t.Plants (xs.foldl (fun t a => t.plantEntry Tree.root (names a) (entries a)) t) :=
  Tree.foldl_plants hp (fun _ a h => Tree.plantEntry_plants h.proper h.proper.root (names a)
    fun parent below heq => absurd heq (hentries a parent below)) xs

theorem systemTree_plants : Tree.bare.Plants systemTree := by
  have hdirectories : Tree.bare.Plants (systemDirectories.foldl
      (fun t path => (t.plantDirectory Tree.root (Tree.segments path)).1) Tree.bare) :=
    Tree.foldl_plants Tree.bare_proper
      (fun t path h => (Tree.plantDirectory_plants h.proper h.proper.root _).1) _
  have hlinks := hdirectories.trans (Tree.foldl_plants
    (f := fun t (link : Octets × Octets) => (t.add Tree.root link.1 (.link link.2)).1)
    hdirectories.proper (fun t link h => h.proper.plants_add h.proper.root link.1
      fun _ _ heq => nomatch heq) systemLinks)
  have hdevices := hlinks.trans (foldl_plantEntry hlinks.proper
    (fun d : Octets × Device => ["dev", d.1]) (fun d => .device d.2) nofun devices)
  have hstreams := hdevices.trans (foldl_plantEntry hdevices.proper
    (fun n : Nat => ["dev", "fd", toString n]) (fun n => .device (.descriptor n)) nofun
    streamNumbers)
  exact hstreams.trans (foldl_plantEntry hstreams.proper
    (fun p : String × (Launcher → Program) => ["usr", "bin", p.1]) (fun p => .program p.1) nofun
    Utility.provided)

theorem streams_settled {p : Process} (htree : p.tree.Proper) (hhome : p.home < p.tree.nodes.size)
    (hstreams : p.streams = streams) (hdescriptors : p.descriptors = [(0, 0), (1, 1), (2, 2)]) :
    p.Settled := by
  refine ⟨htree, hhome, fun number stream h => ?_⟩
  have hstream : stream ∈ [0, 1, 2] := by
    rw [stream?, hdescriptors] at h
    obtain ⟨before, after, hsplit, -⟩ := List.lookup_eq_some_iff.mp h
    have hmem : (number, stream) ∈ [(0, 0), (1, 1), (2, 2)] := by
      rw [hsplit]
      simp
    simp at hmem ⊢
    omega
  rw [hstreams]
  simp only [List.mem_cons, List.not_mem_nil, or_false] at hstream
  rcases hstream with rfl | rfl | rfl <;> exact ⟨_, rfl, fun ⟨_, _, _, heq⟩ => nomatch heq⟩

theorem ofFiles_settled (files : List (String × String)) : (ofFiles files).Settled := by
  obtain ⟨hroot, hhome⟩ := Tree.plantDirectory_plants systemTree_plants.proper
    systemTree_plants.proper.root ["work"]
  rw [ofFiles]
  generalize systemTree.plantDirectory Tree.root ["work"] = planted at *
  obtain ⟨t, home⟩ := planted
  have hfiles := Tree.foldl_plants (f := fun t (file : String × String) =>
    t.plant home (Octets.encode file.1) (Octets.encode file.2)) hroot.proper
    (fun t' a h => Tree.plant_plants h.proper (hhome.trans_le h.size) _ _) files
  exact streams_settled hfiles.proper (hhome.trans_le hfiles.size) rfl rfl

/-! ## Rehearsed reports -/

theorem within_starts {β : Type} {task : Job β} (h : Obeys StartsNothing (fun _ => True) task)
    (context : Fault → Failure) :
    Obeys StartsNothing (fun _ => True) (Job.within context task) :=
  Ensures.bind h fun result _ => by
    cases result <;> exact fun _ _ => trivial

theorem say_starts {ε : Type} (notice : Notice) :
    Obeys (ε := ε) StartsNothing (fun _ => True) (ExceptT.lift (PerfGate.say notice)) :=
  obeys_lift (ensures_request trivial)

section

-- A goal of this form is not to be run while it is proved.
attribute [local irreducible] Obeys

theorem publish_starts (s : ReportSettings) (results : List ResultRow)
    (comparisons : List ComparisonRow) :
    Obeys StartsNothing (fun _ => True) (s.publish results comparisons) := by
  rw [Reporting.publish_eq]
  refine (say_starts _).bind fun _ _ => ?_
  refine (obeys_lift (ensures_request trivial)).bind fun generated (_ : True) => ?_
  refine (obeys_of_except fun _ _ => trivial).bind fun text (_ : True) => ?_
  refine (save_starts (Reporting.reportPath s generated) text).bind fun _ _ => ?_
  exact (say_starts _).bind fun _ _ => (say_starts _).bind fun _ _ => Obeys.pure trivial

theorem report_starts (s : ReportSettings) : Obeys StartsNothing (fun _ => True) s.execute := by
  rw [Reporting.execute_eq]
  refine (within_starts (load_starts _ _) .results).bind fun results _ => ?_
  split
  · exact obeys_of_except nofun
  refine Obeys.bind (Q := fun _ => True) ?_ fun comparisons _ =>
    within_starts (publish_starts s results comparisons) .fault
  rw [ReportSettings.loadComparisons]
  split
  · exact within_starts (load_starts _ _) .comparisons
  · exact Obeys.pure trivial

end

/-- A report keeps the files it is given. -/
theorem report_keeps (s : ReportSettings) (files : List (String × String))
    (hholds : (ofFiles files).Holds path text) : ∃ text',
    (s.execute.run.run machine (ofFiles files)).2.Holds path text' ∧ (text' = text ∨
      ∃ other, Request.write other text' ∈ s.execute.run.requests machine (ofFiles files)) :=
  run_holds (report_starts s) (ofFiles_settled files) hholds

end PerfGate.Workspace
