import PerfGate.Proofs.Workspace.Paths
import PerfGate.Workspace.Process

/-!
# Files of a process

What a process reads and writes through paths. Its own streams are channels and devices, so that
no file is written to but through its path.
-/

set_option autoImplicit false

namespace PerfGate

def Stream.IsNode (s : Stream) : Prop :=
  ∃ node offset access, s = .node node offset access

structure Process.Settled (p : Process) : Prop where
  tree : p.tree.Proper
  home : p.home < p.tree.nodes.size
  streams : ∀ number stream, p.stream? number = some stream →
    ∃ s, p.streams[stream]? = some s ∧ ¬ s.IsNode

/-- What a process becomes. A text is as it was or one that was `written`. -/
structure Process.Goes (written : Nat → Octets → Prop) (p p' : Process) : Prop where
  settled : p'.Settled
  home : p'.home = p.home
  extended : p.tree.Extends p'.tree
  texts : ∀ node < p.tree.nodes.size, p'.tree.textOf node = p.tree.textOf node ∨
    written node (p'.tree.textOf node)

namespace Process

variable {p p' p'' : Process} {node stream : Nat} {path text : Octets} {t : Tree} {o : Opening}
  {written : Nat → Octets → Prop} {s : Stream}

theorem Settled.goes (hp : p'.Settled) (htree : p'.tree = p.tree) (hhome : p'.home = p.home) :
    p.Goes written p' where
  settled := hp
  home := hhome
  extended := by
    have hproper := hp.tree
    rw [htree] at hproper ⊢
    exact (Tree.grows_self hproper).extended
  texts _ _ := .inl (by rw [htree])

theorem Goes.mono {written' : Nat → Octets → Prop} (h : p.Goes written p')
    (hwritten : ∀ node text, written node text → written' node text) : p.Goes written' p' where
  settled := h.settled
  home := h.home
  extended := h.extended
  texts node hlt := (h.texts node hlt).imp_right (hwritten node _)

theorem Goes.trans (h : p.Goes written p') (h' : p'.Goes written p'') : p.Goes written p'' where
  settled := h'.settled
  home := h'.home.trans h.home
  extended := h.extended.trans h.settled.tree h'.extended
  texts node hlt := by
    rcases h'.texts node (hlt.trans_le h.extended.size) with heq | hwritten
    · rw [heq]
      exact h.texts node hlt
    · exact .inr hwritten

/-! ## Streams -/

theorem Settled.openStream (hp : p.Settled) (s : Stream) : (p.openStream s).2.Settled where
  tree := hp.tree
  home := hp.home
  streams number stream h := by
    obtain ⟨old, hold, hnode⟩ := hp.streams number stream h
    obtain ⟨hlt, -⟩ := Array.getElem?_eq_some_iff.mp hold
    exact ⟨old, (Array.getElem?_push_lt hlt).trans (Array.getElem?_eq_getElem hlt ▸ hold), hnode⟩

theorem Settled.setStream (hp : p.Settled) (h : s.IsNode → ∃ old, p.streams[stream]? = some old ∧
    old.IsNode) : Settled { p with streams := p.streams.setIfInBounds stream s } where
  tree := hp.tree
  home := hp.home
  streams number other hother := by
    obtain ⟨old, hold, hnode⟩ := hp.streams number other hother
    by_cases heq : other = stream
    · subst heq
      have hlt := (Array.getElem?_eq_some_iff.mp hold).1
      refine ⟨s, Array.getElem?_setIfInBounds_self_of_lt hlt, fun hs => ?_⟩
      obtain ⟨old', hold', hnode'⟩ := h hs
      obtain rfl := Option.some.inj (hold.symm.trans hold')
      exact hnode hnode'
    · exact ⟨old, by rw [Array.getElem?_setIfInBounds_ne (Ne.symm heq), hold], hnode⟩

theorem Settled.grown (hp : p.Settled) (h : p.tree.Grows t) : Settled { p with tree := t } where
  tree := h.proper
  home := hp.home.trans_le h.extended.size
  streams := hp.streams

theorem Settled.grown_goes (hp : p.Settled) (h : p.tree.Grows t) :
    p.Goes written { p with tree := t } :=
  ⟨hp.grown h, rfl, h.extended, fun node hlt => .inl (h.texts node hlt)⟩

theorem Settled.setText (hp : p.Settled) (h : (p.tree.entry node).IsFile) :
    Settled { p with tree := p.tree.setText node text } where
  tree := hp.tree.setText h
  home := by
    rw [Tree.size_setText]
    exact hp.home
  streams := hp.streams

/-- Only a stream of a file changes a text. -/
theorem writeStream_goes (hp : p.Settled) (h : p.writeStream stream text = .ok p')
    (hfile : ∀ node offset access, p.streams[stream]? = some (.node node offset access) →
      ¬ (p.tree.entry node).IsFile) : p.Goes written p' := by
  rw [writeStream] at h
  split at h
  · exact nomatch h
  · exact nomatch h
  · obtain rfl := Except.ok.inj h
    exact hp.goes rfl rfl
  · obtain rfl := Except.ok.inj h
    exact (hp.setStream fun ⟨_, _, _, heq⟩ => nomatch heq).goes rfl rfl
  next node offset access hstream =>
    split at h
    · obtain rfl := Except.ok.inj h
      rw [writeNode, Tree.setText_of_not_file (hfile node offset access hstream)]
      exact (hp.setStream fun _ => ⟨_, hstream, node, offset, access, rfl⟩).goes rfl rfl
    · exact nomatch h

theorem readStream_goes {amount : Amount} (hp : p.Settled)
    (h : p.readStream stream amount = .ok (text, p')) : p.Goes written p' := by
  rw [readStream] at h
  split at h
  · exact nomatch h
  · obtain ⟨-, rfl⟩ := Prod.mk.inj (Except.ok.inj h)
    exact hp.goes rfl rfl
  · obtain ⟨-, rfl⟩ := Prod.mk.inj (Except.ok.inj h)
    exact hp.goes rfl rfl
  · obtain ⟨-, rfl⟩ := Prod.mk.inj (Except.ok.inj h)
    exact (hp.setStream fun ⟨_, _, _, heq⟩ => nomatch heq).goes rfl rfl
  next node offset access hstream =>
    split at h
    · exact nomatch h
    split at h
    · exact nomatch h
    · obtain ⟨-, rfl⟩ := Prod.mk.inj (Except.ok.inj h)
      exact (hp.setStream fun _ => ⟨_, hstream, node, offset, access, rfl⟩).goes rfl rfl

/-! ## Opening -/

theorem cleared_of_not_file (h : o.truncates = true → ¬ (p.tree.entry node).IsFile) :
    p.cleared node o = p := by
  rw [cleared]
  split
  next htruncates => rw [Tree.setText_of_not_file (h htruncates)]
  · rfl

theorem openStream_goes (hp : p.Settled) (h : p.openStream s = (stream, p')) :
    p.Goes written p' ∧ p'.streams[stream]? = some s := by
  have hsettled := hp.openStream s
  obtain ⟨rfl, rfl⟩ := Prod.mk.inj h
  exact ⟨hsettled.goes rfl rfl, Array.getElem?_push_size⟩

theorem streams_openStream (p : Process) (s : Stream) :
    (p.openStream s).2.streams[(p.openStream s).1]? = some s :=
  Array.getElem?_push_size

/-- What is opened is a stream for the node, or one that is no file's. -/
theorem openNode_goes (hp : p.Settled) (h : p.openNode node o = .ok (stream, p'))
    (hcleared : o.truncates = true → ¬ (p.tree.entry node).IsFile) : p.Goes written p' ∧
      ∀ other offset access, p'.streams[stream]? = some (.node other offset access) →
        other = node := by
  rw [openNode, cleared_of_not_file hcleared] at h
  split at h
  · exact nomatch h
  next number hentry =>
    split at h
    · exact nomatch h
    next given hgiven =>
      obtain ⟨old, hold, hnode⟩ := hp.streams number given hgiven
      split at h
      next other offset access hstream =>
        rw [hstream] at hold
        exact absurd ⟨other, offset, access, Option.some.inj hold.symm⟩ hnode
      · obtain ⟨rfl, rfl⟩ := Prod.mk.inj (Except.ok.inj h)
        refine ⟨hp.goes rfl rfl, fun other offset access hstream => ?_⟩
        rw [hstream] at hold
        exact absurd ⟨other, offset, access, Option.some.inj hold.symm⟩ hnode
  · obtain ⟨hgoes, hstream⟩ := openStream_goes hp (Except.ok.inj h)
    refine ⟨hgoes, fun other offset access heq => ?_⟩
    rw [hstream] at heq
    exact nomatch Option.some.inj heq
  · obtain ⟨hgoes, hstream⟩ := openStream_goes hp (Except.ok.inj h)
    refine ⟨hgoes, fun other offset access heq => ?_⟩
    rw [hstream] at heq
    exact (Stream.node.inj (Option.some.inj heq)).1.symm

theorem openPath_reading : p.openPath path .reading =
    match p.tree.find p.home path with
    | .error cause => .error cause
    | .ok node => p.openNode node .reading := by
  rw [openPath, reach, if_neg (fun h => nomatch h.1),
    if_neg (show ¬ Opening.reading.makes = true from nofun)]
  cases p.tree.find p.home path with
  | error cause => rfl
  | ok node => rfl

theorem openPath_replacing : p.openPath path .replacing =
    match p.tree.openForWriting p.home path with
    | .error cause => .error cause
    | .ok (tree, node) => openNode { p with tree := tree } node .replacing := by
  rw [openPath, reach, if_neg (fun h => nomatch h.1),
    if_pos (show Opening.replacing.makes = true from rfl)]
  cases p.tree.openForWriting p.home path with
  | error cause => rfl
  | ok opened => rfl

end Process

namespace Doing

open Process

variable {p p' : Process} {node : Nat} {path text : Octets} {t : Tree}
  {written : Nat → Octets → Prop}

/-! ## Reading -/

theorem readPath_goes (hp : p.Settled) : p.Goes written ((readPath path).run p).2 := by
  change p.Goes written (readPath path p).2
  rw [readPath]
  cases hopen : p.openPath path .reading with
  | error cause => exact hp.goes rfl rfl
  | ok opened =>
    obtain ⟨stream, p'⟩ := opened
    dsimp only
    rw [openPath_reading] at hopen
    cases hfind : p.tree.find p.home path with
    | error cause =>
      rw [hfind] at hopen
      exact nomatch hopen
    | ok node =>
      rw [hfind] at hopen
      have hgoes : p.Goes written p' := (openNode_goes hp hopen nofun).1
      cases hread : p'.readStream stream .all with
      | error cause => exact hgoes
      | ok taken => exact hgoes.trans (readStream_goes hgoes.settled hread)

theorem readPath_of_file {executable : Bool} (hfind : p.tree.find p.home path = .ok node)
    (hentry : p.tree.entry node = .file text executable) :
    ((readPath path).run p).1 = .ok text := by
  have hnode : p.openNode node .reading =
      .ok (p.openStream (.node node 0 Opening.reading.access)) := by
    rw [openNode, hentry]
    rfl
  have hopen : p.openPath path .reading =
      .ok (p.openStream (.node node 0 Opening.reading.access)) := by
    rw [openPath_reading, hfind]
    exact hnode
  have hdirectory : p.tree.isDirectory node = false := by
    rw [Tree.isDirectory, hentry]
  have htext : p.tree.textOf node = text := by
    rw [Tree.textOf, hentry]
  change (readPath path p).1 = .ok text
  rw [readPath, hopen]
  dsimp only
  rw [readStream, streams_openStream]
  simp [Process.openStream, Opening.reading, hdirectory, htext, front]

/-! ## Writing -/

theorem writePath_of_file {old : Octets} {executable : Bool}
    (hopen : p.tree.openForWriting p.home path = .ok (t, node))
    (hentry : t.entry node = .file old executable) :
    (writePath path text .replacing).run p =
      (.ok (), { p with
        tree := t.setText node text
        streams := p.streams.push (.node node text.length Opening.replacing.access) }) := by
  have hfile : (t.entry node).IsFile := ⟨old, executable, hentry⟩
  have hopened : p.openPath path .replacing = .ok (Process.openStream
      { p with tree := t.setText node "" } (.node node 0 Opening.replacing.access)) := by
    rw [openPath_replacing, hopen]
    dsimp only
    rw [openNode, hentry]
    rfl
  have hset (a b : Stream) : (p.streams.push a).setIfInBounds p.streams.size b =
      p.streams.push b := by
    rw [Array.setIfInBounds, dif_pos (by simp), Array.set_push]
    simp
  change writePath path text .replacing p = _
  rw [writePath, hopened]
  dsimp only
  rw [writeStream, streams_openStream]
  simp [Process.openStream, writeNode, Tree.textOf_setText hfile, Tree.setText_setText,
    Opening.replacing, hset]

theorem writePath_eq_error {cause : FileFault}
    (h : p.tree.openForWriting p.home path = .error cause) :
    (writePath path text .replacing).run p = (.error cause, p) := by
  change writePath path text .replacing p = _
  rw [writePath, openPath_replacing, h]

section
variable (hp : p.Settled) (hopen : p.tree.openForWriting p.home path = .ok (t, node))
include hp hopen

theorem opened_goes : p.Goes written { p with tree := t } :=
  hp.grown_goes (Tree.openForWriting_grows hp.tree hp.home hopen).1

theorem find_of_opened (h : node < p.tree.nodes.size) : p.tree.find p.home path = .ok node := by
  obtain ⟨-, hfind, rfl | ⟨-, hle⟩⟩ := Tree.openForWriting_grows hp.tree hp.home hopen
  · exact hfind
  · exact absurd h hle.not_gt

theorem setText_goes (hfile : (t.entry node).IsFile) (text : Octets) :
    p.Goes (fun node new => new = text ∧ p.tree.find p.home path = .ok node)
      { p with tree := t.setText node text } := by
  have hopened : p.Goes (fun _ _ => False) { p with tree := t } := opened_goes hp hopen
  refine ⟨hopened.settled.setText hfile, rfl, hopened.extended.trans hopened.settled.tree
    (Tree.extends_setText hfile), fun other hlt => ?_⟩
  dsimp only
  by_cases heq : other = node
  · subst heq
    rw [Tree.textOf_setText hfile]
    exact .inr ⟨rfl, find_of_opened hp hopen hlt⟩
  · rw [Tree.textOf_setText_ne heq]
    exact .inl ((hopened.texts other hlt).resolve_right id)

theorem writePath_goes_of_not_file (hfile : ¬ (t.entry node).IsFile) :
    p.Goes written ((writePath path text .replacing).run p).2 := by
  have hlt : node < t.nodes.size := by
    obtain ⟨hgrows, hfind, -⟩ := Tree.openForWriting_grows hp.tree hp.home hopen
    exact Tree.find_lt hgrows.proper (hp.home.trans_le hgrows.extended.size) hfind
  have hgrown : p.Goes written { p with tree := t } := opened_goes hp hopen
  change p.Goes _ (writePath path text .replacing p).2
  rw [writePath, openPath_replacing, hopen]
  dsimp only
  cases hnode : openNode { p with tree := t } node .replacing with
  | error cause => exact hp.goes rfl rfl
  | ok opened =>
    obtain ⟨stream, p'⟩ := opened
    obtain ⟨hgoes, hstream⟩ := openNode_goes hgrown.settled hnode fun _ => hfile
    dsimp only
    cases hwrite : p'.writeStream stream text with
    | error cause => exact hgrown.trans hgoes
    | ok p'' =>
      refine (hgrown.trans hgoes).trans (writeStream_goes hgoes.settled hwrite ?_)
      intro other offset access heq
      rw [hstream other offset access heq, hgoes.extended.isFile_iff hlt]
      exact hfile

end

theorem writePath_goes (hp : p.Settled) (path text : Octets) :
    p.Goes (fun node new => new = text ∧ p.tree.find p.home path = .ok node)
      ((writePath path text .replacing).run p).2 := by
  cases hopen : p.tree.openForWriting p.home path with
  | error cause =>
    rw [writePath_eq_error hopen]
    exact hp.goes rfl rfl
  | ok opened =>
    obtain ⟨t, node⟩ := opened
    by_cases hfile : (t.entry node).IsFile
    · have hgoes := setText_goes hp hopen hfile text
      obtain ⟨old, executable, hentry⟩ := hfile
      rw [writePath_of_file hopen hentry]
      exact hgoes.trans ((hgoes.settled.openStream _).goes rfl rfl)
    · exact writePath_goes_of_not_file hp hopen hfile

theorem writePath_holds (hp : p.Settled)
    (hopen : p.tree.openForWriting p.home path = .ok (t, node)) (hfile : (t.entry node).IsFile)
    (text : Octets) : ∃ p', (writePath path text .replacing).run p = (.ok (), p') ∧ p'.Settled ∧
      p'.tree.find p'.home path = .ok node ∧
      ∃ executable, p'.tree.entry node = .file text executable := by
  obtain ⟨hgrows, hfind, -⟩ := Tree.openForWriting_grows hp.tree hp.home hopen
  have hgoes := writePath_goes hp path text
  have hentry := Tree.entry_setText hfile text
  obtain ⟨old, before, hold⟩ := id hfile
  rw [writePath_of_file hopen hold] at hgoes ⊢
  exact ⟨_, rfl, hgoes.settled, Tree.find_extends (Tree.extends_setText hfile) hgrows.proper
    (hp.home.trans_le hgrows.extended.size) hfind, hentry⟩

theorem change_goes (hp : p.Settled) {f : Tree → Nat → Except FileFault Tree}
    (hf : ∀ t, f p.tree p.home = .ok t → p.tree.Grows t) :
    p.Goes written ((change f).run p).2 := by
  have hchange : ((change f).run p).2 = (change f p).2 := rfl
  rw [hchange, change]
  cases hmade : f p.tree p.home with
  | error cause => exact hp.goes rfl rfl
  | ok t => exact hp.grown_goes (hf t hmade)

/-! ## Telling -/

theorem say_goes (hp : p.Settled) : p.Goes written ((say text).run p).2 := by
  have hsay : ((say text).run p).2 = (write 1 text p).2 := rfl
  rw [hsay, write, Process.write]
  cases hnumber : p.stream? 1 with
  | none => exact hp.goes rfl rfl
  | some stream =>
    dsimp only
    by_cases hempty : text.isEmpty = true
    · rw [if_pos hempty]
      exact hp.goes rfl rfl
    rw [if_neg hempty]
    cases hwrite : p.writeStream stream text with
    | error cause => exact hp.goes rfl rfl
    | ok p' =>
      obtain ⟨s, hstream, hnode⟩ := hp.streams 1 stream hnumber
      refine writeStream_goes hp hwrite fun node offset access heq => ?_
      exact absurd ⟨node, offset, access, Option.some.inj (hstream.symm.trans heq)⟩ hnode

end Doing

end PerfGate
