import SpendabilityPir.Foundation.BlockTree
import SpendabilityPir.Foundation.Transition
import SpendabilityPir.Shared.ChainTracker

/-!
# The fork the tracker reports

Fed with blocks of a hash-linked tree, the window of the tracker is a path of the tree
that ends at the block pushed last.  The fork is searched by hash and the window cut by
height; on a path the two agree, so a reorganization goes back to the parent of the
pushed block, or below the whole window when the parent is not in it.
-/

namespace SpendabilityPir
namespace Shared

open Foundation

abbrev TrackedBlock := LinkedBlock (ByteVec 32)

def trackedEntry (b : TrackedBlock) : Nat × ByteVec 32 := (b.height, b.hash)

namespace ChainTracker

def pushLinked (tracker : ChainTracker) (b : TrackedBlock) : ChainTracker × ChainAction :=
  tracker.pushBlock b.height b.hash b.prevHash

/-- The tracker is created empty or at a block of the tree. -/
inductive StartsIn (T : BlockTree (ByteVec 32)) (maxDepth : Nat) : ChainTracker -> Prop
  where
  | new : StartsIn T maxDepth (new maxDepth)
  | withTip {tip : TrackedBlock} :
      tip ∈ T.blocks -> StartsIn T maxDepth (withTip tip.height tip.hash maxDepth)

def PushStep (T : BlockTree (ByteVec 32)) (tracker : ChainTracker) (b : TrackedBlock)
    (tracker' : ChainTracker) : Prop :=
  b ∈ T.blocks ∧ tracker' = (tracker.pushLinked b).1

/-- The window is a path of the tree, no longer than its depth. -/
structure WindowPath (T : BlockTree (ByteVec 32)) (maxDepth : Nat) (tracker : ChainTracker) :
    Prop where
  path : exists path, T.IsPath path ∧ tracker.chain = path.map trackedEntry
  bounded : tracker.chain.length ≤ maxDepth
  depth : tracker.maxDepth = maxDepth

variable {T : BlockTree (ByteVec 32)} {maxDepth : Nat} {tracker : ChainTracker}

theorem pushBlock_of_empty (hempty : tracker.chain = []) (height : Nat)
    (hash prevHash : ByteVec 32) :
    tracker.pushBlock height hash prevHash =
      ({ tracker with chain := [(height, hash)] }, .extend) := by
  rw [pushBlock, tip, hempty]
  rfl

/-!
## The fork search
-/

theorem findForkPoint_of_mem {path : List TrackedBlock} (hpath : T.IsPath path)
    (hchain : tracker.chain = path.map trackedEntry) {p : TrackedBlock} (hp : p ∈ path) :
    tracker.findForkPoint p.hash = p.height := by
  have hentry : trackedEntry p ∈ tracker.chain := by
    rw [hchain]
    exact List.mem_map_of_mem hp
  rw [findForkPoint]
  cases hfound : tracker.chain.reverse.find? (fun e => decide (e.2 = p.hash)) with
  | none =>
      have hnot := List.find?_eq_none.mp hfound _ (List.mem_reverse.mpr hentry)
      exact absurd (decide_eq_true rfl) hnot
  | some e =>
      have hmem := List.mem_reverse.mp (List.mem_of_find?_eq_some hfound)
      have hdecided := List.find?_some hfound
      have hhash : e.2 = p.hash := of_decide_eq_true hdecided
      rw [hchain] at hmem
      rcases List.mem_map.mp hmem with ⟨q, hq, heq⟩
      rw [← heq] at hhash ⊢
      have hsame : q = p := T.unique q p (hpath.inTree q hq) (hpath.inTree p hp) hhash
      rw [hsame]
      rfl

theorem findForkPoint_of_forall_ne {targetHash : ByteVec 32}
    (habsent : forall e, e ∈ tracker.chain -> e.2 ≠ targetHash) {oldest : Nat × ByteVec 32}
    (holdest : tracker.chain.head? = some oldest) :
    tracker.findForkPoint targetHash = oldest.1 - 1 := by
  have hnone : tracker.chain.reverse.find? (fun e => decide (e.2 = targetHash)) = none := by
    apply List.find?_eq_none.mpr
    intro e he
    simpa using habsent e (List.mem_reverse.mp he)
  rw [findForkPoint, hnone, holdest]

/-- On a path, cutting the window from the end keeps the entries up to the height. -/
theorem chain_truncateTo {path : List TrackedBlock} (hpath : T.IsPath path)
    (hchain : tracker.chain = path.map trackedEntry) (forkHeight : Nat) :
    (tracker.truncateTo forkHeight).chain =
      tracker.chain.filter (fun e => decide (e.1 ≤ forkHeight)) := by
  apply rdropWhile_gt_eq_filter_le
  rw [hchain]
  exact List.pairwise_map.mpr hpath.growing

theorem filter_entries (path : List TrackedBlock) (bound : Nat) :
    (path.map trackedEntry).filter (fun e => decide (e.1 ≤ bound)) =
      (path.filter (fun b => decide (b.height ≤ bound))).map trackedEntry :=
  List.filter_map

theorem eq_of_trackedEntry {a b : TrackedBlock} (ha : a ∈ T.blocks) (hb : b ∈ T.blocks)
    (h : trackedEntry a = trackedEntry b) : a = b :=
  T.unique a b ha hb (congrArg Prod.snd h)

theorem mem_of_trackedEntry_mem {path : List TrackedBlock} (hpath : T.IsPath path)
    {b : TrackedBlock} (hb : b ∈ T.blocks) (h : trackedEntry b ∈ path.map trackedEntry) :
    b ∈ path := by
  rcases List.mem_map.mp h with ⟨q, hq, hentry⟩
  rw [← eq_of_trackedEntry (hpath.inTree q hq) hb hentry]
  exact hq

theorem head_le_height {path : List TrackedBlock} (hpath : T.IsPath path)
    {oldest : Nat × ByteVec 32} (holdest : (path.map trackedEntry).head? = some oldest)
    {q : TrackedBlock} (hq : q ∈ path) : oldest.1 ≤ q.height := by
  have hgrowing := List.pairwise_map (f := trackedEntry)
    (R := fun a b => a.1 < b.1) |>.mpr hpath.growing
  have hentry : trackedEntry q ∈ path.map trackedEntry := List.mem_map_of_mem hq
  rcases List.head?_eq_some_iff.mp holdest with ⟨rest, hrest⟩
  rw [hrest] at hgrowing hentry
  rcases List.mem_cons.mp hentry with heq | htail
  · rw [← heq]
    exact Nat.le_refl _
  · exact Nat.le_of_lt ((List.pairwise_cons.mp hgrowing).left _ htail)

theorem filter_below_head {path : List TrackedBlock} (hpath : T.IsPath path)
    {oldest : Nat × ByteVec 32} (holdest : (path.map trackedEntry).head? = some oldest) :
    (path.map trackedEntry).filter (fun e => decide (e.1 ≤ oldest.1 - 1)) = [] := by
  apply List.filter_eq_nil_iff.mpr
  intro e he
  rcases List.mem_map.mp he with ⟨q, hq, hqe⟩
  have hpositive : 1 ≤ q.height := T.positive q (hpath.inTree q hq)
  have hge : oldest.1 ≤ q.height := head_le_height hpath holdest hq
  rw [← hqe]
  show ¬ decide (q.height ≤ oldest.1 - 1) = true
  rw [decide_eq_true_eq]
  lia

theorem tip_of_path {path : List TrackedBlock}
    (hchain : tracker.chain = path.map trackedEntry) {last : TrackedBlock}
    (hlast : path.getLast? = some last) : tracker.tip = some (trackedEntry last) := by
  rw [tip, hchain, List.getLast?_map, hlast]
  rfl

/-!
## One push
-/

theorem WindowPath.ends (h : WindowPath T maxDepth tracker) (hne : tracker.chain ≠ []) :
    exists front last, T.IsPath (front ++ [last]) ∧
      tracker.chain = (front ++ [last]).map trackedEntry ∧
      tracker.tip = some (trackedEntry last) := by
  rcases h.path with ⟨path, hpath, hchain⟩
  rcases List.eq_nil_or_concat path with hnil | ⟨front, last, hsplit⟩
  · rw [hchain, hnil] at hne
    exact absurd rfl hne
  · rw [List.concat_eq_append] at hsplit
    rw [hsplit] at hpath hchain
    exact ⟨front, last, hpath, hchain, tip_of_path hchain List.getLast?_concat⟩

@[simp] theorem maxDepth_pushLinked (tracker : ChainTracker) (b : TrackedBlock) :
    (tracker.pushLinked b).1.maxDepth = tracker.maxDepth := by
  rw [pushLinked, pushBlock_maxDepth]

theorem chain_push_of_link {tip b : TrackedBlock}
    (htip : tracker.tip = some (trackedEntry tip))
    (hlink : b.prevHash = tip.hash ∧ b.height = tip.height + 1)
    (hlen : tracker.chain.length ≤ tracker.maxDepth) :
    (tracker.pushLinked b).1.chain =
      (tracker.chain ++ [trackedEntry b]).drop
        (tracker.chain.length + 1 - tracker.maxDepth) := by
  rw [pushLinked, pushBlock_of_link htip hlink b.hash, List.length_append,
    List.length_singleton]
  show (if tracker.chain.length + 1 > tracker.maxDepth then
    (tracker.chain ++ [trackedEntry b]).tail else tracker.chain ++ [trackedEntry b]) = _
  split
  · have hone : tracker.chain.length + 1 - tracker.maxDepth = 1 := by lia
    rw [hone, List.drop_one]
  · have hzero : tracker.chain.length + 1 - tracker.maxDepth = 0 := by lia
    rw [hzero, List.drop_zero]

theorem push_child_of_tip (h : WindowPath T maxDepth tracker) (hdepth : 1 ≤ maxDepth)
    {parent b : TrackedBlock} (hparent : T.Parent parent b)
    (htip : tracker.tip = some (trackedEntry parent)) :
    (tracker.pushLinked b).2 = .extend ∧
    (tracker.pushLinked b).1.chain =
      (tracker.chain ++ [trackedEntry b]).drop (tracker.chain.length + 1 - maxDepth) ∧
    WindowPath T maxDepth (tracker.pushLinked b).1 := by
  have hlink : b.prevHash = parent.hash ∧ b.height = parent.height + 1 :=
    ⟨hparent.right.right,
      T.above parent b hparent.left hparent.right.left hparent.right.right⟩
  have hne : tracker.chain ≠ [] := by
    intro hnil
    rw [tip, hnil] at htip
    cases htip
  rcases h.ends hne with ⟨front, last, hpath, hchain, hlast⟩
  have hlen := h.bounded
  have hsnoc : T.IsPath (front ++ [last] ++ [b]) := by
    have hlastIn : last ∈ T.blocks :=
      hpath.inTree last (List.mem_append_right _ (List.mem_singleton_self last))
    have hsame : parent = last := by
      rw [htip] at hlast
      exact eq_of_trackedEntry hparent.left hlastIn (Option.some.inj hlast)
    rw [hsame] at hparent
    exact hpath.snoc hparent
  have hentries : tracker.chain ++ [trackedEntry b] =
      (front ++ [last] ++ [b]).map trackedEntry := by
    rw [hchain, ← List.map_singleton, ← List.map_append]
  have hwindow := chain_push_of_link htip hlink (h.depth.symm ▸ hlen)
  rw [h.depth] at hwindow
  refine ⟨by rw [pushLinked, pushBlock_of_link htip hlink], hwindow, ?_, ?_, ?_⟩
  · refine ⟨(front ++ [last] ++ [b]).drop (tracker.chain.length + 1 - maxDepth), ?_, ?_⟩
    · exact hsnoc.suffix (List.take_append_drop _ _).symm
    · rw [hwindow, hentries, List.map_drop]
  · rw [hwindow, List.length_drop, List.length_append, List.length_singleton]
    lia
  · simp [h.depth]

theorem push_child_of_older (h : WindowPath T maxDepth tracker)
    {parent b : TrackedBlock} (hparent : T.Parent parent b)
    (hmem : trackedEntry parent ∈ tracker.chain)
    (hnotTip : tracker.tip ≠ some (trackedEntry parent)) :
    (tracker.pushLinked b).2 = .reorg parent.height ∧
    (tracker.pushLinked b).1.chain =
      tracker.chain.filter (fun e => decide (e.1 ≤ parent.height)) ++ [trackedEntry b] ∧
    WindowPath T maxDepth (tracker.pushLinked b).1 := by
  rcases h.ends (List.ne_nil_of_mem hmem) with ⟨front, last, hpath, hchain, htip⟩
  have hlastMem : last ∈ front ++ [last] :=
    List.mem_append_right _ (List.mem_singleton_self last)
  have hparentMem : parent ∈ front ++ [last] :=
    mem_of_trackedEntry_mem hpath hparent.left (hchain ▸ hmem)
  have hfork : ¬ (b.prevHash = last.hash ∧ b.height = last.height + 1) := by
    intro hlink
    apply hnotTip
    have hsame : parent = last := T.unique parent last hparent.left
      (hpath.inTree last hlastMem) (hparent.right.right.symm.trans hlink.left)
    rw [htip, hsame]
  have hpoint := findForkPoint_of_mem hpath hchain hparentMem
  have hpush := pushBlock_of_fork htip hfork b.hash
  rw [hparent.right.right, hpoint, ← hparent.right.right] at hpush
  have hwindow : (tracker.pushLinked b).1.chain =
      tracker.chain.filter (fun e => decide (e.1 ≤ parent.height)) ++ [trackedEntry b] := by
    rw [pushLinked, hpush, ← chain_truncateTo hpath hchain]
    rfl
  refine ⟨by rw [pushLinked, hpush], hwindow, ?_, ?_, ?_⟩
  · refine ⟨_, hpath.cut_snoc hparentMem hparent, ?_⟩
    rw [hwindow, hchain, filter_entries, List.map_append]
    rfl
  · -- the tip is above its ancestor, so the cut drops one entry at least
    have hnotLast : parent ≠ last := by
      intro hsame
      apply hnotTip
      rw [htip, hsame]
    have hshorter := hpath.length_cut_lt hparentMem hnotLast
    have hlen := h.bounded
    rw [hchain, List.length_map] at hlen
    rw [hwindow, hchain, filter_entries, List.length_append, List.length_map,
      List.length_singleton]
    lia
  · simp [h.depth]

theorem push_unknown_parent (h : WindowPath T maxDepth tracker) (hdepth : 1 ≤ maxDepth)
    {b : TrackedBlock} (hb : b ∈ T.blocks)
    (habsent : forall parent, T.Parent parent b -> trackedEntry parent ∉ tracker.chain)
    {oldest : Nat × ByteVec 32} (holdest : tracker.chain.head? = some oldest) :
    (tracker.pushLinked b).2 = .reorg (oldest.1 - 1) ∧
    (tracker.pushLinked b).1.chain = [trackedEntry b] ∧
    WindowPath T maxDepth (tracker.pushLinked b).1 := by
  have hne : tracker.chain ≠ [] := by
    intro hnil
    rw [hnil] at holdest
    cases holdest
  rcases h.ends hne with ⟨front, last, hpath, hchain, htip⟩
  have hhash : forall e, e ∈ tracker.chain -> e.2 ≠ b.prevHash := by
    intro e he heq
    rw [hchain] at he
    rcases List.mem_map.mp he with ⟨q, hq, hqe⟩
    rw [← hqe] at heq
    apply habsent q ⟨hpath.inTree q hq, hb, heq.symm⟩
    rw [hchain]
    exact List.mem_map_of_mem hq
  have hfork : ¬ (b.prevHash = last.hash ∧ b.height = last.height + 1) := by
    intro hlink
    apply hhash (trackedEntry last) _ hlink.left.symm
    rw [hchain]
    exact List.mem_map_of_mem (List.mem_append_right _ (List.mem_singleton_self last))
  have hpoint := findForkPoint_of_forall_ne hhash holdest
  have hpush := pushBlock_of_fork htip hfork b.hash
  rw [hpoint] at hpush
  have hnone : tracker.chain.filter (fun e => decide (e.1 ≤ oldest.1 - 1)) = [] := by
    rw [hchain] at holdest ⊢
    exact filter_below_head hpath holdest
  have hwindow : (tracker.pushLinked b).1.chain = [trackedEntry b] := by
    rw [pushLinked, hpush]
    show (tracker.truncateTo (oldest.1 - 1)).chain ++ [trackedEntry b] = _
    rw [chain_truncateTo hpath hchain, hnone]
    rfl
  refine ⟨by rw [pushLinked, hpush], hwindow, ?_, ?_, ?_⟩
  · exact ⟨[b], .singleton hb, hwindow⟩
  · rw [hwindow]
    exact hdepth
  · simp [h.depth]

/-!
## Every run
-/

theorem windowPath_start (hdepth : 1 ≤ maxDepth) (h : StartsIn T maxDepth tracker) :
    WindowPath T maxDepth tracker := by
  cases h with
  | new => exact ⟨⟨[], .nil, rfl⟩, Nat.zero_le _, rfl⟩
  | withTip htip => exact ⟨⟨[_], .singleton htip, rfl⟩, hdepth, rfl⟩

theorem windowPath_push (hdepth : 1 ≤ maxDepth) (h : WindowPath T maxDepth tracker)
    {b : TrackedBlock} (hb : b ∈ T.blocks) :
    WindowPath T maxDepth (tracker.pushLinked b).1 := by
  by_cases hne : tracker.chain = []
  · rw [pushLinked, pushBlock_of_empty hne]
    exact ⟨⟨[b], .singleton hb, rfl⟩, hdepth, h.depth⟩
  · by_cases hknown : exists parent, T.Parent parent b ∧ trackedEntry parent ∈ tracker.chain
    · rcases hknown with ⟨parent, hparent, hmem⟩
      by_cases htip : tracker.tip = some (trackedEntry parent)
      · exact (push_child_of_tip h hdepth hparent htip).right.right
      · exact (push_child_of_older h hparent hmem htip).right.right
    · rcases List.exists_cons_of_ne_nil hne with ⟨oldest, rest, hcons⟩
      have holdest : tracker.chain.head? = some oldest := by
        rw [hcons]
        rfl
      exact (push_unknown_parent h hdepth hb
        (fun parent hparent hmem => hknown ⟨parent, hparent, hmem⟩) holdest).right.right

theorem windowPath_run (hdepth : 1 ≤ maxDepth) {start : ChainTracker}
    (hstart : StartsIn T maxDepth start) {pushed : List TrackedBlock}
    (hrun : Run (PushStep T) start pushed tracker) : WindowPath T maxDepth tracker := by
  apply hrun.invariant _ (windowPath_start hdepth hstart)
  intro s b s' hs hstep
  rw [hstep.right]
  exact windowPath_push hdepth hs hstep.left

/-- A run ends at the block pushed last. -/
theorem tip_of_run (hdepth : 1 ≤ maxDepth) {start : ChainTracker}
    (hstart : StartsIn T maxDepth start) {pushed : List TrackedBlock} {last : TrackedBlock}
    (hrun : Run (PushStep T) start (pushed ++ [last]) tracker) :
    tracker.tip = some (trackedEntry last) := by
  generalize hall : pushed ++ [last] = all at hrun
  cases hrun with
  | nil => exact absurd hall (List.append_ne_nil_of_right_ne_nil _ (List.cons_ne_nil _ _))
  | snoc hfront hstep =>
      have hmid := windowPath_run hdepth hstart hfront
      rcases List.append_inj' hall rfl with ⟨_, hlabel⟩
      cases hlabel
      rw [hstep.right]
      apply pushBlock_tip
      rw [hmid.depth]
      exact hdepth

/-- In every non-empty state a tracker reaches, the window is a path up to the tip, and
a further block is reported by where its parent is. -/
theorem pushBlock_reports_fork (hdepth : 1 ≤ maxDepth) {start : ChainTracker}
    (hstart : StartsIn T maxDepth start) {pushed : List TrackedBlock}
    (hrun : Run (PushStep T) start pushed tracker) (hne : tracker.chain ≠ [])
    {b : TrackedBlock} (hb : b ∈ T.blocks) :
    WindowPath T maxDepth tracker ∧
    (forall front last, pushed = front ++ [last] ->
      tracker.tip = some (trackedEntry last)) ∧
    (forall parent, T.Parent parent b -> tracker.tip = some (trackedEntry parent) ->
      (tracker.pushLinked b).2 = .extend ∧
      (tracker.pushLinked b).1.chain =
        (tracker.chain ++ [trackedEntry b]).drop (tracker.chain.length + 1 - maxDepth)) ∧
    (forall parent, T.Parent parent b -> trackedEntry parent ∈ tracker.chain ->
      tracker.tip ≠ some (trackedEntry parent) ->
      (tracker.pushLinked b).2 = .reorg parent.height ∧
      (tracker.pushLinked b).1.chain =
        tracker.chain.filter (fun e => decide (e.1 ≤ parent.height)) ++ [trackedEntry b]) ∧
    ((forall parent, T.Parent parent b -> trackedEntry parent ∉ tracker.chain) ->
      exists oldest, tracker.chain.head? = some oldest ∧
      (tracker.pushLinked b).2 = .reorg (oldest.1 - 1) ∧
      (tracker.pushLinked b).1.chain = [trackedEntry b]) ∧
    WindowPath T maxDepth (tracker.pushLinked b).1 ∧
    (tracker.pushLinked b).1.tip = some (trackedEntry b) := by
  have hwindow := windowPath_run hdepth hstart hrun
  refine ⟨hwindow, ?_, ?_, ?_, ?_, windowPath_push hdepth hwindow hb, ?_⟩
  · intro front last hpushed
    rw [hpushed] at hrun
    exact tip_of_run hdepth hstart hrun
  · intro parent hparent htip
    rcases push_child_of_tip hwindow hdepth hparent htip with ⟨haction, hchain, _⟩
    exact ⟨haction, hchain⟩
  · intro parent hparent hmem htip
    rcases push_child_of_older hwindow hparent hmem htip with ⟨haction, hchain, _⟩
    exact ⟨haction, hchain⟩
  · intro habsent
    rcases List.exists_cons_of_ne_nil hne with ⟨oldest, rest, hcons⟩
    have holdest : tracker.chain.head? = some oldest := by
      rw [hcons]
      rfl
    rcases push_unknown_parent hwindow hdepth hb habsent holdest with ⟨haction, hchain, _⟩
    exact ⟨oldest, holdest, haction, hchain⟩
  · apply pushBlock_tip
    rw [hwindow.depth]
    exact hdepth

/-!
## A sample tree
-/

def sampleLinked (height : Nat) (hash prevHash : UInt8) : TrackedBlock :=
  { height := height
    hash := toHashArray (List.replicate 32 hash)
    prevHash := toHashArray (List.replicate 32 prevHash) }

def sampleTree : BlockTree (ByteVec 32) where
  blocks := fun b =>
    b = sampleLinked 1 1 0 ∨ b = sampleLinked 2 2 1 ∨ b = sampleLinked 2 3 1
  positive := by
    rintro b (rfl | rfl | rfl) <;> decide
  unique := by
    rintro a b (rfl | rfl | rfl) (rfl | rfl | rfl) hhash <;>
      first
        | rfl
        | exact absurd hhash (by decide)
  above := by
    rintro a b (rfl | rfl | rfl) (rfl | rfl | rfl) hhash <;>
      first
        | rfl
        | exact absurd hhash (by decide)

/-- After the first block and a child, the other child is a fork at the first block. -/
theorem pushBlock_reports_fork_sampleTree :
    let tracker := ((((new 5).pushLinked (sampleLinked 1 1 0)).1).pushLinked
      (sampleLinked 2 2 1)).1
    (tracker.pushLinked (sampleLinked 2 3 1)).2 = .reorg 1 := by
  intro tracker
  have hrun : Run (PushStep sampleTree) (new 5) [sampleLinked 1 1 0, sampleLinked 2 2 1]
      tracker :=
    .snoc (.snoc (.nil _) ⟨.inl rfl, rfl⟩) ⟨.inr (.inl rfl), rfl⟩
  have hreport := pushBlock_reports_fork (by decide) .new hrun (by decide)
    (b := sampleLinked 2 3 1) (.inr (.inr rfl))
  exact (hreport.right.right.right.left (sampleLinked 1 1 0)
    ⟨.inl rfl, .inr (.inr rfl), rfl⟩ (by decide) (by decide)).left

end ChainTracker
end Shared
end SpendabilityPir
