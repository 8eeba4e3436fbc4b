import SpendabilityPir.Shared.Following
import SpendabilityPir.Witness.SurvivingBlocks
import SpendabilityPir.Witness.WitnessServer

/-!
# The tracker and the tree in lockstep

The tracker's window is the end of the tree's block records.  An extending block goes on
the end of both; at a reorganization the tracker drops the back of its window and the
tree rolls back exactly those records, whatever the links of the blocks are.
-/

namespace SpendabilityPir
namespace Witness

open Foundation Shared

def deliver (tree : CommitmentTreeDb) : WitnessChainEvent -> CommitmentTreeDb
  | .newBlock height hash _ commitments _ => tree.appendCommitments height hash commitments
  | .reorg rollbackTo => tree.rollbackTo rollbackTo

theorem applyEvent_eq_deliver {tree tree' : CommitmentTreeDb} {event : WitnessChainEvent}
    (h : applyEvent tree event = .ok tree') : tree' = deliver tree event := by
  cases event with
  | newBlock height hash prevHash commitments priorTreeSize =>
      rcases bind_eq_ok.mp h with ⟨_, _, happend⟩
      exact (Except.ok.inj happend).symm
  | reorg rollbackTo => exact (Except.ok.inj h).symm

/-- The follow task and the tree it feeds. -/
structure Followed where
  task : FollowState
  tree : CommitmentTreeDb

namespace Followed

/-- Push a fetched block to the tracker and deliver what is emitted for it. -/
def followBlock (s : Followed) (block : CompactBlock) : Followed :=
  { task := (s.task.advance block).1
    tree := (followEvents s.task (s.task.advance block).2 block).foldl deliver s.tree }

end Followed

def BlockRecord.entry (record : BlockRecord) : Nat × ByteVec 32 :=
  (record.height, record.hash)

namespace CommitmentTreeDb

def entries (t : CommitmentTreeDb) : List (Nat × ByteVec 32) :=
  t.blocks.map BlockRecord.entry

theorem entries_appendCommitments (t : CommitmentTreeDb) (height : Nat)
    (hash : ByteVec 32) (commitments : List Hash) :
    (t.appendCommitments height hash commitments).entries =
      t.entries ++ [(height, hash)] := by
  rw [entries, blocks_appendCommitments, List.map_append]
  rfl

theorem entries_rollbackTo {t : CommitmentTreeDb} {targetHeight : Nat}
    {kept removed : List (Nat × ByteVec 32)} (hsplit : t.entries = kept ++ removed)
    (hkept : forall e, e ∈ kept -> e.1 ≤ targetHeight)
    (hremoved : forall e, e ∈ removed -> targetHeight < e.1) :
    (t.rollbackTo targetHeight).entries = kept := by
  rcases List.map_eq_append_iff.mp hsplit with
    ⟨keptRecords, removedRecords, hrecords, hkeptMap, hremovedMap⟩
  have hblocks : (t.rollbackTo targetHeight).blocks = keptRecords := by
    apply blocks_rollbackTo hrecords
    · intro record hrecord
      exact hkept record.entry (hkeptMap ▸ List.mem_map_of_mem hrecord)
    · intro record hrecord
      exact hremoved record.entry (hremovedMap ▸ List.mem_map_of_mem hrecord)
  rw [entries, hblocks, hkeptMap]

end CommitmentTreeDb

/-!
## The invariant
-/

/-- The window is a non-empty end of the tree's records, of growing positive heights. -/
structure Lockstep (tracker : ChainTracker) (tree : CommitmentTreeDb) : Prop where
  window : tracker.chain.IsSuffix tree.entries
  nonempty : tracker.chain ≠ []
  growing : tree.entries.Pairwise (fun a b => a.1 < b.1)
  positive : forall e, e ∈ tree.entries -> 1 ≤ e.1
  depth : 1 ≤ tracker.maxDepth

namespace Lockstep

variable {tracker : ChainTracker} {tree : CommitmentTreeDb}

theorem tip_eq (h : Lockstep tracker tree) : tree.entries.getLast? = tracker.tip := by
  rcases h.window with ⟨older, holder⟩
  rw [← holder, List.getLast?_append_of_ne_nil _ h.nonempty]
  rfl

theorem latestHeight_eq (h : Lockstep tracker tree) :
    tree.latestHeight = tracker.tip.map Prod.fst ∧
    tree.latestBlockHash = tracker.tip.map Prod.snd := by
  rw [← h.tip_eq, CommitmentTreeDb.entries, List.getLast?_map, Option.map_map,
    Option.map_map]
  exact ⟨rfl, rfl⟩

theorem findForkPoint_ge (h : Lockstep tracker tree) {older : List (Nat × ByteVec 32)}
    (holder : older ++ tracker.chain = tree.entries) (targetHash : ByteVec 32) :
    forall e, e ∈ older -> e.1 ≤ tracker.findForkPoint targetHash := by
  intro e he
  have hgrowing := h.growing
  rw [← holder] at hgrowing
  have hcross := (List.pairwise_append.mp hgrowing).right.right e he
  rw [ChainTracker.findForkPoint]
  cases hfound : tracker.chain.reverse.find? (fun e => decide (e.2 = targetHash)) with
  | some found =>
      have hmem := List.mem_reverse.mp (List.mem_of_find?_eq_some hfound)
      exact Nat.le_of_lt (hcross found hmem)
  | none =>
      cases hchain : tracker.chain with
      | nil => exact absurd hchain h.nonempty
      | cons first rest =>
          have hlt := hcross first (hchain ▸ List.mem_cons_self)
          exact Nat.le_sub_one_of_lt hlt

theorem reorg (h : Lockstep tracker tree) (targetHash : ByteVec 32) :
    exists older kept dropped,
      tree.entries = older ++ tracker.chain ∧
      tracker.chain = kept ++ dropped ∧
      (tracker.truncateTo (tracker.findForkPoint targetHash)).chain = kept ∧
      (tree.rollbackTo (tracker.findForkPoint targetHash)).entries = older ++ kept := by
  rcases h.window with ⟨older, holder⟩
  generalize hfork : tracker.findForkPoint targetHash = forkHeight
  have hgrowing := h.growing
  rw [← holder] at hgrowing
  have hwindow := (List.pairwise_append.mp hgrowing).right.left
  let kept := tracker.chain.filter (fun e => decide (e.1 ≤ forkHeight))
  let dropped := tracker.chain.filter (fun e => decide (forkHeight < e.1))
  have hsplit : kept ++ dropped = tracker.chain :=
    filter_le_append_filter_gt hwindow forkHeight
  have hkept : forall e, e ∈ kept -> e.1 ≤ forkHeight :=
    fun e he => of_decide_eq_true (List.mem_filter.mp he).right
  have hdropped : forall e, e ∈ dropped -> forkHeight < e.1 :=
    fun e he => of_decide_eq_true (List.mem_filter.mp he).right
  refine ⟨older, kept, dropped, holder.symm, hsplit.symm, ?_, ?_⟩
  · change tracker.chain.rdropWhile _ = kept
    rw [← hsplit]
    apply rdropWhile_append
    · intro e he
      exact decide_eq_false (Nat.not_lt_of_le (hkept e he))
    · intro e he
      exact decide_eq_true (hdropped e he)
  · have hentries : tree.entries = (older ++ kept) ++ dropped := by
      rw [← holder, List.append_assoc, hsplit]
    apply CommitmentTreeDb.entries_rollbackTo hentries _ hdropped
    intro e he
    rcases List.mem_append.mp he with hold | hnew
    · rw [← hfork]
      exact h.findForkPoint_ge holder targetHash e hold
    · exact hkept e hnew

/-- A new block on what is left of the tree's records and of the window. -/
theorem snoc {tracker' : ChainTracker} {tree' : CommitmentTreeDb}
    (h : Lockstep tracker tree) {front : List (Nat × ByteVec 32)}
    {e : Nat × ByteVec 32} (hentries : tree'.entries = front ++ [e])
    (hfront : front.IsPrefix tree.entries) (habove : forall a, a ∈ front -> a.1 < e.1)
    (hpositive : 1 ≤ e.1) (hwindow : tracker'.chain.IsSuffix tree'.entries)
    (hnonempty : tracker'.chain ≠ []) (hdepth : 1 ≤ tracker'.maxDepth) :
    Lockstep tracker' tree' := by
  refine ⟨hwindow, hnonempty, ?_, ?_, hdepth⟩
  · rw [hentries]
    apply List.pairwise_append.mpr
    refine ⟨h.growing.sublist hfront.sublist, List.pairwise_singleton _ _, ?_⟩
    intro a ha b hb
    rw [List.mem_singleton.mp hb]
    exact habove a ha
  · intro a ha
    rw [hentries] at ha
    rcases List.mem_append.mp ha with hold | hnew
    · exact h.positive a (hfront.subset hold)
    · rw [List.mem_singleton.mp hnew]
      exact hpositive

theorem le_tip (h : Lockstep tracker tree) {tip : Nat × ByteVec 32}
    (htip : tracker.tip = some tip) {e : Nat × ByteVec 32} (he : e ∈ tree.entries) :
    e.1 ≤ tip.1 := by
  have hlast := h.tip_eq.trans htip
  rcases List.getLast?_eq_some_iff.mp hlast with ⟨front, hfront⟩
  have hgrowing := h.growing
  rw [hfront] at hgrowing he
  rcases List.mem_append.mp he with hold | hnew
  · exact Nat.le_of_lt ((List.pairwise_append.mp hgrowing).right.right e hold tip
      (List.mem_singleton.mpr rfl))
  · rw [List.mem_singleton.mp hnew]

end Lockstep

/-- The two copies of the chain after a block that forks off: both lose the same
entries of the window. -/
def DropsTogether (s s' : Followed) (rollbackTo : Nat) : Prop :=
  exists older kept dropped e,
    s.tree.entries = older ++ s.task.tracker.chain ∧
    s.task.tracker.chain = kept ++ dropped ∧
    (s.tree.rollbackTo rollbackTo).entries = older ++ kept ∧
    s'.task.tracker.chain = kept ++ [e] ∧
    s'.tree.entries = older ++ kept ++ [e]

theorem entries_followBlock_of_link {s : Followed} {tip : Nat × ByteVec 32}
    (htip : s.task.tracker.tip = some tip) {block : CompactBlock}
    (hlink : toHashArray block.prevHash = tip.2 ∧ block.height.toNat = tip.1 + 1) :
    (s.task.advance block).2 = .extend ∧
    (s.followBlock block).tree.entries =
      s.tree.entries ++ [(block.height.toNat, toHashArray block.hash)] ∧
    (s.followBlock block).task.tracker.chain.IsSuffix
      (s.task.tracker.chain ++ [(block.height.toNat, toHashArray block.hash)]) := by
  have hpush := ChainTracker.pushBlock_of_link htip hlink (toHashArray block.hash)
  have haction : (s.task.advance block).2 = .extend := congrArg Prod.snd hpush
  refine ⟨haction, ?_, ?_⟩
  · rw [Followed.followBlock, haction]
    exact CommitmentTreeDb.entries_appendCommitments _ _ _ _
  · change (s.task.tracker.pushBlock _ _ _).1.chain.IsSuffix _
    rw [hpush]
    dsimp only
    split
    · exact List.tail_suffix _
    · exact List.suffix_rfl

theorem entries_followBlock_of_fork {s : Followed} (h : Lockstep s.task.tracker s.tree)
    {tip : Nat × ByteVec 32} (htip : s.task.tracker.tip = some tip) {block : CompactBlock}
    (hlink : ¬ (toHashArray block.prevHash = tip.2 ∧ block.height.toNat = tip.1 + 1)) :
    exists rollbackTo older kept dropped,
      (s.task.advance block).2 = .reorg rollbackTo ∧
      s.tree.entries = older ++ s.task.tracker.chain ∧
      s.task.tracker.chain = kept ++ dropped ∧
      (s.tree.rollbackTo rollbackTo).entries = older ++ kept ∧
      (s.followBlock block).task.tracker.chain =
        kept ++ [(block.height.toNat, toHashArray block.hash)] ∧
      (s.followBlock block).tree.entries =
        older ++ kept ++ [(block.height.toNat, toHashArray block.hash)] := by
  have hpush := ChainTracker.pushBlock_of_fork htip hlink (toHashArray block.hash)
  have haction : (s.task.advance block).2 =
      .reorg (s.task.tracker.findForkPoint (toHashArray block.prevHash)) :=
    congrArg Prod.snd hpush
  rcases h.reorg (toHashArray block.prevHash) with
    ⟨older, kept, dropped, hentries, hsplit, htruncated, hrolled⟩
  refine ⟨_, older, kept, dropped, haction, hentries, hsplit, hrolled, ?_, ?_⟩
  · change (s.task.tracker.pushBlock _ _ _).1.chain = _
    rw [hpush]
    exact congrArg (· ++ [(block.height.toNat, toHashArray block.hash)]) htruncated
  · rw [Followed.followBlock, haction, ← hrolled]
    exact CommitmentTreeDb.entries_appendCommitments _ _ _ _

theorem lockstep_followBlock {s : Followed} (h : Lockstep s.task.tracker s.tree)
    {tip : Nat × ByteVec 32} (htip : s.task.tracker.tip = some tip)
    {block : CompactBlock} (habove : tip.1 < block.height.toNat) :
    Lockstep (s.followBlock block).task.tracker (s.followBlock block).tree ∧
    (s.followBlock block).task.tracker.tip =
      some (block.height.toNat, toHashArray block.hash) ∧
    forall rollbackTo, (s.task.advance block).2 = .reorg rollbackTo ->
      DropsTogether s (s.followBlock block) rollbackTo := by
  have htipNext : (s.followBlock block).task.tracker.tip =
      some (block.height.toNat, toHashArray block.hash) :=
    FollowState.tip_advance h.depth block
  have hpositive : 1 ≤ block.height.toNat := Nat.lt_of_le_of_lt (Nat.zero_le _) habove
  have hlow : forall a, a ∈ s.tree.entries -> a.1 < block.height.toNat :=
    fun a ha => Nat.lt_of_le_of_lt (h.le_tip htip ha) habove
  have hdepth : 1 ≤ (s.followBlock block).task.tracker.maxDepth := by
    change 1 ≤ (s.task.tracker.pushBlock _ _ _).1.maxDepth
    rw [ChainTracker.pushBlock_maxDepth]
    exact h.depth
  have hnonempty : (s.followBlock block).task.tracker.chain ≠ [] := by
    intro hnil
    rw [ChainTracker.tip, hnil] at htipNext
    cases htipNext
  by_cases hlink : toHashArray block.prevHash = tip.2 ∧ block.height.toNat = tip.1 + 1
  · rcases entries_followBlock_of_link htip hlink with ⟨haction, htree, hchain⟩
    have hwindow : (s.followBlock block).task.tracker.chain.IsSuffix
        (s.followBlock block).tree.entries := by
      rcases h.window with ⟨older, holder⟩
      rw [htree, ← holder, List.append_assoc]
      exact hchain.trans (List.suffix_append older _)
    refine ⟨h.snoc htree List.prefix_rfl hlow hpositive hwindow hnonempty hdepth,
      htipNext, ?_⟩
    intro rollbackTo hreorg
    rw [haction] at hreorg
    cases hreorg
  · rcases entries_followBlock_of_fork h htip hlink with
      ⟨forkHeight, older, kept, dropped, haction, hentries, hsplit, hrolled, hchain, htree⟩
    have hwindow : (s.followBlock block).task.tracker.chain.IsSuffix
        (s.followBlock block).tree.entries := by
      rw [htree, hchain, List.append_assoc]
      exact List.suffix_append older _
    have hfront : (older ++ kept).IsPrefix s.tree.entries := by
      rw [hentries, hsplit, ← List.append_assoc]
      exact List.prefix_append _ dropped
    refine ⟨h.snoc htree hfront (fun a ha => hlow a (hfront.subset ha)) hpositive hwindow
      hnonempty hdepth, htipNext, ?_⟩
    intro rollbackTo hreorg
    rw [haction] at hreorg
    cases hreorg
    exact ⟨older, kept, dropped, _, hentries, hsplit, hrolled, hchain, htree⟩

theorem lockstep_run {s : Followed} (h : Lockstep s.task.tracker s.tree)
    {tip : Nat × ByteVec 32} (htip : s.task.tracker.tip = some tip)
    {blocks : List CompactBlock}
    (hgrowing : blocks.Pairwise (fun a b => a.height.toNat < b.height.toNat))
    (habove : forall block, block ∈ blocks -> tip.1 < block.height.toNat) :
    Lockstep (blocks.foldl Followed.followBlock s).task.tracker
        (blocks.foldl Followed.followBlock s).tree ∧
      exists last, (blocks.foldl Followed.followBlock s).task.tracker.tip = some last ∧
        forall bound, tip.1 < bound ->
          (forall block, block ∈ blocks -> block.height.toNat < bound) -> last.1 < bound := by
  induction blocks using List.reverseRecOn with
  | nil => exact ⟨h, tip, htip, fun _ hbound _ => hbound⟩
  | append_singleton front block ih =>
      rcases List.pairwise_append.mp hgrowing with ⟨hfront, _, hcross⟩
      have hself : block ∈ front ++ [block] :=
        List.mem_append_right _ (List.mem_singleton.mpr rfl)
      rcases ih hfront (fun b hb => habove b (List.mem_append_left _ hb)) with
        ⟨hlock, last, hlast, hlow⟩
      have hblock : last.1 < block.height.toNat :=
        hlow _ (habove block hself)
          (fun b hb => hcross b hb block (List.mem_singleton.mpr rfl))
      rcases lockstep_followBlock hlock hlast hblock with ⟨hnext, htipNext, _⟩
      rw [List.foldl_append]
      exact ⟨hnext, _, htipNext, fun _ _ hbelow => hbelow block hself⟩

theorem lockstep_withTip {tree : CommitmentTreeDb} {height maxDepth : Nat}
    {hash : ByteVec 32} (hheight : tree.latestHeight = some height)
    (hhash : tree.latestBlockHash = some hash)
    (hgrowing : tree.blocks.Pairwise (fun a b => a.height < b.height))
    (hpositive : forall record, record ∈ tree.blocks -> 1 ≤ record.height)
    (hdepth : 1 ≤ maxDepth) : Lockstep (ChainTracker.withTip height hash maxDepth) tree := by
  refine ⟨?_, List.cons_ne_nil _ _, ?_, ?_, hdepth⟩
  · rcases Option.map_eq_some_iff.mp hheight with ⟨record, hrecord, hrecordHeight⟩
    have hrecordHash : record.hash = hash := by
      rw [CommitmentTreeDb.latestBlockHash, hrecord] at hhash
      exact Option.some.inj hhash
    rcases List.getLast?_eq_some_iff.mp hrecord with ⟨front, hfront⟩
    rw [CommitmentTreeDb.entries, hfront, List.map_append, ← hrecordHeight, ← hrecordHash]
    exact List.suffix_append _ _
  · exact List.pairwise_map.mpr hgrowing
  · intro e he
    rcases List.mem_map.mp he with ⟨record, hrecord, heq⟩
    rw [← heq]
    exact hpositive record hrecord

/-- Whatever the links of the fetched blocks, after every one of them the tracker's window
is the end of the tree's records and its tip the tree's newest block; a reorganization
removes from the tree what the tracker dropped and nothing older than the window. -/
theorem tracker_tree_lockstep {tree : CommitmentTreeDb} {task : FollowState}
    {height maxDepth : Nat} {hash : ByteVec 32}
    (hheight : tree.latestHeight = some height)
    (hhash : tree.latestBlockHash = some hash)
    (hgrowing : tree.blocks.Pairwise (fun a b => a.height < b.height))
    (hpositive : forall record, record ∈ tree.blocks -> 1 ≤ record.height)
    (hdepth : 1 ≤ maxDepth) (htask : task.tracker = ChainTracker.withTip height hash maxDepth)
    {front : List CompactBlock} {block : CompactBlock}
    (hblocks : (front ++ [block]).Pairwise (fun a b => a.height.toNat < b.height.toNat))
    (habove : forall b, b ∈ front ++ [block] -> height < b.height.toNat) :
    let s := front.foldl Followed.followBlock { task := task, tree := tree }
    let s' := s.followBlock block
    s'.task.tracker.chain.IsSuffix s'.tree.entries ∧
    s'.tree.latestHeight = s'.task.tracker.tip.map Prod.fst ∧
    s'.tree.latestBlockHash = s'.task.tracker.tip.map Prod.snd ∧
    s'.tree.blocks.Pairwise (fun a b => a.height < b.height) ∧
    forall rollbackTo, (s.task.advance block).2 = .reorg rollbackTo ->
      DropsTogether s s' rollbackTo := by
  intro s s'
  have hstart : Lockstep task.tracker tree := by
    rw [htask]
    exact lockstep_withTip hheight hhash hgrowing hpositive hdepth
  have htip : task.tracker.tip = some (height, hash) := by
    rw [htask]
    rfl
  rcases List.pairwise_append.mp hblocks with ⟨hfront, _, hcross⟩
  have hself : block ∈ front ++ [block] :=
    List.mem_append_right _ (List.mem_singleton.mpr rfl)
  rcases lockstep_run (s := { task := task, tree := tree }) hstart htip hfront
      (fun b hb => habove b (List.mem_append_left _ hb)) with ⟨hbefore, last, hlast, hlow⟩
  have hblock : last.1 < block.height.toNat :=
    hlow _ (habove block hself)
      (fun b hb => hcross b hb block (List.mem_singleton.mpr rfl))
  rcases lockstep_followBlock hbefore hlast hblock with ⟨hlock, _, hreorg⟩
  have hheights := hlock.growing
  rw [CommitmentTreeDb.entries, List.pairwise_map] at hheights
  exact ⟨hlock.window, hlock.latestHeight_eq.left, hlock.latestHeight_eq.right, hheights,
    hreorg⟩

/-- A fork below the tip: the block at height 3 links to block 1. -/
theorem tracker_tree_lockstep_fork :
    let tree := CommitmentTreeDb.new.appendCommitments 1 (toHashArray sampleFirst.hash) []
    let s := [sampleOrphan].foldl Followed.followBlock
      { task := WitnessServer.followStart tree, tree := tree }
    DropsTogether s (s.followBlock (sampleBlock 3 6 2 [] 1)) 1 := by
  intro tree s
  have hpositive : forall record, record ∈ tree.blocks -> 1 ≤ record.height := by decide
  have habove : forall b, b ∈ [sampleOrphan] ++ [sampleBlock 3 6 2 [] 1] ->
      1 < b.height.toNat := by decide
  have hheight : tree.latestHeight = some 1 := rfl
  have hhash : tree.latestBlockHash = some (toHashArray sampleFirst.hash) := rfl
  have htask : (WitnessServer.followStart tree).tracker =
      ChainTracker.withTip 1 (toHashArray sampleFirst.hash) (confirmationDepth * 2) := rfl
  rcases tracker_tree_lockstep hheight hhash (by decide) hpositive (by decide) htask
    (by decide) habove with ⟨_, _, _, _, hreorg⟩
  exact hreorg 1 rfl

end Witness
end SpendabilityPir
