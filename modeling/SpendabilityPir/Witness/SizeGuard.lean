import SpendabilityPir.Witness.ServerRun
import SpendabilityPir.Witness.WitnessFollow

/-!
# The tree-size guard

Before a block is appended the tree's size is compared with what the block before it
reported.  Within a sync and within following that report is handed from block to block;
at a start and where following begins it is replaced by the size of the tree itself.  As
long as the tree has the reported size wherever it is handed over, the guard sees every
tree of a wrong size before the next block.
-/

namespace SpendabilityPir
namespace Witness

open Foundation Shared

/-!
## The newest block of a tree
-/

section Newest

variable (chain : ChainView)

/-- The newest recorded block of a tree; a tree may record none. -/
def NewestBlock (tree : CommitmentTreeDb) : Option CompactBlock -> Prop
  | none => tree.blocks = [] ∧ tree.treeSize < 2 ^ 32
  | some block => block ∈ chain ∧ exists record, tree.blocks.getLast? = some record ∧
      record.height = block.height.toNat ∧ record.hash = toHashArray block.hash

/-- The tree has another size than its newest block reports. -/
structure SizeDiffers (tree : CommitmentTreeDb) (block : CompactBlock) (size : UInt32) :
    Prop where
  newest : NewestBlock chain tree (some block)
  reports : block.orchardTreeSize = some size
  differs : tree.treeSize ≠ size.toNat

/-- The tree has the size its newest block reports, if it records one. -/
def Agrees (tree : CommitmentTreeDb) : Prop :=
  forall block size, ¬ SizeDiffers chain tree block size

/-- What the block after the newest one is checked against: the size that one reports, or
no other size than the tree's. -/
def Expected (size : Nat) : Option CompactBlock -> Option UInt32 -> Prop
  | some block, priorTreeSize => priorTreeSize = block.orchardTreeSize
  | none, priorTreeSize => forall expected, priorTreeSize = some expected ->
      expected.toNat = size

variable {chain}

theorem NewestBlock.unique (hnumbered : Numbered ChainView.heightOf 0 chain)
    {tree : CommitmentTreeDb} {newest newest' : Option CompactBlock}
    (h : NewestBlock chain tree newest) (h' : NewestBlock chain tree newest') :
    newest = newest' := by
  cases newest with
  | none =>
      cases newest' with
      | none => rfl
      | some block =>
          rcases h'.right with ⟨record, hrecord, _⟩
          rw [h.left] at hrecord
          cases hrecord
  | some block =>
      rcases h with ⟨hmem, record, hrecord, hheight, _⟩
      cases newest' with
      | none =>
          rw [h'.left] at hrecord
          cases hrecord
      | some block' =>
          rcases h' with ⟨hmem', record', hrecord', hheight', _⟩
          rw [hrecord] at hrecord'
          cases hrecord'
          exact congrArg some (hnumbered.eq_of_mem hmem hmem' (hheight.symm.trans hheight'))

theorem newestBlock_append {block : CompactBlock} (hblock : block ∈ chain)
    (tree : CommitmentTreeDb) (commitments : List Hash) :
    NewestBlock chain (tree.appendCommitments block.height.toNat (toHashArray block.hash)
      commitments) (some block) := by
  refine ⟨hblock, ?_⟩
  rw [CommitmentTreeDb.blocks_appendCommitments]
  exact ⟨_, List.getLast?_concat, rfl, rfl⟩

theorem NewestBlock.congr {tree tree' : CommitmentTreeDb} {newest : Option CompactBlock}
    (h : NewestBlock chain tree newest) (hblocks : tree'.blocks = tree.blocks)
    (hsize : tree'.treeSize = tree.treeSize) : NewestBlock chain tree' newest := by
  cases newest with
  | none => exact ⟨hblocks.trans h.left, hsize ▸ h.right⟩
  | some block =>
      refine ⟨h.left, ?_⟩
      rw [hblocks]
      exact h.right

/-- The guard refuses a block exactly when the tree has another size than its newest block
reports. -/
theorem appendValidated_cases (hnumbered : Numbered ChainView.heightOf 0 chain)
    {tree : CommitmentTreeDb} {newest : Option CompactBlock} {priorTreeSize : Option UInt32}
    (hnewest : NewestBlock chain tree newest)
    (hexpected : Expected tree.treeSize newest priorTreeSize) (context : String)
    (height : Nat) (hash : ByteVec 32) (commitments : List Hash) :
    (exists block size, SizeDiffers chain tree block size ∧
      appendValidated context tree height hash commitments priorTreeSize =
        .error (.error (.treeSizeMismatch context height size.toNat tree.treeSize))) ∨
    (Agrees chain tree ∧
      appendValidated context tree height hash commitments priorTreeSize =
        .ok (tree.appendCommitments height hash commitments)) := by
  by_cases hdiffers : exists block size, SizeDiffers chain tree block size
  · left
    rcases hdiffers with ⟨block, size, h⟩
    have heq := hnewest.unique hnumbered h.newest
    rw [heq] at hexpected
    have hprior : priorTreeSize = some size := hexpected.trans h.reports
    refine ⟨block, size, h, ?_⟩
    rw [appendValidated, hprior, validatePriorTreeSize, if_neg h.differs]
    rfl
  · right
    have hnone : Agrees chain tree := fun block size h => hdiffers ⟨block, size, h⟩
    refine ⟨hnone, ?_⟩
    have hvalid : validatePriorTreeSize tree height priorTreeSize context = .ok () := by
      cases hprior : priorTreeSize with
      | none => rfl
      | some size =>
          have hsize : tree.treeSize = size.toNat := by
            cases newest with
            | none => exact (hexpected size hprior).symm
            | some block =>
                by_contra hne
                exact hnone block size ⟨hnewest, hexpected.symm.trans hprior, hne⟩
          exact if_pos hsize
    rw [appendValidated, hvalid]
    rfl

theorem expected_treeSize
    (hreports : forall block, block ∈ chain -> exists size,
      block.orchardTreeSize = some size)
    {tree : CommitmentTreeDb} {newest : Option CompactBlock}
    (hnewest : NewestBlock chain tree newest)
    (hagrees : Agrees chain tree) :
    Expected tree.treeSize newest (some (UInt32.ofNat tree.treeSize)) ∧
      Expected tree.treeSize newest (knownTreeSize tree) := by
  cases newest with
  | none =>
      have hown : forall expected, some (UInt32.ofNat tree.treeSize) = some expected ->
          expected.toNat = tree.treeSize := by
        intro expected heq
        cases heq
        exact UInt32.toNat_ofNat_of_lt' hnewest.right
      refine ⟨hown, ?_⟩
      intro expected hknown
      unfold knownTreeSize at hknown
      split at hknown
      · exact hown expected hknown
      · cases hknown
  | some block =>
      rcases hreports block hnewest.left with ⟨size, hsize⟩
      have hequal : tree.treeSize = size.toNat := by
        by_contra hne
        exact hagrees block size ⟨hnewest, hsize, hne⟩
      have hown : some (UInt32.ofNat tree.treeSize) = block.orchardTreeSize := by
        rw [hsize, hequal, UInt32.ofNat_toNat]
      refine ⟨hown, ?_⟩
      have hpos : tree.treeSize > 0 := by
        rw [hequal]
        exact CompactBlock.orchardTreeSize_pos hsize
      change knownTreeSize tree = block.orchardTreeSize
      rw [knownTreeSize, if_pos hpos, hown]

end Newest

/-!
## Queued events
-/

/-- The events of blocks above a newest one, each with what it is to be checked against.
A tree without records may be told to roll back first. -/
inductive Queued (chain : ChainView) (size : Nat) :
    Option CompactBlock -> List WitnessChainEvent -> Option CompactBlock -> Prop where
  | nil (newest : Option CompactBlock) : Queued chain size newest [] newest
  | block {newest last : Option CompactBlock} {priorTreeSize : Option UInt32}
      {block : CompactBlock} {rest : List WitnessChainEvent} :
      block ∈ chain -> Expected size newest priorTreeSize ->
      Queued chain size (some block) rest last ->
      Queued chain size newest (newBlockEvent priorTreeSize block :: rest) last
  | reorg {last : Option CompactBlock} {rollbackTo : Nat} {rest : List WitnessChainEvent} :
      Queued chain size none rest last ->
      Queued chain size none (.reorg rollbackTo :: rest) last

namespace Queued

variable {chain : ChainView} {size : Nat}

theorem append {newest mid last : Option CompactBlock} {xs ys : List WitnessChainEvent}
    (h : Queued chain size newest xs mid) (hrest : Queued chain size mid ys last) :
    Queued chain size newest (xs ++ ys) last := by
  induction h with
  | nil => exact hrest
  | block hblock hexpected _ ih => exact Queued.block hblock hexpected (ih hrest)
  | reorg _ ih => exact Queued.reorg (ih hrest)

theorem last_isSome {block : CompactBlock} {last : Option CompactBlock}
    {queue : List WitnessChainEvent} (h : Queued chain size (some block) queue last) :
    exists newest, last = some newest := by
  generalize hstart : some block = start at h
  induction h generalizing block with
  | nil => exact ⟨block, hstart.symm⟩
  | block _ _ _ ih => exact ih rfl
  | reorg => cases hstart

theorem resize {block : CompactBlock} {last : Option CompactBlock}
    {queue : List WitnessChainEvent} (h : Queued chain size (some block) queue last)
    (size' : Nat) : Queued chain size' (some block) queue last := by
  generalize hstart : some block = start at h ⊢
  induction h generalizing block with
  | nil => exact Queued.nil _
  | block hblock hexpected _ ih =>
      rw [← hstart] at hexpected ⊢
      exact Queued.block hblock hexpected (ih rfl)
  | reorg => cases hstart

end Queued

theorem queued_emitBlocks {chain : ChainView} {size : Nat} {newest : Option CompactBlock}
    {priorTreeSize : Option UInt32} {blocks : List CompactBlock}
    (hblocks : forall block, block ∈ blocks -> block ∈ chain)
    (hexpected : Expected size newest priorTreeSize) :
    exists last, Queued chain size newest (emitBlocks newBlockEvent priorTreeSize blocks)
      last := by
  induction blocks generalizing newest priorTreeSize with
  | nil => exact ⟨newest, Queued.nil newest⟩
  | cons block rest ih =>
      have hrest := fun b hb => hblocks b (List.mem_cons_of_mem block hb)
      have hown : Expected size (some block) block.orchardTreeSize := rfl
      rcases ih hrest hown with ⟨last, hlast⟩
      exact ⟨last, Queued.block (hblocks block List.mem_cons_self) hexpected hlast⟩

/-!
## The follow task
-/

section Task

variable {U : BlockUniverse} (chain : ChainView)

/-- The task is at the block it announced last; before the first one it is at height 0. -/
def TaskAt (size : Nat) (task : FollowState) : Option CompactBlock -> Prop
  | some block => exists front, front.IsPrefix chain ∧ front.getLast? = some block ∧
      task.AtTip front ∧ task.prevTreeSize = block.orchardTreeSize
  | none => task.currentHeight = 0 ∧ 0 < task.tracker.maxDepth ∧
      Expected size none task.prevTreeSize

variable {chain}

theorem queued_followBlocks {view front : ChainView} {blocks : List CompactBlock}
    {st : FollowState} {block : CompactBlock} (hview : HonestView U view)
    (hserved : view.IsPrefix chain) (hsplit : front ++ blocks = view)
    (htip : st.AtTip front) (hlast : front.getLast? = some block)
    (hprev : st.prevTreeSize = block.orchardTreeSize) (size : Nat) :
    exists last, Queued chain size (some block) (st.followBlocks followEvents blocks).2
        (some last) ∧
      TaskAt chain size (st.followBlocks followEvents blocks).1 (some last) := by
  let Queues (chain' : ChainView) (st' : FollowState) (events : List WitnessChainEvent) :=
    exists newest, chain'.getLast? = some newest ∧
      st'.prevTreeSize = newest.orchardTreeSize ∧
      Queued chain size (some block) events (some newest)
  have hfollow : (st.followBlocks followEvents blocks).1.AtTip view ∧
      Queues view (st.followBlocks followEvents blocks).1
        ([] ++ (st.followBlocks followEvents blocks).2) := by
    apply FollowState.followBlocks_induction hview Queues
    · intro chain' st' events next _ hpre hinv
      rcases hinv with ⟨newest, _, hsize, hevents⟩
      have hmem : next ∈ chain :=
        hserved.mem (hpre.mem (List.mem_append_right _ (List.mem_singleton.mpr rfl)))
      refine ⟨next, List.getLast?_concat, rfl, hevents.append ?_⟩
      exact Queued.block hmem hsize (Queued.nil _)
    · exact hsplit
    · exact htip
    · exact ⟨block, hlast, hprev, Queued.nil _⟩
  rcases hfollow with ⟨htip', newest, hnewest, hsize, hevents⟩
  exact ⟨newest, hevents, view, hserved, hnewest, htip', hsize⟩

theorem queued_firstBlock {size : Nat} {task : FollowState} {block : CompactBlock}
    (hmem : block ∈ chain) (hexpected : Expected size none task.prevTreeSize)
    (action : ChainAction) :
    Queued chain size none (followEvents task action block) (some block) := by
  cases action with
  | extend => exact Queued.block hmem hexpected (Queued.nil _)
  | reorg rollbackTo =>
      apply Queued.reorg
      apply Queued.block hmem _ (Queued.nil _)
      intro _ hnone
      cases hnone

theorem queued_followPoll {view : ChainView} (hview : HonestView U view)
    (hserved : view.IsPrefix chain) {size : Nat} {task : FollowState}
    {last : Option CompactBlock} (h : TaskAt chain size task last) :
    exists last', Queued chain size last (followPoll task view).2 last' ∧
      TaskAt chain size (followPoll task view).1 last' := by
  have hpoll : followPoll task view =
      task.followBlocks followEvents (view.drop (task.currentHeight + 1)) := by
    rw [followPoll, FollowState.followPoll, FollowState.newBlocks_eq hview]
  rw [hpoll]
  cases last with
  | some block =>
      rcases h with ⟨front, hfront, hlast, htip, hprev⟩
      rw [← htip.length]
      by_cases hlength : view.length ≤ front.length
      · rw [List.drop_of_length_le hlength]
        exact ⟨some block, Queued.nil _, front, hfront, hlast, htip, hprev⟩
      · have hpre : front.IsPrefix view :=
          List.prefix_of_prefix_length_le hfront hserved (by lia)
        have hsplit : front ++ view.drop front.length = view := by
          rcases hpre with ⟨rest, rfl⟩
          rw [List.drop_left]
        rcases queued_followBlocks hview hserved hsplit htip hlast hprev size with
          ⟨newest, hqueued, htask⟩
        exact ⟨some newest, hqueued, htask⟩
  | none =>
      rcases h with ⟨hheight, hdepth, hexpected⟩
      rw [hheight]
      cases hblocks : view.drop 1 with
      | nil => exact ⟨none, Queued.nil _, hheight, hdepth, hexpected⟩
      | cons block rest =>
          have hsplit : (view.take 1 ++ [block]) ++ rest = view := by
            rw [List.append_assoc, List.singleton_append, ← hblocks, List.take_append_drop]
          have hpre : (view.take 1 ++ [block]).IsPrefix view := ⟨rest, hsplit⟩
          have hhonest : HonestView U (view.take 1 ++ [block]) :=
            hview.of_prefix (by simp) hpre
          have hmem : block ∈ chain :=
            hserved.mem (hpre.mem (List.mem_append_right _ (List.mem_singleton.mpr rfl)))
          have htip := FollowState.atTip_advance hdepth hhonest
          rcases queued_followBlocks hview hserved hsplit htip List.getLast?_concat rfl size
            with ⟨newest, hqueued, htask⟩
          exact ⟨some newest, (queued_firstBlock hmem hexpected _).append hqueued, htask⟩

theorem taskAt_followStart (hnumbered : Numbered ChainView.heightOf 0 chain)
    {tree : CommitmentTreeDb} {newest : Option CompactBlock}
    (hnewest : NewestBlock chain tree newest)
    (hexpected : Expected tree.treeSize newest (knownTreeSize tree)) :
    TaskAt chain tree.treeSize (WitnessServer.followStart tree) newest := by
  cases newest with
  | none =>
      refine ⟨?_, Nat.succ_pos _, hexpected⟩
      change tree.latestHeight.getD 0 = 0
      rw [CommitmentTreeDb.latestHeight, hnewest.left]
      rfl
  | some block =>
      rcases hnewest with ⟨hmem, record, hrecord, hheight, hhash⟩
      have hat := hnumbered.getElem?_of_mem hmem
      change chain[block.height.toNat]? = some block at hat
      have hstart : WitnessServer.followStart tree =
          FollowState.start block.height.toNat (toHashArray block.hash)
            (knownTreeSize tree) := by
        rw [WitnessServer.followStart, CommitmentTreeDb.latestHeight,
          CommitmentTreeDb.latestBlockHash, hrecord, ← hheight, ← hhash]
        rfl
      have hlast : (chain.take (block.height.toNat + 1)).getLast? = some block := by
        rw [List.take_add_one, hat]
        exact List.getLast?_concat
      rw [hstart]
      exact ⟨_, List.take_prefix _ _, hlast, FollowState.atTip_start hat _, hexpected⟩

end Task

/-!
## The start
-/

def PartOf (chain view : ChainView) : Prop :=
  view ≠ [] ∧ view.IsPrefix chain

/-- The block has all commitments it reports past an offset, or none at all. -/
def FillsWindow (block : CompactBlock) (leafOffset : Nat) : Prop :=
  extractCommitments block = [] ∨ forall size, block.orchardTreeSize = some size ->
    size.toNat ≤ leafOffset + (extractCommitments block).length

/-- Where a start takes over a tree, the size it has is the reported one: that of the
snapshot, or that of the block a window starts inside. -/
def SeedAgrees (chain : ChainView) (client : LwdClient) (windowShardLimit : Nat) :
    Option CommitmentTreeDb -> Prop
  | some tree => Agrees chain tree
  | none => forall roots last block, client.subtreeRoots = some roots ->
      clampShardLimit windowShardLimit ≤ roots.length ->
      let windowStart := roots.length - (clampShardLimit windowShardLimit - 1)
      roots[windowStart - 1]? = some last -> block ∈ client.blocks.view ->
      block.height.toNat = last.completingBlockHeight ->
      FillsWindow block (windowStart * shardLeaves)

section Start

variable {chain : ChainView}

theorem length_completingBlockSpillover {block : CompactBlock} {leafOffset : Nat}
    {size : UInt32} (hsize : block.orchardTreeSize = some size)
    (hfills : FillsWindow block leafOffset)
    (hspill : (completingBlockSpillover block leafOffset).isEmpty ≠ true) :
    leafOffset + (completingBlockSpillover block leafOffset).length = size.toNat := by
  have hmeta : (block.chainMetadata.map
      (fun m => m.orchardCommitmentTreeSize.toNat)).getD 0 = size.toNat := by
    rcases Option.map_eq_some_iff.mp (Option.filter_eq_some_iff.mp hsize).left with
      ⟨metadata, hmetadata, heq⟩
    rw [hmetadata, ← heq]
    rfl
  rw [completingBlockSpillover, hmeta, spilloverFromCommitments] at hspill ⊢
  split
  · next hle =>
      rw [if_pos hle] at hspill
      exact absurd rfl hspill
  · next hgt =>
      rw [if_neg hgt] at hspill
      rcases hfills with hnone | hfills
      · rw [hnone, List.drop_nil] at hspill
        exact absurd rfl hspill
      · have hle := hfills size hsize
        rw [List.length_drop]
        lia

theorem seedWindow_newest
    (hreports : forall block, block ∈ chain -> exists size,
      block.orchardTreeSize = some size)
    {block : CompactBlock} (hblock : block ∈ chain) {leafOffset : Nat}
    (hoffset : leafOffset < 2 ^ 32) (hfills : FillsWindow block leafOffset)
    (prefetched : List Hash) :
    let tree := seedWindow leafOffset prefetched block.height.toNat block
    exists newest, NewestBlock chain tree newest ∧
      Expected tree.treeSize newest (some (UInt32.ofNat tree.treeSize)) := by
  unfold seedWindow
  dsimp only
  split
  · refine ⟨none, ⟨rfl, hoffset⟩, ?_⟩
    intro expected heq
    cases heq
    exact UInt32.toNat_ofNat_of_lt' hoffset
  · next hspill =>
      refine ⟨some block, newestBlock_append hblock _ _, ?_⟩
      rcases hreports block hblock with ⟨size, hsize⟩
      have hlength := length_completingBlockSpillover hsize hfills hspill
      have htree : (CommitmentTreeDb.appendCommitments
          (CommitmentTreeDb.withOffset leafOffset prefetched) block.height.toNat
          (toHashArray block.hash) (completingBlockSpillover block leafOffset)).treeSize =
          size.toNat := by
        rw [CommitmentTreeDb.treeSize, CommitmentTreeDb.leafOffset_appendCommitments,
          CommitmentTreeDb.leaves_appendCommitments, List.length_append]
        change leafOffset + (0 + _) = _
        rw [Nat.zero_add, hlength]
      change some (UInt32.ofNat _) = block.orchardTreeSize
      rw [htree, UInt32.ofNat_toNat, hsize]

theorem startingTree_newest
    (hreports : forall block, block ∈ chain -> exists size,
      block.orchardTreeSize = some size)
    {client : LwdClient} {tipHeight limit : Nat} {loaded : Option CommitmentTreeDb}
    (hview : client.blocks.view.IsPrefix chain)
    (hroots : forall roots, client.subtreeRoots = some roots -> roots.length ≤ 65535)
    (hloaded : forall tree, loaded = some tree -> exists newest, NewestBlock chain tree newest)
    (hseed : SeedAgrees chain client limit loaded)
    {tree : CommitmentTreeDb} {forwardStart : Nat} {initialTreeSize : Option UInt32}
    (h : startingTree client tipHeight limit loaded =
      .ok (tree, forwardStart, initialTreeSize)) :
    exists newest, NewestBlock chain tree newest ∧
      Expected tree.treeSize newest initialTreeSize := by
  cases loaded with
  | some saved =>
      cases h
      rcases hloaded _ rfl with ⟨newest, hnewest⟩
      exact ⟨newest, hnewest, (expected_treeSize hreports hnewest hseed).right⟩
  | none =>
      rcases prepareTree_eq_ok h with
        ⟨roots, last, block, rest, hsome, hcompleted, hlast, hrange, rfl, _, rfl⟩ |
        ⟨_, _, _, rfl, _, rfl⟩
      · rcases Connection.mem_getBlockRange hrange List.mem_cons_self with
          ⟨hserved, hlo, hhi⟩
        have hheight : block.height.toNat = last.completingBlockHeight := by lia
        have hoffset : (roots.length - (clampShardLimit limit - 1)) * shardLeaves <
            2 ^ 32 := by
          have hcount := hroots roots hsome
          have hshardLeaves : shardLeaves = 65536 := rfl
          lia
        rw [← hheight]
        exact seedWindow_newest hreports (hview.mem hserved) hoffset
          (hseed roots last block hsome hcompleted hlast hserved hheight) _
      · refine ⟨none, ⟨rfl, Nat.two_pow_pos 32⟩, ?_⟩
        intro expected hnone
        cases hnone

end Start

end Witness
end SpendabilityPir
