import SpendabilityPir.Shared.Following
import SpendabilityPir.Witness.BroadcastCoverage
import SpendabilityPir.Witness.WitnessStartup
import SpendabilityPir.Witness.WitnessSync

/-!
# The windowed bootstrap

A window starts at a shard boundary, which may lie inside a block.  Seeded with that
block's leaves past the boundary, it grows into the tree that a sync from the start of
the chain gives, less the leaves before the window.
-/

namespace SpendabilityPir
namespace Witness

open Foundation Shared

/-- Every completed shard is reported with its root and with the height of the block that
completed it. -/
structure ReportsShards (M : MerkleHashOrchard) (chain : ChainView)
    (roots : List SubtreeRoot) : Prop where
  count : roots.length = (commitmentsOf chain).length / shardLeaves
  root : forall i (shard : SubtreeRoot), roots[i]? = some shard ->
    rootAt M 0 (fun p => (commitmentsOf chain)[p]?) shardHeight i =
      some (ByteVec.ofBytes 32 shard.rootHash)
  completing : forall i (shard : SubtreeRoot), roots[i]? = some shard ->
    exists block, chain[shard.completingBlockHeight]? = some block ∧
      (commitmentsOf (chain.take shard.completingBlockHeight)).length <
        (i + 1) * shardLeaves ∧
      (i + 1) * shardLeaves ≤
        (commitmentsOf (chain.take (shard.completingBlockHeight + 1))).length

/-- The window is the end of the full tree, and has the full tree's shards and root. -/
structure WindowOf (M : MerkleHashOrchard) (window full : CommitmentTreeDb) : Prop where
  treeSize : window.treeSize = full.treeSize
  shardRoots : window.shardRoots M = full.shardRoots M
  treeRoot : window.treeRoot M = full.treeRoot M
  leaves : window.leaves = full.leaves.drop window.leafOffset

/-!
## The completing block
-/

section Completing

variable {M : MerkleHashOrchard} {chain : ChainView} {height : Nat} {block : CompactBlock}

theorem take_succ_eq (hblock : chain[height]? = some block) :
    chain.take (height + 1) = chain.take height ++ [block] := by
  rw [List.take_add_one, hblock]
  rfl

/-- The spillover is the part of the block past the boundary. -/
theorem completingBlockSpillover_eq (hcommit : HonestCommitments M chain)
    (hblock : chain[height]? = some block) {leafOffset : Nat}
    (hbefore : (commitmentsOf (chain.take height)).length < leafOffset) :
    completingBlockSpillover block leafOffset = (extractCommitments block).drop
      (leafOffset - (commitmentsOf (chain.take height)).length) := by
  rcases hcommit.sizes height block hblock with ⟨metadata, hmeta, hsize⟩
  rw [take_succ_eq hblock, commitmentsOf_append, List.length_append,
    commitmentsOf_singleton] at hsize
  rw [completingBlockSpillover, hmeta]
  change spilloverFromCommitments _ metadata.orchardCommitmentTreeSize.toNat _ = _
  rw [hsize, spilloverFromCommitments]
  split
  · rw [List.drop_of_length_le (by lia)]
  · congr 1
    lia

theorem holdsChain_seedWindow (hcommit : HonestCommitments M chain)
    (hblock : chain[height]? = some block) {leafOffset : Nat} (prefetched : List Hash)
    (hbefore : (commitmentsOf (chain.take height)).length < leafOffset)
    (hafter : leafOffset ≤ (commitmentsOf (chain.take (height + 1))).length) :
    HoldsChain (seedWindow leafOffset prefetched height block) (chain.take (height + 1)) ∧
      (seedWindow leafOffset prefetched height block).leafOffset = leafOffset ∧
      (seedWindow leafOffset prefetched height block).prefetchedShardRoots = prefetched := by
  have hspill := completingBlockSpillover_eq hcommit hblock hbefore
  have hdrop : (commitmentsOf (chain.take (height + 1))).drop leafOffset =
      completingBlockSpillover block leafOffset := by
    rw [take_succ_eq hblock, commitmentsOf_append, commitmentsOf_singleton, hspill,
      List.drop_append, List.drop_of_length_le (Nat.le_of_lt hbefore), List.nil_append]
  unfold seedWindow
  dsimp only
  split
  · next hempty =>
      refine ⟨⟨?_, hafter⟩, rfl, rfl⟩
      change [] = (commitmentsOf (chain.take (height + 1))).drop leafOffset
      rw [hdrop, List.isEmpty_iff.mp hempty]
  · refine ⟨⟨?_, ?_⟩, ?_, ?_⟩
    · rw [CommitmentTreeDb.leaves_appendCommitments,
        CommitmentTreeDb.leafOffset_appendCommitments]
      exact hdrop.symm
    · rw [CommitmentTreeDb.leafOffset_appendCommitments]
      exact hafter
    · rw [CommitmentTreeDb.leafOffset_appendCommitments]
      rfl
    · rw [CommitmentTreeDb.prefetchedShardRoots_appendCommitments]
      rfl

end Completing

/-!
## The window and the full tree
-/

theorem HoldsChain.leafAt_eq {M : MerkleHashOrchard} {tree : CommitmentTreeDb}
    {chain : ChainView} (h : HoldsChain tree chain) {position : Nat}
    (hge : tree.leafOffset ≤ position) :
    CommitmentTreeDb.leafAt M tree position =
      (commitmentsOf chain).getD position (emptyRoots M 0) := by
  rw [CommitmentTreeDb.leafAt_of_ge hge, h.leaves, List.getD_eq_getElem?_getD,
    List.getElem?_drop, Nat.add_sub_cancel' hge, List.getD_eq_getElem?_getD]

theorem HoldsChain.rootAt_eq {M : MerkleHashOrchard} {window full : CommitmentTreeDb}
    {chain : ChainView} (hwindow : HoldsChain window chain) (hfull : HoldsChain full chain)
    {level index : Nat} (hwindowGe : window.leafOffset ≤ index * 2 ^ level)
    (hfullGe : full.leafOffset ≤ index * 2 ^ level) :
    rootAt M 0 (window.leafNode M) level index = rootAt M 0 (full.leafNode M) level index := by
  apply MerkleTree.node_congr
  intro position hlo _
  rw [CommitmentTreeDb.leafNode, CommitmentTreeDb.leafNode,
    hwindow.leafAt_eq (Nat.le_trans hwindowGe hlo),
    hfull.leafAt_eq (Nat.le_trans hfullGe hlo)]

theorem ReportsShards.rootAt_eq {M : MerkleHashOrchard} {full : CommitmentTreeDb}
    {chain : ChainView} {roots : List SubtreeRoot} (hreports : ReportsShards M chain roots)
    (hfull : HoldsChain full chain) (hoffset : full.leafOffset = 0) {i : Nat}
    {shard : SubtreeRoot} (hshard : roots[i]? = some shard) :
    rootAt M 0 (full.leafNode M) shardHeight i =
      some (ByteVec.ofBytes 32 shard.rootHash) := by
  have hlt := (List.getElem?_eq_some_iff.mp hshard).1
  have hheight : 2 ^ shardHeight = shardLeaves := rfl
  have hcount := hreports.count
  rw [← hreports.root i shard hshard]
  apply MerkleTree.node_congr
  intro position _ hhi
  have hbound : position < (commitmentsOf chain).length := by
    rw [hheight] at hhi
    have hle : (i + 1) * shardLeaves ≤ (commitmentsOf chain).length := by
      calc
        (i + 1) * shardLeaves ≤ roots.length * shardLeaves :=
          Nat.mul_le_mul_right _ hlt
        _ ≤ (commitmentsOf chain).length := by
          rw [hcount]
          exact Nat.div_mul_le_self _ _
    lia
  rw [CommitmentTreeDb.leafNode, hfull.leafAt_eq (by lia), List.getD_eq_getElem?_getD,
    List.getElem?_eq_getElem hbound]
  rfl

theorem getD_prefetched {roots : List SubtreeRoot} {windowStart i : Nat}
    {shard : SubtreeRoot} (hi : i < windowStart) (hshard : roots[i]? = some shard)
    (default : Hash) :
    ((roots.take windowStart).map (fun root => ByteVec.ofBytes 32 root.rootHash)).getD i
      default = ByteVec.ofBytes 32 shard.rootHash := by
  rw [List.getD_eq_getElem?_getD, List.getElem?_map, List.getElem?_take_of_lt hi, hshard]
  rfl

theorem windowOf_of_holds {M : MerkleHashOrchard} {window full : CommitmentTreeDb}
    {chain : ChainView} {roots : List SubtreeRoot} {windowStart : Nat}
    (hwindow : HoldsChain window chain) (hfull : HoldsChain full chain)
    (hreports : ReportsShards M chain roots) (hle : windowStart ≤ roots.length)
    (hoffset : window.leafOffset = windowStart * shardLeaves)
    (hprefetched : window.prefetchedShardRoots =
      (roots.take windowStart).map (fun root => ByteVec.ofBytes 32 root.rootHash))
    (hzero : full.leafOffset = 0) (hsize : (commitmentsOf chain).length < 2 ^ 32) :
    WindowOf M window full := by
  have hshardLeaves : shardLeaves = 65536 := rfl
  have hheight : 2 ^ shardHeight = shardLeaves := rfl
  have hsame : window.treeSize = full.treeSize := by
    rw [hwindow.treeSize_eq, hfull.treeSize_eq]
  have hstart : window.windowStartShard = windowStart := by
    rw [CommitmentTreeDb.windowStartShard_eq
      (CommitmentTreeDb.fitsShardIndex_of_le (by rw [hwindow.treeSize_eq]; lia)), hoffset,
      Nat.mul_div_cancel _ (by rw [hshardLeaves]; lia)]
  have hfullStart : full.windowStartShard = 0 := by
    rw [CommitmentTreeDb.windowStartShard, hzero]
    rfl
  have hroots : window.shardRoots M = full.shardRoots M := by
    rw [CommitmentTreeDb.shardRoots_eq, CommitmentTreeDb.shardRoots_eq]
    unfold CommitmentTreeDb.populatedShards
    rw [hsame]
    apply mapM_congr
    intro i _
    rw [CommitmentTreeDb.shardNode, CommitmentTreeDb.shardNode, hstart, hfullStart,
      if_neg (Nat.not_lt_zero i)]
    by_cases hbefore : i < windowStart
    · have hshard : roots[i]? = some roots[i] := List.getElem?_eq_getElem (by lia)
      rw [if_pos hbefore, hreports.rootAt_eq hfull hzero hshard,
        CommitmentTreeDb.prefetchedRoot, hprefetched, getD_prefetched hbefore hshard]
    · rw [if_neg hbefore]
      congr 1
      apply hwindow.rootAt_eq hfull
      · rw [hoffset, hheight]
        exact Nat.mul_le_mul_right _ (Nat.le_of_not_lt hbefore)
      · rw [hzero]
        exact Nat.zero_le _
  refine ⟨hsame, hroots, ?_, ?_⟩
  · rw [CommitmentTreeDb.treeRoot, CommitmentTreeDb.treeRoot, hsame, hroots]
  · rw [hwindow.leaves, hfull.leaves, hzero, List.drop_zero]

theorem holdsChain_new : HoldsChain CommitmentTreeDb.new [] :=
  ⟨rfl, Nat.le_refl 0⟩

/-!
## The bootstrap
-/

def prefetchedRoots (roots : List SubtreeRoot) (windowStart : Nat) : List Hash :=
  (roots.take windowStart).map (fun root => ByteVec.ofBytes 32 root.rootHash)

theorem clampShardLimit_of_le {limit : Nat} (hpos : 1 ≤ limit) (hmax : limit ≤ l0MaxShards) :
    clampShardLimit limit = limit := by
  rw [clampShardLimit, Nat.max_eq_left hpos, Nat.min_eq_left hmax]

theorem one_le_clampShardLimit (windowShardLimit : Nat) :
    1 ≤ clampShardLimit windowShardLimit := by
  rw [clampShardLimit, Nat.le_min]
  exact ⟨Nat.le_max_right _ _, Nat.succ_pos 31⟩

/-- While more shards are completed than the window holds, a client prepares a window that
starts inside the block that completed the shard before it. -/
theorem prepareTree_eq_of_reports {M : MerkleHashOrchard} {client : LwdClient}
    {roots : List SubtreeRoot} {limit windowStart : Nat} {last : SubtreeRoot}
    (hnumbered : Numbered ChainView.heightOf 0 client.blocks.view)
    (hserves : forall start stop, client.blocks.fails start stop = false)
    (hroots : client.subtreeRoots = some roots)
    (hreports : ReportsShards M client.blocks.view roots)
    (hcompleted : clampShardLimit limit ≤ roots.length)
    (hstart : windowStart = roots.length - (clampShardLimit limit - 1))
    (hlast : roots[windowStart - 1]? = some last) (tipHeight : Nat) :
    exists block, client.blocks.view[last.completingBlockHeight]? = some block ∧
      (commitmentsOf (client.blocks.view.take last.completingBlockHeight)).length <
        windowStart * shardLeaves ∧
      windowStart * shardLeaves ≤
        (commitmentsOf (client.blocks.view.take (last.completingBlockHeight + 1))).length ∧
      let tree := seedWindow (windowStart * shardLeaves) (prefetchedRoots roots windowStart)
        last.completingBlockHeight block
      prepareTree client tipHeight limit =
        .ok (tree, last.completingBlockHeight + 1, some (UInt32.ofNat tree.treeSize)) := by
  have hpos := one_le_clampShardLimit limit
  rcases hreports.completing _ last hlast with ⟨block, hblock, hbefore, hafter⟩
  rw [Nat.sub_add_cancel (by lia)] at hbefore hafter
  refine ⟨block, hblock, hbefore, hafter, ?_⟩
  have hlt := (List.getElem?_eq_some_iff.mp hblock).1
  have hrange : client.blocks.getBlockRange last.completingBlockHeight
      last.completingBlockHeight = some [block] := by
    rw [Connection.getBlockRange, hserves, if_neg Bool.false_ne_true,
      ChainView.getBlockRange_eq hnumbered, take_succ_eq hblock,
      List.drop_append_of_le_length (by rw [List.length_take]; lia),
      List.drop_of_length_le (by rw [List.length_take]; lia), List.nil_append]
  rw [hstart] at hlast ⊢
  rw [prepareTree, hroots]
  dsimp only
  rw [if_pos hcompleted, hlast]
  dsimp only
  rw [hrange]
  rfl

theorem prepareTree_of_reports {M : MerkleHashOrchard} {client : LwdClient}
    {roots : List SubtreeRoot} {limit : Nat} {U : BlockUniverse}
    (hchain : HonestView U client.blocks.view)
    (hcommit : HonestCommitments M client.blocks.view)
    (hserves : forall start stop, client.blocks.fails start stop = false)
    (hroots : client.subtreeRoots = some roots)
    (hreports : ReportsShards M client.blocks.view roots) (hpos : 1 ≤ limit)
    (hmax : limit ≤ l0MaxShards) (hcompleted : limit ≤ roots.length) (tipHeight : Nat) :
    exists height tree,
      prepareTree client tipHeight limit =
        .ok (tree, height + 1, some (UInt32.ofNat tree.treeSize)) ∧
      height < client.blocks.view.length ∧
      HoldsChain tree (client.blocks.view.take (height + 1)) ∧
      tree.leafOffset = (roots.length - (limit - 1)) * shardLeaves ∧
      tree.prefetchedShardRoots = prefetchedRoots roots (roots.length - (limit - 1)) := by
  have hclamp := clampShardLimit_of_le hpos hmax
  have hlast : roots[roots.length - (limit - 1) - 1]? =
      some roots[roots.length - (limit - 1) - 1] := List.getElem?_eq_getElem (by lia)
  generalize roots[roots.length - (limit - 1) - 1] = last at hlast
  rcases prepareTree_eq_of_reports hchain.heights hserves hroots hreports
    (hclamp.symm ▸ hcompleted) (by rw [hclamp]) hlast tipHeight with
    ⟨block, hblock, hbefore, hafter, hprepare⟩
  have hlt := (List.getElem?_eq_some_iff.mp hblock).1
  rcases holdsChain_seedWindow hcommit hblock
    (prefetchedRoots roots (roots.length - (limit - 1))) hbefore hafter with
    ⟨hholds, hoffset, hprefetched⟩
  exact ⟨last.completingBlockHeight, _, hprepare, hlt, hholds, hoffset, hprefetched⟩

theorem syncRange_of_holds {M : MerkleHashOrchard} {connection : Connection}
    {tree : CommitmentTreeDb} {height tipHeight : Nat}
    (hnumbered : Numbered ChainView.heightOf 0 connection.view)
    (hcommit : HonestCommitments M (connection.view.take (tipHeight + 1)))
    (hconnection : forall start stop, connection.fails start stop = false)
    (hle : height ≤ tipHeight) (hholds : HoldsChain tree (connection.view.take (height + 1)))
    (hsize : 0 < tree.treeSize) :
    syncRange (some connection) (height + 1) tipHeight tree
        (some (UInt32.ofNat tree.treeSize)) =
      .ok (appendBlocks tree ((connection.view.take (tipHeight + 1)).drop (height + 1))) := by
  have hsplit := take_append_drop_take connection.view (Nat.succ_le_succ hle)
  have hevents := appendEvents_of_holds hholds (hsplit.symm ▸ hcommit)
  have hreported : reportedSize (commitmentsOf (connection.view.take (height + 1))).length =
      some (UInt32.ofNat tree.treeSize) := by
    rw [hholds.treeSize_eq] at hsize ⊢
    rw [reportedSize, if_pos hsize]
  rw [hreported] at hevents
  rw [syncRange]
  split
  · have hnone : (connection.view.take (tipHeight + 1)).drop (height + 1) = [] :=
      List.drop_of_length_le (Nat.le_trans (List.length_take_le _ _) (by lia))
    rw [hnone]
    rfl
  · change appendEvents tree (sync connection _ _ _) = _
    rw [sync, fetchBatches_complete hnumbered
      (fun request _ => hconnection request.1 request.2) (by lia)]
    exact hevents

theorem localShardCount_le_of_reports {M : MerkleHashOrchard} {chain : ChainView}
    {roots : List SubtreeRoot} {limit : Nat} {window : CommitmentTreeDb}
    (hreports : ReportsShards M chain roots) (hwindow : HoldsChain window chain)
    (hsize : (commitmentsOf chain).length < 2 ^ 32) (hpos : 1 ≤ limit)
    (hcompleted : limit ≤ roots.length)
    (hoffset : window.leafOffset = (roots.length - (limit - 1)) * shardLeaves) :
    window.localShardCount ≤ limit := by
  have hshardLeaves : shardLeaves = 65536 := rfl
  have hfits := CommitmentTreeDb.fitsShardIndex_of_le
    (Nat.le_of_lt (hwindow.treeSize_eq.symm ▸ hsize))
  have haligned : window.leafOffset % shardLeaves = 0 := by
    rw [hoffset]
    exact Nat.mul_mod_left _ _
  have hcount := hreports.count
  rw [CommitmentTreeDb.localShardCount_eq haligned hfits, hwindow.leaves, hoffset,
    List.length_drop]
  rw [hshardLeaves] at hcount ⊢
  lia

/-- On an honest chain, the window a client prepares and then syncs to the tip is the end
of the full tree, and its shards fit. -/
theorem windowed_bootstrap_eq_full_sync {M : MerkleHashOrchard} {client : LwdClient}
    {connection : Connection} {roots : List SubtreeRoot} {limit : Nat} {U : BlockUniverse}
    (hchain : HonestView U client.blocks.view)
    (hcommit : HonestCommitments M client.blocks.view)
    (hclient : forall start stop, client.blocks.fails start stop = false)
    (hview : connection.view = client.blocks.view)
    (hconnection : forall start stop, connection.fails start stop = false)
    (hroots : client.subtreeRoots = some roots)
    (hreports : ReportsShards M client.blocks.view roots) (hpos : 1 ≤ limit)
    (hmax : limit ≤ l0MaxShards) (hcompleted : limit ≤ roots.length) :
    exists tree syncFrom initialTreeSize window,
      prepareTree client client.blocks.view.tipHeight limit =
        .ok (tree, syncFrom, initialTreeSize) ∧
      syncRange (some connection) syncFrom client.blocks.view.tipHeight tree
        initialTreeSize = .ok window ∧
      WindowOf M window (appendBlocks CommitmentTreeDb.new client.blocks.view) ∧
      window.localShardCount ≤ limit := by
  have hshardLeaves : shardLeaves = 65536 := rfl
  have hsize := hcommit.length_lt hchain.nonempty
  rcases prepareTree_of_reports hchain hcommit hclient hroots hreports hpos hmax hcompleted
    client.blocks.view.tipHeight with ⟨height, tree, hprepare, hlt, hholds, hoffset, hprefetched⟩
  have hgrown : 0 < tree.treeSize := by
    have hle := hholds.offset_le
    rw [hoffset, hshardLeaves] at hle
    rw [hholds.treeSize_eq]
    lia
  have hwindow := hholds.appendBlocks (client.blocks.view.drop (height + 1))
  rw [List.take_append_drop] at hwindow
  have hwindowOffset : (appendBlocks tree
      (client.blocks.view.drop (height + 1))).leafOffset =
        (roots.length - (limit - 1)) * shardLeaves := by
    rw [leafOffset_appendBlocks]
    exact hoffset
  have hfull := holdsChain_new.appendBlocks client.blocks.view
  rw [List.nil_append] at hfull
  have htip : client.blocks.view.take (client.blocks.view.tipHeight + 1) =
      client.blocks.view := by
    rw [hchain.tipHeight_succ, List.take_length]
  have hsync : syncRange (some connection) (height + 1) client.blocks.view.tipHeight tree
      (some (UInt32.ofNat tree.treeSize)) =
        .ok (appendBlocks tree (client.blocks.view.drop (height + 1))) := by
    have hlast := hchain.tipHeight_succ
    have hserved : HonestCommitments M
        (connection.view.take (client.blocks.view.tipHeight + 1)) := by
      rw [hview, htip]
      exact hcommit
    have hsynced := syncRange_of_holds (hview.symm ▸ hchain.heights) hserved hconnection
      (by lia : height ≤ client.blocks.view.tipHeight) (hview.symm ▸ hholds) hgrown
    rw [hview, htip] at hsynced
    exact hsynced
  refine ⟨tree, height + 1, _, _, hprepare, hsync, ?_, ?_⟩
  · refine windowOf_of_holds hwindow hfull hreports (Nat.sub_le roots.length (limit - 1))
      hwindowOffset ?_ ?_ hsize
    · rw [prefetchedShardRoots_appendBlocks]
      exact hprefetched
    · rw [leafOffset_appendBlocks]
      rfl
  · exact localShardCount_le_of_reports hreports hwindow hsize hpos hcompleted hwindowOffset

/-!
## A block that completes a shard
-/

section Filled

variable (n : Nat) (size : UInt32)

def filledBlock : CompactBlock :=
  sampleBlock 1 2 1 (List.replicate n (sampleAction 7)) size

def filledChain : ChainView := [sampleGenesis, filledBlock n size]

/-- A client that reports the one shard this block completed. -/
def filledClient : LwdClient :=
  { blocks := { view := filledChain n size, fails := fun _ _ => false }
    subtreeRoots := some
      ((rootAt sampleHash 0 (fun p => (commitmentsOf (filledChain n size))[p]?)
        shardHeight 0).toList.map
        (fun root => { rootHash := root.toList, completingBlockHeight := 1 })) }

def filledUniverse : BlockUniverse where
  Served block := block = sampleGenesis ∨ block = filledBlock n size
  hash_length := by
    intro block hserved
    rcases hserved with rfl | rfl <;> rfl
  hash_injective := by
    intro a b ha hb hhash
    rcases ha with rfl | rfl <;> rcases hb with rfl | rfl
    · rfl
    · exact absurd hhash (by simp [sampleGenesis, filledBlock, sampleBlock])
    · exact absurd hhash (by simp [sampleGenesis, filledBlock, sampleBlock])
    · rfl

theorem honest_filledChain : HonestView (filledUniverse n size) (filledChain n size) := by
  apply honestView_of_list (List.cons_ne_nil _ _)
  · intro block hblock
    simpa [filledChain, filledUniverse] using hblock
  · rfl
  · exact List.IsChain.cons_cons rfl (List.IsChain.singleton _)

theorem extractCommitments_filledBlock :
    extractCommitments (filledBlock n size) = List.replicate n (ByteVec.zeros 32) := by
  rw [extractCommitments, fieldsOf32, CompactBlock.actions, filledBlock, sampleBlock]
  have hlength : (sampleAction 7).cmx.length = 32 := rfl
  rw [List.flatMap_singleton, List.filter_replicate, if_pos (decide_eq_true hlength),
    List.map_replicate]
  rfl

theorem commitmentsOf_filledChain :
    commitmentsOf (filledChain n size) = List.replicate n (ByteVec.zeros 32) := by
  rw [filledChain, commitmentsOf_cons, commitmentsOf_singleton,
    extractCommitments_filledBlock]
  rfl

theorem length_commitmentsOf_filledChain :
    (commitmentsOf (filledChain n size)).length = n := by
  rw [commitmentsOf_filledChain, List.length_replicate]

variable {n size}

theorem honestCommitments_filledChain (hsize : size.toNat = n) :
    HonestCommitments sampleHash (filledChain n size) where
  sizes := by
    intro i block hblock
    match i with
    | 0 =>
        cases hblock
        exact ⟨_, rfl, rfl⟩
    | 1 =>
        cases hblock
        exact ⟨_, rfl, hsize.trans (length_commitmentsOf_filledChain n size).symm⟩
    | i + 2 => nomatch hblock
  canonical := by
    intro commitment hmem
    rw [commitmentsOf_filledChain] at hmem
    rw [List.eq_of_mem_replicate hmem]
    exact canonical_zeros

theorem reportsShards_filledChain (hsize : size.toNat = n) (hle : shardLeaves ≤ n)
    (hlt : n < 2 * shardLeaves) :
    exists root, (filledClient n size).subtreeRoots =
        some [{ rootHash := root, completingBlockHeight := 1 }] ∧
      ReportsShards sampleHash (filledChain n size)
        [{ rootHash := root, completingBlockHeight := 1 }] := by
  have hlength := length_commitmentsOf_filledChain n size
  have hshardLeaves : shardLeaves = 65536 := rfl
  have hleaf : forall j, 0 * 2 ^ shardHeight ≤ j -> j < (0 + 1) * 2 ^ shardHeight ->
      exists hash, (commitmentsOf (filledChain n size))[j]? = some hash ∧
        Canonical sampleHash hash := by
    intro j _ hj
    have hheight : 2 ^ shardHeight = 65536 := rfl
    have hbound : j < (commitmentsOf (filledChain n size)).length := by lia
    exact ⟨_, List.getElem?_eq_getElem hbound,
      (honestCommitments_filledChain hsize).canonical _ (List.getElem_mem hbound)⟩
  have hsome : exists root,
      rootAt sampleHash 0 (fun p => (commitmentsOf (filledChain n size))[p]?) shardHeight 0 =
        some root ∧ Canonical sampleHash root := rootAt_of_canonical hleaf
  rcases hsome with ⟨root, hroot, _⟩
  refine ⟨root.toList, ?_, ?_, ?_, ?_⟩
  · rw [filledClient, hroot]
    rfl
  · rw [hlength]
    change 1 = n / shardLeaves
    lia
  · intro i shard hshard
    match i with
    | 0 =>
        cases hshard
        rw [ByteVec.ofBytes_toList]
        exact hroot
    | i + 1 => nomatch hshard
  · intro i shard hshard
    match i with
    | 0 =>
        cases hshard
        refine ⟨filledBlock n size, rfl, ?_, ?_⟩
        · exact Nat.zero_lt_succ _
        · change _ ≤ (commitmentsOf (filledChain n size)).length
          rw [hlength, Nat.zero_add, Nat.one_mul]
          exact hle
    | i + 1 => nomatch hshard

end Filled

def shardBlock : CompactBlock :=
  sampleBlock 1 2 1 (List.replicate (shardLeaves + 1) (sampleAction 7)) 65537

def shardChain : ChainView := [sampleGenesis, shardBlock]

def shardClient : LwdClient :=
  { blocks := { view := shardChain, fails := fun _ _ => false }
    subtreeRoots := some
      ((rootAt sampleHash 0 (fun p => (commitmentsOf shardChain)[p]?) shardHeight 0).toList.map
        (fun root => { rootHash := root.toList, completingBlockHeight := 1 })) }

def shardUniverse : BlockUniverse := filledUniverse (shardLeaves + 1) 65537

theorem honest_shardChain : HonestView shardUniverse shardChain :=
  honest_filledChain (shardLeaves + 1) 65537

/-- The window of one shard starts inside the block, after the shard it completes. -/
theorem windowed_bootstrap_eq_full_sync_shardChain :
    exists tree syncFrom initialTreeSize window,
      prepareTree shardClient shardChain.tipHeight 1 = .ok (tree, syncFrom, initialTreeSize) ∧
      syncRange (some shardClient.blocks) syncFrom shardChain.tipHeight tree
        initialTreeSize = .ok window ∧
      WindowOf sampleHash window (appendBlocks CommitmentTreeDb.new shardChain) ∧
      window.localShardCount ≤ 1 := by
  have hsize : (65537 : UInt32).toNat = shardLeaves + 1 := rfl
  have hshardLeaves : shardLeaves = 65536 := rfl
  rcases reportsShards_filledChain hsize (by lia) (by lia) with ⟨root, hroots, hreports⟩
  exact @windowed_bootstrap_eq_full_sync sampleHash shardClient shardClient.blocks _ 1 _
    honest_shardChain (honestCommitments_filledChain hsize) (fun _ _ => rfl) rfl
    (fun _ _ => rfl) hroots hreports (Nat.le_refl 1) (by decide) (Nat.le_refl 1)

end Witness
end SpendabilityPir
