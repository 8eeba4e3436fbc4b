import SpendabilityPir.Combined.CombinedServer
import SpendabilityPir.Witness.TreeCatchUp
import SpendabilityPir.Witness.TreeRoundTrip
import SpendabilityPir.Witness.WindowedBootstrap

/-!
# Where a bootstrapped server continues

A server continues after the height of the newest record of its tree, and after height 0
without one.  A window that starts at a block's last commitment has no record of that
block; so it has to sync a further block before it knows where it is.
-/

namespace SpendabilityPir
namespace Combined

open Foundation Shared
open Witness (CommitmentTreeDb Hash MerkleHashOrchard WitnessServer)

/-!
## Continuing after a height
-/

/-- Every way to go on with a tree goes on after a height: following, a restart from its
snapshot, and the catch-up of the combined server; and following fetches no block again. -/
structure ContinuesAfter (tree : CommitmentTreeDb) (height : Nat) : Prop where
  follow : (WitnessServer.followStart tree).currentHeight = height
  resume : forall mode xxh64, CommitmentTreeDb.InMemory tree ->
    exists loaded, CommitmentTreeDb.fromSnapshot mode xxh64 (tree.toSnapshot xxh64) = .ok loaded ∧
      forall client tipHeight limit, exists initialTreeSize,
        Witness.startingTree client tipHeight limit (some loaded) =
          .ok (loaded, height + 1, initialTreeSize)
  witLatest : tree.latestHeight.getD 0 = height
  fresh : forall view block, block ∈ (WitnessServer.followStart tree).newBlocks view ->
    height < block.height.toNat

/-- A tree goes on after a height exactly when its newest record is of that height. -/
theorem continuesAfter_iff {leafOffset : Nat} {roots : List Hash} {tree : CommitmentTreeDb}
    (haccounted : CommitmentTreeDb.Accounted leafOffset roots tree)
    (haligned : leafOffset % Witness.shardLeaves = 0)
    (hempty : tree.latestHeight = none -> CommitmentTreeDb.InMemory tree) (height : Nat) :
    ContinuesAfter tree height ↔ tree.latestHeight = some height := by
  have haligned' : tree.leafOffset % Witness.shardLeaves = 0 :=
    haccounted.leafOffset ▸ haligned
  constructor
  · intro h
    cases hlatest : tree.latestHeight with
    | none =>
        rcases h.resume .checked (fun _ _ => 0) (hempty hlatest) with
          ⟨loaded, hloaded, hstart⟩
        rw [CommitmentTreeDb.fromSnapshot_toSnapshot (hempty hlatest) haccounted.counted
          (fun _ => haligned')] at hloaded
        cases hloaded
        let client : Witness.LwdClient :=
          { blocks := { view := [], fails := fun _ _ => false }, subtreeRoots := none }
        rcases hstart client 0 0 with ⟨initialTreeSize, heq⟩
        simp [Witness.startingTree, hlatest] at heq
    | some latest =>
        have hwit := h.witLatest
        rw [hlatest] at hwit
        exact congrArg some hwit
  · intro hlatest
    have hfollow : (WitnessServer.followStart tree).currentHeight = height := by
      simp [WitnessServer.followStart, FollowState.start, hlatest]
    refine ⟨hfollow, ?_, by simp [hlatest], ?_⟩
    · intro mode xxh64 hmem
      refine ⟨tree, CommitmentTreeDb.fromSnapshot_toSnapshot hmem haccounted.counted
        (fun _ => haligned'), ?_⟩
      intro client tipHeight limit
      exact ⟨Witness.knownTreeSize tree, by simp [Witness.startingTree, hlatest]⟩
    · intro view block hblock
      unfold FollowState.newBlocks at hblock
      split at hblock
      · cases hblock
      · have hrange := (List.mem_filter.mp hblock).right
        simp [hfollow] at hrange
        lia

/-!
## The window after its sync
-/

theorem length_extractCommitments_le {chain : ChainView} {block : CompactBlock}
    (h : block ∈ chain) :
    (Witness.extractCommitments block).length ≤ (Witness.commitmentsOf chain).length := by
  rcases List.append_of_mem h with ⟨front, rest, rfl⟩
  rw [Witness.commitmentsOf_append, Witness.commitmentsOf_cons, List.length_append,
    List.length_append]
  lia

theorem accounted_appendBlocks {leafOffset : Nat} {roots : List Hash}
    {tree : CommitmentTreeDb} {blocks : List CompactBlock}
    (h : CommitmentTreeDb.Accounted leafOffset roots tree)
    (hfit : forall block, block ∈ blocks ->
      (Witness.extractCommitments block).length < 2 ^ 32) :
    CommitmentTreeDb.Accounted leafOffset roots (Witness.appendBlocks tree blocks) := by
  induction blocks generalizing tree with
  | nil => exact h
  | cons block rest ih =>
      apply ih
      · exact h.appendCommitments (hfit block List.mem_cons_self) _ _
      · exact fun other hother => hfit other (List.mem_cons_of_mem _ hother)

section Window

variable {M : MerkleHashOrchard} {U : BlockUniverse} {chain : ChainView}
  {height leafOffset : Nat} {block : CompactBlock} (prefetched : List Hash)

theorem accounted_seedWindow (hfit : (Witness.extractCommitments block).length < 2 ^ 32) :
    CommitmentTreeDb.Accounted leafOffset prefetched
      (Witness.seedWindow leafOffset prefetched height block) := by
  have hstart := CommitmentTreeDb.accounted_withOffset leafOffset prefetched
  unfold Witness.seedWindow
  dsimp only
  split
  · exact hstart
  · apply hstart.appendCommitments
    unfold Witness.completingBlockSpillover Witness.spilloverFromCommitments
    split
    · exact Nat.two_pow_pos 32
    · rw [List.length_drop]
      lia

theorem latestHeight_seedWindow (hcommit : Witness.HonestCommitments M chain)
    (hblock : chain[height]? = some block)
    (hbefore : (Witness.commitmentsOf (chain.take height)).length < leafOffset) :
    (Witness.seedWindow leafOffset prefetched height block).latestHeight =
      if leafOffset < (Witness.commitmentsOf (chain.take (height + 1))).length then some height
      else none := by
  have hspill := Witness.completingBlockSpillover_eq hcommit hblock hbefore
  have hlength : (Witness.commitmentsOf (chain.take (height + 1))).length =
      (Witness.commitmentsOf (chain.take height)).length +
        (Witness.extractCommitments block).length := by
    rw [Witness.take_succ_eq hblock, Witness.commitmentsOf_append, List.length_append,
      Witness.commitmentsOf_singleton]
  have hempty : (Witness.completingBlockSpillover block leafOffset).isEmpty = true ↔
      ¬ leafOffset < (Witness.commitmentsOf (chain.take (height + 1))).length := by
    rw [hspill, List.isEmpty_iff, List.drop_eq_nil_iff]
    lia
  unfold Witness.seedWindow
  dsimp only
  split
  · next h =>
      rw [if_neg (hempty.mp h)]
      rfl
  · next h =>
      rw [if_pos (Decidable.not_not.mp (fun hnot => h (hempty.mpr hnot))),
        CommitmentTreeDb.latestHeight, CommitmentTreeDb.blocks_appendCommitments,
        List.getLast?_concat]
      rfl

theorem latestHeight_window (hchain : HonestView U chain)
    (hcommit : Witness.HonestCommitments M chain) (hblock : chain[height]? = some block)
    (hbefore : (Witness.commitmentsOf (chain.take height)).length < leafOffset)
    {tipHeight : Nat} (hle : height ≤ tipHeight) (htip : tipHeight < chain.length) :
    (Witness.appendBlocks (Witness.seedWindow leafOffset prefetched height block)
      ((chain.take (tipHeight + 1)).drop (height + 1))).latestHeight =
      if height < tipHeight ∨
        leafOffset < (Witness.commitmentsOf (chain.take (height + 1))).length
      then some tipHeight else none := by
  have hseed := latestHeight_seedWindow prefetched hcommit hblock hbefore
  have hlength : (chain.take (tipHeight + 1)).length = tipHeight + 1 := by
    rw [List.length_take]
    lia
  rw [Witness.latestHeight_appendBlocks, hseed]
  by_cases hlt : height < tipHeight
  · have htipBlock : chain[tipHeight]? = some chain[tipHeight] :=
      List.getElem?_eq_getElem htip
    have hlast : ((chain.take (tipHeight + 1)).drop (height + 1)).getLast? =
        some chain[tipHeight] := by
      rw [List.getLast?_drop, if_neg (by lia), Witness.take_succ_eq htipBlock,
        List.getLast?_concat]
    have hheight : ChainView.heightOf chain[tipHeight] = tipHeight :=
      hchain.height_eq htipBlock
    rw [hlast, if_pos (Or.inl hlt)]
    exact congrArg some hheight
  · have heq : height = tipHeight := by lia
    have hnone : (chain.take (tipHeight + 1)).drop (height + 1) = [] :=
      List.drop_of_length_le (by lia)
    rw [hnone, heq]
    simp

theorem inMemory_of_latestHeight_none {roots : List Hash} {tree : CommitmentTreeDb}
    (haccounted : CommitmentTreeDb.Accounted leafOffset roots tree)
    (hroots : roots.length < 2 ^ 32) (hoffset : leafOffset < 2 ^ 32)
    (hlatest : tree.latestHeight = none) : CommitmentTreeDb.InMemory tree := by
  have hblocks : tree.blocks = [] := by
    rw [CommitmentTreeDb.latestHeight, Option.map_eq_none_iff] at hlatest
    exact List.getLast?_eq_none_iff.mp hlatest
  have hleaves : tree.leaves.length = 0 := by
    rw [← haccounted.counted, CommitmentTreeDb.totalCommitments, hblocks]
    rfl
  apply CommitmentTreeDb.inMemory_of_small
  · rw [hblocks, hleaves, haccounted.prefetched, List.length_nil]
    lia
  · intro record hrecord
    rw [hblocks] at hrecord
    cases hrecord
  · intro record hrecord
    rw [hblocks] at hrecord
    cases hrecord
  · rw [CommitmentTreeDb.treeSize, hleaves, haccounted.leafOffset]
    lia

end Window

/-!
## The bootstrap
-/

section Bootstrap

variable {M : MerkleHashOrchard} {client : Witness.LwdClient} {connection : Connection}
  {roots : List Witness.SubtreeRoot} {windowShardLimit windowStart tipHeight : Nat}
  {last : Witness.SubtreeRoot} {U : BlockUniverse}

theorem syncRange_of_longer {view : ChainView} {tree : CommitmentTreeDb} {height : Nat}
    (hcommit : Witness.HonestCommitments M view) (hserved : HonestView U connection.view)
    (hview : view.IsPrefix connection.view)
    (hconnection : forall start stop, connection.fails start stop = false)
    (hle : height ≤ tipHeight) (htip : tipHeight < view.length)
    (hholds : Witness.HoldsChain tree (view.take (height + 1))) (hsize : 0 < tree.treeSize) :
    Witness.syncRange (some connection) (height + 1) tipHeight tree
        (some (UInt32.ofNat tree.treeSize)) =
      .ok (Witness.appendBlocks tree ((view.take (tipHeight + 1)).drop (height + 1))) := by
  have hsame : connection.view.take (tipHeight + 1) = view.take (tipHeight + 1) :=
    take_of_isPrefix hview htip
  have hcommit' : Witness.HonestCommitments M (connection.view.take (tipHeight + 1)) := by
    rw [hsame]
    exact hcommit.of_prefix (List.take_prefix _ _)
  rw [← take_of_isPrefix hview (by lia)] at hholds
  have hsynced := Witness.syncRange_of_holds hserved.heights hcommit' hconnection hle hholds
    hsize
  rw [hsame] at hsynced
  exact hsynced

theorem latestHeight_bootstrap (hchain : HonestView U client.blocks.view)
    (hcommit : Witness.HonestCommitments M client.blocks.view)
    (hclient : forall start stop, client.blocks.fails start stop = false)
    (hserved : HonestView U connection.view)
    (hview : client.blocks.view.IsPrefix connection.view)
    (hconnection : forall start stop, connection.fails start stop = false)
    (hroots : client.subtreeRoots = some roots)
    (hreports : Witness.ReportsShards M client.blocks.view roots)
    (hcompleted : Witness.clampShardLimit windowShardLimit ≤ roots.length)
    (hstart : windowStart = roots.length - (Witness.clampShardLimit windowShardLimit - 1))
    (hlast : roots[windowStart - 1]? = some last)
    (hle : last.completingBlockHeight ≤ tipHeight)
    (htip : tipHeight ≤ client.blocks.view.tipHeight) :
    exists tree syncFrom initialTreeSize window,
      Witness.prepareTree client tipHeight windowShardLimit =
        .ok (tree, syncFrom, initialTreeSize) ∧
      Witness.syncRange (some connection) syncFrom tipHeight tree initialTreeSize =
        .ok window ∧
      Witness.HoldsChain window (client.blocks.view.take (tipHeight + 1)) ∧
      CommitmentTreeDb.Accounted (windowStart * Witness.shardLeaves)
        (Witness.prefetchedRoots roots windowStart) window ∧
      (window.latestHeight = none -> CommitmentTreeDb.InMemory window) ∧
      window.latestHeight =
        if last.completingBlockHeight < tipHeight ∨
          windowStart * Witness.shardLeaves < (Witness.commitmentsOf
            (client.blocks.view.take (last.completingBlockHeight + 1))).length
        then some tipHeight else none := by
  have hshardLeaves : Witness.shardLeaves = 65536 := rfl
  have hpos := Witness.one_le_clampShardLimit windowShardLimit
  have hlength := hchain.tipHeight_succ
  have hsize := hcommit.length_lt hchain.nonempty
  have hcount := hreports.count
  rcases Witness.prepareTree_eq_of_reports hchain.heights hclient hroots hreports hcompleted
    hstart hlast tipHeight with ⟨block, hblock, hbefore, hafter, hprepare⟩
  rcases Witness.holdsChain_seedWindow hcommit hblock
    (Witness.prefetchedRoots roots windowStart) hbefore hafter with ⟨hholds, _, _⟩
  have hgrown := hholds.treeSize_eq
  have hsynced := syncRange_of_longer hcommit hserved hview hconnection hle (by lia) hholds
    (by lia)
  have hfit : forall other, other ∈ client.blocks.view ->
      (Witness.extractCommitments other).length < 2 ^ 32 :=
    fun other hother => Nat.lt_of_le_of_lt (length_extractCommitments_le hother) hsize
  have hfitAbove : forall other, other ∈ (client.blocks.view.take (tipHeight + 1)).drop
      (last.completingBlockHeight + 1) ->
      (Witness.extractCommitments other).length < 2 ^ 32 :=
    fun other hother => hfit other (List.mem_of_mem_take (List.mem_of_mem_drop hother))
  have hseeded : CommitmentTreeDb.Accounted (windowStart * Witness.shardLeaves) _
      (Witness.seedWindow _ _ last.completingBlockHeight block) :=
    accounted_seedWindow (Witness.prefetchedRoots roots windowStart)
      (hfit block (List.mem_of_getElem? hblock))
  have haccounted := accounted_appendBlocks hseeded hfitAbove
  refine ⟨_, _, _, _, hprepare, hsynced, ?_, haccounted, ?_, ?_⟩
  · have hwindow := hholds.appendBlocks
      ((client.blocks.view.take (tipHeight + 1)).drop (last.completingBlockHeight + 1))
    rw [take_append_drop_take _ (Nat.succ_le_succ hle)] at hwindow
    exact hwindow
  · apply inMemory_of_latestHeight_none haccounted
    · rw [Witness.prefetchedRoots, List.length_map, List.length_take]
      lia
    · lia
  · exact latestHeight_window (Witness.prefetchedRoots roots windowStart) hchain hcommit
      hblock hbefore hle (by lia)

/-- On an honest chain, a server that bootstraps a window and syncs to a tip holds the chain
through the tip; it goes on after the tip exactly when the tip is above the block that
completed the last shard before the window, or that block has leaves past it. -/
theorem bootstrap_continuesAfter_iff (hchain : HonestView U client.blocks.view)
    (hcommit : Witness.HonestCommitments M client.blocks.view)
    (hclient : forall start stop, client.blocks.fails start stop = false)
    (hserved : HonestView U connection.view)
    (hview : client.blocks.view.IsPrefix connection.view)
    (hconnection : forall start stop, connection.fails start stop = false)
    (hroots : client.subtreeRoots = some roots)
    (hreports : Witness.ReportsShards M client.blocks.view roots)
    (hcompleted : Witness.clampShardLimit windowShardLimit ≤ roots.length)
    (hstart : windowStart = roots.length - (Witness.clampShardLimit windowShardLimit - 1))
    (hlast : roots[windowStart - 1]? = some last)
    (hle : last.completingBlockHeight ≤ tipHeight)
    (htip : tipHeight ≤ client.blocks.view.tipHeight) :
    exists tree syncFrom initialTreeSize window,
      Witness.prepareTree client tipHeight windowShardLimit =
        .ok (tree, syncFrom, initialTreeSize) ∧
      Witness.syncRange (some connection) syncFrom tipHeight tree initialTreeSize =
        .ok window ∧
      Witness.HoldsChain window (client.blocks.view.take (tipHeight + 1)) ∧
      (ContinuesAfter window tipHeight ↔ last.completingBlockHeight < tipHeight ∨
        windowStart * Witness.shardLeaves < (Witness.commitmentsOf
          (client.blocks.view.take (last.completingBlockHeight + 1))).length) := by
  rcases latestHeight_bootstrap hchain hcommit hclient hserved hview hconnection hroots hreports
    hcompleted hstart hlast hle htip with
    ⟨tree, syncFrom, initialTreeSize, window, hprepare, hsync, hholds, haccounted, hempty,
      hlatest⟩
  refine ⟨tree, syncFrom, initialTreeSize, window, hprepare, hsync, hholds, ?_⟩
  rw [continuesAfter_iff haccounted (Nat.mul_mod_left _ _) hempty, hlatest]
  split
  · next hcond => exact ⟨fun _ => hcond, fun _ => rfl⟩
  · next hcond => exact ⟨fun hnone => (nomatch hnone), fun h => absurd h hcond⟩

end Bootstrap

/-- The block at the tip completes a shard and has one leaf past it. -/
theorem bootstrap_continuesAfter_iff_filledChain :
    exists tree syncFrom initialTreeSize window,
      Witness.prepareTree (Witness.filledClient 65537 65537) 1 1 =
        .ok (tree, syncFrom, initialTreeSize) ∧
      Witness.syncRange (some (Witness.filledClient 65537 65537).blocks) syncFrom 1 tree
        initialTreeSize = .ok window ∧
      ContinuesAfter window 1 := by
  have hsize : (65537 : UInt32).toNat = 65537 := rfl
  have hshardLeaves : Witness.shardLeaves = 65536 := rfl
  have hchain := Witness.honest_filledChain 65537 65537
  rcases Witness.reportsShards_filledChain hsize (by lia) (by lia) with
    ⟨root, hroots, hreports⟩
  rcases @bootstrap_continuesAfter_iff Witness.sampleHash (Witness.filledClient 65537 65537)
    (Witness.filledClient 65537 65537).blocks _ 1 1 1 _ _ hchain
    (Witness.honestCommitments_filledChain hsize) (fun _ _ => rfl) hchain List.prefix_rfl
    (fun _ _ => rfl) hroots hreports (Nat.le_refl 1) rfl rfl (Nat.le_refl 1) (Nat.le_refl 1)
    with ⟨tree, syncFrom, initialTreeSize, window, hprepare, hsync, _, hiff⟩
  refine ⟨tree, syncFrom, initialTreeSize, window, hprepare, hsync, hiff.mpr (Or.inr ?_)⟩
  have hlength := Witness.length_commitmentsOf_filledChain 65537 65537
  change 1 * Witness.shardLeaves < (Witness.commitmentsOf (Witness.filledChain 65537
    65537)).length
  rw [hlength, hshardLeaves]
  exact Nat.lt_succ_self 65536

/-- The block at the tip completes a shard with its last leaf: the window holds the chain
through the tip, and goes on after height 0. -/
theorem not_continuesAfter_filledChain :
    exists root tree syncFrom initialTreeSize window,
      HonestView (Witness.filledUniverse 65536 65536) (Witness.filledChain 65536 65536) ∧
      Witness.HonestCommitments Witness.sampleHash (Witness.filledChain 65536 65536) ∧
      (Witness.filledClient 65536 65536).subtreeRoots =
        some [{ rootHash := root, completingBlockHeight := 1 }] ∧
      Witness.ReportsShards Witness.sampleHash (Witness.filledChain 65536 65536)
        [{ rootHash := root, completingBlockHeight := 1 }] ∧
      Witness.prepareTree (Witness.filledClient 65536 65536) 1 1 =
        .ok (tree, syncFrom, initialTreeSize) ∧
      Witness.syncRange (some (Witness.filledClient 65536 65536).blocks) syncFrom 1 tree
        initialTreeSize = .ok window ∧
      Witness.HoldsChain window (Witness.filledChain 65536 65536) ∧
      (WitnessServer.followStart window).currentHeight = 0 ∧
      ¬ ContinuesAfter window 1 := by
  have hsize : (65536 : UInt32).toNat = 65536 := rfl
  have hshardLeaves : Witness.shardLeaves = 65536 := rfl
  have hchain := Witness.honest_filledChain 65536 65536
  have hcommit := Witness.honestCommitments_filledChain hsize
  rcases Witness.reportsShards_filledChain hsize (Nat.le_refl _) (by lia) with
    ⟨root, hroots, hreports⟩
  rcases @latestHeight_bootstrap Witness.sampleHash (Witness.filledClient 65536 65536)
    (Witness.filledClient 65536 65536).blocks _ 1 1 1 _ _ hchain hcommit (fun _ _ => rfl) hchain
    List.prefix_rfl (fun _ _ => rfl) hroots hreports (Nat.le_refl 1) rfl rfl (Nat.le_refl 1)
    (Nat.le_refl 1) with
    ⟨tree, syncFrom, initialTreeSize, window, hprepare, hsync, hholds, haccounted, hempty,
      hlatest⟩
  have hlength := Witness.length_commitmentsOf_filledChain 65536 65536
  have hnone : window.latestHeight = none := by
    rw [hlatest, if_neg]
    intro hcond
    rcases hcond with hlt | hlt
    · exact absurd hlt (Nat.lt_irrefl 1)
    · change 1 * Witness.shardLeaves < (Witness.commitmentsOf (Witness.filledChain 65536
        65536)).length at hlt
      rw [hlength, hshardLeaves] at hlt
      exact absurd hlt (Nat.lt_irrefl 65536)
  refine ⟨root, tree, syncFrom, initialTreeSize, window, hchain, hcommit, hroots, hreports,
    hprepare, hsync, hholds, ?_, ?_⟩
  · simp [WitnessServer.followStart, FollowState.start, hnone]
  · rw [continuesAfter_iff haccounted (Nat.mul_mod_left _ _) hempty, hnone]
    intro hfalse
    cases hfalse

end Combined
end SpendabilityPir
