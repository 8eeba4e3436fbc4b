import SpendabilityPir.Witness.MixedEpoch
import SpendabilityPir.Witness.ProtocolRoot
import SpendabilityPir.Witness.WindowedBootstrap
import SpendabilityPir.Witness.WitnessFollow

/-!
# A window over a growing chain

A server keeps one window: the leaves from an offset on, the roots of the shards before
it, and the records of the blocks from a height on.  What it publishes shows the chain
through some block, and witnesses read from it are nodes of the protocol's tree.
-/

namespace SpendabilityPir
namespace Witness

open Foundation Shared

/-- The leaf offset, the prefetched shard roots and the first recorded height. -/
structure Window where
  leafOffset : Nat
  roots : List Hash
  base : Nat

/-- The roots are those of the chain's shards before the window, the records leave out
blocks before it only, and the window holds the rest of the chain. -/
structure Window.Sound (w : Window) (M : MerkleHashOrchard) (chain : ChainView) : Prop where
  aligned : w.leafOffset % shardLeaves = 0
  offset_le : w.leafOffset ≤ (commitmentsOf chain).length
  counted : w.roots.length = w.leafOffset / shardLeaves
  roots : PrefetchedTrue M ((commitmentsOf chain).take w.leafOffset) w.roots
  recorded : (commitmentsOf (chain.take w.base)).length ≤ w.leafOffset
  capacity : (commitmentsOf chain).length ≤ w.leafOffset + l0MaxShards * shardLeaves

/-- The tree of a window holds the first blocks of a chain. -/
structure OnWindow (M : MerkleHashOrchard) (w : Window) (chain : ChainView) (n : Nat)
    (tree : CommitmentTreeDb) : Prop where
  invariant : CommitmentTreeDb.TreeInvariant M w.leafOffset w.roots tree
  leaves : tree.leaves = (commitmentsOf (chain.take n)).drop w.leafOffset
  blocks : tree.blocks = recordsFrom w.leafOffset (commitmentsOf (chain.take w.base)).length
    ((chain.take n).drop w.base)
  offset_le : w.leafOffset ≤ (commitmentsOf (chain.take n)).length
  base_le : w.base ≤ n
  le : n ≤ chain.length

/-!
## Prefixes of a chain
-/

theorem commitmentsOf_take_isPrefix (chain : ChainView) {m n : Nat} (h : m ≤ n) :
    (commitmentsOf (chain.take m)).IsPrefix (commitmentsOf (chain.take n)) := by
  rw [← take_append_drop_take chain h, commitmentsOf_append]
  exact List.prefix_append _ _

theorem length_commitmentsOf_take_le (chain : ChainView) (n : Nat) :
    (commitmentsOf (chain.take n)).length ≤ (commitmentsOf chain).length := by
  have hsplit := List.take_append_drop n chain
  have hlength : (commitmentsOf (chain.take n)).length +
      (commitmentsOf (chain.drop n)).length = (commitmentsOf chain).length := by
    rw [← List.length_append, ← commitmentsOf_append, hsplit]
  lia

theorem take_eq_of_isPrefix {view chain : ChainView} {n : Nat} (hview : view.IsPrefix chain)
    (hle : n ≤ view.length) : view.take n = chain.take n := by
  rw [List.prefix_iff_eq_take.mp hview, List.take_take, Nat.min_eq_left hle]

theorem commitmentsOf_take_eq {chain : ChainView} {m n stop : Nat} (hle : m ≤ n)
    (hstop : stop ≤ (commitmentsOf (chain.take m)).length) :
    (commitmentsOf (chain.take n)).take stop = (commitmentsOf (chain.take m)).take stop := by
  rcases commitmentsOf_take_isPrefix chain hle with ⟨rest, heq⟩
  rw [← heq, List.take_append_of_le_length hstop]

namespace OnWindow

variable {M : MerkleHashOrchard} {w : Window} {chain : ChainView} {n : Nat}
variable {tree : CommitmentTreeDb} {U : BlockUniverse}

theorem leafOffset (h : OnWindow M w chain n tree) : tree.leafOffset = w.leafOffset :=
  h.invariant.leafOffset

theorem aligned (h : OnWindow M w chain n tree) (hw : w.Sound M chain) :
    tree.leafOffset % shardLeaves = 0 := by
  rw [h.leafOffset]
  exact hw.aligned

theorem holds (h : OnWindow M w chain n tree) : HoldsChain tree (chain.take n) where
  leaves := by rw [h.leafOffset]; exact h.leaves
  offset_le := by rw [h.leafOffset]; exact h.offset_le

theorem treeSize_eq (h : OnWindow M w chain n tree) :
    tree.treeSize = (commitmentsOf (chain.take n)).length := h.holds.treeSize_eq

theorem length_take (h : OnWindow M w chain n tree) : (chain.take n).length = n := by
  rw [List.length_take]
  exact Nat.min_eq_left h.le

theorem take_base (h : OnWindow M w chain n tree) :
    (chain.take n).take w.base = chain.take w.base := by
  rw [List.take_take, Nat.min_eq_left h.base_le]

theorem tracks (h : OnWindow M w chain n tree) (hbase : w.base < n) :
    Tracks tree w.base (chain.take n) where
  leaves := h.holds.leaves
  blocks := by rw [h.leafOffset, h.take_base]; exact h.blocks
  offset_le := h.holds.offset_le
  base_lt := by rw [h.length_take]; exact hbase

theorem blocks_eq_nil_iff (h : OnWindow M w chain n tree) :
    tree.blocks = [] ↔ n = w.base := by
  rw [h.blocks]
  constructor
  · intro hnil
    cases hdrop : (chain.take n).drop w.base with
    | nil =>
        have hle := List.drop_eq_nil_iff.mp hdrop
        rw [h.length_take] at hle
        exact Nat.le_antisymm hle h.base_le
    | cons block rest =>
        rw [hdrop, recordsFrom] at hnil
        cases hnil
  · intro heq
    rw [List.drop_of_length_le (by rw [h.length_take]; exact Nat.le_of_eq heq)]
    rfl

/-- The newest record is of the last block held. -/
theorem latestHeight_eq (h : OnWindow M w chain n tree) (hchain : HonestView U chain)
    (hbase : w.base < n) : tree.latestHeight = some (n - 1) := by
  have hlt : n - 1 < chain.length := by
    have hle := h.le
    lia
  have hblock : chain[n - 1]? = some chain[n - 1] := List.getElem?_eq_getElem hlt
  have hlast : (chain.take n).getLast? = some chain[n - 1] := by
    rw [List.getLast?_eq_getElem?, h.length_take, List.getElem?_take_of_lt (by lia), hblock]
  rw [(h.tracks hbase).latestHeight_eq hlast, hchain.height_eq hblock]

theorem append (h : OnWindow M w chain n tree) (hw : w.Sound M chain) {block : CompactBlock}
    (hblock : chain[n]? = some block) :
    OnWindow M w chain (n + 1) (tree.appendCommitments block.height.toNat
      (toHashArray block.hash) (extractCommitments block)) := by
  have htake := take_succ_eq hblock
  have hholds := h.holds.appendCommitments block
  have hoffset := h.leafOffset
  have hle := h.offset_le
  have htotal : (commitmentsOf (chain.take w.base)).length +
      (commitmentsOf ((chain.take n).drop w.base)).length =
        (commitmentsOf (chain.take n)).length := by
    rw [← h.take_base, ← List.length_append, ← commitmentsOf_append, List.take_append_drop]
  have hcount : min (extractCommitments block).length
      ((commitmentsOf (chain.take n)).length + (extractCommitments block).length -
        w.leafOffset) = (extractCommitments block).length := by
    apply Nat.min_eq_left
    lia
  rw [← htake] at hholds
  refine ⟨treeInvariant_appendBlock hw.aligned h.invariant block, ?_, ?_, ?_,
    Nat.le_succ_of_le h.base_le, (List.getElem?_eq_some_iff.mp hblock).1⟩
  · have hleaves := hholds.leaves
    rw [CommitmentTreeDb.leafOffset_appendCommitments, hoffset] at hleaves
    exact hleaves
  · have hbase : w.base ≤ (chain.take n).length := by
      rw [h.length_take]
      exact h.base_le
    rw [CommitmentTreeDb.blocks_appendCommitments, h.blocks, htake,
      List.drop_append_of_le_length hbase, recordsFrom_append, htotal]
    congr 1
    rw [recordsFrom, recordsFrom, recordOf, hcount]
  · have hlength := hholds.offset_le
    rw [CommitmentTreeDb.leafOffset_appendCommitments, hoffset] at hlength
    exact hlength

theorem build (h : OnWindow M w chain n tree) {tree' : CommitmentTreeDb} {anchorHeight : Nat}
    {db : List UInt8} {broadcast : BroadcastData}
    (hbuild : tree.buildPirDbAndBroadcast M anchorHeight = some (tree', db, broadcast)) :
    OnWindow M w chain n tree' := by
  rcases CommitmentTreeDb.build_tree_eq h.invariant.cache hbuild with ⟨cache, _, htree, _⟩
  refine ⟨CommitmentTreeDb.treeInvariant_build h.invariant hbuild, ?_, ?_, h.offset_le, h.base_le,
    h.le⟩
  · rw [htree]
    exact h.leaves
  · rw [htree]
    exact h.blocks

end OnWindow

/-!
## Preparing a window
-/

/-- The window that starts past all shards but the last ones.  Records start at the block
that completed the shard before it, or at the next one if that block ends with it. -/
def Window.ofReports (chain : ChainView) (subtreeRoots : List SubtreeRoot)
    (windowShardLimit tipHeight : Nat) : Window :=
  if clampShardLimit windowShardLimit ≤ subtreeRoots.length then
    let windowStart := subtreeRoots.length - (clampShardLimit windowShardLimit - 1)
    let completing := ((subtreeRoots[windowStart - 1]?).map
      SubtreeRoot.completingBlockHeight).getD 0
    { leafOffset := windowStart * shardLeaves
      roots := prefetchedRoots subtreeRoots windowStart
      base :=
        if (commitmentsOf (chain.take (completing + 1))).length = windowStart * shardLeaves then
          completing + 1
        else completing }
  else { leafOffset := 0, roots := [], base := minSyncHeight tipHeight }

/-- Lightwalletd has part of the chain, reports the shards it completes, and these give the
window.  No block below the activation height has commitments. -/
structure ReportsWindow (M : MerkleHashOrchard) (w : Window) (chain : ChainView)
    (client : LwdClient) (windowShardLimit : Nat) : Prop where
  view : client.blocks.view.IsPrefix chain
  nonempty : client.blocks.view ≠ []
  reports : forall subtreeRoots, client.subtreeRoots = some subtreeRoots ->
    ReportsShards M client.blocks.view subtreeRoots ∧
      w = Window.ofReports chain subtreeRoots windowShardLimit client.blocks.view.tipHeight
  activation : commitmentsOf (chain.take (minSyncHeight client.blocks.view.tipHeight)) = []

section Prepare

variable {M : MerkleHashOrchard} {w : Window} {chain : ChainView} {U : BlockUniverse}

theorem onWindow_seedWindow (hchain : HonestChain U M chain) {height : Nat}
    {block : CompactBlock} (hblock : chain[height]? = some block)
    (hbefore : (commitmentsOf (chain.take height)).length < w.leafOffset)
    (hafter : w.leafOffset ≤ (commitmentsOf (chain.take (height + 1))).length)
    (haligned : w.leafOffset % shardLeaves = 0)
    (hbase : w.base =
      if (commitmentsOf (chain.take (height + 1))).length = w.leafOffset then height + 1
      else height) :
    OnWindow M w chain (height + 1) (seedWindow w.leafOffset w.roots height block) := by
  have hlt := (List.getElem?_eq_some_iff.mp hblock).1
  have hlength : (chain.take (height + 1)).length = height + 1 := by
    rw [List.length_take]
    exact Nat.min_eq_left hlt
  have hsize : (commitmentsOf (chain.take (height + 1))).length =
      (commitmentsOf (chain.take height)).length + (extractCommitments block).length := by
    rw [take_succ_eq hblock, commitmentsOf_append, commitmentsOf_singleton, List.length_append]
  have hspill := completingBlockSpillover_eq hchain.commitments hblock hbefore
  have hheight := hchain.blocks.height_eq hblock
  rcases holdsChain_seedWindow hchain.commitments hblock w.roots hbefore hafter with
    ⟨hholds, hoffset, _⟩
  have hinvariant := CommitmentTreeDb.treeInvariant_withOffset M w.leafOffset w.roots
  have hleaves := hholds.leaves
  rw [hoffset] at hleaves
  by_cases hend : (commitmentsOf (chain.take (height + 1))).length = w.leafOffset
  · have hempty : completingBlockSpillover block w.leafOffset = [] := by
      rw [hspill]
      apply List.drop_of_length_le
      lia
    have hseed : seedWindow w.leafOffset w.roots height block =
        CommitmentTreeDb.withOffset w.leafOffset w.roots := by
      rw [seedWindow, hempty]
      rfl
    rw [if_pos hend] at hbase
    rw [hseed] at hleaves ⊢
    refine ⟨hinvariant, hleaves, ?_, hafter, Nat.le_of_eq hbase, hlt⟩
    rw [hbase, List.drop_of_length_le (Nat.le_of_eq hlength)]
    rfl
  · have hspillLength : (completingBlockSpillover block w.leafOffset).length =
        (commitmentsOf (chain.take height)).length + (extractCommitments block).length -
          w.leafOffset := by
      rw [hspill, List.length_drop]
      lia
    have hnonempty : ¬ (completingBlockSpillover block w.leafOffset).isEmpty = true := by
      rw [List.isEmpty_iff_length_eq_zero]
      lia
    have hseed : seedWindow w.leafOffset w.roots height block =
        (CommitmentTreeDb.withOffset w.leafOffset w.roots).appendCommitments height
          (toHashArray block.hash) (completingBlockSpillover block w.leafOffset) := by
      rw [seedWindow]
      exact if_neg hnonempty
    rw [if_neg hend] at hbase
    rw [hseed] at hleaves ⊢
    refine ⟨?_, hleaves, ?_, hafter, ?_, hlt⟩
    · have hstep : CommitmentTreeDb.TreeStep M .wrapping (fun _ _ => 0) _ _ _ :=
        .appendCommitments (CommitmentTreeDb.withOffset w.leafOffset w.roots) block.height
          (toHashArray block.hash) (completingBlockSpillover block w.leafOffset)
      rw [hheight] at hstep
      exact CommitmentTreeDb.treeInvariant_step haligned hinvariant hstep
    · have hdrop : (chain.take (height + 1)).drop w.base = [block] := by
        rw [hbase, take_succ_eq hblock,
          List.drop_append_of_le_length (by rw [List.length_take]; lia),
          List.drop_of_length_le (by rw [List.length_take]; lia), List.nil_append]
      have hcount : min (extractCommitments block).length
          ((commitmentsOf (chain.take height)).length + (extractCommitments block).length -
            w.leafOffset) = (completingBlockSpillover block w.leafOffset).length := by
        rw [hspillLength]
        apply Nat.min_eq_right
        lia
      rw [hdrop, recordsFrom, recordsFrom, recordOf, hbase, hheight, hcount,
        CommitmentTreeDb.blocks_appendCommitments]
      rfl
    · rw [hbase]
      exact Nat.le_succ height

theorem prefetchedTrue_of_reports {view : ChainView} {subtreeRoots : List SubtreeRoot}
    {windowStart : Nat} (hbefore : (commitmentsOf view).IsPrefix (commitmentsOf chain))
    (hreports : ReportsShards M view subtreeRoots) (hstart : windowStart ≤ subtreeRoots.length)
    (hle : windowStart * shardLeaves ≤ (commitmentsOf view).length) :
    PrefetchedTrue M ((commitmentsOf chain).take (windowStart * shardLeaves))
      (prefetchedRoots subtreeRoots windowStart) := by
  have hpos : 0 < shardLeaves := by decide
  intro i hi
  rw [List.length_take, Nat.min_eq_left (Nat.le_trans hle hbefore.length_le),
    Nat.mul_div_cancel _ hpos] at hi
  have hin : i < subtreeRoots.length := Nat.lt_of_lt_of_le hi hstart
  refine ⟨ByteVec.ofBytes 32 subtreeRoots[i].rootHash, ?_, ?_⟩
  · rw [prefetchedRoots, List.getElem?_map, List.getElem?_take_of_lt hi,
      List.getElem?_eq_getElem hin]
    rfl
  · rw [← hreports.root i _ (List.getElem?_eq_getElem hin)]
    apply MerkleTree.node_congr
    intro position _ hlt
    have hpower : 2 ^ shardHeight = shardLeaves := rfl
    rw [hpower] at hlt
    have hposition : position < windowStart * shardLeaves :=
      Nat.lt_of_lt_of_le hlt (Nat.mul_le_mul_right _ hi)
    have hthere := Nat.lt_of_lt_of_le hposition hle
    rw [List.getElem?_take_of_lt hposition,
      List.prefix_iff_getElem?.mp hbefore position hthere,
      List.getElem?_eq_getElem hthere]

theorem completing_of_reports {view : ChainView} {subtreeRoots : List SubtreeRoot}
    (hview : view.IsPrefix chain) (hreports : ReportsShards M view subtreeRoots)
    {shards : Nat} (hpos : 0 < shards) {last : SubtreeRoot}
    (hlast : subtreeRoots[shards - 1]? = some last) :
    exists block, chain[last.completingBlockHeight]? = some block ∧
      last.completingBlockHeight < view.length ∧
      (commitmentsOf (chain.take last.completingBlockHeight)).length < shards * shardLeaves ∧
      shards * shardLeaves ≤
        (commitmentsOf (chain.take (last.completingBlockHeight + 1))).length := by
  rcases hreports.completing _ last hlast with ⟨block, hblock, hbefore, hafter⟩
  rw [Nat.sub_add_cancel hpos] at hbefore hafter
  have hlt := (List.getElem?_eq_some_iff.mp hblock).1
  refine ⟨block, ?_, hlt, ?_, ?_⟩
  · rw [List.prefix_iff_eq_take.mp hview, List.getElem?_take_of_lt hlt] at hblock
    exact hblock
  · rw [take_eq_of_isPrefix hview (Nat.le_of_lt hlt)] at hbefore
    exact hbefore
  · rw [take_eq_of_isPrefix hview hlt] at hafter
    exact hafter

/-- A window that is reported is sound while it holds the chain. -/
theorem sound_ofReports {view : ChainView} {subtreeRoots : List SubtreeRoot}
    {limit tipHeight : Nat} (hview : view.IsPrefix chain)
    (hreports : ReportsShards M view subtreeRoots)
    (hactivation : commitmentsOf (chain.take (minSyncHeight tipHeight)) = [])
    (hcapacity : (commitmentsOf chain).length ≤
      (Window.ofReports chain subtreeRoots limit tipHeight).leafOffset +
        l0MaxShards * shardLeaves) :
    (Window.ofReports chain subtreeRoots limit tipHeight).Sound M chain := by
  have hshardLeaves : shardLeaves = 65536 := rfl
  have hlimit := one_le_clampShardLimit limit
  have hbefore : (commitmentsOf view).IsPrefix (commitmentsOf chain) := by
    rcases hview with ⟨rest, hrest⟩
    rw [← hrest, commitmentsOf_append]
    exact List.prefix_append _ _
  unfold Window.ofReports at hcapacity ⊢
  split
  · next hcompleted =>
      rw [if_pos hcompleted] at hcapacity
      have hle : (subtreeRoots.length - (clampShardLimit limit - 1)) * shardLeaves ≤
          (commitmentsOf view).length := by
        have hcount := hreports.count
        rw [hshardLeaves] at hcount ⊢
        lia
      refine ⟨Nat.mul_mod_left _ _, Nat.le_trans hle hbefore.length_le, ?_,
        prefetchedTrue_of_reports hbefore hreports (Nat.sub_le _ _) hle, ?_, hcapacity⟩
      · change (prefetchedRoots _ _).length = _ * shardLeaves / shardLeaves
        rw [Nat.mul_div_cancel _ (by rw [hshardLeaves]; exact Nat.zero_lt_succ _),
          prefetchedRoots, List.length_map, List.length_take]
        exact Nat.min_eq_left (Nat.sub_le _ _)
      · dsimp only
        split
        · next hends => exact Nat.le_of_eq hends
        · have hin : subtreeRoots.length - (clampShardLimit limit - 1) - 1 <
              subtreeRoots.length := by lia
          have hlast := List.getElem?_eq_getElem hin
          rcases completing_of_reports hview hreports (by lia) hlast with
            ⟨_, _, _, hfront, _⟩
          rw [hlast]
          exact Nat.le_of_lt hfront
  · next hfew =>
      rw [if_neg hfew] at hcapacity
      refine ⟨rfl, Nat.zero_le _, ?_, ?_, ?_, hcapacity⟩
      · exact (Nat.zero_div _).symm
      · intro i hi
        rw [List.take_zero, List.length_nil, Nat.zero_div] at hi
        cases hi
      · rw [hactivation]
        exact Nat.le_refl 0

theorem getBlockRange_single {view : ChainView}
    (hnumbered : Numbered ChainView.heightOf 0 view) {height : Nat} {block : CompactBlock}
    (hblock : view[height]? = some block) : view.getBlockRange height height = [block] := by
  have hlt := (List.getElem?_eq_some_iff.mp hblock).1
  have hlength : (view.take height).length = height := by
    rw [List.length_take]
    exact Nat.min_eq_left (Nat.le_of_lt hlt)
  rw [ChainView.getBlockRange_eq hnumbered, take_succ_eq hblock,
    List.drop_append_of_le_length (Nat.le_of_eq hlength.symm),
    List.drop_of_length_le (Nat.le_of_eq hlength), List.nil_append]

theorem getBlockRange_single_eq {connection : Connection} {height : Nat}
    {block found : CompactBlock} {rest : List CompactBlock}
    (hnumbered : Numbered ChainView.heightOf 0 connection.view)
    (hblock : connection.view[height]? = some block)
    (hrange : connection.getBlockRange height height = some (found :: rest)) : found = block := by
  unfold Connection.getBlockRange at hrange
  split at hrange
  · cases hrange
  · rw [getBlockRange_single hnumbered hblock] at hrange
    cases hrange
    rfl

theorem onWindow_new (hactivation : commitmentsOf (chain.take w.base) = [])
    (hle : w.base ≤ chain.length) (hoffset : w.leafOffset = 0) (hroots : w.roots = []) :
    OnWindow M w chain w.base CommitmentTreeDb.new := by
  refine ⟨?_, ?_, ?_, ?_, Nat.le_refl _, hle⟩
  · rw [hoffset, hroots]
    exact CommitmentTreeDb.treeInvariant_withOffset M 0 []
  · rw [hactivation, hoffset]
    rfl
  · rw [List.drop_of_length_le (List.length_take_le _ _)]
    rfl
  · rw [hoffset]
    exact Nat.zero_le _

theorem prepareTree_onWindow (hchain : HonestChain U M chain) {client : LwdClient}
    {limit n : Nat} {tree : CommitmentTreeDb} {initialTreeSize : Option UInt32}
    (hreports : ReportsWindow M w chain client limit)
    (h : prepareTree client client.blocks.view.tipHeight limit =
      .ok (tree, n, initialTreeSize)) :
    OnWindow M w chain n tree ∧
      initialTreeSize = reportedSize (commitmentsOf (chain.take n)).length := by
  have hview := hreports.view
  have hnumbered := hchain.blocks.heights.of_prefix hview
  have hpos := one_le_clampShardLimit limit
  rcases prepareTree_eq_ok h with
    ⟨roots, last, found, rest, hroots, hcompleted, hlast, hrange, rfl, rfl, rfl⟩ |
    ⟨roots, hroots, hfew, rfl, rfl, rfl⟩
  · rcases hreports.reports roots hroots with ⟨hshards, hw⟩
    rw [Window.ofReports, if_pos hcompleted] at hw
    rcases completing_of_reports hview hshards (by lia) hlast with
      ⟨block, hin, hlt, hbefore, hafter⟩
    have hblock : client.blocks.view[last.completingBlockHeight]? = some block := by
      rw [List.prefix_iff_eq_take.mp hview, List.getElem?_take_of_lt hlt]
      exact hin
    have hfound := getBlockRange_single_eq hnumbered hblock hrange
    dsimp only at hw
    rw [hlast] at hw
    have hoffset := congrArg Window.leafOffset hw
    have hprefetched := congrArg Window.roots hw
    have hbase := congrArg Window.base hw
    dsimp only at hoffset hprefetched hbase
    have hmap : (roots.take (roots.length - (clampShardLimit limit - 1))).map
        (fun root => ByteVec.ofBytes 32 root.rootHash) = w.roots := hprefetched.symm
    rw [← hoffset] at hbefore hafter hbase ⊢
    rw [hfound, hmap]
    have hon := onWindow_seedWindow hchain hin hbefore hafter
      (hoffset ▸ Nat.mul_mod_left _ _) hbase
    have hsome : 0 < (commitmentsOf
        (chain.take (last.completingBlockHeight + 1))).length :=
      Nat.lt_of_lt_of_le (Nat.zero_lt_of_lt hbefore) hafter
    refine ⟨hon, ?_⟩
    rw [reportedSize, if_pos hsome, hon.treeSize_eq]
  · rcases hreports.reports roots hroots with ⟨_, hw⟩
    rw [Window.ofReports, if_neg (Nat.not_le_of_lt hfew)] at hw
    subst hw
    have htip := (hchain.of_prefix hreports.nonempty hview).blocks.tipHeight_succ
    have hle : minSyncHeight client.blocks.view.tipHeight ≤ chain.length := by
      have hlength := hview.length_le
      unfold minSyncHeight
      split <;> lia
    refine ⟨onWindow_new hreports.activation hle rfl rfl, ?_⟩
    rw [hreports.activation]
    rfl

theorem prepareTree_isOk (hchain : HonestChain U M chain) {client : LwdClient} {limit : Nat}
    (hreports : ReportsWindow M w chain client limit) {subtreeRoots : List SubtreeRoot}
    (hroots : client.subtreeRoots = some subtreeRoots)
    (hconnection : forall first last, client.blocks.fails first last = false) :
    exists tree n initialTreeSize,
      prepareTree client client.blocks.view.tipHeight limit = .ok (tree, n, initialTreeSize) := by
  have hnumbered := hchain.blocks.heights.of_prefix hreports.view
  have hlimit := one_le_clampShardLimit limit
  rcases hreports.reports subtreeRoots hroots with ⟨hshards, _⟩
  rw [prepareTree, hroots]
  dsimp only
  split
  · next hcompleted =>
      have hin : subtreeRoots.length - (clampShardLimit limit - 1) - 1 <
          subtreeRoots.length := by lia
      have hlast := List.getElem?_eq_getElem hin
      rcases hshards.completing _ _ hlast with ⟨block, hblock, _⟩
      rw [hlast]
      dsimp only
      rw [Connection.getBlockRange, hconnection, getBlockRange_single hnumbered hblock]
      exact ⟨_, _, _, rfl⟩
  · exact ⟨_, _, _, rfl⟩

end Prepare

end Witness
end SpendabilityPir
