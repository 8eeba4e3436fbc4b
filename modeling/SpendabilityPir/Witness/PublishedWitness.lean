import SpendabilityPir.Witness.PirStub
import SpendabilityPir.Witness.WindowTree
import SpendabilityPir.Witness.WitnessClient

/-!
# Witnesses of what is published

A published state shows the chain through some block.  Its rows are those of the
protocol's leaves, and a row reconstructs with its broadcast to a witness in the
protocol's tree as long as the position's sub-shard has not changed in between.
-/

namespace SpendabilityPir
namespace Witness

open Foundation Shared

/-!
## The protocol's rows and witnesses
-/

section Protocol

variable (M : MerkleHashOrchard)

def protocolRow (commitments : List Hash) (position : Nat) : List UInt8 :=
  ((List.range subshardLeaves).map (fun i => protocolLeaf M commitments
    (position / 2 ^ 16 * shardLeaves + position / 2 ^ 8 % 256 * subshardLeaves + i))).flatMap
      List.Vector.toList

/-- A witness of a position in the protocol's tree. -/
structure ExactWitness (commitments : List Hash) (position : Nat) (witness : PirWitness) :
    Prop where
  ofPosition : witness.position = position
  root : some witness.anchorRoot = protocolRoot M commitments treeDepth 0
  siblings : forall level : Fin treeDepth, some (witness.siblings level) =
    protocolRoot M commitments level.val ((position / 2 ^ level.val) ^^^ 1)

variable {M}

theorem ExactWitness.verifies {commitments : List Hash} {position : Nat}
    {witness : PirWitness} (h : ExactWitness M commitments position witness)
    (hposition : position < 2 ^ 32) :
    computeRootFromPath M position (protocolLeaf M commitments position) witness.siblings =
      some witness.anchorRoot := by
  have hpath : MerkleTree.pathRoot (combineRoots M) 0 position
      (siblingNode witness.siblings) treeDepth (some (protocolLeaf M commitments position)) =
        protocolRoot M commitments treeDepth (position / 2 ^ treeDepth) := by
    have hsiblings : forall level, level < treeDepth -> siblingNode witness.siblings level =
        MerkleTree.node (combineRoots M) 0
          (fun position => some (protocolLeaf M commitments position)) level
          ((position / 2 ^ level) ^^^ 1) := by
      intro level hlevel
      rw [siblingNode_eq witness.siblings ⟨level, hlevel⟩]
      exact h.siblings ⟨level, hlevel⟩
    exact MerkleTree.pathRoot_eq_node (combineRoots M) hsiblings
  have htop : position / 2 ^ treeDepth = 0 := Nat.div_eq_of_lt hposition
  rw [computeRootFromPath_eq, hpath, htop, h.root]

theorem protocolRow_congr {commitments commitments' : List Hash} {position : Nat}
    (h : commitments'.take (CommitmentTreeDb.subshardEnd position) =
      commitments.take (CommitmentTreeDb.subshardEnd position)) :
    protocolRow M commitments' position = protocolRow M commitments position := by
  have hshard : shardLeaves = 65536 := rfl
  have hsubshard : subshardLeaves = 256 := rfl
  rw [protocolRow, protocolRow]
  congr 1
  apply List.map_congr_left
  intro i hi
  have hi256 : i < 256 := List.mem_range.mp hi
  have hlt : position / 2 ^ 16 * shardLeaves + position / 2 ^ 8 % 256 * subshardLeaves + i <
      CommitmentTreeDb.subshardEnd position := by
    rw [CommitmentTreeDb.subshardEnd, hshard, hsubshard]
    lia
  rw [protocolLeaf, protocolLeaf, List.getD_eq_getElem?_getD, List.getD_eq_getElem?_getD,
    ← List.getElem?_take_of_lt hlt, h, List.getElem?_take_of_lt hlt]

end Protocol

/-- The leaves of a position's sub-shard are the same in two prefixes of a chain. -/
def SameSubshard (chain : ChainView) (position m n : Nat) : Prop :=
  (commitmentsOf (chain.take m)).take (CommitmentTreeDb.subshardEnd position) =
    (commitmentsOf (chain.take n)).take (CommitmentTreeDb.subshardEnd position)

theorem sameSubshard_of_full {chain : ChainView} {position m n : Nat} (hle : n ≤ m)
    (hfull : CommitmentTreeDb.subshardEnd position ≤ (commitmentsOf (chain.take n)).length) :
    SameSubshard chain position m n :=
  commitmentsOf_take_eq hle hfull

theorem Window.Sound.canonicalRoots {M : MerkleHashOrchard} {w : Window} {chain : ChainView}
    (hw : w.Sound M chain) (hchain : HonestCommitments M chain) : AllCanonical M w.roots := by
  intro root hroot
  rcases List.mem_iff_getElem?.mp hroot with ⟨i, hi⟩
  have hlength : ((commitmentsOf chain).take w.leafOffset).length = w.leafOffset := by
    rw [List.length_take]
    exact Nat.min_eq_left hw.offset_le
  have hlt : i < ((commitmentsOf chain).take w.leafOffset).length / shardLeaves := by
    rw [hlength, ← hw.counted]
    exact (List.getElem?_eq_some_iff.mp hi).1
  rcases hw.roots i hlt with ⟨found, hfound, hnode⟩
  rw [hi] at hfound
  cases hfound
  have hend : (i + 1) * 2 ^ shardHeight ≤
      ((commitmentsOf chain).take w.leafOffset).length :=
    Nat.le_trans (Nat.mul_le_mul_right _ hlt) (Nat.div_mul_le_self _ shardLeaves)
  have hcanonicalRoot : exists root, rootAt M 0
      (fun p => ((commitmentsOf chain).take w.leafOffset)[p]?) shardHeight i = some root ∧
        Canonical M root := by
    apply rootAt_of_canonical
    intro j _ hj
    have hin := Nat.lt_of_lt_of_le hj hend
    refine ⟨_, List.getElem?_eq_getElem hin, hchain.canonical _ ?_⟩
    exact List.mem_of_mem_take (List.getElem_mem hin)
  rcases hcanonicalRoot with ⟨node, heq, hcanonical⟩
  rw [hnode] at heq
  cases heq
  exact hcanonical

namespace OnWindow

variable {M : MerkleHashOrchard} {w : Window} {chain : ChainView} {n : Nat}
variable {tree : CommitmentTreeDb} {U : BlockUniverse}

theorem before_append (h : OnWindow M w chain n tree) :
    (commitmentsOf chain).take w.leafOffset ++ tree.leaves = commitmentsOf (chain.take n) := by
  have hbefore := commitmentsOf_take_isPrefix chain h.le
  rw [List.take_length] at hbefore
  rcases hbefore with ⟨rest, heq⟩
  rw [h.leaves, ← heq, List.take_append_of_le_length h.offset_le, List.take_append_drop]

theorem length_before (hw : w.Sound M chain) :
    ((commitmentsOf chain).take w.leafOffset).length = w.leafOffset := by
  rw [List.length_take]
  exact Nat.min_eq_left hw.offset_le

theorem treeSize_le (h : OnWindow M w chain n tree) (hchain : HonestChain U M chain) :
    tree.treeSize ≤ 2 ^ 32 := by
  have hlt := hchain.commitments.length_lt hchain.blocks.nonempty
  have hle := length_commitmentsOf_take_le chain n
  rw [h.treeSize_eq]
  lia

theorem fits (h : OnWindow M w chain n tree) (hchain : HonestChain U M chain) :
    tree.FitsShardIndex := CommitmentTreeDb.fitsShardIndex_of_le (h.treeSize_le hchain)

theorem localShardCount_le (h : OnWindow M w chain n tree) (hw : w.Sound M chain)
    (hchain : HonestChain U M chain) : tree.localShardCount ≤ l0MaxShards := by
  rw [CommitmentTreeDb.localShardCount_le_iff (h.aligned hw) (h.fits hchain), h.leaves,
    List.length_drop]
  have hle := length_commitmentsOf_take_le chain n
  have hcapacity := hw.capacity
  lia

theorem canonicalLeaves (h : OnWindow M w chain n tree) (hchain : HonestChain U M chain) :
    tree.CanonicalLeaves M := by
  intro leaf hleaf
  rw [h.leaves] at hleaf
  have hbefore := commitmentsOf_take_isPrefix chain h.le
  rw [List.take_length] at hbefore
  exact hchain.commitments.canonical leaf (hbefore.subset (List.mem_of_mem_drop hleaf))

theorem leafNode_eq (h : OnWindow M w chain n tree) (hw : w.Sound M chain) {position : Nat}
    (hlo : w.leafOffset ≤ position) :
    tree.leafNode M position =
      some (protocolLeaf M (commitmentsOf (chain.take n)) position) := by
  have hlength := length_before hw
  rw [CommitmentTreeDb.leafNode_eq_protocolLeaf (h.leafOffset.trans hlength.symm)
    (by rw [hlength]; exact hlo), h.before_append]

theorem shardNode_eq (h : OnWindow M w chain n tree) (hw : w.Sound M chain)
    (hchain : HonestChain U M chain) (i : Nat) :
    tree.shardNode M i = protocolRoot M (commitmentsOf (chain.take n)) shardHeight i := by
  have htrue : PrefetchedTrue M ((commitmentsOf chain).take w.leafOffset)
      tree.prefetchedShardRoots := by
    rw [h.invariant.prefetched]
    exact hw.roots
  rw [CommitmentTreeDb.shardNode_eq_protocolRoot (h.aligned hw) (h.fits hchain)
    (h.leafOffset.trans (length_before hw).symm) htrue, h.before_append]

theorem treeRoot_eq (h : OnWindow M w chain n tree) (hw : w.Sound M chain)
    (hchain : HonestChain U M chain) :
    tree.treeRoot M = protocolRoot M (commitmentsOf (chain.take n)) treeDepth 0 := by
  have hstack := MerkleTree.node_add (combineRoots M) 0
    (fun position => some (protocolLeaf M (commitmentsOf (chain.take n)) position))
    shardHeight shardHeight 0
  rw [Nat.zero_add] at hstack
  rw [CommitmentTreeDb.treeRoot_eq (h.aligned hw) (h.treeSize_le hchain),
    funext (h.shardNode_eq hw hchain)]
  exact hstack.symm

theorem sibling_eq (h : OnWindow M w chain n tree) (hw : w.Sound M chain)
    (hchain : HonestChain U M chain) {position : Nat} (hlo : w.leafOffset ≤ position)
    (level : Nat) :
    tree.subtreeRoot M level ((position / 2 ^ level) ^^^ 1) =
      protocolRoot M (commitmentsOf (chain.take n)) level ((position / 2 ^ level) ^^^ 1) := by
  unfold CommitmentTreeDb.subtreeRoot
  split
  · next hlevel =>
      have hsplit : position / 2 ^ shardHeight * 2 ^ shardHeight + position % 2 ^ shardHeight =
          position := Nat.div_add_mod' position (2 ^ shardHeight)
      have hi : position % 2 ^ shardHeight < 2 ^ shardHeight := Nat.mod_lt _ (by decide)
      have hwindow (leaf : Nat -> Option Hash)
          (hleaf : forall j, j < 2 ^ shardHeight ->
            tree.leafNode M (position / 2 ^ shardHeight * 2 ^ shardHeight + j) =
              leaf (position / 2 ^ shardHeight * 2 ^ shardHeight + j)) :
          MerkleTree.node (combineRoots M) 0 _ level _ =
            MerkleTree.node (combineRoots M) 0 leaf level
              (((position / 2 ^ shardHeight * 2 ^ shardHeight + position % 2 ^ shardHeight) /
                2 ^ level) ^^^ 1) :=
        MerkleTree.node_sibling_window (combineRoots M) hlevel hi hleaf
      rw [hsplit] at hwindow
      have hown := hwindow (tree.leafNode M) (fun _ _ => rfl)
      have hprotocol := hwindow
        (fun p => some (protocolLeaf M (commitmentsOf (chain.take n)) p)) (by
          intro j _
          have haligned := hw.aligned
          have hshard : shardLeaves = 2 ^ 16 := rfl
          have hheight : shardHeight = 16 := rfl
          rw [hshard] at haligned
          apply h.leafNode_eq hw
          rw [hheight]
          lia)
      exact hown.symm.trans hprotocol
  · next hlevel =>
      have hsum : shardHeight + (level - shardHeight) = level :=
        Nat.add_sub_cancel' (Nat.le_of_not_lt hlevel)
      have hstack := MerkleTree.node_add (combineRoots M) 0
        (fun position => some (protocolLeaf M (commitmentsOf (chain.take n)) position))
        shardHeight (level - shardHeight) ((position / 2 ^ level) ^^^ 1)
      rw [Nat.zero_add, hsum] at hstack
      rw [funext (h.shardNode_eq hw hchain)]
      exact hstack.symm

/-- A witness of the tree is a witness in the protocol's tree. -/
theorem exact_of_witnessOf (h : OnWindow M w chain n tree) (hw : w.Sound M chain)
    (hchain : HonestChain U M chain) {position : Nat} {witness : PirWitness}
    (hlo : w.leafOffset ≤ position) (hposition : witness.position = position)
    (hof : CommitmentTreeDb.WitnessOf M tree position witness) :
    ExactWitness M (commitmentsOf (chain.take n)) position witness where
  ofPosition := hposition
  root := by rw [← h.treeRoot_eq hw hchain, hof.anchor]
  siblings level := by rw [hof.siblings level, h.sibling_eq hw hchain hlo]

theorem positionRow_eq (h : OnWindow M w chain n tree) (hw : w.Sound M chain) {position : Nat}
    (hlo : w.leafOffset ≤ position) :
    tree.positionRow M position = protocolRow M (commitmentsOf (chain.take n)) position := by
  have hshard : shardLeaves = 65536 := rfl
  have haligned := hw.aligned
  rw [hshard] at haligned
  rw [CommitmentTreeDb.positionRow, protocolRow, CommitmentTreeDb.subshardLeavesOf]
  congr 1
  apply List.map_congr_left
  intro i _
  have hge : w.leafOffset ≤ position / 2 ^ 16 * shardLeaves +
      position / 2 ^ 8 % 256 * subshardLeaves + i := by
    rw [hshard]
    lia
  exact Option.some.inj (h.leafNode_eq hw hge)

end OnWindow

/-!
## What a published state shows
-/

/-- Built from the window's tree over the first blocks of the chain. -/
structure PirState.Shows {σ : Type} (pir : PirState σ) (M : MerkleHashOrchard)
    (engine : PirEngine σ) (w : Window) (chain : ChainView) (n : Nat) : Prop where
  built : exists tree tree' db, OnWindow M w chain n tree ∧
    tree.buildPirDbAndBroadcast M (n - 1) = some (tree', db, pir.broadcast) ∧
    engine.setup db scenario = some pir.engineState
  base_lt : w.base < n
  anchorHeight : pir.metadata.anchorHeight = n - 1

def Window.rowOf (w : Window) (position : Nat) : Nat :=
  (position / 2 ^ 16 - w.leafOffset / shardLeaves) * subshardsPerShard +
    position / 2 ^ 8 % 256

/-- The row a client queries for a position of the window it knows. -/
def witnessRow (mode : Arithmetic) (broadcast : BroadcastData) (position : Nat) :
    Outcome WitnessClientError Nat := do
  let (shardIdx, subshardIdx, _) := decomposePosition position
  let windowEnd <- mode.add 32 broadcast.windowStartShard broadcast.windowShardCount
  if shardIdx < broadcast.windowStartShard ∨ shardIdx ≥ windowEnd then
    .error (.error
      (.positionOutsideWindow position broadcast.windowStartShard windowEnd))
  else physicalRowIndex mode shardIdx subshardIdx broadcast.windowStartShard

theorem getWitness_eq (M : MerkleHashOrchard) (mode : Arithmetic) (position : Nat)
    (decodedRow : List UInt8) (broadcast : BroadcastData) :
    getWitness M mode position decodedRow broadcast =
      witnessRow mode broadcast position >>= fun _ =>
        reconstructWitness M mode position (decomposePosition position).1
          (decomposePosition position).2.1 (decomposePosition position).2.2 decodedRow
          broadcast := by
  unfold getWitness witnessRow
  cases hend : (mode.add 32 broadcast.windowStartShard broadcast.windowShardCount :
      Outcome WitnessClientError Nat) with
  | error failure => rfl
  | ok windowEnd =>
      change (if _ then _ else _) = (if _ then _ else _ : Outcome _ _) >>= _
      split <;> rfl

theorem reconstructWitness_position {M : MerkleHashOrchard} {mode : Arithmetic}
    {position shardIdx subshardIdx leafIdx : Nat} {decodedRow : List UInt8}
    {broadcast : BroadcastData} {witness : PirWitness}
    (h : reconstructWitness M mode position shardIdx subshardIdx leafIdx decodedRow
      broadcast = .ok witness) : witness.position = position := by
  rcases bind_eq_ok.mp h with ⟨_, _, h⟩
  rcases bind_eq_ok.mp h with ⟨_, _, h⟩
  rcases bind_eq_ok.mp h with ⟨_, _, h⟩
  rcases bind_eq_ok.mp h with ⟨_, _, h⟩
  rcases bind_eq_ok.mp h with ⟨_, _, h⟩
  rcases bind_eq_ok.mp h with ⟨_, _, h⟩
  rcases bind_eq_ok.mp h with ⟨_, _, h⟩
  rcases bind_eq_ok.mp h with ⟨_, _, h⟩
  cases h
  rfl

theorem reconstructWitness_of_padded {M : MerkleHashOrchard} (mode : Arithmetic)
    (position shardIdx subshardIdx leafIdx : Nat) {decodedRow row : List UInt8}
    (broadcast : BroadcastData) (hrow : row.length = subshardRowBytes)
    (h : decodedRow.take subshardRowBytes = row) :
    reconstructWitness M mode position shardIdx subshardIdx leafIdx decodedRow broadcast =
      reconstructWitness M mode position shardIdx subshardIdx leafIdx row broadcast := by
  have hwide : subshardRowBytes ≤ decodedRow.length := by
    have hlength := congrArg List.length h
    rw [List.length_take, hrow] at hlength
    lia
  have hparsed : parseLeaves decodedRow = parseLeaves row := by
    rw [parseLeaves, if_neg (Nat.not_lt_of_le hwide), parseLeaves,
      if_neg (Nat.not_lt_of_le (Nat.le_of_eq hrow.symm))]
    congr 1
    apply List.map_congr_left
    intro i hi
    have hlt : i < 256 := List.mem_range.mp hi
    have hbytes : subshardRowBytes = 8192 := rfl
    rw [rowLeaf, rowLeaf, slice, slice, ← h, List.drop_take, List.take_take, hbytes,
      Nat.min_eq_left (by lia)]
  rw [reconstructWitness, reconstructWitness, hparsed]

section Shows

variable {σ ε ρ : Type} {M : MerkleHashOrchard} {w : Window} {chain : ChainView}
variable {U : BlockUniverse} {n position : Nat}

theorem rebuildPir_of_onWindow {engine : PirEngine σ} {tree : CommitmentTreeDb}
    (hengine : engine.Accepts scenario) (hchain : HonestChain U M chain)
    (h : OnWindow M w chain n tree) (hbase : w.base < n) :
    exists tree' pir,
      rebuildPir M engine tree scenario (tree.latestHeight.getD 0) = .ok (tree', pir) ∧
      OnWindow M w chain n tree' ∧ pir.Shows M engine w chain n := by
  have hlatest : tree.latestHeight.getD 0 = n - 1 := by
    rw [h.latestHeight_eq hchain.blocks hbase]
    rfl
  rcases CommitmentTreeDb.build_of_canonical h.invariant.cache (h.canonicalLeaves hchain)
      (n - 1) with ⟨tree', db, broadcast, hbuild⟩
  rcases CommitmentTreeDb.build_tree_eq h.invariant.cache hbuild with ⟨_, _, _, _, _, hdb, _⟩
  have hlength : db.length * 8 = scenario.numItems * scenario.itemSizeBits := by
    rw [hdb, CommitmentTreeDb.length_resize]
    exact length_l0Db
  rcases hengine db hlength with ⟨engineState, hsetup⟩
  have hrebuild : exists pir, rebuildPir M engine tree scenario (n - 1) = .ok (tree', pir) ∧
      pir.broadcast = broadcast ∧ pir.engineState = engineState ∧
      pir.metadata.anchorHeight = n - 1 := by
    rw [rebuildPir, hbuild]
    dsimp only
    rw [hsetup]
    exact ⟨_, rfl, rfl, rfl, rfl⟩
  rcases hrebuild with ⟨pir, hpir, hsent, hstate, hanchor⟩
  rw [← hsent] at hbuild
  rw [← hstate] at hsetup
  rw [hlatest]
  exact ⟨tree', pir, hpir, h.build hbuild, ⟨tree, tree', db, h, hbuild, hsetup⟩, hbase, hanchor⟩

theorem OnWindow.position_in_window {tree : CommitmentTreeDb}
    (h : OnWindow M w chain n tree) (hw : w.Sound M chain) (hchain : HonestChain U M chain)
    (hlo : w.leafOffset ≤ position)
    (hhi : position < (commitmentsOf (chain.take n)).length) :
    tree.windowStartShard ≤ position / 2 ^ 16 ∧
      position / 2 ^ 16 < tree.windowStartShard + tree.windowShardCount := by
  apply CommitmentTreeDb.position_in_window (h.aligned hw) (h.treeSize_le hchain)
    (h.localShardCount_le hw hchain)
  · rw [h.leafOffset]
    exact hlo
  · rw [h.treeSize_eq]
    exact hhi

theorem OnWindow.rowOf_eq {tree : CommitmentTreeDb} (h : OnWindow M w chain n tree)
    (hchain : HonestChain U M chain) : tree.rowOf position = w.rowOf position := by
  rw [CommitmentTreeDb.rowOf, CommitmentTreeDb.windowStartShard_eq (h.fits hchain),
    h.leafOffset]
  rfl

namespace PirState.Shows

variable {pir : PirState σ}

theorem broadcast_anchorHeight {engine : PirEngine σ} (h : pir.Shows M engine w chain n) :
    pir.broadcast.anchorHeight = n - 1 := by
  rcases h.built with ⟨tree, _, _, hon, hbuild, _⟩
  rcases CommitmentTreeDb.build_tree_eq hon.invariant.cache hbuild with
    ⟨_, _, _, _, _, _, hbroadcast⟩
  rw [hbroadcast]
  rfl

theorem broadcast_window {engine : PirEngine σ} (h : pir.Shows M engine w chain n)
    (hchain : HonestChain U M chain) :
    exists tree, OnWindow M w chain n tree ∧
      pir.broadcast.windowStartShard = tree.windowStartShard ∧
      pir.broadcast.windowShardCount = tree.windowShardCount ∧
      tree.windowStartShard = w.leafOffset / shardLeaves ∧
      tree.windowStartShard + tree.windowShardCount < 2 ^ 32 := by
  rcases h.built with ⟨tree, _, _, hon, hbuild, _⟩
  rcases CommitmentTreeDb.build_tree_eq hon.invariant.cache hbuild with
    ⟨_, _, _, _, _, _, hbroadcast⟩
  have hstart := CommitmentTreeDb.windowStartShard_eq (hon.fits hchain)
  rw [hon.leafOffset] at hstart
  have hsmall := hon.offset_le
  have hsize := hon.treeSize_le hchain
  rw [hon.treeSize_eq] at hsize
  have hmax : tree.windowShardCount ≤ 32 := Nat.min_le_right _ _
  have hshard : shardLeaves = 65536 := rfl
  refine ⟨tree, hon, by rw [hbroadcast]; rfl, by rw [hbroadcast]; rfl, hstart, ?_⟩
  rw [hstart, hshard]
  lia

theorem witnessRow_eq {engine : PirEngine σ} (h : pir.Shows M engine w chain n)
    (hw : w.Sound M chain) (hchain : HonestChain U M chain) (mode : Arithmetic)
    (hlo : w.leafOffset ≤ position)
    (hhi : position < (commitmentsOf (chain.take n)).length) :
    witnessRow mode pir.broadcast position = .ok (w.rowOf position) := by
  rcases h.broadcast_window hchain with ⟨tree, hon, hstart, hcount, heq, hend⟩
  rcases hon.position_in_window hw hchain hlo hhi with ⟨hshardLo, hshardEnd⟩
  have hsize := hon.treeSize_le hchain
  rw [hon.treeSize_eq] at hsize
  have hin : ¬ (position / 2 ^ 16 < tree.windowStartShard ∨
      position / 2 ^ 16 ≥ tree.windowStartShard + tree.windowShardCount) := by lia
  rw [witnessRow, decomposePosition_of_lt (Nat.lt_of_lt_of_le hhi hsize), hstart, hcount]
  dsimp only
  rw [Arithmetic.add_of_lt mode hend, ok_bind, if_neg hin, physicalRowIndex,
    Arithmetic.sub_of_le mode 32 hshardLo, ok_bind, heq]
  rfl

theorem answer {engine : QueryEngine σ ε} {client : PirClient ρ}
    (h : pir.Shows M engine.toPirEngine w chain n) (hw : w.Sound M chain)
    (hchain : HonestChain U M chain) (hclient : client.Retrieves engine scenario)
    (hlo : w.leafOffset ≤ position)
    (hhi : position < (commitmentsOf (chain.take n)).length) (seed : ρ) :
    exists response,
      engine.answerQuery pir.engineState (client.generateQuery (w.rowOf position) seed) =
        .ok response ∧
      (client.decodeResponse seed response).take subshardRowBytes =
        protocolRow M (commitmentsOf (chain.take n)) position := by
  rcases h.built with ⟨tree, _, db, hon, hbuild, hsetup⟩
  rcases CommitmentTreeDb.build_tree_eq hon.invariant.cache hbuild with
    ⟨_, _, _, _, _, hdb, _⟩
  have hlength : db.length * 8 = scenario.numItems * scenario.itemSizeBits := by
    rw [hdb, CommitmentTreeDb.length_resize]
    exact length_l0Db
  rcases hon.position_in_window hw hchain hlo hhi with ⟨hshardLo, hshardEnd⟩
  have hidx := CommitmentTreeDb.rowOf_lt hshardLo hshardEnd
  rw [hon.rowOf_eq hchain] at hidx
  have hslice := CommitmentTreeDb.slice_rowOf (hon.aligned hw) hon.invariant.cache
    (hon.fits hchain) hbuild hshardLo hshardEnd
  rw [hon.rowOf_eq hchain, hon.positionRow_eq hw hlo] at hslice
  rcases hclient db pir.engineState (w.rowOf position) seed hlength hsetup hidx with
    ⟨response, hresponse, hrow⟩
  exact ⟨response, hresponse, hrow.trans hslice⟩

theorem reconstruct {engine : PirEngine σ} (h : pir.Shows M engine w chain n)
    (hw : w.Sound M chain) (hchain : HonestChain U M chain) (mode : Arithmetic)
    (hlo : w.leafOffset ≤ position)
    (hhi : position < (commitmentsOf (chain.take n)).length) {decodedRow : List UInt8}
    (hrow : CanonicalRow M decodedRow) :
    exists witness, reconstructWitness M mode position (position / 2 ^ 16)
      (position / 2 ^ 8 % 256) (position % 256) decodedRow pir.broadcast = .ok witness := by
  rcases h.built with ⟨tree, _, _, hon, hbuild, _⟩
  rcases CommitmentTreeDb.build_tree_eq hon.invariant.cache hbuild with
    ⟨_, shards, _, _, hshards, _, hbroadcast⟩
  have hprefetched : AllCanonical M tree.prefetchedShardRoots := by
    rw [hon.invariant.prefetched]
    exact hw.canonicalRoots hchain.commitments
  have hwf := CommitmentTreeDb.broadcastOf_wellFormed (hon.aligned hw) (hon.treeSize_le hchain)
    (hon.canonicalLeaves hchain) hprefetched hshards (n - 1)
  rw [← hbroadcast] at hwf
  rcases hon.position_in_window hw hchain hlo hhi with ⟨hshardLo, hshardEnd⟩
  have hsize := hon.treeSize_le hchain
  rw [hon.treeSize_eq] at hsize
  rcases reconstructWitness_of_window mode position (Nat.lt_of_lt_of_le hhi hsize) hwf hrow
      (by rw [hbroadcast]; exact hshardLo) (by rw [hbroadcast]; exact hshardEnd) with
    ⟨_, witness, _, hwitness, _⟩
  exact ⟨witness, hwitness⟩

/-- The row of the same sub-shard reconstructs to the protocol's witness. -/
theorem reconstruct_exact {engine : PirEngine σ} (h : pir.Shows M engine w chain n)
    (hw : w.Sound M chain) (hchain : HonestChain U M chain) (mode : Arithmetic)
    (hlo : w.leafOffset ≤ position)
    (hhi : position < (commitmentsOf (chain.take n)).length) :
    exists witness, reconstructWitness M mode position (position / 2 ^ 16)
        (position / 2 ^ 8 % 256) (position % 256)
        (protocolRow M (commitmentsOf (chain.take n)) position) pir.broadcast = .ok witness ∧
      witness.anchorHeight = n - 1 ∧
      ExactWitness M (commitmentsOf (chain.take n)) position witness := by
  rcases h.built with ⟨tree, _, _, hon, hbuild, _⟩
  have hprefetched : AllCanonical M tree.prefetchedShardRoots := by
    rw [hon.invariant.prefetched]
    exact hw.canonicalRoots hchain.commitments
  have hlo' : tree.leafOffset ≤ position := hon.leafOffset.symm ▸ hlo
  have hhi' : position < tree.treeSize := hon.treeSize_eq.symm ▸ hhi
  rcases CommitmentTreeDb.reconstruct_positionRow (hon.aligned hw) hon.invariant.cache
      (hon.localShardCount_le hw hchain) (hon.treeSize_le hchain) (hon.canonicalLeaves hchain)
      hprefetched hbuild hlo' hhi' mode with ⟨witness, hwitness, hheight, hof⟩
  rw [hon.positionRow_eq hw hlo] at hwitness
  exact ⟨witness, hwitness, hheight, hon.exact_of_witnessOf hw hchain hlo
    (reconstructWitness_position hwitness) hof⟩

theorem canonicalRow {engine : PirEngine σ} (h : pir.Shows M engine w chain n)
    (hw : w.Sound M chain) (hchain : HonestChain U M chain) (hlo : w.leafOffset ≤ position) :
    CanonicalRow M (protocolRow M (commitmentsOf (chain.take n)) position) := by
  rcases h.built with ⟨tree, _, _, hon, _, _⟩
  rw [← hon.positionRow_eq hw hlo]
  exact CommitmentTreeDb.canonicalRow_positionRow (hon.canonicalLeaves hchain) position

end PirState.Shows

end Shows

end Witness
end SpendabilityPir
