import SpendabilityPir.Witness.EndToEnd

/-!
# Rows of completed sub-shards across rebuilds

While the tree keeps the leaves of a sub-shard, no call changes its row.  So a row
served after a rebuild and the broadcast fetched before it reconstruct to the witness of
the tree the broadcast was built from.
-/

namespace SpendabilityPir
namespace Witness

open Foundation

namespace CommitmentTreeDb

variable {M : MerkleHashOrchard} {mode : Arithmetic}
variable {xxh64 : List UInt8 -> Nat -> UInt64}

/-- The position after the last one of a position's sub-shard. -/
def subshardEnd (position : Nat) : Nat := (position / subshardLeaves + 1) * subshardLeaves

/-- A call after which the tree still has the leaves before a position. -/
def KeepsStep (M : MerkleHashOrchard) (mode : Arithmetic)
    (xxh64 : List UInt8 -> Nat -> UInt64) (stop : Nat) (t : CommitmentTreeDb)
    (op : TreeOp) (t' : CommitmentTreeDb) : Prop :=
  TreeStep M mode xxh64 t op t' ∧ stop ≤ t'.treeSize

theorem leaves_take_step {leafOffset : Nat} {roots : List Hash}
    (haligned : leafOffset % shardLeaves = 0) {t t' : CommitmentTreeDb} {op : TreeOp}
    (hinv : TreeInvariant M leafOffset roots t) (hstep : TreeStep M mode xxh64 t op t')
    {n : Nat} (hbefore : n ≤ t.leaves.length) (hafter : n ≤ t'.leaves.length) :
    t'.leaves.take n = t.leaves.take n := by
  cases hstep with
  | appendCommitments height hash commitments =>
      rw [leaves_appendCommitments, List.take_append_of_le_length hbefore]
  | rollbackTo targetHeight =>
      change n ≤ (t.leaves.take _).length at hafter
      change (t.leaves.take _).take n = _
      rw [List.length_take] at hafter
      rw [List.take_take, Nat.min_eq_left (Nat.le_trans hafter (Nat.min_le_left _ _))]
  | build hbuild => rw [build_cache_only hbuild]
  | @restore _ version hmem hdescribed hrestore =>
      have halignedTree : mode = .checked -> t.leafOffset % shardLeaves = 0 := by
        intro _
        rw [hinv.leafOffset]
        exact haligned
      rw [restore_eq hmem hinv.counted halignedTree hdescribed hrestore]
      cases version <;> rfl

theorem leaves_take_run {leafOffset : Nat} {roots : List Hash}
    (haligned : leafOffset % shardLeaves = 0) {t t' : CommitmentTreeDb}
    {later : List TreeOp} {stop : Nat} (hinv : TreeInvariant M leafOffset roots t)
    (hstop : stop ≤ t.treeSize) (h : Run (KeepsStep M mode xxh64 stop) t later t') :
    TreeInvariant M leafOffset roots t' ∧ stop ≤ t'.treeSize ∧
      t'.leaves.take (stop - leafOffset) = t.leaves.take (stop - leafOffset) := by
  apply h.invariant (P := fun s => TreeInvariant M leafOffset roots s ∧
    stop ≤ s.treeSize ∧ s.leaves.take (stop - leafOffset) =
      t.leaves.take (stop - leafOffset)) _ ⟨hinv, hstop, rfl⟩
  intro s op s' hs hkeeps
  rcases hs with ⟨hsinv, hsstop, hsame⟩
  rcases hkeeps with ⟨hstep, hstop'⟩
  have hinv' := treeInvariant_step haligned hsinv hstep
  refine ⟨hinv', hstop', ?_⟩
  have hlong := hsstop
  have hlong' := hstop'
  rw [treeSize, hsinv.leafOffset] at hlong
  rw [treeSize, hinv'.leafOffset] at hlong'
  rw [leaves_take_step haligned hsinv hstep (by lia) (by lia), hsame]

theorem positionRow_congr {t t' : CommitmentTreeDb}
    (haligned : t.leafOffset % shardLeaves = 0) (hoffset : t'.leafOffset = t.leafOffset)
    {position : Nat} (hlo : t.leafOffset ≤ position)
    (hsame : t'.leaves.take (subshardEnd position - t.leafOffset) =
      t.leaves.take (subshardEnd position - t.leafOffset)) :
    t'.positionRow M position = t.positionRow M position := by
  have hshard : shardLeaves = 65536 := rfl
  have hsubshard : subshardLeaves = 256 := rfl
  rw [positionRow, positionRow, subshardLeavesOf, subshardLeavesOf]
  congr 1
  apply List.map_congr_left
  intro i hi
  have hi256 : i < 256 := List.mem_range.mp hi
  have hstart := position_eq position
  have hge : t.leafOffset ≤ position / 2 ^ 16 * shardLeaves +
      position / 2 ^ 8 % 256 * subshardLeaves + i := by
    rw [hshard] at haligned
    rw [hshard, hsubshard]
    lia
  have hlt : position / 2 ^ 16 * shardLeaves + position / 2 ^ 8 % 256 * subshardLeaves + i -
      t.leafOffset < subshardEnd position - t.leafOffset := by
    rw [hshard] at hge
    rw [subshardEnd, hshard, hsubshard]
    rw [hsubshard] at hge
    lia
  rw [leafAt_of_ge (by rw [hoffset]; exact hge), leafAt_of_ge hge, hoffset,
    List.getD_eq_getElem?_getD, List.getD_eq_getElem?_getD,
    ← List.getElem?_take_of_lt hlt, hsame, List.getElem?_take_of_lt hlt]

/-- The row of a completed sub-shard, taken from any later tree that keeps its leaves,
and the broadcast of the earlier tree reconstruct to the earlier tree's witness. -/
theorem mixed_epoch_witness {leafOffset : Nat} {prefetched : List Hash}
    (haligned : leafOffset % shardLeaves = 0) {ops : List TreeOp} {t : CommitmentTreeDb}
    (hrun : Run (TreeStep M mode xxh64) (withOffset leafOffset prefetched) ops t)
    (hlocal : t.localShardCount ≤ l0MaxShards) (hsize : t.treeSize ≤ 2 ^ 32)
    (hleaves : t.CanonicalLeaves M) (hprefetched : AllCanonical M prefetched)
    {position : Nat} (hlo : leafOffset ≤ position)
    (hfilled : subshardEnd position ≤ t.treeSize) {later : List TreeOp}
    {t' : CommitmentTreeDb}
    (hlater : Run (KeepsStep M mode xxh64 (subshardEnd position)) t later t')
    (hfits' : t'.FitsShardIndex) (clientMode : Arithmetic) (anchorHeight : Nat) :
    exists built db broadcast rowIndex witness,
      t.buildPirDbAndBroadcast M anchorHeight = some (built, db, broadcast) ∧
      (let (shardIdx, subshardIdx, leafIdx) := decomposePosition position
       (physicalRowIndex clientMode shardIdx subshardIdx broadcast.windowStartShard :
          Outcome WitnessClientError Nat) = .ok rowIndex ∧
       forall laterHeight built' db' broadcast',
        t'.buildPirDbAndBroadcast M laterHeight = some (built', db', broadcast') ->
        slice db' (rowIndex * subshardRowBytes) subshardRowBytes =
          slice db (rowIndex * subshardRowBytes) subshardRowBytes ∧
        reconstructWitness M clientMode position shardIdx subshardIdx leafIdx
            (slice db' (rowIndex * subshardRowBytes) subshardRowBytes) broadcast =
          .ok witness) ∧
      witness.anchorHeight = anchorHeight ∧ WitnessOf M t position witness := by
  have hinv := treeInvariant_history haligned hrun
  rcases leaves_take_run haligned hinv hfilled hlater with ⟨hinv', hfilled', hsame⟩
  have halignedTree : t.leafOffset % shardLeaves = 0 := by
    rw [hinv.leafOffset]
    exact haligned
  have halignedTree' : t'.leafOffset % shardLeaves = 0 := by
    rw [hinv'.leafOffset]
    exact haligned
  have hoffset : t'.leafOffset = t.leafOffset := hinv'.leafOffset.trans hinv.leafOffset.symm
  rw [← hinv.prefetched] at hprefetched
  rw [← hinv.leafOffset] at hlo hsame
  have hend : position < subshardEnd position := by
    rw [subshardEnd, Nat.mul_comm]
    exact Nat.lt_mul_div_succ position (by decide)
  have hhi : position < t.treeSize := Nat.lt_of_lt_of_le hend hfilled
  have hfits := fitsShardIndex_of_le hsize
  rcases position_in_window halignedTree hsize hlocal hlo hhi with ⟨hshardLo, hshardEnd⟩
  have hwindow : t'.windowStartShard = t.windowStartShard := by
    rw [windowStartShard, hoffset]
    rfl
  have hshardEnd' : position / 2 ^ 16 < t'.windowStartShard + t'.windowShardCount := by
    rcases shard_in_window halignedTree' hfits' (hoffset ▸ hlo)
      (Nat.lt_of_lt_of_le hend hfilled') with ⟨_, hlocal'⟩
    have hmax : t.windowShardCount ≤ l0MaxShards := Nat.min_le_right _ _
    rw [windowShardCount]
    lia
  rcases build_of_canonical hinv.cache hleaves anchorHeight with
    ⟨built, db, broadcast, hbuild⟩
  rcases reconstruct_positionRow halignedTree hinv.cache hlocal hsize hleaves hprefetched
    hbuild hlo hhi clientMode with ⟨witness, hwitness, hheight, hof⟩
  refine ⟨built, db, broadcast, t.rowOf position, witness, hbuild, ?_, hheight, hof⟩
  rw [decomposePosition_of_lt (Nat.lt_of_lt_of_le hhi hsize)]
  dsimp only
  refine ⟨physicalRowIndex_eq hbuild clientMode hshardLo, ?_⟩
  intro laterHeight built' db' broadcast' hbuild'
  have hrow' := slice_rowOf halignedTree' hinv'.cache hfits' hbuild'
    (hwindow ▸ hshardLo) hshardEnd'
  rw [rowOf, hwindow, positionRow_congr halignedTree hoffset hlo hsame] at hrow'
  change slice db' (t.rowOf position * subshardRowBytes) subshardRowBytes = _ at hrow'
  rw [hrow', slice_rowOf halignedTree hinv.cache hfits hbuild hshardLo hshardEnd]
  exact ⟨rfl, hwitness⟩

/-- A full sub-shard, read again after a block more and its rollback. -/
theorem mixed_epoch_witness_grownTree :
    exists t' built db broadcast rowIndex witness,
      Run (KeepsStep sampleHash .checked (fun _ _ => 0) (subshardEnd 7)) (grownTree 0 256)
        [.appendCommitments 2 (ByteVec.zeros 32) [ByteVec.zeros 32], .rollbackTo 1] t' ∧
      (grownTree 0 256).buildPirDbAndBroadcast sampleHash 1 = some (built, db, broadcast) ∧
      (forall laterHeight built' db' broadcast',
        t'.buildPirDbAndBroadcast sampleHash laterHeight = some (built', db', broadcast') ->
        reconstructWitness sampleHash .checked 7 (decomposePosition 7).1
          (decomposePosition 7).2.1 (decomposePosition 7).2.2
          (slice db' (rowIndex * subshardRowBytes) subshardRowBytes) broadcast =
            .ok witness) ∧
      (grownTree 0 256).treeRoot sampleHash = some witness.anchorRoot := by
  have hnone : AllCanonical sampleHash [] := fun _ hfalse => nomatch hfalse
  have hsize : (grownTree 0 256).treeSize = 256 := by
    rw [treeSize, leaves_grownTree, List.length_replicate]
    rfl
  have hfirst : KeepsStep sampleHash .checked (fun _ _ => 0) (subshardEnd 7)
      (grownTree 0 256) (.appendCommitments 2 (ByteVec.zeros 32) [ByteVec.zeros 32]) _ :=
    ⟨.appendCommitments _ _ _ _, by decide +kernel⟩
  have hsecond := (Run.nil (grownTree 0 256)).snoc hfirst
  have hlater := hsecond.snoc ⟨TreeStep.rollbackTo _ 1, by decide +kernel⟩
  rcases mixed_epoch_witness (by decide)
    (run_grownTree sampleHash .checked (fun _ _ => 0) 0 256) (by decide +kernel)
    (by rw [hsize]; decide) (canonicalLeaves_grownTree 0 256) hnone (Nat.zero_le 7)
    (by rw [hsize]; decide) hlater (by unfold FitsShardIndex; decide +kernel) .checked 1
    with
    ⟨built, db, broadcast, rowIndex, witness, hbuild, hrow, _, hof⟩
  exact ⟨_, built, db, broadcast, rowIndex, witness, hlater, hbuild,
    fun laterHeight built' db' broadcast' hbuild' =>
      (hrow.right laterHeight built' db' broadcast' hbuild').right, hof.anchor⟩

end CommitmentTreeDb
end Witness
end SpendabilityPir
