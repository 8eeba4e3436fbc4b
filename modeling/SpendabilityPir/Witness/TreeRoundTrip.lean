import SpendabilityPir.Witness.TreeRoots

/-!
# Snapshots of reachable trees

In every history whose blocks fit the 32-bit counts, the records account for exactly
the local leaves.  So a snapshot of the tree is accepted, in each of the three layouts,
and restores the tree.
-/

namespace SpendabilityPir
namespace Witness

open Foundation

/-- An append of fewer than 2 ^ 32 commitments, or another call. -/
def TreeOp.CountsFit : TreeOp -> Prop
  | .appendCommitments _ _ commitments => commitments.length < 2 ^ 32
  | .rollbackTo _ => True
  | .build _ => True
  | .restore _ => True

namespace CommitmentTreeDb

variable {M : MerkleHashOrchard} {mode : Arithmetic}
variable {xxh64 : List UInt8 -> Nat -> UInt64}

/-- The window is the one the tree started with, and the records account for all of its
leaves. -/
structure Accounted (leafOffset : Nat) (roots : List Hash) (t : CommitmentTreeDb) :
    Prop where
  leafOffset : t.leafOffset = leafOffset
  prefetched : t.prefetchedShardRoots = roots
  counted : t.totalCommitments = t.leaves.length

theorem accounted_withOffset (leafOffset : Nat) (roots : List Hash) :
    Accounted leafOffset roots (withOffset leafOffset roots) :=
  { leafOffset := rfl, prefetched := rfl, counted := rfl }

theorem Accounted.withCache {leafOffset : Nat} {roots : List Hash}
    {t : CommitmentTreeDb} (h : Accounted leafOffset roots t)
    (cache : Fin l0DbRows -> Option Hash) :
    Accounted leafOffset roots { t with ssRootCache := cache } :=
  { leafOffset := h.leafOffset, prefetched := h.prefetched, counted := h.counted }

/-- An append within the 32-bit counts is accounted for. -/
theorem Accounted.appendCommitments {leafOffset : Nat} {roots : List Hash}
    {t : CommitmentTreeDb} (h : Accounted leafOffset roots t) {commitments : List Hash}
    (hfit : commitments.length < 2 ^ 32) (height : Nat) (hash : ByteVec 32) :
    Accounted leafOffset roots (t.appendCommitments height hash commitments) := by
  have hcount : asU32 commitments.length = commitments.length := asU32_of_lt hfit
  constructor
  · rw [leafOffset_appendCommitments]
    exact h.leafOffset
  · rw [prefetchedShardRoots_appendCommitments]
    exact h.prefetched
  · rw [totalCommitments, blocks_appendCommitments, leaves_appendCommitments,
      List.map_append, List.sum_append, List.length_append, ← h.counted,
      totalCommitments, List.map_singleton, List.sum_singleton, hcount]

theorem accounted_step {leafOffset : Nat} {roots : List Hash}
    (haligned : mode = .checked -> leafOffset % shardLeaves = 0)
    {t t' : CommitmentTreeDb} {op : TreeOp} (h : Accounted leafOffset roots t)
    (hfit : op.CountsFit) (hstep : TreeStep M mode xxh64 t op t') :
    Accounted leafOffset roots t' := by
  have hcounted := h.counted
  cases hstep with
  | appendCommitments height hash commitments => exact h.appendCommitments hfit _ hash
  | rollbackTo targetHeight =>
      rcases rollbackTo_counts t targetHeight.toNat with ⟨hrecords, hleaves⟩
      constructor
      · exact h.leafOffset
      · exact h.prefetched
      · lia
  | build hbuild =>
      rw [build_cache_only hbuild]
      exact h.withCache _
  | @restore _ version hmem hdescribed hrestore =>
      have halignedTree : mode = .checked -> t.leafOffset % shardLeaves = 0 := by
        rw [h.leafOffset]
        exact haligned
      rw [restore_eq hmem (Nat.le_of_eq hcounted) halignedTree hdescribed hrestore]
      cases version with
      | v1 => exact h.withCache _
      | v2 => exact h.withCache _
      | v3 => exact h

theorem fromSnapshot_toSnapshot {t : CommitmentTreeDb} (hmem : InMemory t)
    (hcounted : t.totalCommitments = t.leaves.length)
    (haligned : mode = .checked -> t.leafOffset % shardLeaves = 0) :
    fromSnapshot mode xxh64 (t.toSnapshot xxh64) = .ok t := by
  have hlong : 8 ≤ t.payloadV3.length := length_payloadOf t .v3
  rw [toSnapshot, fromSnapshot_sealPayload mode hlong,
    fromPayload_payloadV3 mode hmem (Nat.le_of_eq hcounted) haligned, if_pos hcounted]

/-- A snapshot of every reachable tree restores it exactly; the two older layouts of the
same tree restore it with an empty cache. -/
theorem snapshot_round_trip {leafOffset : Nat} {roots : List Hash}
    (haligned : mode = .checked -> leafOffset % shardLeaves = 0) {ops : List TreeOp}
    {t : CommitmentTreeDb}
    (hrun : Run (TreeStep M mode xxh64) (withOffset leafOffset roots) ops t)
    (hfit : forall op, op ∈ ops -> op.CountsFit) (hmem : InMemory t) :
    fromSnapshot mode xxh64 (t.toSnapshot xxh64) = .ok t ∧
    fromSnapshot mode xxh64 (sealPayload xxh64 t.payloadV2) =
      .ok { t with ssRootCache := fun _ => none } ∧
    (leafOffset = 0 -> roots = [] ->
      fromSnapshot mode xxh64 (sealPayload xxh64 t.payloadV1) =
        .ok { t with ssRootCache := fun _ => none }) := by
  have hinv : Accounted leafOffset roots t :=
    hrun.invariant_of_forall (fun _ _ _ hs hop hstep => accounted_step haligned hs hop hstep)
      hfit (accounted_withOffset leafOffset roots)
  have hcount := Nat.le_of_eq hinv.counted
  have halignedTree : mode = .checked -> t.leafOffset % shardLeaves = 0 := by
    rw [hinv.leafOffset]
    exact haligned
  have hlongV1 : 8 ≤ t.payloadV1.length := length_payloadOf t .v1
  have hlongV2 : 8 ≤ t.payloadV2.length := length_payloadOf t .v2
  refine ⟨fromSnapshot_toSnapshot hmem hinv.counted halignedTree, ?_, ?_⟩
  · rw [fromSnapshot_sealPayload mode hlongV2,
      fromPayload_payloadV2 mode hmem hcount halignedTree, if_pos hinv.counted]
  · intro hoffset hroots
    rw [fromSnapshot_sealPayload mode hlongV1,
      fromPayload_payloadV1 mode hmem hcount (hinv.leafOffset.trans hoffset)
        (hinv.prefetched.trans hroots), if_pos hinv.counted]

theorem inMemory_of_small {t : CommitmentTreeDb}
    (hlengths : t.blocks.length + t.prefetchedShardRoots.length + t.leaves.length ≤ 2 ^ 32)
    (hheights : forall block, block ∈ t.blocks -> block.height < 2 ^ 64)
    (hcounts : forall block, block ∈ t.blocks -> block.numCommitments < 2 ^ 32)
    (hsize : t.treeSize < 2 ^ 64) : InMemory t := by
  have hmax : maxVecLen = 2 ^ 63 - 1 := rfl
  have hcached : t.cachedEntries.length ≤ 8192 := length_cachedEntries_le t
  have hentries : (t.cachedEntries.flatMap cacheEntryBytes).length =
      t.cachedEntries.length * 36 :=
    length_flatMap_const (fun entry => by
      rw [cacheEntryBytes, List.length_append, length_leBytes, List.Vector.toList_length])
      t.cachedEntries
  have hblocks : (t.blocks.flatMap blockRecordBytes).length = t.blocks.length * 44 :=
    length_flatMap_const length_blockRecordBytes t.blocks
  constructor
  · rw [blockRecordMemSize]
    lia
  · lia
  · lia
  · simp only [payloadV3, headerBytes, windowBytes, bodyBytes, cacheBytes,
      List.length_append, length_leBytes, length_flatMap_toList, hentries, hblocks,
      List.Vector.toList_length]
    lia
  · exact hheights
  · exact hcounts
  · exact hsize

/-- A tree with a warm cache slot comes back with it. -/
theorem snapshot_round_trip_grownTree :
    exists t, Run (TreeStep sampleHash .checked (fun _ _ => 0)) (withOffset 0 [])
        [.appendCommitments 1 (ByteVec.zeros 32) (List.replicate 1 (ByteVec.zeros 32)),
          .build 1] t ∧
      fromSnapshot .checked (fun _ _ => 0) (t.toSnapshot (fun _ _ => 0)) = .ok t := by
  rcases build_grownTree 1 (Nat.zero_mod shardLeaves) 1 with ⟨t, db, broadcast, hbuild⟩
  have hstep : TreeStep sampleHash .checked (fun _ _ => 0) (grownTree 0 1) (.build 1) t :=
    .build hbuild
  have hrun := Run.snoc (run_grownTree sampleHash .checked (fun _ _ => 0) 0 1) hstep
  have hrecord : forall block, block ∈ (grownTree 0 1).blocks ->
      block.height < 2 ^ 64 ∧ block.numCommitments < 2 ^ 32 := by decide
  have hmem : InMemory t := by
    rw [build_cache_only hbuild]
    apply inMemory_of_small
    · exact (by decide : 1 + 0 + 1 ≤ 2 ^ 32)
    · exact fun block hblock => (hrecord block hblock).left
    · exact fun block hblock => (hrecord block hblock).right
    · exact (by decide : 0 + 1 < 2 ^ 64)
  have hfit : forall op, op ∈ [TreeOp.appendCommitments 1 (ByteVec.zeros 32)
      (List.replicate 1 (ByteVec.zeros 32)), .build 1] -> op.CountsFit := by
    intro op hop
    rcases List.mem_cons.mp hop with heq | hlast
    · rw [heq]
      exact (by decide : 1 < 2 ^ 32)
    · rw [List.mem_singleton.mp hlast]
      exact trivial
  exact ⟨t, hrun, (snapshot_round_trip (fun _ => rfl) hrun hfit hmem).left⟩

end CommitmentTreeDb
end Witness
end SpendabilityPir
