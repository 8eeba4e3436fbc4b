import SpendabilityPir.Witness.CacheInvariant

/-!
# Histories of the commitment tree

Appending, rolling back, building and restoring in any order keep the offset, the
prefetched roots and a valid cache.  So a build returns what hashing from scratch
gives, and its database bytes are the local leaves, padded.
-/

namespace SpendabilityPir
namespace Witness

open Foundation

inductive SnapshotVersion where
  | v1
  | v2
  | v3
deriving DecidableEq

/-- The calls a history of the tree is made of. -/
inductive TreeOp where
  | appendCommitments (height : UInt64) (hash : ByteVec 32) (commitments : List Hash)
  | rollbackTo (targetHeight : UInt64)
  | build (anchorHeight : UInt64)
  | restore (version : SnapshotVersion)

namespace CommitmentTreeDb

/-- The payload of a snapshot in the layout of a version. -/
def payloadOf (t : CommitmentTreeDb) : SnapshotVersion -> List UInt8
  | .v1 => t.payloadV1
  | .v2 => t.payloadV2
  | .v3 => t.payloadV3

/-- Version 1 has no window, so it describes unwindowed trees only. -/
def DescribedBy (t : CommitmentTreeDb) : SnapshotVersion -> Prop
  | .v1 => t.leafOffset = 0 ∧ t.prefetchedShardRoots = []
  | .v2 => True
  | .v3 => True

def restoredBy (t : CommitmentTreeDb) : SnapshotVersion -> CommitmentTreeDb
  | .v1 => { t with ssRootCache := fun _ => none }
  | .v2 => { t with ssRootCache := fun _ => none }
  | .v3 => t

section Steps

variable (M : MerkleHashOrchard) (mode : Arithmetic)
variable (xxh64 : List UInt8 -> Nat -> UInt64)

/-- A call in a history; a restore reads back a snapshot of the current tree. -/
inductive TreeStep : CommitmentTreeDb -> TreeOp -> CommitmentTreeDb -> Prop where
  | appendCommitments (t : CommitmentTreeDb) (height : UInt64) (hash : ByteVec 32)
      (commitments : List Hash) :
      TreeStep t (.appendCommitments height hash commitments)
        (t.appendCommitments height.toNat hash commitments)
  | rollbackTo (t : CommitmentTreeDb) (targetHeight : UInt64) :
      TreeStep t (.rollbackTo targetHeight) (t.rollbackTo targetHeight.toNat)
  | build {t t' : CommitmentTreeDb} {anchorHeight : UInt64} {db : List UInt8}
      {broadcast : BroadcastData} :
      t.buildPirDbAndBroadcast M anchorHeight.toNat = some (t', db, broadcast) ->
      TreeStep t (.build anchorHeight) t'
  | restore {t t' : CommitmentTreeDb} {version : SnapshotVersion} :
      InMemory t -> t.DescribedBy version ->
      fromSnapshot mode xxh64 (sealPayload xxh64 (t.payloadOf version)) = .ok t' ->
      TreeStep t (.restore version) t'

end Steps

variable {M : MerkleHashOrchard} {mode : Arithmetic}
variable {xxh64 : List UInt8 -> Nat -> UInt64}

/-!
## Accounting for leaves
-/

theorem popAbove_sum (targetHeight : Nat) (blocks : List BlockRecord) (toRemove : Nat) :
    ((popAbove targetHeight blocks toRemove).1.map BlockRecord.numCommitments).sum +
        (popAbove targetHeight blocks toRemove).2 =
      (blocks.map BlockRecord.numCommitments).sum + toRemove := by
  induction blocks generalizing toRemove with
  | nil => rfl
  | cons last rest ih =>
      unfold popAbove
      split
      · rw [ih, List.map_cons, List.sum_cons]
        lia
      · rfl

theorem totalCommitments_appendCommitments_le {t : CommitmentTreeDb}
    (h : t.totalCommitments ≤ t.leaves.length) (height : Nat) (hash : ByteVec 32)
    (commitments : List Hash) :
    (t.appendCommitments height hash commitments).totalCommitments ≤
      (t.appendCommitments height hash commitments).leaves.length := by
  have hcast : asU32 commitments.length ≤ commitments.length := Nat.mod_le _ _
  have htotal : (t.appendCommitments height hash commitments).totalCommitments =
      t.totalCommitments + asU32 commitments.length := by
    simp [totalCommitments]
  rw [htotal, leaves_appendCommitments, List.length_append]
  lia

theorem rollbackTo_counts (t : CommitmentTreeDb) (targetHeight : Nat) :
    (t.rollbackTo targetHeight).totalCommitments +
        (popAbove targetHeight t.blocks.reverse 0).2 = t.totalCommitments ∧
    (t.rollbackTo targetHeight).leaves.length =
      t.leaves.length - (popAbove targetHeight t.blocks.reverse 0).2 := by
  have hsum := popAbove_sum targetHeight t.blocks.reverse 0
  have hreverse : (t.blocks.reverse.map BlockRecord.numCommitments).sum =
      t.totalCommitments := by
    rw [List.map_reverse, List.sum_reverse]
    rfl
  have hkept : (t.rollbackTo targetHeight).totalCommitments =
      ((popAbove targetHeight t.blocks.reverse 0).1.map
        BlockRecord.numCommitments).sum := by
    change (((popAbove targetHeight t.blocks.reverse 0).1.reverse.map _)).sum = _
    rw [List.map_reverse, List.sum_reverse]
  constructor
  · rw [hkept, hsum, hreverse, Nat.add_zero]
  · change (t.leaves.take _).length = _
    rw [List.length_take]
    exact Nat.min_eq_left (Nat.sub_le _ _)

theorem totalCommitments_rollbackTo_le {t : CommitmentTreeDb}
    (h : t.totalCommitments ≤ t.leaves.length) (targetHeight : Nat) :
    (t.rollbackTo targetHeight).totalCommitments ≤
      (t.rollbackTo targetHeight).leaves.length := by
  rcases rollbackTo_counts t targetHeight with ⟨hrecords, hleaves⟩
  lia

/-!
## The invariant of a history
-/

/-- What holds of every tree reached from a start offset and prefetched roots. -/
structure TreeInvariant (M : MerkleHashOrchard) (leafOffset : Nat) (roots : List Hash)
    (t : CommitmentTreeDb) : Prop where
  leafOffset : t.leafOffset = leafOffset
  prefetched : t.prefetchedShardRoots = roots
  counted : t.totalCommitments ≤ t.leaves.length
  cache : CacheValid M t

theorem treeInvariant_withOffset (M : MerkleHashOrchard) (leafOffset : Nat)
    (roots : List Hash) :
    TreeInvariant M leafOffset roots (withOffset leafOffset roots) := by
  constructor
  · rfl
  · rfl
  · exact Nat.le_refl 0
  · intro slot root hfalse
    cases hfalse

/-- A build changes the cache only, and leaves a valid one. -/
theorem build_tree_eq {t t' : CommitmentTreeDb} {anchorHeight : Nat} {db : List UInt8}
    {broadcast : BroadcastData} (hvalid : CacheValid M t)
    (h : t.buildPirDbAndBroadcast M anchorHeight = some (t', db, broadcast)) :
    exists cache shards,
      t' = { t with ssRootCache := cache } ∧ CacheAgrees M t cache ∧
      (List.range t.windowShardCount).mapM (t.windowShard M) = some shards ∧
      db = resize l0DbBytes (t.windowRows M) ∧
      broadcast = t.broadcastOf M shards anchorHeight := by
  have hbuild := buildPirDbAndBroadcast_eq hvalid anchorHeight
  cases hshards : (List.range t.windowShardCount).mapM (t.windowShard M) with
  | none =>
      rw [hbuild.right hshards] at h
      cases h
  | some shards =>
      rcases hbuild.left shards hshards with ⟨cache, hresult, hagrees⟩
      rw [hresult] at h
      cases h
      exact ⟨cache, shards, rfl, hagrees, rfl, rfl, rfl⟩

theorem build_output_eq {t : CommitmentTreeDb} {cache : Fin l0DbRows -> Option Hash}
    (hvalid : CacheValid M t) (hcache : CacheValid M { t with ssRootCache := cache })
    (anchorHeight : Nat) :
    (t.buildPirDbAndBroadcast M anchorHeight).map Prod.snd =
      (({ t with ssRootCache := cache } :
        CommitmentTreeDb).buildPirDbAndBroadcast M anchorHeight).map Prod.snd := by
  have hbuild := buildPirDbAndBroadcast_eq hvalid anchorHeight
  have hother := buildPirDbAndBroadcast_eq hcache anchorHeight
  cases hshards : (List.range t.windowShardCount).mapM (t.windowShard M) with
  | none => rw [hbuild.right hshards, hother.right hshards]
  | some shards =>
      rcases hbuild.left shards hshards with ⟨_, hresult, _⟩
      rcases hother.left shards hshards with ⟨_, hotherResult, _⟩
      rw [hresult, hotherResult]
      rfl

theorem build_cache_only {t t' : CommitmentTreeDb} {anchorHeight : Nat}
    {db : List UInt8} {broadcast : BroadcastData}
    (h : t.buildPirDbAndBroadcast M anchorHeight = some (t', db, broadcast)) :
    t' = { t with ssRootCache := t'.ssRootCache } := by
  rcases Option.bind_eq_some_iff.mp h with ⟨st, _, hreturn⟩
  cases hreturn
  rfl

theorem length_payloadOf (t : CommitmentTreeDb) (version : SnapshotVersion) :
    8 ≤ (t.payloadOf version).length := by
  cases version <;>
    simp only [payloadOf, payloadV1, payloadV2, payloadV3, List.length_append,
      length_leBytes] <;> lia

theorem restore_eq {t t' : CommitmentTreeDb} {version : SnapshotVersion}
    (hmem : InMemory t) (hcount : t.totalCommitments ≤ t.leaves.length)
    (haligned : mode = .checked -> t.leafOffset % shardLeaves = 0)
    (hdescribed : t.DescribedBy version)
    (h : fromSnapshot mode xxh64 (sealPayload xxh64 (t.payloadOf version)) = .ok t') :
    t' = t.restoredBy version := by
  rw [fromSnapshot_sealPayload mode (length_payloadOf t version)] at h
  cases version with
  | v1 =>
      rw [payloadOf, fromPayload_payloadV1 mode hmem hcount hdescribed.left
        hdescribed.right] at h
      split at h
      · exact (Except.ok.inj h).symm
      · cases h
  | v2 =>
      rw [payloadOf, fromPayload_payloadV2 mode hmem hcount haligned] at h
      split at h
      · exact (Except.ok.inj h).symm
      · cases h
  | v3 =>
      rw [payloadOf, fromPayload_payloadV3 mode hmem hcount haligned] at h
      split at h
      · exact (Except.ok.inj h).symm
      · cases h

theorem treeInvariant_build {leafOffset : Nat} {roots : List Hash}
    {t t' : CommitmentTreeDb} {anchorHeight : Nat} {db : List UInt8}
    {broadcast : BroadcastData} (hinv : TreeInvariant M leafOffset roots t)
    (hbuild : t.buildPirDbAndBroadcast M anchorHeight = some (t', db, broadcast)) :
    TreeInvariant M leafOffset roots t' := by
  rcases build_tree_eq hinv.cache hbuild with ⟨cache, _, htree, hagrees, _⟩
  rw [htree]
  exact
    { leafOffset := hinv.leafOffset
      prefetched := hinv.prefetched
      counted := hinv.counted
      cache := hagrees }

theorem treeInvariant_step {leafOffset : Nat} {roots : List Hash}
    (haligned : leafOffset % shardLeaves = 0) {t t' : CommitmentTreeDb} {op : TreeOp}
    (hinv : TreeInvariant M leafOffset roots t) (h : TreeStep M mode xxh64 t op t') :
    TreeInvariant M leafOffset roots t' := by
  have halignedTree : t.leafOffset % shardLeaves = 0 := by
    rw [hinv.leafOffset]
    exact haligned
  cases h with
  | appendCommitments height hash commitments =>
      constructor
      · rw [leafOffset_appendCommitments, hinv.leafOffset]
      · rw [prefetchedShardRoots_appendCommitments, hinv.prefetched]
      · exact totalCommitments_appendCommitments_le hinv.counted _ hash commitments
      · exact cacheValid_appendCommitments halignedTree hinv.cache _ hash commitments
  | rollbackTo targetHeight =>
      constructor
      · exact hinv.leafOffset
      · exact hinv.prefetched
      · exact totalCommitments_rollbackTo_le hinv.counted _
      · exact cacheValid_rollbackTo halignedTree hinv.cache _
  | build hbuild => exact treeInvariant_build hinv hbuild
  | @restore _ version hmem hdescribed hrestore =>
      rw [restore_eq hmem hinv.counted (fun _ => halignedTree) hdescribed hrestore]
      cases version with
      | v1 =>
          exact
            { leafOffset := hinv.leafOffset
              prefetched := hinv.prefetched
              counted := hinv.counted
              cache := fun _ _ hfalse => nomatch hfalse }
      | v2 =>
          exact
            { leafOffset := hinv.leafOffset
              prefetched := hinv.prefetched
              counted := hinv.counted
              cache := fun _ _ hfalse => nomatch hfalse }
      | v3 => exact hinv

theorem treeInvariant_history {leafOffset : Nat} {roots : List Hash}
    (haligned : leafOffset % shardLeaves = 0) {ops : List TreeOp}
    {t : CommitmentTreeDb}
    (h : Run (TreeStep M mode xxh64) (withOffset leafOffset roots) ops t) :
    TreeInvariant M leafOffset roots t := by
  apply h.invariant _ (treeInvariant_withOffset M leafOffset roots)
  intro s op s' hs hstep
  exact treeInvariant_step haligned hs hstep

end CommitmentTreeDb
end Witness
end SpendabilityPir
