import SpendabilityPir.Foundation.Transition
import SpendabilityPir.Witness.TreeRestore

/-!
# The sub-shard root cache

A cached root is the root of the slot's current leaves.  Appending and rolling back
forget the slots whose leaves change; building fills slots from the current leaves;
a snapshot stores the cache or drops it.
-/

namespace SpendabilityPir
namespace Witness

open Foundation

namespace CommitmentTreeDb

variable (M : MerkleHashOrchard)

/-- The 256 padded leaves of the sub-shard a cache slot stands for. -/
def slotLeaves (t : CommitmentTreeDb) (slot : Nat) : List Hash :=
  t.subshardLeavesOf M (asU32 (t.windowStartShard + slot / subshardsPerShard))
    (slot % subshardsPerShard)

/-- Every cached root is the root of the current leaves of its slot. -/
def CacheAgrees (t : CommitmentTreeDb) (cache : Fin l0DbRows -> Option Hash) : Prop :=
  forall slot root, cache slot = some root ->
    completeSubtreeRoot M (t.slotLeaves M slot.val) 0 = some root

def CacheValid (t : CommitmentTreeDb) : Prop :=
  CacheAgrees M t t.ssRootCache

/-!
## Which leaves a slot reads
-/

variable {M}

theorem leafAt_of_ge {t : CommitmentTreeDb} {globalPos : Nat}
    (h : t.leafOffset ≤ globalPos) :
    leafAt M t globalPos = t.leaves.getD (globalPos - t.leafOffset) (emptyRoots M 0) := by
  unfold leafAt
  split
  · rfl
  · next hout =>
      have hlen : t.leaves.length ≤ globalPos - t.leafOffset := by
        by_contra hlt
        exact hout ⟨h, Nat.lt_of_not_le hlt⟩
      rw [List.getD_eq_default _ _ hlen]

theorem leafAt_of_lt {t : CommitmentTreeDb} {globalPos : Nat}
    (h : globalPos < t.leafOffset) : leafAt M t globalPos = emptyRoots M 0 :=
  if_neg (fun hin => absurd hin.left (Nat.not_le_of_lt h))

theorem slot_position {t : CommitmentTreeDb} (haligned : t.leafOffset % shardLeaves = 0)
    {slot i : Nat} (hslot : slot < l0DbRows) (hi : i < subshardLeaves) :
    asU32 (t.windowStartShard + slot / subshardsPerShard) * shardLeaves +
          slot % subshardsPerShard * subshardLeaves + i =
        t.leafOffset + (slot * subshardLeaves + i) ∨
      asU32 (t.windowStartShard + slot / subshardsPerShard) * shardLeaves +
          slot % subshardsPerShard * subshardLeaves + i < t.leafOffset := by
  have hleaves : subshardLeaves = 256 := rfl
  have hshards : subshardsPerShard = 256 := rfl
  have hshard : shardLeaves = 65536 := rfl
  have hrows : l0DbRows = 8192 := rfl
  rw [windowStartShard, asU32, asU32]
  rw [hshard] at haligned ⊢
  rw [hleaves] at hi ⊢
  rw [hrows] at hslot
  rw [hshards]
  lia

theorem slotLeaves_congr {t t' : CommitmentTreeDb}
    (haligned : t.leafOffset % shardLeaves = 0) (hoffset : t'.leafOffset = t.leafOffset)
    {slot : Nat} (hslot : slot < l0DbRows)
    (h : forall i, i < subshardLeaves ->
      t'.leaves[slot * subshardLeaves + i]? = t.leaves[slot * subshardLeaves + i]?) :
    t'.slotLeaves M slot = t.slotLeaves M slot := by
  unfold slotLeaves subshardLeavesOf
  apply List.map_congr_left
  intro i hi
  have hlt : i < subshardLeaves := List.mem_range.mp hi
  have hstart : t'.windowStartShard = t.windowStartShard := by
    rw [windowStartShard, hoffset, windowStartShard]
  rw [hstart]
  rcases slot_position haligned hslot hlt with hlocal | hbefore
  · rw [hlocal, leafAt_of_ge (Nat.le_add_right _ _)]
    rw [← hoffset, leafAt_of_ge (Nat.le_add_right _ _), hoffset,
      Nat.add_sub_cancel_left, List.getD_eq_getElem?_getD, List.getD_eq_getElem?_getD,
      h i hlt]
  · rw [leafAt_of_lt hbefore]
    rw [← hoffset] at hbefore
    rw [leafAt_of_lt hbefore]

/-!
## Appending and rolling back
-/

theorem cacheValid_of_cleared {t t' : CommitmentTreeDb} {first last : Nat}
    (haligned : t.leafOffset % shardLeaves = 0) (hoffset : t'.leafOffset = t.leafOffset)
    (hcache : t'.ssRootCache = clearSlots t.ssRootCache first last)
    (hkept : forall slot, slot < l0DbRows -> ¬ (first ≤ slot ∧ slot ≤ last) ->
      forall i, i < subshardLeaves ->
        t'.leaves[slot * subshardLeaves + i]? = t.leaves[slot * subshardLeaves + i]?)
    (hvalid : CacheValid M t) : CacheValid M t' := by
  intro slot root hroot
  rw [hcache, clearSlots] at hroot
  split at hroot
  · cases hroot
  · next hout =>
      rw [slotLeaves_congr haligned hoffset slot.isLt (hkept slot.val slot.isLt hout)]
      exact hvalid slot root hroot

theorem cacheValid_appendCommitments {t : CommitmentTreeDb}
    (haligned : t.leafOffset % shardLeaves = 0) (hvalid : CacheValid M t)
    (height : Nat) (hash : ByteVec 32) (commitments : List Hash) :
    CacheValid M (t.appendCommitments height hash commitments) := by
  unfold appendCommitments
  by_cases hempty : commitments.isEmpty = true
  · rw [if_pos hempty]
    exact hvalid
  · rw [if_neg hempty]
    have hsome : 0 < commitments.length := by
      apply List.length_pos_of_ne_nil
      intro hnil
      rw [hnil] at hempty
      exact hempty rfl
    refine cacheValid_of_cleared haligned ?_ rfl ?_ hvalid
    · rfl
    · intro slot hslot hout i hi
      have hleaves : subshardLeaves = 256 := rfl
      have hrows : l0DbRows = 8192 := rfl
      rw [hleaves] at hi
      show (t.leaves ++ commitments)[slot * subshardLeaves + i]? = _
      simp only [List.length_append, hleaves, hrows] at hout hslot ⊢
      by_cases hbefore : slot * 256 + i < t.leaves.length
      · rw [List.getElem?_append_left hbefore]
      · have hpast : t.leaves.length + commitments.length ≤ slot * 256 + i := by lia
        rw [List.getElem?_eq_none (by rw [List.length_append]; exact hpast),
          List.getElem?_eq_none (by lia)]

theorem cacheValid_rollbackTo {t : CommitmentTreeDb}
    (haligned : t.leafOffset % shardLeaves = 0) (hvalid : CacheValid M t)
    (targetHeight : Nat) : CacheValid M (t.rollbackTo targetHeight) := by
  unfold rollbackTo
  dsimp only
  generalize t.leaves.length - (popAbove targetHeight t.blocks.reverse 0).2 = newLen
  refine cacheValid_of_cleared haligned ?_ rfl ?_ hvalid
  · rfl
  · intro slot hslot hout i hi
    have hleaves : subshardLeaves = 256 := rfl
    have hrows : l0DbRows = 8192 := rfl
    show (t.leaves.take newLen)[slot * subshardLeaves + i]? = _
    rw [hleaves] at hi
    simp only [hleaves, hrows] at hout hslot ⊢
    have hkept : slot * 256 + i < newLen := by
      split at hout
      · lia
      · lia
    rw [List.getElem?_take_of_lt hkept]

/-!
## Building
-/

def rowBytes (M : MerkleHashOrchard) (t : CommitmentTreeDb) (shardIdx ss : Nat) :
    List UInt8 :=
  (t.subshardLeavesOf M shardIdx ss).flatMap List.Vector.toList

/-- The sub-shard roots and the root of window shard i, hashed from scratch. -/
def windowShard (M : MerkleHashOrchard) (t : CommitmentTreeDb) (i : Nat) :
    Option (List Hash × Hash) := do
  let roots <- t.subshardRoots M (asU32 (t.windowStartShard + i))
  let root <- completeSubtreeRoot M roots subshardHeight
  return (roots, root)

def windowRows (M : MerkleHashOrchard) (t : CommitmentTreeDb) : List UInt8 :=
  (List.range t.windowShardCount).flatMap (fun i =>
    (List.range subshardsPerShard).flatMap
      (t.rowBytes M (asU32 (t.windowStartShard + i))))

def broadcastOf (M : MerkleHashOrchard) (t : CommitmentTreeDb)
    (shards : List (List Hash × Hash)) (anchorHeight : Nat) : BroadcastData :=
  { cap := {
      shardRoots := (List.range t.windowStartShard).map (t.prefetchedRoot M) ++
        shards.map Prod.snd }
    subshardRoots := shards.map (fun shard => { roots := shard.1 })
    windowStartShard := t.windowStartShard
    windowShardCount := t.windowShardCount
    anchorHeight := anchorHeight }

theorem cacheAgrees_writeCache {t : CommitmentTreeDb}
    {cache : Fin l0DbRows -> Option Hash} {slot : Nat} {root : Hash}
    (hagrees : CacheAgrees M t cache)
    (hroot : completeSubtreeRoot M (t.slotLeaves M slot) 0 = some root) :
    CacheAgrees M t (writeCache cache slot root) := by
  intro i r hr
  rw [writeCache] at hr
  split at hr
  · next heq =>
      cases hr
      rw [heq]
      exact hroot
  · exact hagrees i r hr

theorem slotLeaves_of_lt {t : CommitmentTreeDb} (i : Nat) {ss : Nat}
    (hss : ss < subshardsPerShard) :
    t.slotLeaves M (i * subshardsPerShard + ss) =
      t.subshardLeavesOf M (asU32 (t.windowStartShard + i)) ss := by
  have hpos : 0 < subshardsPerShard := by decide
  have hdiv : (i * subshardsPerShard + ss) / subshardsPerShard = i := by
    rw [Nat.add_comm, Nat.add_mul_div_right _ _ hpos, Nat.div_eq_of_lt hss,
      Nat.zero_add]
  have hmod : (i * subshardsPerShard + ss) % subshardsPerShard = ss := by
    rw [Nat.add_comm, Nat.add_mul_mod_self_right, Nat.mod_eq_of_lt hss]
  rw [slotLeaves, hdiv, hmod]

theorem CacheAgrees.of_readCache {t : CommitmentTreeDb}
    {cache : Fin l0DbRows -> Option Hash} (hagrees : CacheAgrees M t cache)
    {slot : Nat} {root : Hash} (hread : readCache cache slot = some root) :
    completeSubtreeRoot M (t.slotLeaves M slot) 0 = some root := by
  unfold readCache at hread
  split at hread
  · next hrange => exact hagrees ⟨slot, hrange⟩ root hread
  · cases hread

theorem buildSubshard_eq {t : CommitmentTreeDb} {i ss : Nat} {st : ShardBuild}
    (hagrees : CacheAgrees M t st.cache) (hss : ss < subshardsPerShard) :
    (forall root,
      t.subshardRootOf M (asU32 (t.windowStartShard + i)) ss = some root ->
      exists st',
        t.buildSubshard M i (asU32 (t.windowStartShard + i)) st ss = some st' ∧
        CacheAgrees M t st'.cache ∧
        st'.db = st.db ++ t.rowBytes M (asU32 (t.windowStartShard + i)) ss ∧
        st'.ssRoots = st.ssRoots ++ [root]) ∧
    (t.subshardRootOf M (asU32 (t.windowStartShard + i)) ss = none ->
      t.buildSubshard M i (asU32 (t.windowStartShard + i)) st ss = none) := by
  have hslot := slotLeaves_of_lt (M := M) (t := t) i hss
  unfold subshardRootOf buildSubshard
  by_cases hpast : asU32 (t.windowStartShard + i) * shardLeaves + ss * subshardLeaves ≥
      t.treeSize
  · rw [if_pos hpast]
    constructor
    · intro root hroot
      cases hroot
      exact ⟨_, if_pos hpast, hagrees, rfl, rfl⟩
    · intro hfalse
      cases hfalse
  · rw [if_neg hpast]
    dsimp only
    rw [if_neg hpast]
    cases hread : readCache st.cache (i * subshardsPerShard + ss) with
    | some cached =>
        have hcached := hagrees.of_readCache hread
        rw [hslot] at hcached
        rw [hcached]
        constructor
        · intro root hroot
          cases hroot
          exact ⟨_, rfl, hagrees, rfl, rfl⟩
        · intro hfalse
          cases hfalse
    | none =>
        constructor
        · intro root hroot
          rw [hroot]
          refine ⟨_, rfl, ?_, rfl, rfl⟩
          apply cacheAgrees_writeCache hagrees
          rw [hslot]
          exact hroot
        · intro hroot
          rw [hroot]

theorem buildSubshards_eq {t : CommitmentTreeDb} {i : Nat}
    {cache : Fin l0DbRows -> Option Hash} (hagrees : CacheAgrees M t cache)
    (db : List UInt8) :
    (forall roots, t.subshardRoots M (asU32 (t.windowStartShard + i)) = some roots ->
      exists st',
        (List.range subshardsPerShard).foldlM
          (t.buildSubshard M i (asU32 (t.windowStartShard + i)))
          { cache := cache, db := db, ssRoots := [] } = some st' ∧
        CacheAgrees M t st'.cache ∧
        st'.db = db ++ (List.range subshardsPerShard).flatMap
          (t.rowBytes M (asU32 (t.windowStartShard + i))) ∧
        st'.ssRoots = roots) ∧
    (t.subshardRoots M (asU32 (t.windowStartShard + i)) = none ->
      (List.range subshardsPerShard).foldlM
        (t.buildSubshard M i (asU32 (t.windowStartShard + i)))
        { cache := cache, db := db, ssRoots := [] } = none) := by
  let Inv : List Nat -> List Hash -> ShardBuild -> Prop := fun done outs s =>
    CacheAgrees M t s.cache ∧
    s.db = db ++ done.flatMap (t.rowBytes M (asU32 (t.windowStartShard + i))) ∧
    s.ssRoots = outs
  have hstart : Inv [] [] { cache := cache, db := db, ssRoots := [] } :=
    ⟨hagrees, (List.append_nil db).symm, rfl⟩
  have hloop := foldlM_of_mapM (t.subshardRootOf M (asU32 (t.windowStartShard + i)))
    (t.buildSubshard M i (asU32 (t.windowStartShard + i))) Inv
    (List.range subshardsPerShard)
    (by
      intro done outs s ss root hss hs hroot
      rcases (buildSubshard_eq hs.left (List.mem_range.mp hss)).left root hroot with
        ⟨s', hstep, hcache, hdb, hroots⟩
      refine ⟨s', hstep, hcache, ?_, ?_⟩
      · rw [hdb, hs.right.left, List.flatMap_append, List.flatMap_singleton,
          List.append_assoc]
      · rw [hroots, hs.right.right])
    (by
      intro done outs s ss hss hs hnone
      exact (buildSubshard_eq hs.left (List.mem_range.mp hss)).right hnone)
    hstart
  rw [List.nil_append] at hloop
  exact hloop

theorem buildShard_eq {t : CommitmentTreeDb} {i : Nat} {st : WindowBuild}
    (hagrees : CacheAgrees M t st.cache) :
    (forall shard, t.windowShard M i = some shard ->
      exists st',
        t.buildShard M st i = some st' ∧
        CacheAgrees M t st'.cache ∧
        st'.db = st.db ++ (List.range subshardsPerShard).flatMap
          (t.rowBytes M (asU32 (t.windowStartShard + i))) ∧
        st'.capRoots = st.capRoots ++ [shard.2] ∧
        st'.broadcastSs = st.broadcastSs ++ [{ roots := shard.1 }]) ∧
    (t.windowShard M i = none -> t.buildShard M st i = none) := by
  have hloop := buildSubshards_eq (i := i) hagrees st.db
  unfold windowShard buildShard
  dsimp only
  cases hroots : t.subshardRoots M (asU32 (t.windowStartShard + i)) with
  | none =>
      rw [hloop.right hroots]
      constructor
      · intro shard hfalse
        cases hfalse
      · intro _
        rfl
  | some roots =>
      rcases hloop.left roots hroots with ⟨s', hfold, hcache, hdb, hss⟩
      rw [hfold]
      constructor
      · intro shard hshard
        rcases Option.bind_eq_some_iff.mp hshard with ⟨_, hsome, hshard⟩
        cases hsome
        rcases Option.bind_eq_some_iff.mp hshard with ⟨root, hroot, hpair⟩
        cases hpair
        refine ⟨{ cache := s'.cache
                  db := s'.db
                  capRoots := st.capRoots ++ [root]
                  broadcastSs := st.broadcastSs ++ [{ roots := s'.ssRoots }] },
          ?_, hcache, hdb, rfl, ?_⟩
        · rw [← hss] at hroot
          show (completeSubtreeRoot M s'.ssRoots subshardHeight >>= _) = _
          rw [hroot]
          rfl
        · rw [hss]
      · intro hnone
        rw [← hss] at hnone
        show (completeSubtreeRoot M s'.ssRoots subshardHeight >>= _) = _
        cases hroot : completeSubtreeRoot M s'.ssRoots subshardHeight with
        | none => rfl
        | some root =>
            have hboth : (completeSubtreeRoot M s'.ssRoots subshardHeight).map
                (fun root => (s'.ssRoots, root)) = none := by
              rw [Option.map_eq_bind]
              exact hnone
            rw [hroot] at hboth
            cases hboth

/-- With a cache that agrees with the leaves, a build returns what hashing everything
from scratch gives, and leaves such a cache. -/
theorem buildPirDbAndBroadcast_eq {t : CommitmentTreeDb} (hvalid : CacheValid M t)
    (anchorHeight : Nat) :
    (forall shards, (List.range t.windowShardCount).mapM (t.windowShard M) = some shards ->
      exists cache,
        t.buildPirDbAndBroadcast M anchorHeight =
          some ({ t with ssRootCache := cache },
            resize l0DbBytes (t.windowRows M), t.broadcastOf M shards anchorHeight) ∧
        CacheAgrees M t cache) ∧
    ((List.range t.windowShardCount).mapM (t.windowShard M) = none ->
      t.buildPirDbAndBroadcast M anchorHeight = none) := by
  let capRoots := (List.range t.windowStartShard).map (t.prefetchedRoot M)
  let Inv : List Nat -> List (List Hash × Hash) -> WindowBuild -> Prop :=
    fun done outs s =>
      CacheAgrees M t s.cache ∧
      s.db = done.flatMap (fun i => (List.range subshardsPerShard).flatMap
        (t.rowBytes M (asU32 (t.windowStartShard + i)))) ∧
      s.capRoots = capRoots ++ outs.map Prod.snd ∧
      s.broadcastSs = outs.map (fun shard => { roots := shard.1 })
  have hstart : Inv [] []
      { cache := t.ssRootCache, db := [], capRoots := capRoots, broadcastSs := [] } :=
    ⟨hvalid, rfl, (List.append_nil capRoots).symm, rfl⟩
  have hloop := foldlM_of_mapM (t.windowShard M) (t.buildShard M) Inv
    (List.range t.windowShardCount)
    (by
      intro done outs s i shard _ hs hshard
      rcases hs with ⟨hcache, hdb, hcap, hsub⟩
      rcases (buildShard_eq hcache).left shard hshard with
        ⟨s', hstep, hcache', hdb', hcap', hsub'⟩
      refine ⟨s', hstep, hcache', ?_, ?_, ?_⟩
      · rw [hdb', hdb, List.flatMap_append, List.flatMap_singleton]
      · rw [hcap', hcap, List.map_append, List.append_assoc]
        rfl
      · rw [hsub', hsub, List.map_append]
        rfl)
    (by
      intro done outs s i _ hs hnone
      exact (buildShard_eq hs.left).right hnone)
    hstart
  unfold buildPirDbAndBroadcast
  constructor
  · intro shards hshards
    rcases hloop.left shards hshards with ⟨s', hfold, hcache, hdb, hcap, hsub⟩
    rw [List.nil_append] at hdb hcap hsub
    refine ⟨s'.cache, ?_, hcache⟩
    dsimp only
    rw [hfold]
    show some _ = some _
    rw [hdb, hcap, hsub]
    rfl
  · intro hnone
    dsimp only
    rw [hloop.right hnone]
    rfl

end CommitmentTreeDb
end Witness
end SpendabilityPir
