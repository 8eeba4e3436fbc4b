import SpendabilityPir.Witness.TreeRoots

/-!
# The PIR database of a build

Row by row the database holds the local leaves from the offset on, padded with the
empty leaf to the end of the last window shard, then zeros.  This needs shard indices
that fit in 32 bits; past that they wrap and rows read positions before the window.
-/

namespace SpendabilityPir
namespace Witness

open Foundation

namespace CommitmentTreeDb

variable {M : MerkleHashOrchard} {mode : Arithmetic}
variable {xxh64 : List UInt8 -> Nat -> UInt64}

/-- All shard indices and counts of the tree fit in 32 bits. -/
def FitsShardIndex (t : CommitmentTreeDb) : Prop :=
  t.treeSize + shardLeaves ≤ 2 ^ 48

theorem windowStartShard_eq {t : CommitmentTreeDb} (h : t.FitsShardIndex) :
    t.windowStartShard = t.leafOffset / shardLeaves := by
  have hshard : shardLeaves = 65536 := rfl
  rw [FitsShardIndex, treeSize, hshard] at h
  rw [windowStartShard, hshard, asU32_of_lt (by lia)]

theorem leafOffset_eq {t : CommitmentTreeDb} (haligned : t.leafOffset % shardLeaves = 0)
    (h : t.FitsShardIndex) : t.leafOffset = t.windowStartShard * shardLeaves := by
  have hshard : shardLeaves = 65536 := rfl
  rw [windowStartShard_eq h]
  rw [hshard] at haligned ⊢
  lia

/-- The shards from the offset to the newest leaf. -/
theorem localShardCount_eq {t : CommitmentTreeDb}
    (haligned : t.leafOffset % shardLeaves = 0) (h : t.FitsShardIndex) :
    t.localShardCount = (t.leaves.length + (shardLeaves - 1)) / shardLeaves := by
  have hshard : shardLeaves = 65536 := rfl
  have hoffset := leafOffset_eq haligned h
  rw [hshard] at hoffset
  rw [FitsShardIndex, hshard, treeSize] at h
  unfold localShardCount
  split
  · next hempty =>
      rw [List.isEmpty_iff.mp hempty, hshard]
      rfl
  · next hlocal =>
      have hlen : 0 < t.leaves.length := by
        apply List.length_pos_of_ne_nil
        intro hnil
        exact hlocal (List.isEmpty_iff.mpr hnil)
      have hlast : (t.treeSize - 1) / 65536 =
          t.windowStartShard + (t.leaves.length - 1) / 65536 := by
        rw [treeSize]
        lia
      have hlt : t.windowStartShard + (t.leaves.length - 1) / 65536 + 1 < 2 ^ 32 := by
        lia
      generalize t.windowStartShard = first at hlast hlt ⊢
      have hcast : asU32 (first + (t.leaves.length - 1) / 65536) =
          first + (t.leaves.length - 1) / 65536 := asU32_of_lt (by lia)
      have hsub : wrappingSubU32 (first + (t.leaves.length - 1) / 65536) first =
          (t.leaves.length - 1) / 65536 := by
        rw [wrappingSubU32_of_le (Nat.le_add_right _ _) (by lia),
          Nat.add_sub_cancel_left]
      have hcount : asU32 ((t.leaves.length - 1) / 65536 + 1) =
          (t.leaves.length - 1) / 65536 + 1 := asU32_of_lt (by lia)
      rw [hshard, hlast, hcast]
      dsimp only
      rw [hsub, hcount]
      lia

/-- The local leaf at an index, padded with the empty leaf. -/
def localLeaf (M : MerkleHashOrchard) (t : CommitmentTreeDb) (j : Nat) : Hash :=
  t.leaves.getD j (emptyRoots M 0)

theorem leafAt_offset_add (t : CommitmentTreeDb) (j : Nat) :
    leafAt M t (t.leafOffset + j) = localLeaf M t j := by
  rw [leafAt_of_ge (Nat.le_add_right _ _), Nat.add_sub_cancel_left, localLeaf]

theorem windowShardIdx_eq {t : CommitmentTreeDb}
    (haligned : t.leafOffset % shardLeaves = 0) (h : t.FitsShardIndex) {i : Nat}
    (hi : i < t.windowShardCount) :
    asU32 (t.windowStartShard + i) = t.windowStartShard + i := by
  have hshard : shardLeaves = 65536 := rfl
  have hcount := localShardCount_eq haligned h
  have hoffset := leafOffset_eq haligned h
  rw [FitsShardIndex, treeSize, hshard] at h
  rw [hshard] at hcount hoffset
  apply asU32_of_lt
  rw [windowShardCount] at hi
  lia

def rowLeaves (M : MerkleHashOrchard) (t : CommitmentTreeDb) (row : Nat) : List Hash :=
  (List.range subshardLeaves).map (fun i => localLeaf M t (row * subshardLeaves + i))

theorem subshardLeavesOf_window {t : CommitmentTreeDb}
    (haligned : t.leafOffset % shardLeaves = 0) (h : t.FitsShardIndex) (i ss : Nat) :
    t.subshardLeavesOf M (t.windowStartShard + i) ss =
      rowLeaves M t (i * subshardsPerShard + ss) := by
  unfold subshardLeavesOf rowLeaves
  apply List.map_congr_left
  intro k _
  have hposition : (t.windowStartShard + i) * shardLeaves + ss * subshardLeaves + k =
      t.leafOffset + ((i * subshardsPerShard + ss) * subshardLeaves + k) := by
    have hshard : shardLeaves = subshardsPerShard * subshardLeaves := rfl
    rw [leafOffset_eq haligned h, Nat.add_mul, Nat.add_mul, hshard, Nat.mul_assoc i]
    lia
  rw [hposition, leafAt_offset_add]

theorem windowRows_eq {t : CommitmentTreeDb} (haligned : t.leafOffset % shardLeaves = 0)
    (h : t.FitsShardIndex) :
    t.windowRows M = (List.range (t.windowShardCount * subshardsPerShard)).flatMap
      (fun row => (rowLeaves M t row).flatMap List.Vector.toList) := by
  rw [← flatMap_range_flatMap, windowRows]
  apply List.flatMap_congr
  intro i hi
  have hidx := windowShardIdx_eq haligned h (List.mem_range.mp hi)
  apply List.flatMap_congr
  intro ss _
  rw [rowBytes, hidx, subshardLeavesOf_window haligned h]

theorem length_rowLeaves_bytes (t : CommitmentTreeDb) (row : Nat) :
    ((rowLeaves M t row).flatMap List.Vector.toList).length = subshardRowBytes := by
  rw [length_flatMap_toList, rowLeaves, List.length_map, List.length_range]
  rfl

theorem windowRows_flat {t : CommitmentTreeDb}
    (haligned : t.leafOffset % shardLeaves = 0) (h : t.FitsShardIndex) :
    t.windowRows M = ((List.range (t.windowShardCount * shardLeaves)).map
      (localLeaf M t)).flatMap List.Vector.toList := by
  have hshard : shardLeaves = subshardsPerShard * subshardLeaves := rfl
  rw [windowRows_eq haligned h, hshard, ← Nat.mul_assoc, ← flatMap_range_map,
    List.flatMap_assoc]
  rfl

/-- The layout of the database: local leaves, empty leaves, zero bytes. -/
def dbLayout (M : MerkleHashOrchard) (t : CommitmentTreeDb) : List UInt8 :=
  let stored := t.leaves.take (l0DbRows * subshardLeaves)
  let padding := List.replicate (t.windowShardCount * shardLeaves - stored.length)
    (emptyRoots M 0)
  stored.flatMap List.Vector.toList ++ (padding.flatMap List.Vector.toList ++
    List.replicate (l0DbBytes - t.windowShardCount * shardLeaves * 32) 0)

theorem length_resize (len : Nat) (bytes : List UInt8) :
    (resize len bytes).length = len := by
  rw [resize, List.length_append, List.length_take, List.length_replicate]
  lia

theorem length_windowRows_le {t : CommitmentTreeDb}
    (haligned : t.leafOffset % shardLeaves = 0) (h : t.FitsShardIndex) :
    (t.windowRows M).length = t.windowShardCount * shardLeaves * 32 ∧
      t.windowShardCount * shardLeaves * 32 ≤ l0DbBytes := by
  constructor
  · rw [windowRows_flat haligned h, length_flatMap_toList, List.length_map,
      List.length_range]
  · have hmax : t.windowShardCount ≤ l0MaxShards := Nat.min_le_right _ _
    have hshard : shardLeaves = 65536 := rfl
    have hlimit : l0MaxShards = 32 := rfl
    have hbytes : l0DbBytes = 67108864 := rfl
    lia

theorem take_window (xs : List Hash) :
    xs.take (min ((xs.length + (65536 - 1)) / 65536) 32 * 65536) =
      xs.take 2097152 := by
  have hcover := Nat.div_add_mod (xs.length + (65536 - 1)) 65536
  have hrest := Nat.mod_lt (xs.length + (65536 - 1)) (y := 65536) (by lia)
  generalize (xs.length + (65536 - 1)) / 65536 = count at hcover ⊢
  rcases Nat.lt_or_ge 32 count with hlong | hshort
  · rw [Nat.min_eq_right (Nat.le_of_lt hlong)]
  · rw [Nat.min_eq_left hshort, List.take_of_length_le (by lia),
      List.take_of_length_le (by lia)]

theorem sub_length_take (xs : List Hash) (n : Nat) :
    n - (xs.take n).length = n - xs.length := by
  rw [List.length_take]
  lia

theorem map_localLeaf {t : CommitmentTreeDb}
    (haligned : t.leafOffset % shardLeaves = 0) (h : t.FitsShardIndex) :
    (List.range (t.windowShardCount * shardLeaves)).map (localLeaf M t) =
      t.leaves.take (l0DbRows * subshardLeaves) ++
        List.replicate (t.windowShardCount * shardLeaves -
          (t.leaves.take (l0DbRows * subshardLeaves)).length) (emptyRoots M 0) := by
  have hstored : t.leaves.take (t.windowShardCount * shardLeaves) =
      t.leaves.take (l0DbRows * subshardLeaves) := by
    rw [windowShardCount, localShardCount_eq haligned h]
    exact take_window t.leaves
  rw [← hstored, sub_length_take]
  exact map_range_getD t.leaves (emptyRoots M 0) _

theorem resize_windowRows {t : CommitmentTreeDb}
    (haligned : t.leafOffset % shardLeaves = 0) (h : t.FitsShardIndex) :
    resize l0DbBytes (t.windowRows M) = dbLayout M t := by
  rcases length_windowRows_le (M := M) haligned h with ⟨hlength, hfits⟩
  rw [resize, List.take_of_length_le (by rw [hlength]; exact hfits), hlength,
    windowRows_flat haligned h, map_localLeaf haligned h, List.flatMap_append,
    List.append_assoc]
  rfl

/-!
## The cache never changes a result
-/

/-- In every history the cached roots are the roots of their slots, a build returns
what it returns with an empty cache, its sub-shard roots are the recomputed ones, and
where shard indices fit its database has the documented layout. -/
theorem cache_never_changes_result {leafOffset : Nat} {roots : List Hash}
    (haligned : leafOffset % shardLeaves = 0) {ops : List TreeOp}
    {t : CommitmentTreeDb}
    (h : Run (TreeStep M mode xxh64) (withOffset leafOffset roots) ops t)
    (anchorHeight : Nat) :
    (forall slot root, t.ssRootCache slot = some root ->
      completeSubtreeRoot M (t.slotLeaves M slot.val) 0 = some root) ∧
    (t.buildPirDbAndBroadcast M anchorHeight).map Prod.snd =
      (({ t with ssRootCache := fun _ => none } :
        CommitmentTreeDb).buildPirDbAndBroadcast M anchorHeight).map Prod.snd ∧
    (forall t' db broadcast,
      t.buildPirDbAndBroadcast M anchorHeight = some (t', db, broadcast) ->
      broadcast.subshardRoots.length = t.windowShardCount ∧
      (forall i shard, broadcast.subshardRoots[i]? = some shard ->
        t.subshardRoots M (asU32 (broadcast.windowStartShard + i)) =
          some shard.roots) ∧
      db.length = l0DbBytes ∧
      (t.FitsShardIndex -> db = dbLayout M t)) := by
  have hinv := treeInvariant_history haligned h
  have halignedTree : t.leafOffset % shardLeaves = 0 := by
    rw [hinv.leafOffset]
    exact haligned
  refine ⟨hinv.cache, ?_, ?_⟩
  · have hcold : CacheValid M { t with ssRootCache := fun _ => none } :=
      fun _ _ hfalse => nomatch hfalse
    exact build_output_eq hinv.cache hcold anchorHeight
  · intro t' db broadcast hbuild
    rcases build_tree_eq hinv.cache hbuild with
      ⟨_, shards, _, _, hshards, hdb, hbroadcast⟩
    refine ⟨?_, ?_, ?_, ?_⟩
    · rw [hbroadcast]
      show (shards.map _).length = _
      rw [List.length_map, length_mapM hshards, List.length_range]
    · intro i shard hshard
      rw [hbroadcast] at hshard ⊢
      have hlookup : (shards.map (fun s => ({ roots := s.1 } : ShardSubRoots)))[i]? =
          some shard := hshard
      rw [List.getElem?_map] at hlookup
      rcases Option.map_eq_some_iff.mp hlookup with ⟨pair, hpair, hroots⟩
      rw [getElem?_mapM hshards] at hpair
      rcases Option.bind_eq_some_iff.mp hpair with ⟨k, hk, hwindow⟩
      have hki : k = i := by
        rcases List.getElem?_eq_some_iff.mp hk with ⟨_, heq⟩
        rw [List.getElem_range] at heq
        exact heq.symm
      rw [hki] at hwindow
      rcases Option.bind_eq_some_iff.mp hwindow with ⟨ssRoots, hss, hrest⟩
      rcases Option.bind_eq_some_iff.mp hrest with ⟨root, _, hfinal⟩
      cases hfinal
      rw [← hroots]
      exact hss
    · rw [hdb]
      exact length_resize _ _
    · intro hfits
      rw [hdb]
      exact resize_windowRows halignedTree hfits

/-- A second build, on the cache the first one filled. -/
theorem cache_never_changes_result_grownTree :
    exists t, Run (TreeStep sampleHash .checked (fun _ _ => 0)) (withOffset 0 [])
        [.appendCommitments 1 (ByteVec.zeros 32) (List.replicate 1 (ByteVec.zeros 32)),
          .build 1] t ∧
      (t.buildPirDbAndBroadcast sampleHash 2).map Prod.snd =
        (({ t with ssRootCache := fun _ => none } :
          CommitmentTreeDb).buildPirDbAndBroadcast sampleHash 2).map Prod.snd := by
  rcases build_grownTree 1 (Nat.zero_mod shardLeaves) 1 with ⟨t', db, broadcast, hbuild⟩
  have hstep : TreeStep sampleHash .checked (fun _ _ => 0) (grownTree 0 1) (.build 1) t' :=
    .build hbuild
  have hrun := Run.snoc (run_grownTree sampleHash .checked (fun _ _ => 0) 0 1) hstep
  exact ⟨t', hrun, (cache_never_changes_result rfl hrun 2).right.left⟩

/-!
## Wrapped shard indices
-/

theorem windowRows_head {t : CommitmentTreeDb} (h : 0 < t.windowShardCount) :
    exists rest, t.windowRows M =
      (leafAt M t (asU32 t.windowStartShard * shardLeaves)).toList ++ rest := by
  have hrange : forall n, 0 < n -> exists rest, List.range n = 0 :: rest := by
    intro n hn
    cases n with
    | zero => exact absurd hn (Nat.lt_irrefl 0)
    | succ n => exact ⟨_, List.range_succ_eq_map⟩
  rcases hrange t.windowShardCount h with ⟨shards, hshards⟩
  rcases hrange subshardsPerShard (Nat.two_pow_pos _) with ⟨subshards, hsubshards⟩
  rcases hrange subshardLeaves (Nat.two_pow_pos _) with ⟨leaves, hleaves⟩
  rw [windowRows, hshards, List.flatMap_cons, hsubshards, List.flatMap_cons, rowBytes,
    subshardLeavesOf, hleaves, List.map_cons, List.flatMap_cons, Nat.zero_mul,
    Nat.add_zero, Nat.add_zero, List.append_assoc, List.append_assoc]
  exact ⟨_, rfl⟩

theorem getElem?_resize {len i : Nat} {bytes : List UInt8} (hlen : i < len)
    (hi : i < bytes.length) : (resize len bytes)[i]? = bytes[i]? := by
  rw [resize, List.getElem?_append_left (by rw [List.length_take]; lia),
    List.getElem?_take_of_lt hlen]

/-- Past 2 ^ 48 the first row of the database is not the first local leaves. -/
theorem wrapped_window_breaks_layout :
    (2 ^ 48) % shardLeaves = 0 ∧
    exists t t' db broadcast,
      Run (TreeStep sampleHash .wrapping (fun _ _ => 0)) (withOffset (2 ^ 48) [])
        [.appendCommitments 1 (ByteVec.zeros 32)
          (List.replicate 1 (ByteVec.zeros 32))] t ∧
      t.buildPirDbAndBroadcast sampleHash 1 = some (t', db, broadcast) ∧
      db ≠ dbLayout sampleHash t := by
  have haligned : (2 ^ 48) % shardLeaves = 0 := by decide
  have hcache := cacheValid_grownTree 1 haligned
  rcases build_grownTree 1 haligned 1 with ⟨t', db, broadcast, hbuild⟩
  refine ⟨haligned, grownTree (2 ^ 48) 1, t', db, broadcast, run_grownTree _ _ _ _ _,
    hbuild, ?_⟩
  rcases build_tree_eq hcache hbuild with ⟨_, _, _, _, _, hdb, _⟩
  have hstart : (grownTree (2 ^ 48) 1).windowStartShard = 0 := by decide
  have hcount : 0 < (grownTree (2 ^ 48) 1).windowShardCount := by decide
  rcases windowRows_head (M := sampleHash) hcount with ⟨rest, hrows⟩
  have hbuilt : db[0]? = some 2 := by
    have hlong : 0 < (windowRows sampleHash (grownTree (2 ^ 48) 1)).length := by
      rw [hrows, List.length_append, List.Vector.toList_length]
      lia
    rw [hdb, getElem?_resize (by decide) hlong, hrows, hstart]
    rfl
  have hlayout : (dbLayout sampleHash (grownTree (2 ^ 48) 1))[0]? = some 0 := by
    rfl
  intro heq
  rw [heq, hlayout] at hbuilt
  cases hbuilt

end CommitmentTreeDb
end Witness
end SpendabilityPir
