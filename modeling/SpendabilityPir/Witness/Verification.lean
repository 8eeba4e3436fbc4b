import SpendabilityPir.Witness.Reconstruct

/-!
# What a returned witness proves

A path of 32 levels climbs three trees.  It ends at the cap root when each tree's root
is the leaf of the tree above it.  The client never compares these, so it returns a
witness for every canonical row, and that witness is right for consistent rows only.
-/

namespace SpendabilityPir
namespace Witness

open Foundation

variable (M : MerkleHashOrchard)

def capRoot (broadcast : BroadcastData) : Option Hash :=
  treeOver M shardHeight (padCap M broadcast.cap.shardRoots) shardHeight 0

/-- The row hashes to its sub-shard root, and the sub-shard roots of the shard hash to
the shard root. -/
def ConsistentRow (decodedRow : List UInt8) (broadcast : BroadcastData)
    (shardIdx subshardIdx : Nat) : Prop :=
  exists shard,
    broadcast.subshardRoots[shardIdx - broadcast.windowStartShard]? = some shard ∧
    treeOver M 0 (parsedLeaves decodedRow) subshardHeight 0 =
      shard.roots[subshardIdx]? ∧
    treeOver M subshardHeight shard.roots subshardHeight 0 =
      (padCap M broadcast.cap.shardRoots)[shardIdx]?

/-- A returned witness leads to the cap root and reports it, and a row inconsistent
with the broadcast is an error. -/
def VerifiesWitness (mode : Arithmetic) (position : Nat) (decodedRow : List UInt8)
    (broadcast : BroadcastData) : Prop :=
  let (shardIdx, subshardIdx, leafIdx) := decomposePosition position
  let result := reconstructWitness M mode position shardIdx subshardIdx leafIdx
    decodedRow broadcast
  (forall witness, result = .ok witness ->
    MerkleTree.pathRoot (combineRoots M) 0 position (siblingNode witness.siblings)
        treeDepth (some (rowLeaf decodedRow leafIdx)) = capRoot M broadcast ∧
      some witness.anchorRoot = capRoot M broadcast) ∧
  (¬ ConsistentRow M decodedRow broadcast shardIdx subshardIdx ->
    result = .error (.error (.verificationFailed position)))

variable {M}

theorem pathRoot_treeOver {base height index : Nat} {nodes : List Hash}
    (h : index < 2 ^ height) :
    MerkleTree.pathRoot (combineRoots M) base index
        (fun level => treeOver M base nodes level ((index / 2 ^ level) ^^^ 1)) height
        nodes[index]? =
      treeOver M base nodes height 0 := by
  have hnode : MerkleTree.pathRoot (combineRoots M) base index
        (fun level => treeOver M base nodes level ((index / 2 ^ level) ^^^ 1)) height
        ((fun i => nodes[i]?) index) =
      rootAt M base (fun i => nodes[i]?) height (index / 2 ^ height) :=
    MerkleTree.pathRoot_eq_node (combineRoots M) (fun _ _ => rfl)
  rw [Nat.div_eq_of_lt h] at hnode
  exact hnode

theorem pathRoot_tiers {position : Nat} {leaves roots cap : List Hash}
    {siblings : Fin treeDepth -> Hash}
    (h : forall level : Fin treeDepth, some (siblings level) =
      tierSibling M (position / 2 ^ 16) (position / 2 ^ 8 % 256) (position % 256) leaves
        roots cap level.val)
    (leaf : Option Hash) :
    MerkleTree.pathRoot (combineRoots M) 0 position (siblingNode siblings) treeDepth
        leaf =
      MerkleTree.pathRoot (combineRoots M) shardHeight (position / 2 ^ 16)
        (fun level => treeOver M shardHeight cap level
          ((position / 2 ^ 16 / 2 ^ level) ^^^ 1)) shardHeight
        (MerkleTree.pathRoot (combineRoots M) subshardHeight (position / 2 ^ 8 % 256)
          (fun level => treeOver M subshardHeight roots level
            ((position / 2 ^ 8 % 256 / 2 ^ level) ^^^ 1)) subshardHeight
          (MerkleTree.pathRoot (combineRoots M) 0 (position % 256)
            (fun level => treeOver M 0 leaves level
              ((position % 256 / 2 ^ level) ^^^ 1)) subshardHeight leaf)) := by
  have hsibling : forall level, level < treeDepth -> siblingNode siblings level =
      tierSibling M (position / 2 ^ 16) (position / 2 ^ 8 % 256) (position % 256) leaves
        roots cap level := by
    intro level hlevel
    rw [siblingNode_eq siblings ⟨level, hlevel⟩]
    exact h ⟨level, hlevel⟩
  have hsub8 : subshardHeight = 8 := rfl
  have hshard16 : shardHeight = 16 := rfl
  have hdepth32 : treeDepth = 32 := rfl
  have hlow : forall level, level < subshardHeight -> siblingNode siblings level =
      treeOver M 0 leaves level ((position % 256 / 2 ^ level) ^^^ 1) := by
    intro level hlevel
    rw [hsibling level (by lia), tierSibling, if_pos hlevel]
  have hmiddle : forall level, level < subshardHeight ->
      siblingNode siblings (subshardHeight + level) =
        treeOver M subshardHeight roots level
          ((position / 2 ^ 8 % 256 / 2 ^ level) ^^^ 1) := by
    intro level hlevel
    rw [hsibling _ (by lia), tierSibling, if_neg (by lia), if_pos (by lia),
      Nat.add_sub_cancel_left]
  have hhigh : forall level, level < shardHeight ->
      siblingNode siblings (subshardHeight + (subshardHeight + level)) =
        treeOver M shardHeight cap level ((position / 2 ^ 16 / 2 ^ level) ^^^ 1) := by
    intro level hlevel
    have hsum : subshardHeight + (subshardHeight + level) - shardHeight = level := by lia
    rw [hsibling _ (by lia), tierSibling, if_neg (by lia), if_neg (by lia), hsum]
  have hdiv : position / 2 ^ subshardHeight / 2 ^ subshardHeight =
      position / 2 ^ 16 := by
    rw [Nat.div_div_eq_div_mul]
    rfl
  show MerkleTree.pathRoot (combineRoots M) 0 position (siblingNode siblings)
    (subshardHeight + (subshardHeight + shardHeight)) leaf = _
  rw [MerkleTree.pathRoot_add, MerkleTree.pathRoot_add, hdiv,
    ← MerkleTree.pathRoot_mod (combineRoots M) 0 position,
    ← MerkleTree.pathRoot_mod (combineRoots M) _ (position / 2 ^ subshardHeight),
    MerkleTree.pathRoot_congr (combineRoots M) hlow,
    MerkleTree.pathRoot_congr (combineRoots M) hmiddle,
    MerkleTree.pathRoot_congr (combineRoots M) hhigh, Nat.zero_add]
  rfl

theorem pathRoot_of_consistent {position : Nat} {decodedRow : List UInt8}
    {broadcast : BroadcastData} {shard : ShardSubRoots}
    {siblings : Fin treeDepth -> Hash} (hposition : position < 2 ^ 32)
    (hrow : treeOver M 0 (parsedLeaves decodedRow) subshardHeight 0 =
      shard.roots[position / 2 ^ 8 % 256]?)
    (hshard : treeOver M subshardHeight shard.roots subshardHeight 0 =
      (padCap M broadcast.cap.shardRoots)[position / 2 ^ 16]?)
    (hsiblings : forall level : Fin treeDepth, some (siblings level) =
      tierSibling M (position / 2 ^ 16) (position / 2 ^ 8 % 256) (position % 256)
        (parsedLeaves decodedRow) shard.roots (padCap M broadcast.cap.shardRoots)
        level.val) :
    MerkleTree.pathRoot (combineRoots M) 0 position (siblingNode siblings) treeDepth
        (some (rowLeaf decodedRow (position % 256))) = capRoot M broadcast := by
  have hleaf : position % 256 < subshardLeaves := Nat.mod_lt _ (by decide)
  have hsubshard : position / 2 ^ 8 % 256 < 2 ^ subshardHeight :=
    Nat.mod_lt _ (by decide)
  have hshardIdx : position / 2 ^ 16 < 2 ^ shardHeight := by
    rw [Nat.div_lt_iff_lt_mul (by decide)]
    exact hposition
  rw [pathRoot_tiers hsiblings, ← getElem?_parsedLeaves hleaf, pathRoot_treeOver hleaf,
    hrow, pathRoot_treeOver hsubshard, hshard, pathRoot_treeOver hshardIdx]
  rfl

/-!
## When a witness is verified
-/

theorem BroadcastData.WellFormed.shard_of_window {broadcast : BroadcastData}
    (hwf : broadcast.WellFormed M) {shardIdx : Nat}
    (hhi : shardIdx < broadcast.windowStartShard + broadcast.windowShardCount)
    (hlo : broadcast.windowStartShard ≤ shardIdx) :
    exists shard,
      broadcast.subshardRoots[shardIdx - broadcast.windowStartShard]? = some shard := by
  have hlt : shardIdx - broadcast.windowStartShard < broadcast.subshardRoots.length := by
    rw [hwf.counted]
    lia
  exact ⟨_, List.getElem?_eq_getElem hlt⟩

theorem reconstructWitness_of_window (mode : Arithmetic) (position : Nat)
    {decodedRow : List UInt8} {broadcast : BroadcastData}
    (hposition : position < 2 ^ 32) (hwf : broadcast.WellFormed M)
    (hrow : CanonicalRow M decodedRow)
    (hlo : broadcast.windowStartShard ≤ position / 2 ^ 16)
    (hhi : position / 2 ^ 16 < broadcast.windowStartShard + broadcast.windowShardCount) :
    exists shard witness,
      broadcast.subshardRoots[position / 2 ^ 16 - broadcast.windowStartShard]? =
        some shard ∧
      reconstructWitness M mode position (position / 2 ^ 16) (position / 2 ^ 8 % 256)
        (position % 256) decodedRow broadcast = .ok witness ∧
      witness.anchorHeight = broadcast.anchorHeight ∧
      (forall level : Fin treeDepth, some (witness.siblings level) =
        tierSibling M (position / 2 ^ 16) (position / 2 ^ 8 % 256) (position % 256)
          (parsedLeaves decodedRow) shard.roots (padCap M broadcast.cap.shardRoots)
          level.val) ∧
      some witness.anchorRoot = MerkleTree.pathRoot (combineRoots M) 0 position
        (siblingNode witness.siblings) treeDepth
        (some (rowLeaf decodedRow (position % 256))) := by
  have hshardIdx : position / 2 ^ 16 < 2 ^ shardHeight := by
    rw [Nat.div_lt_iff_lt_mul (by decide)]
    exact hposition
  rcases hwf.shard_of_window hhi hlo with ⟨shard, hshard⟩
  rcases reconstructWitness_eq mode position hwf hrow hlo hshard hshardIdx
    (Nat.mod_lt _ (by decide)) (Nat.mod_lt _ (by decide)) with
    ⟨witness, hwitness, hheight, hsiblings, hanchor⟩
  exact ⟨shard, witness, hshard, hwitness, hheight, hsiblings, hanchor⟩

theorem consistent_of_verifies (mode : Arithmetic) {position : Nat}
    {decodedRow : List UInt8} {broadcast : BroadcastData}
    (hposition : position < 2 ^ 32) (hwf : broadcast.WellFormed M)
    (hrow : CanonicalRow M decodedRow)
    (hlo : broadcast.windowStartShard ≤ (decomposePosition position).1)
    (hhi : (decomposePosition position).1 <
      broadcast.windowStartShard + broadcast.windowShardCount)
    (hverifies : VerifiesWitness M mode position decodedRow broadcast) :
    ConsistentRow M decodedRow broadcast (decomposePosition position).1
      (decomposePosition position).2.1 := by
  rw [VerifiesWitness] at hverifies
  rw [decomposePosition_of_lt hposition] at hlo hhi hverifies ⊢
  rcases reconstructWitness_of_window mode position hposition hwf hrow hlo hhi with
    ⟨_, witness, _, hwitness, _⟩
  by_contra hinconsistent
  have hrejected := hverifies.right hinconsistent
  rw [hwitness] at hrejected
  cases hrejected

/-- The client verifies a witness exactly for the rows consistent with the
broadcast. -/
theorem verifies_witness_iff_consistent (mode : Arithmetic) {position : Nat}
    {decodedRow : List UInt8} {broadcast : BroadcastData}
    (hposition : position < 2 ^ 32) (hwf : broadcast.WellFormed M)
    (hrow : CanonicalRow M decodedRow)
    (hlo : broadcast.windowStartShard ≤ (decomposePosition position).1)
    (hhi : (decomposePosition position).1 <
      broadcast.windowStartShard + broadcast.windowShardCount) :
    VerifiesWitness M mode position decodedRow broadcast ↔
      ConsistentRow M decodedRow broadcast (decomposePosition position).1
        (decomposePosition position).2.1 := by
  constructor
  · exact consistent_of_verifies mode hposition hwf hrow hlo hhi
  · intro hconsistent
    rw [VerifiesWitness]
    rw [decomposePosition_of_lt hposition] at hlo hhi hconsistent ⊢
    rcases reconstructWitness_of_window mode position hposition hwf hrow hlo hhi with
      ⟨shard, witness, hshard, hwitness, _, hsiblings, hanchor⟩
    constructor
    · intro returned hreturned
      rw [hwitness] at hreturned
      cases hreturned
      rcases hconsistent with ⟨shard', hshard', hrowRoot, hshardRoot⟩
      rw [hshard] at hshard'
      cases hshard'
      have hpath := pathRoot_of_consistent hposition hrowRoot hshardRoot hsiblings
      exact ⟨hpath, hanchor.trans hpath⟩
    · intro hinconsistent
      exact absurd hconsistent hinconsistent

/-!
## The row of one leaf
-/

def leafSubshard : List Hash :=
  ByteVec.ofBytes 32 [7] :: List.replicate 255 (emptyRoots sampleHash 0)

def leafRow : List UInt8 := leafSubshard.flatMap List.Vector.toList

/-- The broadcast of a shard with that sub-shard and empty ones. -/
def leafBroadcast (subshardRoot shardRoot : Hash) : BroadcastData :=
  { cap := { shardRoots := [shardRoot] }
    subshardRoots :=
      [{ roots := subshardRoot :: List.replicate 255 (emptyRoots sampleHash subshardHeight) }]
    windowStartShard := 0
    windowShardCount := 1
    anchorHeight := 1 }

theorem allCanonical_cons_empty {root : Hash} (h : Canonical sampleHash root)
    (level count : Nat) :
    AllCanonical sampleHash (root :: List.replicate count (emptyRoots sampleHash level)) := by
  intro node hnode
  rcases List.mem_cons.mp hnode with hfirst | hempty
  · rw [hfirst]
    exact h
  · rw [(List.mem_replicate.mp hempty).right]
    exact canonical_emptyRoots level

theorem length_cons_empty (root : Hash) (level : Nat) :
    (root :: List.replicate 255 (emptyRoots sampleHash level)).length = subshardLeaves := by
  rw [List.length_cons, List.length_replicate]
  rfl

theorem treeOver_of_canonical (base height : Nat) {nodes : List Hash}
    (h : AllCanonical M nodes) (hlength : nodes.length = 2 ^ height) :
    exists root, treeOver M base nodes height 0 = some root ∧ Canonical M root := by
  apply rootAt_of_canonical
  intro j _ hj
  rw [Nat.zero_add, Nat.one_mul, ← hlength] at hj
  exact ⟨nodes[j], List.getElem?_eq_getElem hj, h _ (List.getElem_mem hj)⟩

theorem canonicalRow_leafRow : CanonicalRow sampleHash leafRow :=
  canonicalRow_flatMap (length_cons_empty _ 0)
    (allCanonical_cons_empty (canonical_sampleHash (by decide)) 0 255)

theorem wellFormed_leafBroadcast {subshardRoot shardRoot : Hash}
    (hsubshard : Canonical sampleHash subshardRoot) (hshard : Canonical sampleHash shardRoot) :
    (leafBroadcast subshardRoot shardRoot).WellFormed sampleHash := by
  constructor
  · rfl
  · intro shard hmem
    rw [List.mem_singleton.mp hmem]
    exact length_cons_empty subshardRoot subshardHeight
  · change 1 ≤ 2 ^ shardHeight
    decide
  · intro shard hmem
    rw [List.mem_singleton.mp hmem]
    exact allCanonical_cons_empty hsubshard subshardHeight 255
  · intro node hmem
    rw [List.mem_singleton.mp hmem]
    exact hshard

/-- The leaf verifies up to the shard root in the cap. -/
theorem verifies_witness_leafRow :
    exists subshardRoot shardRoot witness,
      treeOver sampleHash 0 leafSubshard subshardHeight 0 = some subshardRoot ∧
      reconstructWitness sampleHash .checked 0 0 0 0 leafRow
        (leafBroadcast subshardRoot shardRoot) = .ok witness ∧
      VerifiesWitness sampleHash .checked 0 leafRow
        (leafBroadcast subshardRoot shardRoot) := by
  have hleaf : Canonical sampleHash (ByteVec.ofBytes 32 [7]) :=
    canonical_sampleHash (by decide)
  rcases treeOver_of_canonical 0 subshardHeight
    (allCanonical_cons_empty hleaf 0 255) (length_cons_empty _ 0) with
    ⟨subshardRoot, hrow, hsubshard⟩
  rcases treeOver_of_canonical subshardHeight subshardHeight
    (allCanonical_cons_empty hsubshard subshardHeight 255)
    (length_cons_empty _ subshardHeight) with
    ⟨shardRoot, hroots, hshard⟩
  have hwf := wellFormed_leafBroadcast hsubshard hshard
  have hparsed : parsedLeaves (leafSubshard.flatMap List.Vector.toList) = leafSubshard :=
    parsedLeaves_flatMap (length_cons_empty _ 0)
  have hconsistent : ConsistentRow sampleHash leafRow
      (leafBroadcast subshardRoot shardRoot) 0 0 := by
    refine ⟨_, rfl, ?_, ?_⟩
    · rw [leafRow, hparsed]
      exact hrow
    · exact hroots
  have hwindow : (decomposePosition 0).1 < 0 + 1 := by decide
  rcases reconstructWitness_of_window .checked 0 (by decide) hwf canonicalRow_leafRow
    (Nat.zero_le _) hwindow with ⟨_, witness, _, hwitness, _⟩
  exact ⟨subshardRoot, shardRoot, witness, hrow, hwitness,
    (verifies_witness_iff_consistent .checked (by decide) hwf canonicalRow_leafRow
      (Nat.zero_le _) hwindow).mpr hconsistent⟩

/-!
## One row, two broadcasts
-/

def emptyRow : List UInt8 :=
  (List.replicate subshardLeaves (emptyRoots sampleHash 0)).flatMap List.Vector.toList

/-- A broadcast of one shard whose sub-shards all have the same root. -/
def uniformBroadcast (root : Hash) : BroadcastData :=
  { cap := { shardRoots := [] }
    subshardRoots := [{ roots := List.replicate subshardsPerShard root }]
    windowStartShard := 0
    windowShardCount := 1
    anchorHeight := 1 }

theorem canonicalRow_emptyRow : CanonicalRow sampleHash emptyRow := by
  apply canonicalRow_flatMap List.length_replicate
  intro node hnode
  rw [(List.mem_replicate.mp hnode).right]
  exact canonical_emptyRoots 0

theorem wellFormed_uniformBroadcast {root : Hash} (h : Canonical sampleHash root) :
    (uniformBroadcast root).WellFormed sampleHash := by
  constructor
  · rfl
  · intro shard hshard
    rw [List.mem_singleton.mp hshard]
    exact List.length_replicate
  · exact Nat.zero_le _
  · intro shard hshard node hnode
    rw [List.mem_singleton.mp hshard] at hnode
    rw [(List.mem_replicate.mp hnode).right]
    exact h
  · intro node hfalse
    cases hfalse

/-- The row of an empty sub-shard is consistent with the roots of empty sub-shards
only. -/
theorem consistentRow_emptyRow_iff (root : Hash) :
    ConsistentRow sampleHash emptyRow (uniformBroadcast root) 0 0 ↔
      root = emptyRoots sampleHash subshardHeight := by
  have hrow : treeOver sampleHash 0 (parsedLeaves emptyRow) subshardHeight 0 =
      some (emptyRoots sampleHash subshardHeight) := by
    rw [emptyRow, parsedLeaves_flatMap List.length_replicate, ← Nat.zero_add subshardHeight]
    exact treeOver_replicate_emptyRoots 0 subshardHeight
  constructor
  · intro h
    rcases h with ⟨shard, hshard, hroot, _⟩
    cases hshard
    rw [hrow] at hroot
    exact (Option.some.inj hroot).symm
  · intro h
    rw [h]
    refine ⟨_, rfl, ?_, ?_⟩
    · rw [hrow]
      rfl
    · have hshard := treeOver_replicate_emptyRoots (M := sampleHash) subshardHeight
        subshardHeight
      have hempty : emptyRoots sampleHash shardHeight = emptyHash sampleHash shardHeight :=
        emptyRoots_eq_emptyHash (by decide)
      have hpadded : (padCap sampleHash [])[0]? =
          some (emptyHash sampleHash shardHeight) := by
        rw [padCap, List.take_nil, List.nil_append, List.getElem?_replicate,
          if_pos (by decide)]
      show _ = (padCap sampleHash [])[0]?
      rw [hpadded, ← hempty]
      exact hshard

/-- Against roots it does not hash to, the same row is not rejected. -/
theorem inconsistent_row_not_rejected :
    ¬ VerifiesWitness sampleHash .checked 0 emptyRow
      (uniformBroadcast (ByteVec.zeros 32)) := by
  intro hverifies
  have hconsistent : ConsistentRow sampleHash emptyRow
      (uniformBroadcast (ByteVec.zeros 32)) 0 0 :=
    consistent_of_verifies .checked (by decide)
      (wellFormed_uniformBroadcast canonical_zeros) canonicalRow_emptyRow (by decide)
      (by decide) hverifies
  have hdifferent : ByteVec.zeros 32 ≠ emptyRoots sampleHash subshardHeight := by decide
  exact hdifferent ((consistentRow_emptyRow_iff _).mp hconsistent)

end Witness
end SpendabilityPir
