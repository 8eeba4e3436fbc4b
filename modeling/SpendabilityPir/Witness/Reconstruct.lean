import SpendabilityPir.Foundation.Outcome
import SpendabilityPir.Witness.SubtreeRoots

/-!
# Reconstructing a witness

The client parses the 256 leaves of a PIR row and reads 32 sibling hashes off three
full trees: the row, the sub-shard roots of the shard, and the shard roots padded to
the whole cap.  The anchor root it reports is the root of its own path.
-/

namespace SpendabilityPir
namespace Witness

open Foundation

/-- The errors of the client's own checks. -/
inductive WitnessClientError where
  | queryFailed (reason : String)
  | positionOutsideWindow (position firstShard endShard : Nat)
  | verificationFailed (position : Nat)
deriving DecidableEq

def rowLeaf (decodedRow : List UInt8) (i : Nat) : Hash :=
  ByteVec.ofBytes 32 (slice decodedRow (i * 32) 32)

def parseLeaves (decodedRow : List UInt8) : Outcome WitnessClientError (List Hash) :=
  if decodedRow.length < subshardRowBytes then
    .error (.error (.queryFailed
      s!"decoded row too short: {decodedRow.length} bytes, expected >= {subshardRowBytes}"))
  else .ok ((List.range subshardLeaves).map (rowLeaf decodedRow))

section Client

variable (M : MerkleHashOrchard)

/-- One level: combine in chunks of two, where a single last node pairs with the
empty root. -/
def combineChunks (level : Nat) : List Hash -> Option (List Hash)
  | left :: right :: rest => do
      let root <- hashCombine M level left right
      let roots <- combineChunks level rest
      return root :: roots
  | [left] => do
      let root <- hashCombine M level left (emptyHash M level)
      return [root]
  | [] => some []

/-- Note the sibling, climb a level, and go on for the given number of levels. -/
def extractLevels (levels treeLevel : Nat) (nodes : List Hash) (idx : Nat)
    (siblings : Fin treeDepth -> Hash) : Option (Fin treeDepth -> Hash) :=
  match levels with
  | 0 => some siblings
  | levels + 1 =>
      if h : treeLevel < treeDepth then do
        let sibling := nodes.getD (idx ^^^ 1) (emptyHash M treeLevel)
        let next <- combineChunks M treeLevel nodes
        extractLevels levels (treeLevel + 1) next (idx / 2)
          (Function.update siblings ⟨treeLevel, h⟩ sibling)
      else none

/-- The sibling subtree roots along the path to an index. -/
def extractSiblings (nodes : List Hash) (index baseLevel : Nat)
    (siblings : Fin treeDepth -> Hash) : Option (Fin treeDepth -> Hash) :=
  extractLevels M (trailingZeros nodes.length) baseLevel nodes index siblings

/-- Hash upward through the siblings; the lowest bit of the position picks the side. -/
def climbPath (level pos : Nat) : List Hash -> Hash -> Option Hash
  | [], current => some current
  | sibling :: rest, current => do
      let pair := if pos &&& 1 = 0 then (current, sibling) else (sibling, current)
      let parent <- hashCombine M level pair.1 pair.2
      climbPath (level + 1) (pos >>> 1) rest parent

def computeRootFromPath (position : Nat) (leaf : Hash)
    (siblings : Fin treeDepth -> Hash) : Option Hash :=
  climbPath M 0 position (List.ofFn siblings) leaf

/-- The cap, padded with the empty shard root to all shards of the tree. -/
def padCap (shardRoots : List Hash) : List Hash :=
  shardRoots.take (2 ^ shardHeight) ++
    List.replicate (2 ^ shardHeight - shardRoots.length) (emptyHash M shardHeight)

/-- Reconstruct a full witness from the decoded PIR row and broadcast data. -/
def reconstructWitness (mode : Arithmetic) (position shardIdx subshardIdx leafIdx : Nat)
    (decodedRow : List UInt8) (broadcast : BroadcastData) :
    Outcome WitnessClientError PirWitness := do
  let leaves <- parseLeaves decodedRow
  let low <- Outcome.ofPanics
    (extractSiblings M leaves leafIdx 0 (fun _ => ByteVec.zeros 32))
  let shardOffset <- mode.sub 32 shardIdx broadcast.windowStartShard
  let shard <- Outcome.ofPanics broadcast.subshardRoots[shardOffset]?
  let middle <- Outcome.ofPanics
    (extractSiblings M shard.roots subshardIdx subshardHeight low)
  let siblings <- Outcome.ofPanics
    (extractSiblings M (padCap M broadcast.cap.shardRoots) shardIdx shardHeight middle)
  let leaf <- Outcome.ofPanics leaves[leafIdx]?
  let anchorRoot <- Outcome.ofPanics (computeRootFromPath M position leaf siblings)
  return {
    position := position
    siblings := siblings
    anchorHeight := broadcast.anchorHeight
    anchorRoot := anchorRoot }

end Client

/-!
## Siblings of a full tree
-/

variable {M : MerkleHashOrchard}

/-- Every hash of a list is the encoding of a node. -/
def AllCanonical (M : MerkleHashOrchard) (nodes : List Hash) : Prop :=
  forall node, node ∈ nodes -> Canonical M node

/-- The tree over a full list of nodes at a base level. -/
def treeOver (M : MerkleHashOrchard) (base : Nat) (nodes : List Hash)
    (height index : Nat) : Option Hash :=
  rootAt M base (fun i => nodes[i]?) height index

theorem combinePairs_of_canonical (level : Nat) {nodes : List Hash}
    (h : AllCanonical M nodes) :
    exists next, combinePairs M level nodes = some next ∧ AllCanonical M next := by
  induction nodes using combinePairs.induct with
  | case1 left right rest ih =>
      rcases hashCombine_of_canonical level (h left (by simp))
        (h right (by simp)) with ⟨root, hroot, hcanonical⟩
      rcases ih (fun node hnode => h node (by simp [hnode])) with ⟨roots, hroots, hrest⟩
      refine ⟨root :: roots, ?_, ?_⟩
      · rw [combinePairs_cons, hroot, hroots]
        rfl
      · intro node hnode
        rcases List.mem_cons.mp hnode with heq | htail
        · rw [heq]
          exact hcanonical
        · exact hrest node htail
  | case2 nodes hshort =>
      refine ⟨[], ?_, ?_⟩
      · rw [combinePairs]
        exact hshort
      · intro node hfalse
        cases hfalse

theorem combineChunks_eq {level : Nat} {nodes : List Hash} (h : nodes.length % 2 = 0) :
    combineChunks M level nodes = combinePairs M level nodes := by
  induction nodes using combineChunks.induct with
  | case1 left right rest ih =>
      have hrest : rest.length % 2 = 0 := by
        rw [List.length_cons, List.length_cons] at h
        lia
      rw [combineChunks, combinePairs, ih hrest]
  | case2 left =>
      rw [List.length_singleton] at h
      cases h
  | case3 => rfl

theorem treeOver_succ {base : Nat} {nodes next : List Hash}
    (h : combinePairs M base nodes = some next) (height index : Nat) :
    treeOver M base nodes (height + 1) index =
      treeOver M (base + 1) next height index := by
  have hpairs : rootAt M base (fun i => nodes[i]?) 1 = fun i => next[i]? := by
    funext i
    exact (getElem?_combinePairs h i).symm
  rw [treeOver, treeOver, Nat.add_comm height 1, rootAt, MerkleTree.node_add, ← hpairs]

theorem treeOver_replicate_emptyRoots (base height : Nat) :
    treeOver M base (List.replicate (2 ^ height) (emptyRoots M base)) height 0 =
      some (emptyRoots M (base + height)) := by
  apply rootAt_empty
  intro i _ hi
  rw [List.getElem?_replicate, if_pos (by lia)]

/-- What a tier writes: its siblings at its own levels, nothing elsewhere. -/
def WritesSiblings (M : MerkleHashOrchard) (base height : Nat) (nodes : List Hash)
    (idx : Nat) (before after : Fin treeDepth -> Hash) : Prop :=
  forall level : Fin treeDepth,
    (base ≤ level.val -> level.val < base + height ->
      some (after level) = treeOver M base nodes (level.val - base)
        ((idx / 2 ^ (level.val - base)) ^^^ 1) ∧ Canonical M (after level)) ∧
    (level.val < base ∨ base + height ≤ level.val -> after level = before level)

/-- The sibling at the lowest level, then what the levels above write. -/
theorem WritesSiblings.succ {base height idx : Nat} {nodes next : List Hash}
    {siblings after : Fin treeDepth -> Hash} {sibling : Hash} (hlevel : base < treeDepth)
    (hnext : combinePairs M base nodes = some next)
    (hsibling : nodes[idx ^^^ 1]? = some sibling) (hcanonical : Canonical M sibling)
    (h : WritesSiblings M (base + 1) height next (idx / 2)
      (Function.update siblings ⟨base, hlevel⟩ sibling) after) :
    WritesSiblings M base (height + 1) nodes idx siblings after := by
  intro level
  rcases h level with ⟨hinside, houtside⟩
  have hkept : level.val ≠ base ->
      Function.update siblings ⟨base, hlevel⟩ sibling level = siblings level := by
    intro hne
    apply Function.update_of_ne
    intro heq
    exact hne (congrArg Fin.val heq)
  rcases Nat.lt_trichotomy level.val base with hbelow | hhere | habove
  · constructor
    · intro hlo _
      lia
    · intro _
      rw [houtside (Or.inl (by lia)), hkept (Nat.ne_of_lt hbelow)]
  · constructor
    · intro _ _
      have hwritten : after level = sibling := by
        have hsame : level = ⟨base, hlevel⟩ := Fin.ext hhere
        rw [houtside (Or.inl (by lia)), hsame]
        exact Function.update_self _ _ _
      constructor
      · rw [hwritten, hhere, Nat.sub_self, Nat.pow_zero, Nat.div_one, ← hsibling]
        rfl
      · rw [hwritten]
        exact hcanonical
    · intro hout
      lia
  · constructor
    · intro _ hhi
      have hup : level.val - base = (level.val - (base + 1)) + 1 := by lia
      rcases hinside (by lia) (by lia) with ⟨hroot, hrootCanonical⟩
      refine ⟨?_, hrootCanonical⟩
      rw [hroot, hup, treeOver_succ hnext, Nat.pow_succ', Nat.div_div_eq_div_mul]
    · intro hout
      rw [houtside (by lia), hkept (Nat.ne_of_gt habove)]

theorem extractLevels_eq (base : Nat) (siblings : Fin treeDepth -> Hash)
    {height idx : Nat} {nodes : List Hash} (hlen : nodes.length = 2 ^ height)
    (hidx : idx < 2 ^ height) (hdepth : base + height ≤ treeDepth)
    (hcanonical : AllCanonical M nodes) :
    exists after, extractLevels M height base nodes idx siblings = some after ∧
      WritesSiblings M base height nodes idx siblings after := by
  induction height generalizing base nodes idx siblings with
  | zero =>
      refine ⟨siblings, rfl, ?_⟩
      intro level
      constructor
      · intro hlo hhi
        lia
      · intro _
        rfl
  | succ height ih =>
      have hdouble : 2 ^ (height + 1) = 2 * 2 ^ height := Nat.pow_succ'
      have hlevel : base < treeDepth := by lia
      rcases combinePairs_of_canonical base hcanonical with
        ⟨next, hnext, hnextCanonical⟩
      have hnextLen : next.length = 2 ^ height := by
        rw [length_combinePairs hnext]
        lia
      have hbound : idx ^^^ 1 < nodes.length := by
        rw [hlen]
        exact Nat.xor_lt_two_pow hidx (by lia)
      have hsibling : nodes[idx ^^^ 1]? =
          some (nodes.getD (idx ^^^ 1) (emptyHash M base)) := by
        rw [List.getD_eq_getElem?_getD, List.getElem?_eq_getElem hbound]
        rfl
      have hidxHalf : idx / 2 < 2 ^ height := by lia
      rcases ih (base + 1)
        (Function.update siblings ⟨base, hlevel⟩
          (nodes.getD (idx ^^^ 1) (emptyHash M base)))
        hnextLen hidxHalf (by lia) hnextCanonical with ⟨after, hafter, hwrites⟩
      refine ⟨after, ?_, ?_⟩
      · rw [extractLevels, dif_pos hlevel, combineChunks_eq (by lia), hnext]
        exact hafter
      · exact hwrites.succ hlevel hnext hsibling
          (hcanonical _ (List.mem_of_getElem? hsibling))

theorem extractSiblings_eq (base : Nat) (siblings : Fin treeDepth -> Hash)
    {height idx : Nat} {nodes : List Hash} (hlen : nodes.length = 2 ^ height)
    (hidx : idx < 2 ^ height) (hdepth : base + height ≤ treeDepth)
    (hcanonical : AllCanonical M nodes) :
    exists after, extractSiblings M nodes idx base siblings = some after ∧
      WritesSiblings M base height nodes idx siblings after := by
  rw [extractSiblings, hlen, trailingZeros_two_pow]
  exact extractLevels_eq base siblings hlen hidx hdepth hcanonical

/-!
## Climbing a path
-/

def siblingNode (siblings : Fin treeDepth -> Hash) (level : Nat) : Option Hash :=
  (List.ofFn siblings)[level]?

theorem siblingNode_eq (siblings : Fin treeDepth -> Hash) (level : Fin treeDepth) :
    siblingNode siblings level.val = some (siblings level) := by
  rw [siblingNode, List.getElem?_ofFn, dif_pos level.isLt]

theorem climbPath_eq (level pos : Nat) (siblings : List Hash) (current : Hash) :
    climbPath M level pos siblings current =
      MerkleTree.pathRoot (combineRoots M) level pos (fun i => siblings[i]?)
        siblings.length (some current) := by
  induction siblings generalizing level pos current with
  | nil => rfl
  | cons sibling rest ih =>
      let pair := if pos &&& 1 = 0 then (current, sibling) else (sibling, current)
      have hstep : MerkleTree.pathRoot (combineRoots M) level pos
          (fun i => (sibling :: rest)[i]?) 1 (some current) =
          hashCombine M level pair.1 pair.2 := by
        rw [MerkleTree.pathRoot_succ, Nat.pow_zero, Nat.div_one, ← Nat.and_one_is_mod]
        by_cases heven : pos &&& 1 = 0
        · simp only [pair, if_pos heven]
          rfl
        · simp only [pair, if_neg heven]
          rfl
      have htail : (fun i => (sibling :: rest)[1 + i]?) = fun i => rest[i]? := by
        funext i
        rw [Nat.add_comm, List.getElem?_cons_succ]
      rw [List.length_cons, Nat.add_comm rest.length 1, MerkleTree.pathRoot_add, hstep,
        htail, climbPath, Nat.pow_one, Nat.shiftRight_one]
      cases hparent : hashCombine M level pair.1 pair.2 with
      | none =>
          rw [MerkleTree.pathRoot_absorb (combineRoots M) (combineRoots_none_left M)
            (combineRoots_none_right M)]
          rfl
      | some parent => exact ih (level + 1) (pos / 2) parent

theorem computeRootFromPath_eq (position : Nat) (leaf : Hash)
    (siblings : Fin treeDepth -> Hash) :
    computeRootFromPath M position leaf siblings =
      MerkleTree.pathRoot (combineRoots M) 0 position (siblingNode siblings) treeDepth
        (some leaf) := by
  rw [computeRootFromPath, climbPath_eq, List.length_ofFn]
  rfl

/-!
## What the client computes
-/

/-- The invariants of a broadcast a server sends. -/
structure BroadcastData.WellFormed (M : MerkleHashOrchard) (b : BroadcastData) :
    Prop where
  counted : b.subshardRoots.length = b.windowShardCount
  full : forall shard, shard ∈ b.subshardRoots ->
    shard.roots.length = subshardsPerShard
  capFits : b.cap.shardRoots.length ≤ 2 ^ shardHeight
  subshardsCanonical : forall shard, shard ∈ b.subshardRoots ->
    AllCanonical M shard.roots
  capCanonical : AllCanonical M b.cap.shardRoots

/-- A decoded row holds at least 256 leaves, all of them encodings of nodes. -/
def CanonicalRow (M : MerkleHashOrchard) (decodedRow : List UInt8) : Prop :=
  subshardRowBytes ≤ decodedRow.length ∧
    forall i, i < subshardLeaves -> Canonical M (rowLeaf decodedRow i)

def parsedLeaves (decodedRow : List UInt8) : List Hash :=
  (List.range subshardLeaves).map (rowLeaf decodedRow)

theorem getElem?_parsedLeaves {decodedRow : List UInt8} {i : Nat}
    (h : i < subshardLeaves) :
    (parsedLeaves decodedRow)[i]? = some (rowLeaf decodedRow i) := by
  rw [parsedLeaves, List.getElem?_map, List.getElem?_range h]
  rfl

theorem rowLeaf_flatMap {leaves : List Hash} {i : Nat} (h : i < leaves.length) :
    rowLeaf (leaves.flatMap List.Vector.toList) i = leaves[i] := by
  rw [rowLeaf, slice_flatMap_const (fun leaf => leaf.toList_length) leaves h,
    ByteVec.ofBytes_toList]

theorem parsedLeaves_flatMap {leaves : List Hash} (h : leaves.length = subshardLeaves) :
    parsedLeaves (leaves.flatMap List.Vector.toList) = leaves := by
  unfold parsedLeaves
  apply List.ext_getElem
  · rw [List.length_map, List.length_range, h]
  · intro i _ hi
    rw [List.getElem_map, List.getElem_range, rowLeaf_flatMap hi]

theorem canonicalRow_flatMap {leaves : List Hash} (h : leaves.length = subshardLeaves)
    (hcanonical : AllCanonical M leaves) :
    CanonicalRow M (leaves.flatMap List.Vector.toList) := by
  constructor
  · rw [length_flatMap_const (fun leaf => leaf.toList_length), h]
    exact Nat.le_refl _
  · intro i hi
    rw [← h] at hi
    rw [rowLeaf_flatMap hi]
    exact hcanonical _ (List.getElem_mem hi)

theorem length_parsedLeaves (decodedRow : List UInt8) :
    (parsedLeaves decodedRow).length = 2 ^ subshardHeight := by
  rw [parsedLeaves, List.length_map, List.length_range]
  rfl

theorem allCanonical_parsedLeaves {decodedRow : List UInt8}
    (h : CanonicalRow M decodedRow) : AllCanonical M (parsedLeaves decodedRow) := by
  intro node hnode
  rcases List.mem_map.mp hnode with ⟨i, hi, heq⟩
  rw [← heq]
  exact h.right i (List.mem_range.mp hi)

theorem length_padCap (shardRoots : List Hash) :
    (padCap M shardRoots).length = 2 ^ shardHeight := by
  rw [padCap, List.length_append, List.length_take, List.length_replicate]
  lia

theorem allCanonical_padCap {shardRoots : List Hash} (h : AllCanonical M shardRoots) :
    AllCanonical M (padCap M shardRoots) := by
  intro node hnode
  rcases List.mem_append.mp hnode with hroot | hpad
  · exact h node (List.mem_of_mem_take hroot)
  · rw [(List.mem_replicate.mp hpad).right]
    exact canonical_toBytes _

/-- The sibling of a position at a level: in its row, in its shard, or in the cap. -/
def tierSibling (M : MerkleHashOrchard) (shardIdx subshardIdx leafIdx : Nat)
    (leaves roots cap : List Hash) (level : Nat) : Option Hash :=
  if level < subshardHeight then
    treeOver M 0 leaves level ((leafIdx / 2 ^ level) ^^^ 1)
  else if level < shardHeight then
    treeOver M subshardHeight roots (level - subshardHeight)
      ((subshardIdx / 2 ^ (level - subshardHeight)) ^^^ 1)
  else treeOver M shardHeight cap (level - shardHeight)
      ((shardIdx / 2 ^ (level - shardHeight)) ^^^ 1)

theorem computeRootFromPath_of_canonical (position : Nat) {leaf : Hash}
    {siblings : Fin treeDepth -> Hash} (hleaf : Canonical M leaf)
    (hsiblings : forall level, Canonical M (siblings level)) :
    exists root, computeRootFromPath M position leaf siblings = some root := by
  have hpath : exists root, MerkleTree.pathRoot (combineRoots M) 0 position
      (siblingNode siblings) treeDepth (some leaf) = some root ∧ Canonical M root := by
    apply MerkleTree.pathRoot_induction (combineRoots M)
      (P := fun node => exists root, node = some root ∧ Canonical M root)
    · intro level left right hleft hright
      rcases hleft with ⟨l, hl, hlc⟩
      rcases hright with ⟨r, hr, hrc⟩
      rw [hl, hr, combineRoots_some]
      exact hashCombine_of_canonical level hlc hrc
    · exact ⟨leaf, rfl, hleaf⟩
    · intro level hlevel
      exact ⟨_, siblingNode_eq siblings ⟨level, hlevel⟩, hsiblings _⟩
  rcases hpath with ⟨root, hroot, _⟩
  rw [← computeRootFromPath_eq] at hroot
  exact ⟨root, hroot⟩

theorem reconstructWitness_eq (mode : Arithmetic) (position : Nat)
    {shardIdx subshardIdx leafIdx : Nat} {decodedRow : List UInt8}
    {broadcast : BroadcastData} {shard : ShardSubRoots}
    (hwf : broadcast.WellFormed M) (hrow : CanonicalRow M decodedRow)
    (hstart : broadcast.windowStartShard ≤ shardIdx)
    (hshard : broadcast.subshardRoots[shardIdx - broadcast.windowStartShard]? =
      some shard)
    (hshardIdx : shardIdx < 2 ^ shardHeight) (hsubshard : subshardIdx < subshardsPerShard)
    (hleaf : leafIdx < subshardLeaves) :
    exists witness,
      reconstructWitness M mode position shardIdx subshardIdx leafIdx decodedRow
          broadcast = .ok witness ∧
        witness.anchorHeight = broadcast.anchorHeight ∧
        (forall level : Fin treeDepth, some (witness.siblings level) =
          tierSibling M shardIdx subshardIdx leafIdx (parsedLeaves decodedRow)
            shard.roots (padCap M broadcast.cap.shardRoots) level.val) ∧
        some witness.anchorRoot = MerkleTree.pathRoot (combineRoots M) 0 position
          (siblingNode witness.siblings) treeDepth (some (rowLeaf decodedRow leafIdx)) := by
  have hmem := List.mem_of_getElem? hshard
  have hsub8 : subshardHeight = 8 := rfl
  have hshard16 : shardHeight = 16 := rfl
  have hdepth32 : treeDepth = 32 := rfl
  rcases extractSiblings_eq 0 (fun _ => ByteVec.zeros 32)
    (length_parsedLeaves decodedRow) hleaf (by lia) (allCanonical_parsedLeaves hrow) with
    ⟨low, hlow, hlowWrites⟩
  rcases extractSiblings_eq subshardHeight low (hwf.full shard hmem) hsubshard (by lia)
    (hwf.subshardsCanonical shard hmem) with ⟨middle, hmiddle, hmiddleWrites⟩
  rcases extractSiblings_eq shardHeight middle
    (length_padCap (M := M) broadcast.cap.shardRoots) hshardIdx (by lia)
    (allCanonical_padCap hwf.capCanonical) with ⟨siblings, hsiblings, hcapWrites⟩
  have htiers : forall level : Fin treeDepth,
      some (siblings level) = tierSibling M shardIdx subshardIdx leafIdx
        (parsedLeaves decodedRow) shard.roots (padCap M broadcast.cap.shardRoots)
        level.val ∧ Canonical M (siblings level) := by
    intro level
    have hlevel := level.isLt
    rcases hlowWrites level with ⟨hlowIn, _⟩
    rcases hmiddleWrites level with ⟨hmiddleIn, hmiddleOut⟩
    rcases hcapWrites level with ⟨hcapIn, hcapOut⟩
    rw [tierSibling]
    split
    · next htier =>
        rw [hcapOut (by lia), hmiddleOut (by lia)]
        exact hlowIn (Nat.zero_le _) (by lia)
    · split
      · next htier =>
          rw [hcapOut (by lia)]
          exact hmiddleIn (by lia) (by lia)
      · exact hcapIn (by lia) (by lia)
  rcases computeRootFromPath_of_canonical position
    (hrow.right leafIdx hleaf) (fun level => (htiers level).right) with ⟨root, hroot⟩
  refine ⟨{ position := position
            siblings := siblings
            anchorHeight := broadcast.anchorHeight
            anchorRoot := root }, ?_, rfl, fun level => (htiers level).left, ?_⟩
  · have hparse : parseLeaves decodedRow = .ok (parsedLeaves decodedRow) :=
      if_neg (Nat.not_lt_of_le hrow.left)
    rw [reconstructWitness, hparse, ok_bind, hlow, Outcome.ofPanics_some, ok_bind,
      Arithmetic.sub_of_le mode 32 hstart, ok_bind, hshard, Outcome.ofPanics_some, ok_bind,
      hmiddle, Outcome.ofPanics_some, ok_bind, hsiblings, Outcome.ofPanics_some, ok_bind,
      getElem?_parsedLeaves hleaf, Outcome.ofPanics_some, ok_bind, hroot,
      Outcome.ofPanics_some, ok_bind]
    rfl
  · rw [← computeRootFromPath_eq, hroot]

end Witness
end SpendabilityPir
