import SpendabilityPir.Shared.ChainView
import SpendabilityPir.Witness.CommitmentIngest
import SpendabilityPir.Witness.TreeRoots

/-!
# Trees that track a chain

A tree tracks a chain from a base height on when its leaves are the chain's commitments
past the offset and its records are those of the chain's blocks.  Appending the chain's
next block keeps that.
-/

namespace SpendabilityPir
namespace Witness

open Foundation Shared

def commitmentsOf (blocks : List CompactBlock) : List Hash :=
  blocks.flatMap extractCommitments

/-- The record of a block that starts at a tree size, counting commitments past the
offset. -/
def recordOf (leafOffset size : Nat) (block : CompactBlock) : BlockRecord :=
  let commitments := (extractCommitments block).length
  { height := block.height.toNat
    hash := toHashArray block.hash
    numCommitments := asU32 (min commitments (size + commitments - leafOffset)) }

/-- The records of consecutive blocks, the first of which starts at a tree size. -/
def recordsFrom (leafOffset : Nat) : Nat -> List CompactBlock -> List BlockRecord
  | _, [] => []
  | size, block :: rest =>
      recordOf leafOffset size block ::
        recordsFrom leafOffset (size + (extractCommitments block).length) rest

/-- Every block reports the true tree size, and every commitment is the encoding of a
node. -/
structure HonestCommitments (M : MerkleHashOrchard) (view : ChainView) : Prop where
  sizes : forall i block, view[i]? = some block -> exists metadata,
    block.chainMetadata = some metadata ∧
    metadata.orchardCommitmentTreeSize.toNat = (commitmentsOf (view.take (i + 1))).length
  canonical : forall commitment, commitment ∈ commitmentsOf view -> Canonical M commitment

theorem commitmentsOf_append (xs ys : List CompactBlock) :
    commitmentsOf (xs ++ ys) = commitmentsOf xs ++ commitmentsOf ys :=
  List.flatMap_append

theorem commitmentsOf_cons (block : CompactBlock) (rest : List CompactBlock) :
    commitmentsOf (block :: rest) = extractCommitments block ++ commitmentsOf rest :=
  List.flatMap_cons

theorem commitmentsOf_singleton (block : CompactBlock) :
    commitmentsOf [block] = extractCommitments block := by
  rw [commitmentsOf, List.flatMap_singleton]

theorem recordsFrom_append (leafOffset size : Nat) (xs ys : List CompactBlock) :
    recordsFrom leafOffset size (xs ++ ys) =
      recordsFrom leafOffset size xs ++
        recordsFrom leafOffset (size + (commitmentsOf xs).length) ys := by
  induction xs generalizing size with
  | nil => rfl
  | cons block rest ih =>
      rw [List.cons_append, recordsFrom, recordsFrom, ih, List.cons_append,
        commitmentsOf_cons, List.length_append, Nat.add_assoc]

theorem getLast?_recordsFrom (leafOffset size : Nat) (xs : List CompactBlock)
    (block : CompactBlock) :
    (recordsFrom leafOffset size (xs ++ [block])).getLast? =
      some (recordOf leafOffset (size + (commitmentsOf xs).length) block) := by
  rw [recordsFrom_append]
  exact List.getLast?_concat

/-- The size a block reports when the tree has a number of leaves: zero is no report. -/
def reportedSize (n : Nat) : Option UInt32 :=
  if n > 0 then some (UInt32.ofNat n) else none

namespace HonestCommitments

variable {M : MerkleHashOrchard} {view : ChainView}

theorem of_prefix {front : ChainView} (h : HonestCommitments M view)
    (hpre : front.IsPrefix view) : HonestCommitments M front := by
  constructor
  · intro i block hblock
    rcases h.sizes i block (getElem?_of_isPrefix hpre hblock) with ⟨metadata, hmeta, hsize⟩
    refine ⟨metadata, hmeta, ?_⟩
    have hlt := (List.getElem?_eq_some_iff.mp hblock).1
    rw [hsize, take_of_isPrefix hpre hlt]
  · intro commitment hcommitment
    apply h.canonical
    rcases hpre with ⟨rest, hrest⟩
    rw [← hrest, commitmentsOf_append]
    exact List.mem_append_left _ hcommitment

theorem size_lt (h : HonestCommitments M view) {i : Nat} {block : CompactBlock}
    (hblock : view[i]? = some block) :
    (commitmentsOf (view.take (i + 1))).length < 2 ^ 32 := by
  rcases h.sizes i block hblock with ⟨metadata, _, hsize⟩
  rw [← hsize]
  exact UInt32.toNat_lt _

theorem orchardTreeSize_eq (h : HonestCommitments M view) {i : Nat} {block : CompactBlock}
    (hblock : view[i]? = some block) :
    block.orchardTreeSize = reportedSize (commitmentsOf (view.take (i + 1))).length := by
  rcases h.sizes i block hblock with ⟨metadata, hmeta, hsize⟩
  rw [CompactBlock.orchardTreeSize, hmeta, ← hsize, reportedSize, UInt32.ofNat_toNat]
  change (some metadata.orchardCommitmentTreeSize).filter _ = _
  by_cases hpos : metadata.orchardCommitmentTreeSize.toNat > 0
  · rw [if_pos hpos, Option.filter_some, if_pos]
    exact decide_eq_true (UInt32.lt_iff_toNat_lt.mpr hpos)
  · rw [if_neg hpos, Option.filter_some, if_neg]
    intro htrue
    exact hpos (UInt32.lt_iff_toNat_lt.mp (of_decide_eq_true htrue))

theorem orchardTreeSize_concat {chain : ChainView} {block : CompactBlock}
    (h : HonestCommitments M (chain ++ [block])) :
    block.orchardTreeSize = reportedSize (commitmentsOf (chain ++ [block])).length := by
  have hblock : (chain ++ [block])[chain.length]? = some block :=
    List.getElem?_concat_length
  have hsize := h.orchardTreeSize_eq hblock
  rw [List.take_of_length_le (by rw [List.length_append]; exact Nat.le_refl _)] at hsize
  exact hsize

theorem length_lt (h : HonestCommitments M view) (hnonempty : view ≠ []) :
    (commitmentsOf view).length < 2 ^ 32 := by
  have hpos : 0 < view.length := List.length_pos_iff.mpr hnonempty
  have hblock : view[view.length - 1]? = some view[view.length - 1] :=
    List.getElem?_eq_getElem _
  have hlt := h.size_lt hblock
  rw [Nat.sub_add_cancel hpos, List.take_length] at hlt
  exact hlt

end HonestCommitments

/-!
## Tracking
-/

def appendBlocks : CommitmentTreeDb -> List CompactBlock -> CommitmentTreeDb
  | tree, [] => tree
  | tree, block :: rest =>
      appendBlocks (tree.appendCommitments block.height.toNat (toHashArray block.hash)
        (extractCommitments block)) rest

theorem appendBlocks_induction {P : CommitmentTreeDb -> ChainView -> Prop}
    (hstep : forall tree chain block, P tree chain ->
      P (tree.appendCommitments block.height.toNat (toHashArray block.hash)
        (extractCommitments block)) (chain ++ [block]))
    {tree : CommitmentTreeDb} {chain : ChainView} (h : P tree chain)
    {blocks : List CompactBlock} : P (appendBlocks tree blocks) (chain ++ blocks) := by
  induction blocks generalizing tree chain with
  | nil =>
      rw [List.append_nil]
      exact h
  | cons block rest ih =>
      have hrest := ih (hstep tree chain block h)
      rw [List.append_assoc] at hrest
      exact hrest

theorem leafOffset_appendBlocks (tree : CommitmentTreeDb) (blocks : List CompactBlock) :
    (appendBlocks tree blocks).leafOffset = tree.leafOffset := by
  induction blocks generalizing tree with
  | nil => rfl
  | cons block rest ih =>
      rw [appendBlocks, ih, CommitmentTreeDb.leafOffset_appendCommitments]

theorem prefetchedShardRoots_appendBlocks (tree : CommitmentTreeDb)
    (blocks : List CompactBlock) :
    (appendBlocks tree blocks).prefetchedShardRoots = tree.prefetchedShardRoots := by
  induction blocks generalizing tree with
  | nil => rfl
  | cons block rest ih =>
      rw [appendBlocks, ih, CommitmentTreeDb.prefetchedShardRoots_appendCommitments]

theorem leaves_appendBlocks (tree : CommitmentTreeDb) (blocks : List CompactBlock) :
    (appendBlocks tree blocks).leaves = tree.leaves ++ commitmentsOf blocks := by
  induction blocks generalizing tree with
  | nil => exact (List.append_nil _).symm
  | cons block rest ih =>
      rw [appendBlocks, ih, CommitmentTreeDb.leaves_appendCommitments, commitmentsOf_cons,
        List.append_assoc]

/-- The leaves past the offset are those of a chain. -/
structure HoldsChain (tree : CommitmentTreeDb) (chain : ChainView) : Prop where
  leaves : tree.leaves = (commitmentsOf chain).drop tree.leafOffset
  offset_le : tree.leafOffset ≤ (commitmentsOf chain).length

namespace HoldsChain

variable {tree : CommitmentTreeDb} {chain : ChainView}

theorem treeSize_eq (h : HoldsChain tree chain) :
    tree.treeSize = (commitmentsOf chain).length := by
  have hle := h.offset_le
  rw [CommitmentTreeDb.treeSize, h.leaves, List.length_drop]
  lia

theorem appendCommitments (h : HoldsChain tree chain) (block : CompactBlock) :
    HoldsChain (tree.appendCommitments block.height.toNat (toHashArray block.hash)
      (extractCommitments block)) (chain ++ [block]) := by
  constructor
  · rw [CommitmentTreeDb.leaves_appendCommitments,
      CommitmentTreeDb.leafOffset_appendCommitments, h.leaves, commitmentsOf_append,
      commitmentsOf_singleton, List.drop_append_of_le_length h.offset_le]
  · rw [CommitmentTreeDb.leafOffset_appendCommitments, commitmentsOf_append,
      List.length_append]
    exact Nat.le_add_right_of_le h.offset_le

theorem appendBlocks (h : HoldsChain tree chain) (blocks : List CompactBlock) :
    HoldsChain (Witness.appendBlocks tree blocks) (chain ++ blocks) := by
  apply appendBlocks_induction _ h
  intro tree chain block h
  exact h.appendCommitments block

end HoldsChain

/-- The leaves past the offset and the block records are those of a chain, from a base
height through its tip. -/
structure Tracks (tree : CommitmentTreeDb) (base : Nat) (chain : ChainView) : Prop where
  leaves : tree.leaves = (commitmentsOf chain).drop tree.leafOffset
  blocks : tree.blocks = recordsFrom tree.leafOffset
    (commitmentsOf (chain.take base)).length (chain.drop base)
  offset_le : tree.leafOffset ≤ (commitmentsOf chain).length
  base_lt : base < chain.length

namespace Tracks

variable {tree : CommitmentTreeDb} {base : Nat} {chain : ChainView}

theorem holds (h : Tracks tree base chain) : HoldsChain tree chain :=
  ⟨h.leaves, h.offset_le⟩

theorem treeSize_eq (h : Tracks tree base chain) :
    tree.treeSize = (commitmentsOf chain).length :=
  h.holds.treeSize_eq

/-- Only the leaves and the records matter. -/
theorem congr {tree' : CommitmentTreeDb} (h : Tracks tree base chain)
    (hoffset : tree'.leafOffset = tree.leafOffset) (hleaves : tree'.leaves = tree.leaves)
    (hblocks : tree'.blocks = tree.blocks) : Tracks tree' base chain where
  leaves := by rw [hleaves, hoffset]; exact h.leaves
  blocks := by rw [hblocks, hoffset]; exact h.blocks
  offset_le := by rw [hoffset]; exact h.offset_le
  base_lt := h.base_lt

/-- Appending the commitments of the next block tracks the longer chain. -/
theorem appendCommitments (h : Tracks tree base chain) (block : CompactBlock) :
    Tracks (tree.appendCommitments block.height.toNat (toHashArray block.hash)
      (extractCommitments block)) base (chain ++ [block]) := by
  have hle := h.offset_le
  have hbase := h.base_lt
  have htotal : (commitmentsOf (chain.take base)).length +
      (commitmentsOf (chain.drop base)).length = (commitmentsOf chain).length := by
    rw [← List.length_append, ← commitmentsOf_append, List.take_append_drop]
  have hcount : min (extractCommitments block).length
      ((commitmentsOf chain).length + (extractCommitments block).length -
        tree.leafOffset) = (extractCommitments block).length := by
    apply Nat.min_eq_left
    lia
  constructor
  · exact (h.holds.appendCommitments block).leaves
  · rw [CommitmentTreeDb.blocks_appendCommitments,
      CommitmentTreeDb.leafOffset_appendCommitments, h.blocks,
      List.take_append_of_le_length (Nat.le_of_lt hbase),
      List.drop_append_of_le_length (Nat.le_of_lt hbase), recordsFrom_append, htotal]
    congr 1
    rw [recordsFrom, recordsFrom, recordOf, hcount]
  · exact (h.holds.appendCommitments block).offset_le
  · rw [List.length_append]
    lia

theorem appendBlocks (h : Tracks tree base chain) (blocks : List CompactBlock) :
    Tracks (Witness.appendBlocks tree blocks) base (chain ++ blocks) := by
  apply appendBlocks_induction (P := fun tree chain => Tracks tree base chain) _ h
  intro tree chain block h
  exact h.appendCommitments block

theorem getLast?_blocks (h : Tracks tree base chain) {block : CompactBlock}
    (hlast : chain.getLast? = some block) :
    exists record, tree.blocks.getLast? = some record ∧
      record.height = block.height.toNat ∧ record.hash = toHashArray block.hash := by
  rcases List.getLast?_eq_some_iff.mp hlast with ⟨front, hfront⟩
  have hbase := h.base_lt
  rw [hfront, List.length_append, List.length_singleton] at hbase
  have hdrop : chain.drop base = front.drop base ++ [block] := by
    rw [hfront, List.drop_append_of_le_length (by lia)]
  rw [h.blocks, hdrop, getLast?_recordsFrom]
  exact ⟨_, rfl, rfl, rfl⟩

theorem latestBlockHash_eq (h : Tracks tree base chain) {block : CompactBlock}
    (hlast : chain.getLast? = some block) :
    tree.latestBlockHash = some (toHashArray block.hash) := by
  rcases h.getLast?_blocks hlast with ⟨record, hrecord, _, hhash⟩
  rw [CommitmentTreeDb.latestBlockHash, hrecord, ← hhash]
  rfl

theorem latestHeight_eq (h : Tracks tree base chain) {block : CompactBlock}
    (hlast : chain.getLast? = some block) :
    tree.latestHeight = some block.height.toNat := by
  rcases h.getLast?_blocks hlast with ⟨record, hrecord, hheight, _⟩
  rw [CommitmentTreeDb.latestHeight, hrecord, ← hheight]
  rfl

theorem canonicalLeaves {M : MerkleHashOrchard} (h : Tracks tree base chain)
    (hhonest : HonestCommitments M chain) : tree.CanonicalLeaves M := by
  intro leaf hleaf
  rw [h.leaves] at hleaf
  exact hhonest.canonical leaf (List.mem_of_mem_drop hleaf)

end Tracks
end Witness
end SpendabilityPir
