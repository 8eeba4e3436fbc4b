import SpendabilityPir.Shared.RangeSync
import SpendabilityPir.Witness.ChainTree
import SpendabilityPir.Witness.WitnessServer

/-!
# Syncing a range into the commitment tree

Whatever a sync appends are the fetched blocks in chain order, each once, and a sync that
starts where the tree ends is never refused on a chain that reports true tree sizes.
-/

namespace SpendabilityPir
namespace Witness

open Foundation Shared

theorem appendValidated_eq_ok {context : String} {tree tree' : CommitmentTreeDb}
    {height : Nat} {hash : ByteVec 32} {commitments : List Hash}
    {priorTreeSize : Option UInt32}
    (h : appendValidated context tree height hash commitments priorTreeSize = .ok tree') :
    tree' = tree.appendCommitments height hash commitments := by
  rcases bind_eq_ok.mp h with ⟨_, _, happend⟩
  exact (Except.ok.inj happend).symm

/-- A fetched block is appended after the check of the tree before it. -/
def AppendsBlock (tree : CommitmentTreeDb) (priorTreeSize : Option UInt32)
    (block : CompactBlock) (appended : CommitmentTreeDb) : Prop :=
  appendValidated "initial sync" tree block.height.toNat (toHashArray block.hash)
    (extractCommitments block) priorTreeSize = .ok appended

theorem appendEvents_eq_ok {blocks : List CompactBlock} {tree tree' : CommitmentTreeDb}
    {priorTreeSize : Option UInt32} :
    appendEvents tree (emitBlocks newBlockEvent priorTreeSize blocks) = .ok tree' ↔
      AppliesInOrder AppendsBlock tree priorTreeSize blocks tree' := by
  induction blocks generalizing tree priorTreeSize with
  | nil =>
      constructor
      · intro h
        cases h
        exact AppliesInOrder.nil _ _
      · intro h
        cases h
        rfl
  | cons block rest ih =>
      constructor
      · intro h
        rcases bind_eq_ok.mp h with ⟨appended, happend, hrest⟩
        exact AppliesInOrder.cons happend (ih.mp hrest)
      · intro h
        cases h with
        | cons happend hrest => exact bind_eq_ok.mpr ⟨_, happend, ih.mpr hrest⟩

theorem appendBlocks_of_applies {tree tree' : CommitmentTreeDb}
    {priorTreeSize : Option UInt32} {blocks : List CompactBlock}
    (h : AppliesInOrder AppendsBlock tree priorTreeSize blocks tree') :
    tree' = appendBlocks tree blocks := by
  induction h with
  | nil => rfl
  | cons happend _ ih =>
      rw [ih, appendValidated_eq_ok happend]
      rfl

theorem noPanic_validatePriorTreeSize (tree : CommitmentTreeDb) (height : Nat)
    (priorTreeSize : Option UInt32) (context : String) :
    Outcome.NoPanic (validatePriorTreeSize tree height priorTreeSize context) := by
  unfold validatePriorTreeSize
  split
  · exact Outcome.noPanic_ok _
  · split
    · exact Outcome.noPanic_ok _
    · exact Outcome.noPanic_error _

theorem noPanic_appendEvents (tree : CommitmentTreeDb) (events : List WitnessChainEvent) :
    Outcome.NoPanic (appendEvents tree events) := by
  induction events generalizing tree with
  | nil => exact Outcome.noPanic_ok _
  | cons event rest ih =>
      cases event with
      | newBlock height hash prevHash commitments priorTreeSize =>
          apply Outcome.noPanic_bind.mpr
          constructor
          · apply Outcome.noPanic_bind.mpr
            exact ⟨noPanic_validatePriorTreeSize _ _ _ _, fun _ _ => Outcome.noPanic_ok _⟩
          · intro appended _
            exact ih appended
      | reorg rollbackTo => exact ih tree

/-- A sync appends what was fetched, in order. -/
theorem syncRange_eq_ok_iff {connection : Connection} {fromHeight toHeight : Nat}
    {tree tree' : CommitmentTreeDb} {initialTreeSize : Option UInt32} :
    syncRange (some connection) fromHeight toHeight tree initialTreeSize = .ok tree' ↔
      AppliesInOrder AppendsBlock tree initialTreeSize
        (fetchBatches connection fromHeight toHeight) tree' := by
  rw [syncRange, ← appendEvents_eq_ok]
  split
  · next hgt =>
      rw [fetchBatches_of_gt connection (Nat.not_le_of_gt hgt)]
      rfl
  · rfl

theorem noPanic_syncRange (connection : Connection) (fromHeight toHeight : Nat)
    (tree : CommitmentTreeDb) (initialTreeSize : Option UInt32) :
    Outcome.NoPanic
      (syncRange (some connection) fromHeight toHeight tree initialTreeSize) := by
  unfold syncRange
  split
  · exact Outcome.noPanic_ok _
  · exact noPanic_appendEvents _ _

theorem syncRange_eq_ok {connection : Connection} {fromHeight toHeight : Nat}
    {tree tree' : CommitmentTreeDb} {initialTreeSize : Option UInt32}
    (h : syncRange (some connection) fromHeight toHeight tree initialTreeSize = .ok tree') :
    tree' = appendBlocks tree (fetchBatches connection fromHeight toHeight) :=
  appendBlocks_of_applies (syncRange_eq_ok_iff.mp h)

/-!
## Syncing an honest chain
-/

theorem toNat_reportedSize {n : Nat} (h : n < 2 ^ 32) (hpos : n > 0) :
    reportedSize n = some (UInt32.ofNat n) ∧ (UInt32.ofNat n).toNat = n :=
  ⟨if_pos hpos, UInt32.toNat_ofNat_of_lt' h⟩

theorem validatePriorTreeSize_reportedSize {tree : CommitmentTreeDb} {n : Nat}
    (hsize : tree.treeSize = n) (h : n < 2 ^ 32) (height : Nat) (context : String) :
    validatePriorTreeSize tree height (reportedSize n) context = .ok () := by
  by_cases hpos : n > 0
  · rcases toNat_reportedSize h hpos with ⟨hreported, hnat⟩
    rw [hreported, validatePriorTreeSize, hnat]
    exact if_pos hsize
  · rw [reportedSize, if_neg hpos]
    rfl

theorem appendValidated_of_holds {M : MerkleHashOrchard} {tree : CommitmentTreeDb}
    {chain : ChainView} {block : CompactBlock} (h : HoldsChain tree chain)
    (hhonest : HonestCommitments M (chain ++ [block])) (context : String) :
    appendValidated context tree block.height.toNat (toHashArray block.hash)
        (extractCommitments block) (reportedSize (commitmentsOf chain).length) =
      .ok (appendBlocks tree [block]) := by
  have hlt := hhonest.length_lt (by simp)
  rw [commitmentsOf_append, List.length_append] at hlt
  rw [appendValidated, validatePriorTreeSize_reportedSize h.treeSize_eq (by lia)]
  rfl

theorem appendEvents_of_holds {M : MerkleHashOrchard} {tree : CommitmentTreeDb}
    {chain : ChainView} {blocks : List CompactBlock} (h : HoldsChain tree chain)
    (hhonest : HonestCommitments M (chain ++ blocks)) :
    appendEvents tree
        (emitBlocks newBlockEvent (reportedSize (commitmentsOf chain).length) blocks) =
      .ok (appendBlocks tree blocks) := by
  induction blocks generalizing tree chain with
  | nil => rfl
  | cons block rest ih =>
      have hsplit : (chain ++ [block]) ++ rest = chain ++ block :: rest := by
        rw [List.append_assoc]
        rfl
      have hfront : HonestCommitments M (chain ++ [block]) :=
        hhonest.of_prefix ⟨rest, hsplit⟩
      have happend := appendValidated_of_holds h hfront "initial sync"
      have hrest := ih (h.appendBlocks [block]) (hsplit.symm ▸ hhonest)
      change (appendValidated "initial sync" tree _ _ _ _ >>= _) = _
      rw [happend, ok_bind, hfront.orchardTreeSize_concat]
      exact hrest

end Witness
end SpendabilityPir
