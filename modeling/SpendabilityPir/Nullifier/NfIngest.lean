import Mathlib.Algebra.GroupWithZero.Nat
import SpendabilityPir.Nullifier.SpendTypes
import SpendabilityPir.Shared.Ingest

/-!
# The nullifier ingest

Orchard nullifiers of compact blocks with the output range of their transaction, and
the events that sync and follow emit for them.  Tree positions are 32-bit and wrap as
in a release build.
-/

namespace SpendabilityPir
namespace Nullifier

open Foundation Shared

def extractNullifiers (block : CompactBlock) : List (ByteVec 32) :=
  fieldsOf32 CompactOrchardAction.nullifier block.actions

def checkedSub (a b : UInt32) : Option UInt32 :=
  if b ≤ a then some (a - b) else none

/-- The tree size at the start of a block, from its own metadata or else from the block
before. -/
def treeSizeBeforeBlock (block : CompactBlock) (priorTreeSize : Option UInt32) :
    Option UInt32 :=
  let totalActions := UInt32.ofNat (block.vtx.map (fun tx => tx.actions.length)).sum
  (block.orchardTreeSize.bind (fun size => checkedSub size totalActions)).or priorTreeSize

/-- The nullifiers of one transaction, with its first output and its action count. -/
def txNullifiers (firstOutputPosition : UInt32) (tx : CompactTx) :
    List NullifierWithMeta :=
  (fieldsOf32 CompactOrchardAction.nullifier tx.actions).map (fun nf =>
    { nullifier := nf
      firstOutputPosition := firstOutputPosition
      actionCount := UInt8.ofNat tx.actions.length })

/-- The loop over the transactions, with the running tree position. -/
def txsNullifiers : Option UInt32 -> List CompactTx -> List NullifierWithMeta
  | _, [] => []
  | runningPosition, tx :: rest =>
      txNullifiers (runningPosition.getD 0) tx ++
        txsNullifiers
          (runningPosition.map (fun pos => pos + UInt32.ofNat tx.actions.length)) rest

/-- Extract Orchard nullifiers with per-transaction output position metadata, and the
tree size the block reports. -/
def extractNullifiersWithMeta (block : CompactBlock) (priorTreeSize : Option UInt32) :
    List NullifierWithMeta × Option UInt32 :=
  (txsNullifiers (treeSizeBeforeBlock block priorTreeSize) block.vtx,
    block.orchardTreeSize)

def newBlockEvent (prevTreeSize : Option UInt32) (block : CompactBlock) : ChainEvent :=
  .newBlock block.height.toNat (toHashArray block.hash) (toHashArray block.prevHash)
    (extractNullifiersWithMeta block prevTreeSize).1

def sync (connection : Connection) (fromHeight toHeight : Nat)
    (initialTreeSize : Option UInt32) : List ChainEvent :=
  emitBlocks newBlockEvent initialTreeSize
    (fetchBatches connection fromHeight toHeight)

/-- The blocks above a fork, newest first, all with a zero hash. -/
def orphanedBlocks (rollbackTo currentHeight : Nat) : List OrphanedBlock :=
  (List.range' (rollbackTo + 1) (currentHeight - rollbackTo)).reverse.map (fun height =>
    { height := height, hash := ByteVec.zeros 32 })

/-- What `follow` emits for a block. -/
def followEvents (st : FollowState) (action : ChainAction) (block : CompactBlock) :
    List ChainEvent :=
  match action with
  | .extend => [newBlockEvent st.prevTreeSize block]
  | .reorg rollbackTo =>
      [.reorg (orphanedBlocks rollbackTo st.currentHeight)
        [{ height := block.height.toNat
           hash := toHashArray block.hash
           prevHash := toHashArray block.prevHash
           nullifiers := (extractNullifiersWithMeta block st.prevTreeSize).1 }]]

def followPoll (st : FollowState) (view : ChainView) : FollowState × List ChainEvent :=
  st.followPoll followEvents view

theorem map_nullifier_txNullifiers (firstOutputPosition : UInt32) (tx : CompactTx) :
    (txNullifiers firstOutputPosition tx).map NullifierWithMeta.nullifier =
      fieldsOf32 CompactOrchardAction.nullifier tx.actions := by
  rw [txNullifiers, List.map_map]
  exact List.map_id _

theorem map_nullifier_txsNullifiers (runningPosition : Option UInt32)
    (txs : List CompactTx) :
    (txsNullifiers runningPosition txs).map NullifierWithMeta.nullifier =
      fieldsOf32 CompactOrchardAction.nullifier (txs.flatMap CompactTx.actions) := by
  induction txs generalizing runningPosition with
  | nil => rfl
  | cons tx rest ih =>
      rw [txsNullifiers, List.map_append, map_nullifier_txNullifiers, ih,
        List.flatMap_cons, fieldsOf32, fieldsOf32, fieldsOf32, List.filter_append,
        List.map_append]

theorem map_nullifier_extractNullifiersWithMeta (block : CompactBlock)
    (priorTreeSize : Option UInt32) :
    (extractNullifiersWithMeta block priorTreeSize).1.map NullifierWithMeta.nullifier =
      extractNullifiers block :=
  map_nullifier_txsNullifiers _ block.vtx

theorem sum_actions_length (block : CompactBlock) :
    (block.vtx.map (fun tx => tx.actions.length)).sum = block.actions.length := by
  rw [CompactBlock.actions, List.length_flatMap]

theorem txsNullifiers_append (runningPosition : Option UInt32) (xs ys : List CompactTx) :
    txsNullifiers runningPosition (xs ++ ys) =
      txsNullifiers runningPosition xs ++
        txsNullifiers (runningPosition.map
          (fun pos => pos + UInt32.ofNat (xs.flatMap CompactTx.actions).length)) ys := by
  induction xs generalizing runningPosition with
  | nil =>
      cases runningPosition with
      | none => rfl
      | some pos =>
          have hzero : pos + UInt32.ofNat 0 = pos := UInt32.add_zero pos
          change txsNullifiers (some pos) ys = txsNullifiers (some (pos + UInt32.ofNat 0)) ys
          rw [hzero]
  | cons tx rest ih =>
      have hsum : forall pos : UInt32,
          pos + UInt32.ofNat tx.actions.length +
              UInt32.ofNat (rest.flatMap CompactTx.actions).length =
            pos + UInt32.ofNat ((tx :: rest).flatMap CompactTx.actions).length := by
        intro pos
        rw [List.flatMap_cons, List.length_append, UInt32.ofNat_add, UInt32.add_assoc]
      rw [List.cons_append, txsNullifiers, txsNullifiers, ih, List.append_assoc,
        Option.map_map]
      congr 3
      exact Option.map_congr (fun pos _ => hsum pos)

theorem toNat_add_ofNat (pos : UInt32) {n : Nat} (h : pos.toNat + n < 2 ^ 32) :
    (pos + UInt32.ofNat n).toNat = pos.toNat + n := by
  have hn : (UInt32.ofNat n).toNat = n := UInt32.toNat_ofNat_of_lt' (by lia)
  rw [UInt32.toNat_add, hn, Nat.mod_eq_of_lt h]

end Nullifier
end SpendabilityPir
