import SpendabilityPir.Shared.Ingest
import SpendabilityPir.Witness.WitnessTypes

/-!
# The commitment ingest

Orchard note commitments of compact blocks, and the events that sync and follow emit
for them with the tree size the block before reported.
-/

namespace SpendabilityPir
namespace Witness

open Foundation Shared

/-- What a wallet needs to try decrypting an output. -/
structure DecryptionLeaf where
  nf : ByteVec 32
  ephemeralKey : ByteVec 32
  ciphertext : ByteVec 52

inductive WitnessChainEvent where
  | newBlock (height : Nat) (hash prevHash : ByteVec 32) (commitments : List Hash)
      (priorTreeSize : Option UInt32)
  | reorg (rollbackTo : Nat)

def extractCommitments (block : CompactBlock) : List Hash :=
  fieldsOf32 CompactOrchardAction.cmx block.actions

def decryptionLeafFromAction (action : CompactOrchardAction) : DecryptionLeaf :=
  { nf := ByteVec.ofBytes 32 action.nullifier
    ephemeralKey := ByteVec.ofBytes 32 action.ephemeralKey
    ciphertext := ByteVec.ofBytes 52 action.ciphertext }

/-- The decryption data of the actions whose commitments are extracted. -/
def extractDecryptionLeaves (block : CompactBlock) : List DecryptionLeaf :=
  (block.actions.filter (fun action => decide (action.cmx.length = 32))).map
    decryptionLeafFromAction

def newBlockEvent (prevTreeSize : Option UInt32) (block : CompactBlock) :
    WitnessChainEvent :=
  .newBlock block.height.toNat (toHashArray block.hash) (toHashArray block.prevHash)
    (extractCommitments block) prevTreeSize

def sync (connection : Connection) (fromHeight toHeight : Nat)
    (initialTreeSize : Option UInt32) : List WitnessChainEvent :=
  emitBlocks newBlockEvent initialTreeSize
    (fetchBatches connection fromHeight toHeight)

/-- What `follow` emits for a block. -/
def followEvents (st : FollowState) (action : ChainAction) (block : CompactBlock) :
    List WitnessChainEvent :=
  match action with
  | .extend => [newBlockEvent st.prevTreeSize block]
  | .reorg rollbackTo => [.reorg rollbackTo, newBlockEvent none block]

def followPoll (st : FollowState) (view : ChainView) :
    FollowState × List WitnessChainEvent :=
  st.followPoll followEvents view

end Witness
end SpendabilityPir
