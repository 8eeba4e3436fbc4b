import SpendabilityPir.Foundation.Outcome
import SpendabilityPir.Witness.CommitmentIngest
import SpendabilityPir.Witness.CommitmentTree

/-!
# The witness server

A range is synced into the tree block by block, each checked against the tree size the
block before it reported.  In follow mode the ingest task polls and queues events, and
the event loop applies them and publishes after each.  A returned error or a panic stops
the server.
-/

namespace SpendabilityPir
namespace Witness

open Foundation Shared

inductive ServerError where
  | ingest
  | client
  | pirSetup
  | missingCompletingBlock (height : Nat)
  | treeSizeMismatch (context : String) (height expected actual : Nat)
deriving DecidableEq

structure WitnessMetadata where
  anchorHeight : Nat
  treeSize : Nat
  windowStartShard : Nat
  windowShardCount : Nat
  populatedShards : Nat
  phase : ServerPhase

structure PirState (σ : Type) where
  engineState : σ
  broadcast : BroadcastData
  metadata : WitnessMetadata

def scenario : YpirScenario :=
  { numItems := l0DbRows, itemSizeBits := subshardRowBytes * 8 }

def rebuildPir {σ : Type} (M : MerkleHashOrchard) (engine : PirEngine σ)
    (tree : CommitmentTreeDb) (scenario : YpirScenario) (anchorHeight : Nat) :
    Outcome ServerError (CommitmentTreeDb × PirState σ) :=
  match tree.buildPirDbAndBroadcast M anchorHeight with
  | none => .error .panic
  | some (tree', dbBytes, broadcast) =>
      match engine.setup dbBytes scenario with
      | none => .error (.error .pirSetup)
      | some engineState =>
          .ok (tree', {
            engineState := engineState
            broadcast := broadcast
            metadata := {
              anchorHeight := anchorHeight
              treeSize := tree'.treeSize
              windowStartShard := tree'.windowStartShard
              windowShardCount := tree'.windowShardCount
              populatedShards := tree'.populatedShards
              phase := .serving } })

def validatePriorTreeSize (tree : CommitmentTreeDb) (height : Nat)
    (priorTreeSize : Option UInt32) (context : String) : Outcome ServerError Unit :=
  match priorTreeSize with
  | none => .ok ()
  | some expected =>
      if tree.treeSize = expected.toNat then .ok ()
      else
        .error (.error (.treeSizeMismatch context height expected.toNat tree.treeSize))

/-- Append a block after checking the size of the tree before it. -/
def appendValidated (context : String) (tree : CommitmentTreeDb) (height : Nat)
    (hash : ByteVec 32) (commitments : List Hash) (priorTreeSize : Option UInt32) :
    Outcome ServerError CommitmentTreeDb := do
  validatePriorTreeSize tree height priorTreeSize context
  return tree.appendCommitments height hash commitments

/-- The receiving loop of `syncRange`; it reads new blocks only. -/
def appendEvents : CommitmentTreeDb -> List WitnessChainEvent ->
    Outcome ServerError CommitmentTreeDb
  | tree, [] => .ok tree
  | tree, .newBlock height hash _ commitments priorTreeSize :: rest => do
      let tree' <- appendValidated "initial sync" tree height hash commitments priorTreeSize
      appendEvents tree' rest
  | tree, .reorg _ :: rest => appendEvents tree rest

/-- Sync a block range into the tree.  The result of the sync task is dropped, so a
failing request only ends the events. -/
def syncRange (connection : Option Connection) (fromHeight toHeight : Nat)
    (tree : CommitmentTreeDb) (initialTreeSize : Option UInt32) :
    Outcome ServerError CommitmentTreeDb :=
  if fromHeight > toHeight then .ok tree
  else
    match connection with
    | none => .error (.error .ingest)
    | some connection =>
        appendEvents tree (sync connection fromHeight toHeight initialTreeSize)

/-- The tree size to check the next block against, when there are leaves. -/
def knownTreeSize (tree : CommitmentTreeDb) : Option UInt32 :=
  if tree.treeSize > 0 then some (UInt32.ofNat tree.treeSize) else none

/-!
## The event loop
-/

def applyEvent (tree : CommitmentTreeDb) : WitnessChainEvent ->
    Outcome ServerError CommitmentTreeDb
  | .newBlock height hash _ commitments priorTreeSize =>
      appendValidated "follow mode" tree height hash commitments priorTreeSize
  | .reorg rollbackTo => .ok (tree.rollbackTo rollbackTo)

def handleEvent {σ : Type} (M : MerkleHashOrchard) (engine : PirEngine σ)
    (tree : CommitmentTreeDb) (event : WitnessChainEvent) :
    Outcome ServerError (CommitmentTreeDb × PirState σ) := do
  let tree' <- applyEvent tree event
  rebuildPir M engine tree' scenario (tree'.latestHeight.getD 0)

/-- The follow task and its queue, or a stopped server. -/
inductive Stage where
  | follow (task : FollowState) (queue : List WitnessChainEvent)
  | stopped

structure WitnessServer (σ : Type) where
  tree : CommitmentTreeDb
  livePir : Option (PirState σ)
  stage : Stage

namespace WitnessServer

variable {σ : Type}

def followStart (tree : CommitmentTreeDb) : FollowState :=
  FollowState.start (tree.latestHeight.getD 0)
    (tree.latestBlockHash.getD (ByteVec.zeros 32)) (knownTreeSize tree)

def handle (M : MerkleHashOrchard) (engine : PirEngine σ) (s : WitnessServer σ)
    (task : FollowState) (event : WitnessChainEvent) (rest : List WitnessChainEvent) :
    WitnessServer σ :=
  match handleEvent M engine s.tree event with
  | .error _ => { s with stage := .stopped }
  | .ok (tree, pir) => { tree := tree, livePir := some pir, stage := .follow task rest }

def poll (s : WitnessServer σ) (view : ChainView) : Option (WitnessServer σ) :=
  match s.stage with
  | .follow task queue =>
      some { s with
        stage := .follow (followPoll task view).1 (queue ++ (followPoll task view).2) }
  | .stopped => none

def work (M : MerkleHashOrchard) (engine : PirEngine σ) (s : WitnessServer σ) :
    Option (WitnessServer σ) :=
  match s.stage with
  | .follow task (event :: rest) => some (s.handle M engine task event rest)
  | _ => none

def followState (s : WitnessServer σ) : Option FollowState :=
  match s.stage with
  | .follow task _ => some task
  | .stopped => none

end WitnessServer
end Witness
end SpendabilityPir
