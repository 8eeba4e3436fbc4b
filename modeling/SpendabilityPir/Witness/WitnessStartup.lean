import SpendabilityPir.Witness.WitnessServer

/-!
# Starting the witness server

A server starts from its snapshot, or from a window: the roots of the shards before the
window as lightwalletd reports them, and what the block that completed the last of them
has past its end.  With fewer completed shards than the window holds it syncs all.
-/

namespace SpendabilityPir
namespace Witness

open Foundation Shared

/-- A completed shard as lightwalletd reports it. -/
structure SubtreeRoot where
  rootHash : List UInt8
  completingBlockHeight : Nat

/-- A client of lightwalletd: its block ranges, and the answer to the request for the
roots of completed shards, which may fail. -/
structure LwdClient where
  blocks : Connection
  subtreeRoots : Option (List SubtreeRoot)

/-- Keep the suffix of a block's commitments that lies past the offset. -/
def spilloverFromCommitments (commitments : List Hash) (endTreeSize leafOffset : Nat) :
    List Hash :=
  if endTreeSize ≤ leafOffset then []
  else commitments.drop (commitments.length - (endTreeSize - leafOffset))

def completingBlockSpillover (block : CompactBlock) (leafOffset : Nat) : List Hash :=
  spilloverFromCommitments (extractCommitments block)
    ((block.chainMetadata.map (fun m => m.orchardCommitmentTreeSize.toNat)).getD 0)
    leafOffset

/-- The limit of a window, between one shard and what the database holds. -/
def clampShardLimit (windowShardLimit : Nat) : Nat :=
  min (max windowShardLimit 1) l0MaxShards

/-- The tree of a window with the first leaves of the window from the block that
completed the shard before it. -/
def seedWindow (leafOffset : Nat) (prefetched : List Hash) (completingBlockHeight : Nat)
    (block : CompactBlock) : CommitmentTreeDb :=
  let tree := CommitmentTreeDb.withOffset leafOffset prefetched
  let spillover := completingBlockSpillover block leafOffset
  if spillover.isEmpty then tree
  else tree.appendCommitments completingBlockHeight (toHashArray block.hash) spillover

/-- Determine the tree to sync into, the first height to sync, and the tree size below
it. -/
def prepareTree (client : LwdClient) (tipHeight windowShardLimit : Nat) :
    Outcome ServerError (CommitmentTreeDb × Nat × Option UInt32) :=
  let limit := clampShardLimit windowShardLimit
  match client.subtreeRoots with
  | none => .error (.error .client)
  | some subtreeRoots =>
      let numCompleted := subtreeRoots.length
      if numCompleted ≥ limit then
        let windowStart := numCompleted - (limit - 1)
        let leafOffset := windowStart * shardLeaves
        let prefetched := (subtreeRoots.take windowStart).map (fun root =>
          ByteVec.ofBytes 32 root.rootHash)
        match subtreeRoots[windowStart - 1]? with
        | none => .error .panic
        | some last =>
            match client.blocks.getBlockRange last.completingBlockHeight
                last.completingBlockHeight with
            | none => .error (.error .client)
            | some [] =>
                .error (.error (.missingCompletingBlock last.completingBlockHeight))
            | some (block :: _) =>
                let tree := seedWindow leafOffset prefetched last.completingBlockHeight block
                .ok (tree, last.completingBlockHeight + 1,
                  some (UInt32.ofNat tree.treeSize))
      else .ok (CommitmentTreeDb.new, minSyncHeight tipHeight, none)

/-- A tree is prepared behind the completed shards, or is a new one when there are few. -/
theorem prepareTree_eq_ok {client : LwdClient} {tipHeight limit forwardStart : Nat}
    {tree : CommitmentTreeDb} {initialTreeSize : Option UInt32}
    (h : prepareTree client tipHeight limit = .ok (tree, forwardStart, initialTreeSize)) :
    (exists roots last block rest, client.subtreeRoots = some roots ∧
      clampShardLimit limit ≤ roots.length ∧
      roots[roots.length - (clampShardLimit limit - 1) - 1]? = some last ∧
      client.blocks.getBlockRange last.completingBlockHeight last.completingBlockHeight =
        some (block :: rest) ∧
      tree = seedWindow ((roots.length - (clampShardLimit limit - 1)) * shardLeaves)
        ((roots.take (roots.length - (clampShardLimit limit - 1))).map
          (fun root => ByteVec.ofBytes 32 root.rootHash))
        last.completingBlockHeight block ∧
      forwardStart = last.completingBlockHeight + 1 ∧
      initialTreeSize = some (UInt32.ofNat tree.treeSize)) ∨
    (exists roots, client.subtreeRoots = some roots ∧ roots.length < clampShardLimit limit ∧
      tree = CommitmentTreeDb.new ∧ forwardStart = minSyncHeight tipHeight ∧
      initialTreeSize = none) := by
  unfold prepareTree at h
  dsimp only at h
  split at h
  · cases h
  · next roots hroots =>
      split at h
      · next hcompleted =>
          split at h
          · cases h
          · next last hlast =>
              split at h
              · cases h
              · cases h
              · next block rest hrange =>
                  cases h
                  exact Or.inl ⟨roots, last, block, rest, hroots, hcompleted, hlast, hrange,
                    rfl, rfl, rfl⟩
      · next hfew =>
          cases h
          exact Or.inr ⟨roots, hroots, Nat.lt_of_not_le hfew, rfl, rfl, rfl⟩

/-- The tree of a snapshot, or else a prepared one. -/
def startingTree (client : LwdClient) (tipHeight windowShardLimit : Nat) :
    Option CommitmentTreeDb -> Outcome ServerError (CommitmentTreeDb × Nat × Option UInt32)
  | some tree => .ok (tree, (tree.latestHeight.map Nat.succ).getD 0, knownTreeSize tree)
  | none => prepareTree client tipHeight windowShardLimit

/-- Sync the starting tree to the tip, if there is something to sync. -/
def syncToTip (connection : Option Connection) (tipHeight : Nat) (tree : CommitmentTreeDb)
    (forwardStart : Nat) (initialTreeSize : Option UInt32) :
    Outcome ServerError CommitmentTreeDb :=
  if forwardStart ≤ tipHeight then
    syncRange connection forwardStart tipHeight tree initialTreeSize
  else .ok tree

/-- Sync from the snapshot or a prepared tree to the tip and publish; the snapshot is
`none` where it does not load. -/
def runSyncOnly {σ : Type} (M : MerkleHashOrchard) (engine : PirEngine σ)
    (client : LwdClient) (connection : Option Connection) (windowShardLimit : Nat)
    (snapshot : Option CommitmentTreeDb) :
    Outcome ServerError (CommitmentTreeDb × PirState σ) := do
  let tipHeight := client.blocks.view.tipHeight
  let (tree, forwardStart, initialTreeSize) <-
    startingTree client tipHeight windowShardLimit snapshot
  let synced <- syncToTip connection tipHeight tree forwardStart initialTreeSize
  rebuildPir M engine synced scenario (synced.latestHeight.getD 0)

end Witness
end SpendabilityPir
