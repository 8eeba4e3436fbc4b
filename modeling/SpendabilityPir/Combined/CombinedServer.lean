import SpendabilityPir.Nullifier.SpendServer
import SpendabilityPir.Shared.Following
import SpendabilityPir.Witness.WitnessServer

/-!
# The combined server

Either subsystem may be compiled in, or both.  After the sync of each, the one that is
behind catches up, and one follow loop with one tracker feeds both: it fetches what is
above its current height, applies every block to both databases, and publishes.
-/

namespace SpendabilityPir
namespace Combined

open Foundation Shared
open Nullifier (HashTableDb NullifierWithMeta)
open Witness (CommitmentTreeDb Hash MerkleHashOrchard)

inductive ServerError where
  | nullifier (e : Nullifier.ServerError)
  | witness (e : Witness.ServerError)
deriving DecidableEq

/-- The databases of the subsystems that are compiled in. -/
structure Databases where
  hashtable : Option HashTableDb
  tree : Option CommitmentTreeDb

/-!
## Catching up
-/

def catchUpNullifier (connection : Option Connection) (fromHeight toHeight : Nat)
    (hashtable : HashTableDb) : Outcome ServerError HashTableDb := do
  let synced <- Outcome.mapErr .nullifier
    (Nullifier.syncRange connection fromHeight toHeight hashtable none)
  Outcome.ofPanics synced.evictToTarget

def catchUpWitness (connection : Option Connection) (fromHeight toHeight : Nat)
    (tree : CommitmentTreeDb) (initialTreeSize : Option UInt32) :
    Outcome ServerError CommitmentTreeDb :=
  Outcome.mapErr .witness
    (Witness.syncRange connection fromHeight toHeight tree initialTreeSize)

/-- With both subsystems, the one that is behind syncs to the latest height of the
other. -/
def catchUp (connection : Option Connection) :
    Databases -> Outcome ServerError Databases
  | { hashtable := some hashtable, tree := some tree } => do
      let nfLatest := hashtable.latestHeight.getD 0
      let witLatest := tree.latestHeight.getD 0
      if nfLatest < witLatest then
        let hashtable' <- catchUpNullifier connection (nfLatest + 1) witLatest hashtable
        return { hashtable := some hashtable', tree := some tree }
      else if witLatest < nfLatest then
        let tree' <- catchUpWitness connection (witLatest + 1) nfLatest tree
          (Witness.knownTreeSize tree)
        return { hashtable := some hashtable, tree := some tree' }
      else return { hashtable := some hashtable, tree := some tree }
  | databases => .ok databases

theorem catchUp_cases {connection : Option Connection} {databases databases' : Databases}
    (h : catchUp connection databases = .ok databases') :
    (exists hashtable tree hashtable',
      databases = { hashtable := some hashtable, tree := some tree } ∧
      databases' = { hashtable := some hashtable', tree := some tree } ∧
      hashtable.latestHeight.getD 0 < tree.latestHeight.getD 0 ∧
      catchUpNullifier connection (hashtable.latestHeight.getD 0 + 1)
        (tree.latestHeight.getD 0) hashtable = .ok hashtable') ∨
    (exists hashtable tree tree',
      databases = { hashtable := some hashtable, tree := some tree } ∧
      databases' = { hashtable := some hashtable, tree := some tree' } ∧
      tree.latestHeight.getD 0 < hashtable.latestHeight.getD 0 ∧
      catchUpWitness connection (tree.latestHeight.getD 0 + 1)
        (hashtable.latestHeight.getD 0) tree (Witness.knownTreeSize tree) = .ok tree') ∨
    (databases' = databases ∧ forall hashtable tree,
      databases = { hashtable := some hashtable, tree := some tree } ->
      hashtable.latestHeight.getD 0 = tree.latestHeight.getD 0) := by
  unfold catchUp at h
  split at h
  · next hashtable tree =>
      dsimp only at h
      split at h
      · next hbehind =>
          rcases bind_eq_ok.mp h with ⟨hashtable', hcaught, hpair⟩
          cases hpair
          exact Or.inl ⟨hashtable, tree, hashtable', rfl, rfl, hbehind, hcaught⟩
      · next hnot =>
          split at h
          · next hahead =>
              rcases bind_eq_ok.mp h with ⟨tree', hcaught, hpair⟩
              cases hpair
              exact Or.inr (Or.inl ⟨hashtable, tree, tree', rfl, rfl, hahead, hcaught⟩)
          · next hnot' =>
              cases h
              refine Or.inr (Or.inr ⟨rfl, ?_⟩)
              intro found foundTree heq
              cases heq
              exact Nat.le_antisymm (Nat.le_of_not_lt hnot') (Nat.le_of_not_lt hnot)
  · next hother =>
      cases h
      refine Or.inr (Or.inr ⟨rfl, ?_⟩)
      intro hashtable tree heq
      exact absurd heq (hother hashtable tree)

/-- The follow loop starts at the table's newest block; without a table, at the height
of the tree's newest block and a zero hash. -/
def followStart (databases : Databases) : FollowState :=
  match databases.hashtable with
  | some hashtable =>
      FollowState.start (hashtable.latestHeight.getD 0)
        (hashtable.latestBlockHash.getD (ByteVec.zeros 32)) none
  | none =>
      FollowState.start ((databases.tree.bind CommitmentTreeDb.latestHeight).getD 0)
        (ByteVec.zeros 32) none

/-!
## The follow loop
-/

theorem rollbackBlock_size_lt {db db' : HashTableDb} {blockHash : ByteVec 32}
    (h : db.rollbackBlock blockHash = some (db', .ok ())) :
    db'.blockIndex.size < db.blockIndex.size := by
  unfold HashTableDb.rollbackBlock at h
  split at h
  · cases h
  · split at h
    · cases h
    · next height _ record hfind =>
        split at h
        · cases h
        · next removed hremove =>
            cases h
            rw [HashTableDb.removeRecord_blockIndex hremove]
            exact OrderedMap.size_erase_lt hfind

/-- Roll the newest block back while it is above a height; an error is logged and ends
the loop. -/
def rollbackAbove (hashtable : HashTableDb) (rollbackTo : Nat) : Option HashTableDb :=
  if (hashtable.latestHeight.map (fun h => decide (h > rollbackTo))).getD false then
    match hashtable.latestBlockHash with
    | none => some hashtable
    | some blockHash =>
        match _h : hashtable.rollbackBlock blockHash with
        | none => none
        | some (hashtable', .error _) => some hashtable'
        | some (hashtable', .ok ()) => rollbackAbove hashtable' rollbackTo
  else some hashtable
termination_by hashtable.blockIndex.size
decreasing_by exact rollbackBlock_size_lt _h

/-- A failing insertion is logged, and keeps what it wrote. -/
def ingestNullifiers (hashtable : HashTableDb) (action : ChainAction) (height : Nat)
    (hash : ByteVec 32) (nullifiers : List NullifierWithMeta) : Option HashTableDb :=
  match action with
  | .extend => (hashtable.insertBlock height hash nullifiers).1.evictToTarget
  | .reorg rollbackTo =>
      (rollbackAbove hashtable rollbackTo).map
        (fun rolledBack => (rolledBack.insertBlock height hash nullifiers).1)

def ingestCommitments (tree : CommitmentTreeDb) (action : ChainAction) (height : Nat)
    (hash : ByteVec 32) (commitments : List Hash) : CommitmentTreeDb :=
  match action with
  | .extend => tree.appendCommitments height hash commitments
  | .reorg rollbackTo => (tree.rollbackTo rollbackTo).appendCommitments height hash commitments

/-- The state of the follow loop: its task reads the tree size for the nullifiers. -/
structure FollowLoop where
  databases : Databases
  task : FollowState

def ingestBlock (loop : FollowLoop) (block : CompactBlock) : Option FollowLoop :=
  let advanced := loop.task.advance block
  let height := block.height.toNat
  let hash := toHashArray block.hash
  let nullifiers :=
    (Nullifier.extractNullifiersWithMeta block loop.task.prevTreeSize).1
  let tree := loop.databases.tree.map (fun tree =>
    ingestCommitments tree advanced.2 height hash (Witness.extractCommitments block))
  match loop.databases.hashtable with
  | none => some { databases := { hashtable := none, tree := tree }, task := advanced.1 }
  | some hashtable =>
      match ingestNullifiers hashtable advanced.2 height hash nullifiers with
      | none => none
      | some hashtable' =>
          some { databases := { hashtable := some hashtable', tree := tree }
                 task := advanced.1 }

theorem ingestBlock_cases {loop loop' : FollowLoop} {block : CompactBlock}
    (h : ingestBlock loop block = some loop') :
    loop'.task = (loop.task.advance block).1 ∧
    loop'.databases.tree = loop.databases.tree.map (fun tree =>
      ingestCommitments tree (loop.task.advance block).2 block.height.toNat
        (toHashArray block.hash) (Witness.extractCommitments block)) ∧
    ((loop.databases.hashtable = none ∧ loop'.databases.hashtable = none) ∨
      exists hashtable hashtable', loop.databases.hashtable = some hashtable ∧
        loop'.databases.hashtable = some hashtable' ∧
        ingestNullifiers hashtable (loop.task.advance block).2 block.height.toNat
          (toHashArray block.hash)
          (Nullifier.extractNullifiersWithMeta block loop.task.prevTreeSize).1 =
            some hashtable') := by
  unfold ingestBlock at h
  dsimp only at h
  split at h
  · next htable =>
      cases h
      exact ⟨rfl, rfl, Or.inl ⟨htable, rfl⟩⟩
  · next hashtable htable =>
      split at h
      · cases h
      · next hashtable' hingest =>
          cases h
          exact ⟨rfl, rfl, Or.inr ⟨hashtable, hashtable', htable, rfl, hingest⟩⟩

def ingestBlocks : FollowLoop -> List CompactBlock -> Option FollowLoop
  | loop, [] => some loop
  | loop, block :: rest =>
      match ingestBlock loop block with
      | none => none
      | some loop' => ingestBlocks loop' rest

/-- The server in its follow loop; a returned error or a panic stops it. -/
structure CombinedServer (σ τ : Type) where
  loop : FollowLoop
  nfPir : Option (Nullifier.PirState σ)
  witPir : Option (Witness.PirState τ)
  stopped : Bool

namespace CombinedServer

section Publish

variable {σ τ : Type}

def publishNullifier (nfEngine : PirEngine σ) (s : CombinedServer σ τ) :
    CombinedServer σ τ :=
  match s.loop.databases.hashtable with
  | none => s
  | some hashtable =>
      match Nullifier.rebuildPir nfEngine hashtable Nullifier.scenario with
      | .error _ => { s with stopped := true }
      | .ok pir => { s with nfPir := some pir }

def publishWitness (M : MerkleHashOrchard) (witEngine : PirEngine τ)
    (s : CombinedServer σ τ) : CombinedServer σ τ :=
  match s.loop.databases.tree with
  | none => s
  | some tree =>
      match Witness.rebuildPir M witEngine tree Witness.scenario
          (tree.latestHeight.getD 0) with
      | .error _ => { s with stopped := true }
      | .ok (tree', pir) =>
          { s with
            loop := { s.loop with databases := { s.loop.databases with tree := some tree' } }
            witPir := some pir }

def publish (M : MerkleHashOrchard) (nfEngine : PirEngine σ) (witEngine : PirEngine τ)
    (s : CombinedServer σ τ) : CombinedServer σ τ :=
  let published := s.publishNullifier nfEngine
  if published.stopped then published else published.publishWitness M witEngine

/-- One turn of the follow loop against the chain served at the time. -/
def poll (M : MerkleHashOrchard) (nfEngine : PirEngine σ) (witEngine : PirEngine τ)
    (s : CombinedServer σ τ) (view : ChainView) : Option (CombinedServer σ τ) :=
  if s.stopped then none
  else if view.tipHeight ≤ s.loop.task.currentHeight then some s
  else
    match ingestBlocks s.loop (s.loop.task.newBlocks view) with
    | none => some { s with stopped := true }
    | some loop => some (publish M nfEngine witEngine { s with loop := loop })

variable {M : MerkleHashOrchard} {nfEngine : PirEngine σ} {witEngine : PirEngine τ}

theorem nfPir_publish {s : CombinedServer σ τ} {pir : Nullifier.PirState σ}
    (h : (s.publish M nfEngine witEngine).nfPir = some pir) :
    s.nfPir = some pir ∨ exists hashtable, s.loop.databases.hashtable = some hashtable ∧
      Nullifier.rebuildPir nfEngine hashtable Nullifier.scenario = .ok pir := by
  have hwitness : forall s : CombinedServer σ τ,
      (s.publishWitness M witEngine).nfPir = s.nfPir := by
    intro s
    unfold publishWitness
    split
    · rfl
    · split <;> rfl
  have hpublished : (s.publish M nfEngine witEngine).nfPir =
      (s.publishNullifier nfEngine).nfPir := by
    unfold publish
    dsimp only
    split
    · rfl
    · exact hwitness _
  rw [hpublished] at h
  unfold publishNullifier at h
  split at h
  · exact Or.inl h
  · next hashtable htable =>
      split at h
      · exact Or.inl h
      · next built hbuilt =>
          cases h
          exact Or.inr ⟨hashtable, htable, hbuilt⟩

theorem poll_cases {s s' : CombinedServer σ τ} {view : ChainView}
    (h : s.poll M nfEngine witEngine view = some s') :
    s.stopped = false ∧
    ((view.tipHeight ≤ s.loop.task.currentHeight ∧ s' = s) ∨
      (s.loop.task.currentHeight < view.tipHeight ∧
        ingestBlocks s.loop (s.loop.task.newBlocks view) = none ∧
        s' = { s with stopped := true }) ∨
      exists loop, s.loop.task.currentHeight < view.tipHeight ∧
        ingestBlocks s.loop (s.loop.task.newBlocks view) = some loop ∧
        s' = publish M nfEngine witEngine { s with loop := loop }) := by
  unfold poll at h
  split at h
  · cases h
  · next hrunning =>
      refine ⟨eq_false_of_ne_true hrunning, ?_⟩
      split at h
      · next hidle =>
          cases h
          exact Or.inl ⟨hidle, rfl⟩
      · next hnew =>
          have hlt := Nat.lt_of_not_le hnew
          split at h
          · next hpanic =>
              cases h
              exact Or.inr (Or.inl ⟨hlt, hpanic, rfl⟩)
          · next loop hingest =>
              cases h
              exact Or.inr (Or.inr ⟨loop, hlt, hingest, rfl⟩)

end Publish

variable {σ τ : Type}

/-- The server that enters the follow loop with the states published before. -/
def enterFollow (nfPir : Option (Nullifier.PirState σ))
    (witPir : Option (Witness.PirState τ)) (databases : Databases) :
    CombinedServer σ τ :=
  { loop := { databases := databases, task := followStart databases }
    nfPir := nfPir
    witPir := witPir
    stopped := false }

def followState (s : CombinedServer σ τ) : Option FollowState :=
  if s.stopped then none else some s.loop.task

end CombinedServer

def combinedFollowing {σ τ : Type} (M : MerkleHashOrchard) (nfEngine : PirEngine σ)
    (witEngine : PirEngine τ) : FollowingServer (CombinedServer σ τ) :=
  { followState := CombinedServer.followState
    poll := CombinedServer.poll M nfEngine witEngine
    work := fun _ => none }

end Combined
end SpendabilityPir
