import SpendabilityPir.Foundation.Outcome
import SpendabilityPir.Nullifier.HashTable
import SpendabilityPir.Nullifier.NfIngest

/-!
# The nullifier server

Sync forward from a snapshot or from near the tip, backfill earlier blocks while the
table is small, publish, then follow: the ingest task polls and queues events, and the
event loop applies them and publishes after each.  A returned error or a panic stops the
server.
-/

namespace SpendabilityPir
namespace Nullifier

open Foundation Shared

def backfillBatch : Nat := 50000

inductive ServerError where
  | ingest
  | hashTable (e : HashTableError)
  | pirSetup
deriving DecidableEq

structure SpendabilityMetadata where
  earliestHeight : Nat
  latestHeight : Nat
  numNullifiers : Nat
  numBuckets : Nat
  phase : ServerPhase

structure PirState (σ : Type) where
  engineState : σ
  metadata : SpendabilityMetadata

structure ServerConfig where
  targetSize : Nat

def scenario : YpirScenario :=
  { numItems := numBuckets, itemSizeBits := bucketBytes * 8 }

def metadataOf (hashtable : HashTableDb) : SpendabilityMetadata :=
  { earliestHeight := hashtable.earliestHeight.getD 0
    latestHeight := hashtable.latestHeight.getD 0
    numNullifiers := hashtable.len
    numBuckets := numBuckets
    phase := .serving }

def rebuildPir {σ : Type} (engine : PirEngine σ) (hashtable : HashTableDb)
    (scenario : YpirScenario) : Outcome ServerError (PirState σ) :=
  match engine.setup hashtable.toPirBytes scenario with
  | none => .error (.error .pirSetup)
  | some engineState =>
      .ok { engineState := engineState, metadata := metadataOf hashtable }

/-- Insert a block or return its error. -/
def insertOrFail (hashtable : HashTableDb) (height : Nat) (hash : ByteVec 32)
    (nullifiers : List NullifierWithMeta) : Outcome ServerError HashTableDb :=
  match hashtable.insertBlock height hash nullifiers with
  | (_, .error e) => .error (.error (.hashTable e))
  | (hashtable', .ok ()) => .ok hashtable'

/-!
## Sync
-/

/-- The receiving loop of `syncRange`; it reads new blocks only. -/
def insertEvents : HashTableDb -> List ChainEvent -> Outcome ServerError HashTableDb
  | hashtable, [] => .ok hashtable
  | hashtable, .newBlock height hash _ nullifiers :: rest => do
      let hashtable' <- insertOrFail hashtable height hash nullifiers
      insertEvents hashtable' rest
  | hashtable, .reorg _ _ :: rest => insertEvents hashtable rest

/-- Sync a block range into the table.  The result of the sync task is dropped, so a
failing request only ends the events. -/
def syncRange (connection : Option Connection) (fromHeight toHeight : Nat)
    (hashtable : HashTableDb) (initialTreeSize : Option UInt32) :
    Outcome ServerError HashTableDb :=
  if fromHeight > toHeight then .ok hashtable
  else
    match connection with
    | none => .error (.error .ingest)
    | some connection =>
        insertEvents hashtable (sync connection fromHeight toHeight initialTreeSize)

/-!
## The event loop
-/

/-- Roll back orphaned blocks; an error is logged and skipped. -/
def rollbackOrphaned : HashTableDb -> List OrphanedBlock -> Option HashTableDb
  | hashtable, [] => some hashtable
  | hashtable, block :: rest =>
      match hashtable.rollbackBlock block.hash with
      | none => none
      | some (hashtable', _) => rollbackOrphaned hashtable' rest

def insertNewBlocks : HashTableDb -> List NewBlock -> Outcome ServerError HashTableDb
  | hashtable, [] => .ok hashtable
  | hashtable, block :: rest => do
      let hashtable' <- insertOrFail hashtable block.height block.hash block.nullifiers
      insertNewBlocks hashtable' rest

def applyEvent (hashtable : HashTableDb) : ChainEvent -> Outcome ServerError HashTableDb
  | .newBlock height hash _ nullifiers => do
      let hashtable' <- insertOrFail hashtable height hash nullifiers
      Outcome.ofPanics hashtable'.evictToTarget
  | .reorg orphaned newBlocks => do
      let rolledBack <- Outcome.ofPanics (rollbackOrphaned hashtable orphaned.reverse)
      let hashtable' <- insertNewBlocks rolledBack newBlocks
      Outcome.ofPanics hashtable'.evictToTarget

def handleEvent {σ : Type} (engine : PirEngine σ) (hashtable : HashTableDb)
    (event : ChainEvent) : Outcome ServerError (HashTableDb × PirState σ) := do
  let hashtable' <- applyEvent hashtable event
  let pir <- rebuildPir engine hashtable' scenario
  return (hashtable', pir)

theorem handleEvent_eq_ok {σ : Type} {engine : PirEngine σ}
    {hashtable hashtable' : HashTableDb} {event : ChainEvent} {pir : PirState σ}
    (h : handleEvent engine hashtable event = .ok (hashtable', pir)) :
    applyEvent hashtable event = .ok hashtable' ∧
      rebuildPir engine hashtable' scenario = .ok pir := by
  rcases bind_eq_ok.mp h with ⟨applied, happly, hrest⟩
  rcases bind_eq_ok.mp hrest with ⟨built, hrebuild, hreturn⟩
  cases hreturn
  exact ⟨happly, hrebuild⟩

theorem handleEvent_of_apply {σ : Type} {engine : PirEngine σ}
    {hashtable hashtable' : HashTableDb} {event : ChainEvent} {pir : PirState σ}
    (happly : applyEvent hashtable event = .ok hashtable')
    (hrebuild : rebuildPir engine hashtable' scenario = .ok pir) :
    handleEvent engine hashtable event = .ok (hashtable', pir) := by
  rw [handleEvent, happly, ok_bind, hrebuild]
  rfl

/-!
## The server
-/

/-- Where `run` is: which range comes next, or the follow task and its queue. -/
inductive Stage where
  | starting
  | forward (forwardStart tipHeight floor : Nat) (fromSnapshot : Bool)
  | backfill (floor backfillEnd : Nat)
  | synced
  | follow (task : Option FollowState) (queue : List ChainEvent)
  | stopped

structure SpendServer (σ : Type) where
  hashtable : HashTableDb
  livePir : Option (PirState σ)
  stage : Stage

/-- What happens next: an answer of lightwalletd, or a step of the server's own. -/
inductive ServerInput where
  | connect (tipHeight : Nat) (snapshot : Option HashTableDb)
  | range (connection : Option Connection)
  | publish
  | poll (view : ChainView)
  | requestFails
  | handle

namespace SpendServer

variable {σ : Type}

def init : SpendServer σ :=
  { hashtable := HashTableDb.new, livePir := none, stage := .starting }

def forwardStart (hashtable : HashTableDb) (fromSnapshot : Bool)
    (tipHeight floor : Nat) : Nat :=
  if fromSnapshot then
    match hashtable.latestHeight with
    | some height => height + 1
    | none => tipHeight
  else max (tipHeight - backfillBatch) floor

def backfillStage (config : ServerConfig) (hashtable : HashTableDb)
    (floor backfillEnd : Nat) : Stage :=
  if hashtable.len < config.targetSize ∧ backfillEnd ≥ floor then
    .backfill floor backfillEnd
  else .synced

def afterForward (config : ServerConfig) (hashtable : HashTableDb)
    (forwardStart floor : Nat) (fromSnapshot : Bool) : Stage :=
  if fromSnapshot then .synced
  else backfillStage config hashtable floor (forwardStart - 1)

def backfillStart (floor backfillEnd : Nat) : Nat :=
  max (backfillEnd - (backfillBatch - 1)) floor

def afterBackfill (config : ServerConfig) (hashtable : HashTableDb)
    (floor backfillEnd : Nat) : Stage :=
  let start := backfillStart floor backfillEnd
  if start = floor then .synced else backfillStage config hashtable floor (start - 1)

def followStart (hashtable : HashTableDb) : FollowState :=
  FollowState.start (hashtable.latestHeight.getD 0)
    (hashtable.latestBlockHash.getD (ByteVec.zeros 32)) none

def connect (config : ServerConfig) (s : SpendServer σ) (tipHeight : Nat)
    (snapshot : Option HashTableDb) : SpendServer σ :=
  let hashtable := snapshot.getD HashTableDb.new
  let floor := minSyncHeight tipHeight
  let start := forwardStart hashtable snapshot.isSome tipHeight floor
  { s with
    hashtable := hashtable
    stage :=
      if start ≤ tipHeight then .forward start tipHeight floor snapshot.isSome
      else afterForward config hashtable start floor snapshot.isSome }

def syncStage (s : SpendServer σ) (connection : Option Connection)
    (fromHeight toHeight : Nat) (next : HashTableDb -> Stage) : SpendServer σ :=
  match syncRange connection fromHeight toHeight s.hashtable none with
  | .error _ => { s with stage := .stopped }
  | .ok hashtable => { s with hashtable := hashtable, stage := next hashtable }

def publish (engine : PirEngine σ) (s : SpendServer σ) : SpendServer σ :=
  match s.hashtable.evictToTarget with
  | none => { s with stage := .stopped }
  | some hashtable =>
      match rebuildPir engine hashtable scenario with
      | .error _ => { s with hashtable := hashtable, stage := .stopped }
      | .ok pir =>
          { hashtable := hashtable
            livePir := some pir
            stage := .follow (some (followStart hashtable)) [] }

theorem syncStage_of_ok {s : SpendServer σ} {connection : Option Connection}
    {fromHeight toHeight : Nat} {hashtable : HashTableDb}
    (h : syncRange connection fromHeight toHeight s.hashtable none = .ok hashtable)
    (next : HashTableDb -> Stage) :
    s.syncStage connection fromHeight toHeight next =
      { s with hashtable := hashtable, stage := next hashtable } := by
  rw [syncStage, h]

theorem publish_of_le {engine : PirEngine σ} {s : SpendServer σ} {pir : PirState σ}
    (hsize : s.hashtable.len ≤ targetSize)
    (hrebuild : rebuildPir engine s.hashtable scenario = .ok pir) :
    s.publish engine =
      { hashtable := s.hashtable
        livePir := some pir
        stage := .follow (some (followStart s.hashtable)) [] } := by
  rw [publish, HashTableDb.evictToTarget_of_le hsize]
  dsimp only
  rw [hrebuild]

def handle (engine : PirEngine σ) (s : SpendServer σ) (task : Option FollowState)
    (event : ChainEvent) (rest : List ChainEvent) : SpendServer σ :=
  match handleEvent engine s.hashtable event with
  | .error _ => { s with stage := .stopped }
  | .ok (hashtable, pir) =>
      { hashtable := hashtable, livePir := some pir, stage := .follow task rest }

theorem handle_of_apply {engine : PirEngine σ} {s : SpendServer σ}
    {hashtable' : HashTableDb} {event : ChainEvent} {pir : PirState σ}
    (happly : applyEvent s.hashtable event = .ok hashtable')
    (hrebuild : rebuildPir engine hashtable' scenario = .ok pir)
    (task : Option FollowState) (rest : List ChainEvent) :
    s.handle engine task event rest =
      { hashtable := hashtable', livePir := some pir, stage := .follow task rest } := by
  rw [handle, handleEvent_of_apply happly hrebuild]

/-- One step of `run`; `none` is an input that does not occur in the stage. -/
def step (config : ServerConfig) (engine : PirEngine σ) (s : SpendServer σ) :
    ServerInput -> Option (SpendServer σ)
  | .connect tipHeight snapshot =>
      match s.stage with
      | .starting => some (s.connect config tipHeight snapshot)
      | _ => none
  | .range connection =>
      match s.stage with
      | .forward start tipHeight floor fromSnapshot =>
          some (s.syncStage connection start tipHeight
            (fun hashtable => afterForward config hashtable start floor fromSnapshot))
      | .backfill floor backfillEnd =>
          some (s.syncStage connection (backfillStart floor backfillEnd) backfillEnd
            (fun hashtable => afterBackfill config hashtable floor backfillEnd))
      | _ => none
  | .publish =>
      match s.stage with
      | .synced => some (s.publish engine)
      | _ => none
  | .poll view =>
      match s.stage with
      | .follow (some st) queue =>
          let polled := followPoll st view
          some { s with stage := .follow (some polled.1) (queue ++ polled.2) }
      | _ => none
  | .requestFails =>
      match s.stage with
      | .follow _ queue => some { s with stage := .follow none queue }
      | _ => none
  | .handle =>
      match s.stage with
      | .follow task (event :: rest) => some (s.handle engine task event rest)
      | _ => none

/-- What a step does in each stage. -/
inductive Moves (config : ServerConfig) (engine : PirEngine σ) (s : SpendServer σ) :
    ServerInput -> SpendServer σ -> Prop where
  | connect {tipHeight : Nat} {snapshot : Option HashTableDb} :
      s.stage = .starting ->
      Moves config engine s (.connect tipHeight snapshot)
        (s.connect config tipHeight snapshot)
  | forward {connection : Option Connection} {start tipHeight floor : Nat}
      {fromSnapshot : Bool} :
      s.stage = .forward start tipHeight floor fromSnapshot ->
      Moves config engine s (.range connection)
        (s.syncStage connection start tipHeight
          (fun hashtable => afterForward config hashtable start floor fromSnapshot))
  | backfill {connection : Option Connection} {floor backfillEnd : Nat} :
      s.stage = .backfill floor backfillEnd ->
      Moves config engine s (.range connection)
        (s.syncStage connection (backfillStart floor backfillEnd) backfillEnd
          (fun hashtable => afterBackfill config hashtable floor backfillEnd))
  | publish :
      s.stage = .synced -> Moves config engine s .publish (s.publish engine)
  | poll {view : ChainView} {st : FollowState} {queue : List ChainEvent} :
      s.stage = .follow (some st) queue ->
      Moves config engine s (.poll view)
        { s with
          stage := .follow (some (followPoll st view).1) (queue ++ (followPoll st view).2) }
  | requestFails {task : Option FollowState} {queue : List ChainEvent} :
      s.stage = .follow task queue ->
      Moves config engine s .requestFails { s with stage := .follow none queue }
  | handle {task : Option FollowState} {event : ChainEvent} {rest : List ChainEvent} :
      s.stage = .follow task (event :: rest) ->
      Moves config engine s .handle (s.handle engine task event rest)

theorem moves_of_step {config : ServerConfig} {engine : PirEngine σ} {s s' : SpendServer σ}
    {input : ServerInput} (h : s.step config engine input = some s') :
    Moves config engine s input s' := by
  cases input with
  | connect tipHeight snapshot =>
      unfold step at h
      dsimp only at h
      split at h
      · next hstage => exact Option.some.inj h ▸ .connect hstage
      · cases h
  | range connection =>
      unfold step at h
      dsimp only at h
      split at h
      · next hstage => exact Option.some.inj h ▸ .forward hstage
      · next hstage => exact Option.some.inj h ▸ .backfill hstage
      · cases h
  | publish =>
      unfold step at h
      dsimp only at h
      split at h
      · next hstage => exact Option.some.inj h ▸ .publish hstage
      · cases h
  | poll view =>
      unfold step at h
      dsimp only at h
      split at h
      · next hstage => exact Option.some.inj h ▸ .poll hstage
      · cases h
  | requestFails =>
      unfold step at h
      dsimp only at h
      split at h
      · next hstage => exact Option.some.inj h ▸ .requestFails hstage
      · cases h
  | handle =>
      unfold step at h
      dsimp only at h
      split at h
      · next hstage => exact Option.some.inj h ▸ .handle hstage
      · cases h

def followState (s : SpendServer σ) : Option FollowState :=
  match s.stage with
  | .follow task _ => task
  | _ => none

end SpendServer
end Nullifier
end SpendabilityPir
