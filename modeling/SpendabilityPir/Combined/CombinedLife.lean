import SpendabilityPir.Combined.CrashSafety
import SpendabilityPir.Combined.PublishedPair
import SpendabilityPir.Witness.CrashRecovery

/-!
# The combined server across crashes

Each side loads its own snapshot file, saves it when its sync is complete and then publishes.
The follow loop saves both files, one after the other, when enough blocks came since it did
so before.  The process may die at any point of this, also between the two files, and the
next one starts from what it finds.
-/

namespace SpendabilityPir
namespace Combined

open Foundation Shared
open Nullifier (HashTableDb SpendServer ServerConfig CoverableChain SmallBlocks)
open Witness (CommitmentTreeDb HonestChain LwdClient MerkleHashOrchard OnWindow ReportsWindow
  Window)

structure CombinedConfig where
  targetSize : Nat
  snapshotInterval : Nat

def CombinedConfig.nfConfig (config : CombinedConfig) : ServerConfig :=
  { targetSize := config.targetSize }

/-- The tree of the witness side before it is published, with what its sync was given, and
whether it is saved. -/
structure SyncedWitness where
  client : LwdClient
  connection : Option Connection
  snapshot : Option CommitmentTreeDb
  tree : CommitmentTreeDb
  saved : Bool

def SyncedWitness.OnChain (M : MerkleHashOrchard) (chain : ChainView)
    (synced : SyncedWitness) : Prop :=
  exists w, w.Sound M chain ∧
    SyncsOnWindow M w chain synced.client synced.connection Witness.l0MaxShards
      synced.snapshot ∧
    Witness.syncedTree synced.client synced.connection Witness.l0MaxShards synced.snapshot =
      .ok synced.tree

/-- The saves that the follow loop waits for. -/
inductive PairSave where
  | both
  | witness
deriving DecidableEq

/-- The process if one runs, what it has saved and has to save, and the two directories. -/
structure CombinedLife (σ τ : Type) where
  process : Option (CombinedState σ τ)
  synced : Option SyncedWitness
  nfSaved : Bool
  due : Option PairSave
  blocksSinceSnapshot : Nat
  nfFiles : Replacing String
  witFiles : Replacing String

/-- What happens next.  The process dies when it is killed, when a save fails and when a
load panics. -/
inductive CombinedLifeInput where
  | start
  | syncWitness (client : LwdClient) (connection : Option Connection) (readable : Bool)
  | server (input : CombinedInput)
  | nullifierFile (label : ReplaceLabel)
  | witnessFile (label : ReplaceLabel)
  | kill
  | powerLoss

namespace CombinedLife

variable {σ τ : Type}

def crashed (nfFs witFs : FileSystem String) : CombinedLife σ τ :=
  { process := none
    synced := none
    nfSaved := false
    due := none
    blocksSinceSnapshot := 0
    nfFiles := { fs := nfFs, stage := .idle }
    witFiles := { fs := witFs, stage := .idle } }

def init : CombinedLife σ τ := crashed FileSystem.empty FileSystem.empty

def LoadsTree (mode : Arithmetic) (xxh64 : List UInt8 -> Nat -> UInt64)
    (s : CombinedLife σ τ) : Bool -> Option CommitmentTreeDb -> Prop :=
  (Witness.WitnessLife.crashed s.witFiles.fs : Witness.WitnessLife τ).Loads mode xxh64

/-- Each side loads its snapshot, and publishes after it has saved; the loop waits for its
saves. -/
inductive Admits (xxh64 : List UInt8 -> Nat -> UInt64) (s : CombinedLife σ τ) :
    CombinedInput -> Prop where
  | connect {tipHeight : Nat} (readable : Bool) :
      Admits xxh64 s (.nullifier (.connect tipHeight
        ((Nullifier.SpendLife.crashed s.nfFiles.fs : Nullifier.SpendLife σ).loaded xxh64
          readable)))
  | range {connection : Option Connection} : Admits xxh64 s (.nullifier (.range connection))
  | publish : s.nfSaved = true -> Admits xxh64 s (.nullifier .publish)
  | witness {synced : SyncedWitness} :
      s.synced = some synced -> synced.saved = true ->
      Admits xxh64 s (.witness synced.client synced.connection Witness.l0MaxShards
        synced.snapshot)
  | enter {connection : Option Connection} : Admits xxh64 s (.enter connection)
  | poll {view : ChainView} : s.due = none -> Admits xxh64 s (.poll view)

def polledBlocks (server : CombinedServer σ τ) (view : ChainView) : List CompactBlock :=
  if view.tipHeight ≤ server.loop.task.currentHeight then []
  else server.loop.task.newBlocks view

/-- The counter and the saves that are due after a step of the server. -/
def advance (config : CombinedConfig) (s : CombinedLife σ τ) :
    CombinedState σ τ -> CombinedInput -> CombinedState σ τ -> CombinedLife σ τ
  | .following before, .poll view, .following after =>
      let count := s.blocksSinceSnapshot + (polledBlocks before view).length
      { s with
        process := some (.following after)
        blocksSinceSnapshot := count
        due :=
          if before.loop.task.currentHeight < view.tipHeight ∧ after.stopped = false ∧
            count ≥ config.snapshotInterval then some .both else none }
  | _, _, after => { s with process := some after }

/-- The table that is saved: after the eviction at the end of its sync, or in the loop. -/
inductive SavesTable (s : CombinedLife σ τ) : HashTableDb -> Prop where
  | synced {server : SpendServer σ} {hashtable : HashTableDb}
      {witness : Option (Option (Witness.WitnessServer τ))} :
      s.process = some (.syncing (some server) witness) -> server.stage = .synced ->
      s.nfSaved = false -> server.hashtable.evictToTarget = some hashtable ->
      SavesTable s hashtable
  | periodic {server : CombinedServer σ τ} {hashtable : HashTableDb} :
      s.process = some (.following server) -> s.due = some .both ->
      server.loop.databases.hashtable = some hashtable -> SavesTable s hashtable

/-- The tree that is saved: at the end of its sync, or in the loop after the table. -/
inductive SavesTree (s : CombinedLife σ τ) : CommitmentTreeDb -> Prop where
  | synced {synced : SyncedWitness} :
      s.synced = some synced -> synced.saved = false -> SavesTree s synced.tree
  | periodic {server : CombinedServer σ τ} {tree : CommitmentTreeDb} :
      s.process = some (.following server) -> s.due = some .witness ->
      server.loop.databases.tree = some tree -> SavesTree s tree

/-- The table is saved, and in the loop the tree is next. -/
def tableSaved (s : CombinedLife σ τ) : CombinedLife σ τ :=
  { s with
    nfSaved := true
    due := if s.due = some .both then some .witness else s.due }

/-- The tree is saved, and in the loop the counter starts again. -/
def treeSaved (s : CombinedLife σ τ) : CombinedLife σ τ :=
  if s.due = some .witness then { s with due := none, blocksSinceSnapshot := 0 }
  else { s with synced := s.synced.map (fun synced => { synced with saved := true }) }

/-- One step of `run` or of its surroundings. -/
inductive LifeStep (config : CombinedConfig) (M : MerkleHashOrchard) (mode : Arithmetic)
    (xxh64 : List UInt8 -> Nat -> UInt64) (nfEngine : PirEngine σ) (witEngine : PirEngine τ)
    (s : CombinedLife σ τ) : CombinedLifeInput -> CombinedLife σ τ -> Prop where
  | start :
      s.process = none ->
      LifeStep config M mode xxh64 nfEngine witEngine s .start
        { s with process := some (startingServer σ τ true true) }
  | syncWitness {client : LwdClient} {connection : Option Connection} {readable : Bool}
      {nullifier : Option (SpendServer σ)} {snapshot : Option CommitmentTreeDb}
      {tree : CommitmentTreeDb} :
      s.process = some (.syncing nullifier (some none)) -> s.synced = none ->
      s.LoadsTree mode xxh64 readable snapshot ->
      Witness.syncedTree client connection Witness.l0MaxShards snapshot = .ok tree ->
      LifeStep config M mode xxh64 nfEngine witEngine s
        (.syncWitness client connection readable)
        { s with
          synced := some
            { client := client
              connection := connection
              snapshot := snapshot
              tree := tree
              saved := false } }
  | server {input : CombinedInput} {state state' : CombinedState σ τ} :
      s.process = some state -> s.Admits xxh64 input ->
      CombinedRunStep M config.nfConfig nfEngine witEngine state input state' ->
      LifeStep config M mode xxh64 nfEngine witEngine s (.server input)
        (s.advance config state input state')
  | saveTable {hashtable : HashTableDb} {payload : List UInt8} {files : Replacing String} :
      s.SavesTable hashtable -> hashtable.toSnapshot xxh64 = some payload ->
      Nullifier.SaveStep s.nfFiles (.start payload) files ->
      LifeStep config M mode xxh64 nfEngine witEngine s (.nullifierFile (.start payload))
        { s with nfFiles := files }
  | saveTree {tree : CommitmentTreeDb} {files : Replacing String} :
      s.SavesTree tree ->
      Witness.SaveStep s.witFiles (.start (tree.toSnapshot xxh64)) files ->
      LifeStep config M mode xxh64 nfEngine witEngine s
        (.witnessFile (.start (tree.toSnapshot xxh64))) { s with witFiles := files }
  | writeTable {label : ReplaceLabel} {files : Replacing String} :
      label = .sync ∨ (exists count, label = .write count) ->
      Nullifier.SaveStep s.nfFiles label files ->
      LifeStep config M mode xxh64 nfEngine witEngine s (.nullifierFile label)
        { s with nfFiles := files }
  | writeTree {label : ReplaceLabel} {files : Replacing String} :
      label = .sync ∨ (exists count, label = .write count) ->
      Witness.SaveStep s.witFiles label files ->
      LifeStep config M mode xxh64 nfEngine witEngine s (.witnessFile label)
        { s with witFiles := files }
  | renameTable {files : Replacing String} :
      Nullifier.SaveStep s.nfFiles .rename files ->
      LifeStep config M mode xxh64 nfEngine witEngine s (.nullifierFile .rename)
        { s.tableSaved with nfFiles := files }
  | renameTree {files : Replacing String} :
      Witness.SaveStep s.witFiles .rename files ->
      LifeStep config M mode xxh64 nfEngine witEngine s (.witnessFile .rename)
        { s.treeSaved with witFiles := files }
  | kill :
      LifeStep config M mode xxh64 nfEngine witEngine s .kill
        (crashed s.nfFiles.fs s.witFiles.fs)
  | powerLoss {nfFs witFs : FileSystem String} :
      s.nfFiles.fs.PowerLoss nfFs -> s.witFiles.fs.PowerLoss witFs ->
      LifeStep config M mode xxh64 nfEngine witEngine s .powerLoss (crashed nfFs witFs)

/-- What lightwalletd answers is part of the chain, gives a window of it when there is no
snapshot, and has the newest blocks of both sides when the loop is entered; every block fits,
and a tree is saved with a record. -/
def OverChain (M : MerkleHashOrchard) (mode : Arithmetic)
    (xxh64 : List UInt8 -> Nat -> UInt64) (chain : ChainView) (s : CombinedLife σ τ) :
    CombinedLifeInput -> Prop
  | .syncWitness client connection readable =>
      (forall served, connection = some served -> served.view.IsPrefix chain) ∧
      (s.LoadsTree mode xxh64 readable none -> exists w, w.Sound M chain ∧
        ReportsWindow M w chain client Witness.l0MaxShards)
  | .server (.nullifier (.connect _ _)) => True
  | .server input => forall state, s.process = some state ->
      input.ServedFrom chain ∧ state.LeavesNoGap input ∧
      forall connection, input = .enter connection -> state.ServesNewest connection
  | .witnessFile (.start _) => forall tree, s.SavesTree tree -> tree.blocks ≠ []
  | _ => True

def StepOver (config : CombinedConfig) (M : MerkleHashOrchard) (mode : Arithmetic)
    (xxh64 : List UInt8 -> Nat -> UInt64) (nfEngine : PirEngine σ) (witEngine : PirEngine τ)
    (chain : ChainView) (s : CombinedLife σ τ) (input : CombinedLifeInput)
    (s' : CombinedLife σ τ) : Prop :=
  LifeStep config M mode xxh64 nfEngine witEngine s input s' ∧
    s.OverChain M mode xxh64 chain input

/-!
## The invariant
-/

section Invariant

variable (U : BlockUniverse) (M : MerkleHashOrchard) (xxh64 : List UInt8 -> Nat -> UInt64)
variable (nfEngine : PirEngine σ) (chain : ChainView)

/-- The witness side is not published yet, or the process is on a window. -/
inductive ProcessOn : CombinedState σ τ -> Prop where
  | waiting (nullifier : Option (SpendServer σ)) :
      ProcessOn (.syncing nullifier (some none))
  | window {w : Window} {state : CombinedState σ τ} :
      w.Sound M chain -> PairInvariant M w chain state -> ProcessOn state

/-- Each directory only ever has snapshots of databases of the chain, and the process works
on such databases. -/
structure LifeInvariant (s : CombinedLife σ τ) (a b : AtomicFile) : Prop where
  nfStands : StandsFor Nullifier.snapshotTmpFilename Nullifier.snapshotFilename s.nfFiles a
  nfOffers : a.Offers (Nullifier.SavedFrom xxh64 (fun db => db.HoldsThroughLatest chain))
  witStands : StandsFor Witness.snapshotTmpFilename Witness.snapshotFilename s.witFiles b
  witOffers : b.Offers (Witness.SavedTree M xxh64 chain)
  coverage : forall state, s.process = some state ->
    CombinedCoverage U nfEngine chain state
  process : forall state, s.process = some state -> ProcessOn M chain state
  synced : forall synced, s.synced = some synced -> synced.OnChain M chain

end Invariant

/-!
## Steps
-/

section Steps

variable {U : BlockUniverse} {M : MerkleHashOrchard} {mode : Arithmetic}
variable {xxh64 : List UInt8 -> Nat -> UInt64} {nfEngine : PirEngine σ}
variable {witEngine : PirEngine τ} {chain : ChainView} {config : CombinedConfig}
variable {s : CombinedLife σ τ} {a b : AtomicFile}

theorem advance_eq (config : CombinedConfig) (s : CombinedLife σ τ)
    (state : CombinedState σ τ) (input : CombinedInput) (state' : CombinedState σ τ) :
    (s.advance config state input state').process = some state' ∧
      (s.advance config state input state').synced = s.synced ∧
      (s.advance config state input state').nfFiles = s.nfFiles ∧
      (s.advance config state input state').witFiles = s.witFiles := by
  unfold advance
  split <;> exact ⟨rfl, rfl, rfl, rfl⟩

theorem savedTree_of_onWindow {w : Window} {n : Nat} {tree : CommitmentTreeDb}
    (hw : w.Sound M chain) (hon : OnWindow M w chain n tree) (hrecord : tree.blocks ≠ []) :
    Witness.SavedTree M xxh64 chain (tree.toSnapshot xxh64) := by
  refine ⟨w, n, tree, hw, ?_, hon, rfl⟩
  apply Nat.lt_of_le_of_ne hon.base_le
  intro heq
  exact hrecord (hon.blocks_eq_nil_iff.mpr heq.symm)

/-- The table that is saved holds an interval of the chain. -/
theorem SavesTable.holds {hashtable : HashTableDb} (hsaves : s.SavesTable hashtable)
    (h : LifeInvariant U M xxh64 nfEngine chain s a b) : hashtable.HoldsThroughLatest chain := by
  cases hsaves with
  | synced hprocess _ _ hevict =>
      have hcoverage := h.coverage _ hprocess
      exact Nullifier.holdsThroughLatest_evictToTarget (hcoverage _ rfl).table hevict
  | periodic hprocess _ htable =>
      have hcoverage := h.coverage _ hprocess
      exact (hcoverage.covers _ htable).holds

theorem SavesTree.saved {tree : CommitmentTreeDb} (hsaves : s.SavesTree tree)
    (hchain : HonestChain U M chain) (h : LifeInvariant U M xxh64 nfEngine chain s a b)
    (hrecord : tree.blocks ≠ []) :
    Witness.SavedTree M xxh64 chain (tree.toSnapshot xxh64) := by
  cases hsaves with
  | synced hsynced _ =>
      rcases h.synced _ hsynced with ⟨w, hw, hover, hsync⟩
      rcases Witness.onWindow_syncedTree hw hchain hover.view hover.loaded hover.fresh hsync with
        ⟨n, hon⟩
      exact savedTree_of_onWindow hw hon hrecord
  | periodic hprocess _ htree =>
      cases h.process _ hprocess with
      | @window w _ hw hpair =>
          rcases hpair with ⟨_, height, hloop⟩
          rcases hloop.tree with ⟨found, hfound, hon⟩
          rw [htree] at hfound
          cases hfound
          exact savedTree_of_onWindow hw hon hrecord

theorem coverageStep_of_life {state state' : CombinedState σ τ} {input : CombinedInput}
    (h : LifeInvariant U M xxh64 nfEngine chain s a b) (hprocess : s.process = some state)
    (hadmits : s.Admits xxh64 input)
    (hstep : CombinedRunStep M config.nfConfig nfEngine witEngine state input state')
    (hover : s.OverChain M mode xxh64 chain (.server input)) :
    CombinedCoverageStep M config.nfConfig nfEngine witEngine chain state input state' := by
  cases hadmits with
  | connect readable =>
      refine ⟨hstep, ?_, ?_⟩
      · intro hashtable hloaded
        unfold Nullifier.SpendLife.loaded at hloaded
        split at hloaded
        · rcases Nullifier.loadSnapshot_of_offers h.nfStands h.nfOffers with
            hnone | ⟨db, hdb, hok⟩
          · change (Nullifier.loadSnapshot xxh64 s.nfFiles.fs).toOption = _ at hloaded
            rw [hnone] at hloaded
            cases hloaded
          · change (Nullifier.loadSnapshot xxh64 s.nfFiles.fs).toOption = _ at hloaded
            rw [hok] at hloaded
            cases hloaded
            exact hdb.recounted
        · cases hloaded
      · cases hstep with
        | nullifier _ _ => exact fun _ _ _ hfalse => (nomatch hfalse)
  | range => exact ⟨hstep, (hover state hprocess).left, (hover state hprocess).right.left⟩
  | publish _ => exact ⟨hstep, (hover state hprocess).left, (hover state hprocess).right.left⟩
  | witness _ _ => exact ⟨hstep, (hover state hprocess).left, (hover state hprocess).right.left⟩
  | enter => exact ⟨hstep, (hover state hprocess).left, (hover state hprocess).right.left⟩
  | poll _ => exact ⟨hstep, (hover state hprocess).left, (hover state hprocess).right.left⟩

theorem processOn_step {state state' : CombinedState σ τ} {input : CombinedInput}
    (hnf : nfEngine.Accepts Nullifier.scenario) (hwit : witEngine.Accepts Witness.scenario)
    (hchain : HonestChain U M chain) (hcoverable : CoverableChain U chain)
    (hsmall : SmallBlocks chain) (h : LifeInvariant U M xxh64 nfEngine chain s a b)
    (hprocess : s.process = some state) (hadmits : s.Admits xxh64 input)
    (hstep : CombinedCoverageStep M config.nfConfig nfEngine witEngine chain state input state')
    (hover : s.OverChain M mode xxh64 chain (.server input)) :
    ProcessOn M chain state' := by
  have hcoverage := h.coverage state hprocess
  have hadvance : forall w : Window, w.Sound M chain -> PairInvariant M w chain state ->
      OverPair M w chain state input -> ProcessOn M chain state' := by
    intro w hw hpair hwindow
    exact .window hw (pairInvariant_step hnf hwit hw hchain hcoverable hsmall hcoverage hpair
      ⟨hstep, hwindow⟩)
  cases hstep.step with
  | @nullifier _ _ witness _ _ _ =>
      cases h.process _ hprocess with
      | waiting _ => exact .waiting _
      | @window w _ hw hpair => exact hadvance w hw hpair trivial
  | witness hstart =>
      cases hadmits with
      | witness hsynced _ =>
          rcases h.synced _ hsynced with ⟨w, hw, hloads, _⟩
          refine hadvance w hw ?_ hloads
          intro server hfalse
          cases hfalse
  | enter _ hnone hcaught =>
      cases h.process _ hprocess with
      | waiting _ => exact absurd rfl hnone
      | @window w _ hw hpair =>
          cases hadmits with
          | enter =>
              exact hadvance w hw hpair ((hover _ hprocess).right.right _ rfl)
  | poll hpoll =>
      cases h.process _ hprocess with
      | @window w _ hw hpair => exact hadvance w hw hpair trivial

theorem lifeInvariant_server {state state' : CombinedState σ τ} {input : CombinedInput}
    (hnf : nfEngine.Accepts Nullifier.scenario) (hwit : witEngine.Accepts Witness.scenario)
    (hchain : HonestChain U M chain) (hcoverable : CoverableChain U chain)
    (hsmall : SmallBlocks chain) (h : LifeInvariant U M xxh64 nfEngine chain s a b)
    (hprocess : s.process = some state) (hadmits : s.Admits xxh64 input)
    (hstep : CombinedRunStep M config.nfConfig nfEngine witEngine state input state')
    (hover : s.OverChain M mode xxh64 chain (.server input)) :
    LifeInvariant U M xxh64 nfEngine chain (s.advance config state input state') a b := by
  have hcovers := coverageStep_of_life h hprocess hadmits hstep hover
  rcases advance_eq config s state input state' with ⟨hnext, hsynced, hnfFiles, hwitFiles⟩
  constructor
  · exact hnfFiles ▸ h.nfStands
  · exact h.nfOffers
  · exact hwitFiles ▸ h.witStands
  · exact h.witOffers
  · intro found hfound
    rw [hnext] at hfound
    cases hfound
    exact combinedCoverage_step hcoverable (h.coverage state hprocess) hcovers
  · intro found hfound
    rw [hnext] at hfound
    cases hfound
    exact processOn_step hnf hwit hchain hcoverable hsmall h hprocess hadmits hcovers hover
  · rw [hsynced]
    exact h.synced

theorem lifeInvariant_crashed {nfFs witFs : FileSystem String}
    (hnfStands : StandsFor Nullifier.snapshotTmpFilename Nullifier.snapshotFilename
      { fs := nfFs, stage := .idle } a)
    (hnfOffers : a.Offers (Nullifier.SavedFrom xxh64 (fun db => db.HoldsThroughLatest chain)))
    (hwitStands : StandsFor Witness.snapshotTmpFilename Witness.snapshotFilename
      { fs := witFs, stage := .idle } b)
    (hwitOffers : b.Offers (Witness.SavedTree M xxh64 chain)) :
    LifeInvariant U M xxh64 nfEngine chain (crashed nfFs witFs : CombinedLife σ τ) a b where
  nfStands := hnfStands
  nfOffers := hnfOffers
  witStands := hwitStands
  witOffers := hwitOffers
  coverage _ hfalse := by cases hfalse
  process _ hfalse := by cases hfalse
  synced _ hfalse := by cases hfalse

theorem lifeInvariant_nfFiles {label : ReplaceLabel} {files : Replacing String}
    (h : LifeInvariant U M xxh64 nfEngine chain s a b)
    (hsave : Nullifier.SaveStep s.nfFiles label files)
    (hpayload : forall payload, label = .start payload ->
      Nullifier.SavedFrom xxh64 (fun db => db.HoldsThroughLatest chain) payload) :
    exists a', LifeInvariant U M xxh64 nfEngine chain { s with nfFiles := files } a' b := by
  rcases standsFor_step Nullifier.snapshotFilenames_ne h.nfStands hsave with
    ⟨a', hatomic, hstands⟩
  exact ⟨a', hstands, AtomicFile.offers_step h.nfOffers hpayload hatomic, h.witStands,
    h.witOffers, h.coverage, h.process, h.synced⟩

theorem lifeInvariant_witFiles {label : ReplaceLabel} {files : Replacing String}
    (h : LifeInvariant U M xxh64 nfEngine chain s a b)
    (hsave : Witness.SaveStep s.witFiles label files)
    (hpayload : forall payload, label = .start payload ->
      Witness.SavedTree M xxh64 chain payload) :
    exists b', LifeInvariant U M xxh64 nfEngine chain { s with witFiles := files } a b' := by
  rcases standsFor_step Witness.snapshotFilenames_ne h.witStands hsave with
    ⟨b', hatomic, hstands⟩
  exact ⟨b', h.nfStands, h.nfOffers, hstands,
    AtomicFile.offers_step h.witOffers hpayload hatomic, h.coverage, h.process, h.synced⟩

theorem lifeInvariant_tableSaved (h : LifeInvariant U M xxh64 nfEngine chain s a b) :
    LifeInvariant U M xxh64 nfEngine chain s.tableSaved a b :=
  ⟨h.nfStands, h.nfOffers, h.witStands, h.witOffers, h.coverage, h.process, h.synced⟩

theorem lifeInvariant_treeSaved (h : LifeInvariant U M xxh64 nfEngine chain s a b) :
    LifeInvariant U M xxh64 nfEngine chain s.treeSaved a b := by
  unfold treeSaved
  split
  · exact ⟨h.nfStands, h.nfOffers, h.witStands, h.witOffers, h.coverage, h.process, h.synced⟩
  · refine ⟨h.nfStands, h.nfOffers, h.witStands, h.witOffers, h.coverage, h.process, ?_⟩
    intro saved hsaved
    rcases Option.map_eq_some_iff.mp hsaved with ⟨synced, hsynced, heq⟩
    rw [← heq]
    exact h.synced synced hsynced

theorem lifeInvariant_kill (h : LifeInvariant U M xxh64 nfEngine chain s a b) :
    exists a' b', LifeInvariant U M xxh64 nfEngine chain
      (crashed s.nfFiles.fs s.witFiles.fs : CombinedLife σ τ) a' b' :=
  ⟨_, _, lifeInvariant_crashed h.nfStands.giveUp h.nfOffers.giveUp h.witStands.giveUp
    h.witOffers.giveUp⟩

theorem lifeInvariant_powerLoss {nfFs witFs : FileSystem String}
    (h : LifeInvariant U M xxh64 nfEngine chain s a b)
    (hnfLoss : s.nfFiles.fs.PowerLoss nfFs) (hwitLoss : s.witFiles.fs.PowerLoss witFs) :
    exists a' b', LifeInvariant U M xxh64 nfEngine chain
      (crashed nfFs witFs : CombinedLife σ τ) a' b' := by
  rcases h.nfStands.powerLoss hnfLoss with ⟨hnfMem, hnfStands⟩
  rcases h.witStands.powerLoss hwitLoss with ⟨hwitMem, hwitStands⟩
  exact ⟨_, _, lifeInvariant_crashed hnfStands (h.nfOffers.powerLoss hnfMem) hwitStands
    (h.witOffers.powerLoss hwitMem)⟩

/-- The tree a start loads is on some window, and without one the reports give a window. -/
theorem syncsOnWindow_of_loads {client : LwdClient} {connection : Option Connection}
    {readable : Bool} {snapshot : Option CommitmentTreeDb} (hchain : HonestChain U M chain)
    (hshort : chain.length ≤ 2 ^ 31) (h : LifeInvariant U M xxh64 nfEngine chain s a b)
    (hloads : s.LoadsTree mode xxh64 readable snapshot)
    (hover : s.OverChain M mode xxh64 chain (.syncWitness client connection readable)) :
    exists w, w.Sound M chain ∧
      SyncsOnWindow M w chain client connection Witness.l0MaxShards snapshot := by
  rcases hover with ⟨hview, hfresh⟩
  cases hloads with
  | @snapshot saved hload =>
      change Witness.loadSnapshot mode xxh64 s.witFiles.fs = _ at hload
      rcases Witness.loadSnapshot_of_offers mode hchain hshort h.witStands h.witOffers with
        hmissing | ⟨w, n, found, hw, hbase, hon, hfound⟩
      · rw [hmissing] at hload
        cases hload
      · rw [hfound] at hload
        cases hload
        refine ⟨w, hw, hview, ?_, fun hfalse => by cases hfalse⟩
        intro held hheld
        cases hheld
        exact ⟨n, hbase, hon⟩
  | invalid hload =>
      rcases hfresh (.invalid hload) with ⟨w, hw, hreports⟩
      exact ⟨w, hw, hview, (fun _ hfalse => by cases hfalse), fun _ => hreports⟩
  | unreadable =>
      rcases hfresh .unreadable with ⟨w, hw, hreports⟩
      exact ⟨w, hw, hview, (fun _ hfalse => by cases hfalse), fun _ => hreports⟩

theorem lifeInvariant_step {s' : CombinedLife σ τ} {input : CombinedLifeInput}
    (hnf : nfEngine.Accepts Nullifier.scenario) (hwit : witEngine.Accepts Witness.scenario)
    (hchain : HonestChain U M chain) (hshort : chain.length ≤ 2 ^ 31)
    (hcoverable : CoverableChain U chain) (hsmall : SmallBlocks chain)
    (h : LifeInvariant U M xxh64 nfEngine chain s a b)
    (hstep : StepOver config M mode xxh64 nfEngine witEngine chain s input s') :
    exists a' b', LifeInvariant U M xxh64 nfEngine chain s' a' b' := by
  rcases hstep with ⟨hstep, hover⟩
  cases hstep with
  | start _ =>
      refine ⟨a, b, h.nfStands, h.nfOffers, h.witStands, h.witOffers, ?_, ?_, h.synced⟩
      · intro state hstate
        cases hstate
        exact combinedCoverage_startingServer true true
      · intro state hstate
        cases hstate
        exact .waiting _
  | syncWitness _ _ hloads hsync =>
      refine ⟨a, b, h.nfStands, h.nfOffers, h.witStands, h.witOffers, h.coverage, h.process, ?_⟩
      intro synced hsynced
      cases hsynced
      rcases syncsOnWindow_of_loads hchain hshort h hloads hover with ⟨w, hw, hwindow⟩
      exact ⟨w, hw, hwindow, hsync⟩
  | server hprocess hadmits hstep =>
      exact ⟨a, b, lifeInvariant_server hnf hwit hchain hcoverable hsmall h hprocess hadmits
        hstep hover⟩
  | saveTable hsaves hsnapshot hsave =>
      have hholds := hsaves.holds h
      rcases lifeInvariant_nfFiles h hsave (fun _ heq => by
        cases heq
        exact ⟨_, hholds, hholds.consistent, hsnapshot⟩) with ⟨a', hnext⟩
      exact ⟨a', b, hnext⟩
  | saveTree hsaves hsave =>
      rcases lifeInvariant_witFiles h hsave (fun _ heq => by
        cases heq
        exact hsaves.saved hchain h (hover _ hsaves)) with ⟨b', hnext⟩
      exact ⟨a, b', hnext⟩
  | writeTable hlabel hsave =>
      rcases lifeInvariant_nfFiles h hsave
        (fun payload heq => absurd heq (AtomicFile.no_payload_of_writes hlabel payload)) with ⟨a', hnext⟩
      exact ⟨a', b, hnext⟩
  | writeTree hlabel hsave =>
      rcases lifeInvariant_witFiles h hsave
        (fun payload heq => absurd heq (AtomicFile.no_payload_of_writes hlabel payload)) with ⟨b', hnext⟩
      exact ⟨a, b', hnext⟩
  | renameTable hsave =>
      rcases lifeInvariant_nfFiles (lifeInvariant_tableSaved h) hsave
        (fun _ hfalse => by cases hfalse) with ⟨a', hnext⟩
      exact ⟨a', b, hnext⟩
  | renameTree hsave =>
      have hfiles : s.treeSaved.witFiles = s.witFiles := by
        unfold treeSaved
        split <;> rfl
      rcases lifeInvariant_witFiles (lifeInvariant_treeSaved h) (hfiles ▸ hsave)
        (fun _ hfalse => by cases hfalse) with ⟨b', hnext⟩
      exact ⟨a, b', hnext⟩
  | kill => exact lifeInvariant_kill h
  | powerLoss hnfLoss hwitLoss => exact lifeInvariant_powerLoss h hnfLoss hwitLoss

/-- In every life over the chain, some version histories of the two files explain the
directories. -/
theorem lifeInvariant_run {inputs : List CombinedLifeInput}
    (hnf : nfEngine.Accepts Nullifier.scenario) (hwit : witEngine.Accepts Witness.scenario)
    (hchain : HonestChain U M chain) (hshort : chain.length ≤ 2 ^ 31)
    (hcoverable : CoverableChain U chain) (hsmall : SmallBlocks chain)
    (hrun : Run (StepOver config M mode xxh64 nfEngine witEngine chain) init inputs s) :
    exists a b, LifeInvariant U M xxh64 nfEngine chain s a b := by
  apply hrun.invariant (fun _ _ _ hkept hstep => ?_)
  · exact ⟨_, _, lifeInvariant_crashed (standsFor_empty _ _) (AtomicFile.offers_missing _)
      (standsFor_empty _ _) (AtomicFile.offers_missing _)⟩
  · rcases hkept with ⟨a, b, h⟩
    exact lifeInvariant_step hnf hwit hchain hshort hcoverable hsmall h hstep

end Steps

end CombinedLife

/-!
## What is published
-/

section Crashes

variable {σ τ : Type} {U : BlockUniverse} {M : MerkleHashOrchard} {mode : Arithmetic}
variable {xxh64 : List UInt8 -> Nat -> UInt64} {nfEngine : PirEngine σ}
variable {witEngine : PirEngine τ} {chain : ChainView} {config : CombinedConfig}
variable {s : CombinedLife σ τ} {inputs : List CombinedLifeInput}

/-- However often the process was killed or cut off from power, also between the two files of
a save: a process that follows has both databases at one block, each turn that sees new
blocks publishes the spends and the witnesses of the tip it saw, and each directory holds no
snapshot or one of the chain. -/
theorem crashes_publish_pairs (hnf : nfEngine.Accepts Nullifier.scenario)
    (hwit : witEngine.Accepts Witness.scenario) (hchain : HonestChain U M chain)
    (hshort : chain.length ≤ 2 ^ 31) (hcoverable : CoverableChain U chain)
    (hsmall : SmallBlocks chain)
    (hrun : Run (CombinedLife.StepOver config M mode xxh64 nfEngine witEngine chain)
      CombinedLife.init inputs s) :
    (forall server, s.process = some (.following server) -> exists w height, w.Sound M chain ∧
      LoopAt M w chain height server.loop ∧
      forall view : ChainView, view.IsPrefix chain -> height < view.tipHeight ->
        InsertsFit server.loop (server.loop.task.newBlocks view) ->
        exists server' nfPir witPir,
          server.poll M nfEngine witEngine view = some server' ∧ server'.stopped = false ∧
          server'.nfPir = some nfPir ∧ server'.witPir = some witPir ∧
          PairShows M nfEngine witEngine w chain view.tipHeight nfPir witPir) ∧
    (Nullifier.loadSnapshot xxh64 s.nfFiles.fs = .error .io ∨
      exists hashtable, Nullifier.loadSnapshot xxh64 s.nfFiles.fs = .ok hashtable ∧
        hashtable.HoldsThroughLatest chain) ∧
    (Witness.loadSnapshot mode xxh64 s.witFiles.fs = .error (.error .io) ∨
      exists w n tree, w.Sound M chain ∧ w.base < n ∧ OnWindow M w chain n tree ∧
        Witness.loadSnapshot mode xxh64 s.witFiles.fs = .ok tree) := by
  rcases CombinedLife.lifeInvariant_run hnf hwit hchain hshort hcoverable hsmall hrun with
    ⟨a, b, h⟩
  refine ⟨?_, ?_, Witness.loadSnapshot_of_offers mode hchain hshort h.witStands h.witOffers⟩
  · intro server hprocess
    cases h.process _ hprocess with
    | @window w _ hw hpair =>
        rcases hpair with ⟨hrunning, height, hloop⟩
        refine ⟨w, height, hw, hloop, ?_⟩
        intro view hview hnew hfit
        rw [← hloop.current] at hnew
        rcases poll_of_loopAt hnf hwit hw hchain hcoverable hsmall hrunning hloop hview hfit
          hnew with ⟨server', nfPir, witPir, hpoll, hgoes, hnfPir, hwitPir, hshows, _⟩
        exact ⟨server', nfPir, witPir, hpoll, hgoes, hnfPir, hwitPir, hshows⟩
  · rcases Nullifier.loadSnapshot_of_offers h.nfStands h.nfOffers with hnone | ⟨db, hdb, hload⟩
    · exact Or.inl hnone
    · exact Or.inr ⟨db.recounted, hload, hdb.recounted⟩

end Crashes

/-!
## Two processes
-/

section Sample

open Nullifier (sampleConfig)
open Witness (orphanedClient orphanedConnection sampleHash stubPirEngine StubServerState)

def sampleCombined : CombinedConfig :=
  { targetSize := sampleConfig.targetSize, snapshotInterval := 1 }

abbrev SampleCombinedLife : CombinedLife (List UInt8) StubServerState -> CombinedLifeInput ->
    CombinedLife (List UInt8) StubServerState -> Prop :=
  CombinedLife.StepOver sampleCombined sampleHash .checked (fun _ _ => 0) keepingEngine
    stubPirEngine.toPirEngine chainAfter

/-- A process with nothing being written and no save of the loop due. -/
def lifeAt (process : Option (CombinedState (List UInt8) StubServerState))
    (synced : Option SyncedWitness) (nfSaved : Bool) (nfFs witFs : FileSystem String) :
    CombinedLife (List UInt8) StubServerState :=
  { process := process
    synced := synced
    nfSaved := nfSaved
    due := none
    blocksSinceSnapshot := 0
    nfFiles := { fs := nfFs, stage := .idle }
    witFiles := { fs := witFs, stage := .idle } }

variable {process : Option (CombinedState (List UInt8) StubServerState)}
variable {synced : Option SyncedWitness} {nfSaved : Bool} {nfFs witFs : FileSystem String}

theorem lifeInvariant_sample {s : CombinedLife (List UInt8) StubServerState}
    (hreached : Later SampleCombinedLife CombinedLife.init s) :
    exists a b, CombinedLife.LifeInvariant sampleUniverse sampleHash (fun _ _ => 0)
      keepingEngine chainAfter s a b := by
  rcases hreached with ⟨inputs, hrun⟩
  exact CombinedLife.lifeInvariant_run accepts_keepingEngine Witness.accepts_stubPirEngine
    honestChain_chainAfter (by decide) coverable_chainAfter small_chainAfter hrun

theorem later_tableSaved {hashtable : HashTableDb} {payload : List UInt8}
    (hreached : Later SampleCombinedLife CombinedLife.init
      (lifeAt process synced nfSaved nfFs witFs))
    (hsaves : (lifeAt process synced nfSaved nfFs witFs).SavesTable hashtable)
    (hsnapshot : hashtable.toSnapshot (fun _ _ => 0) = some payload) :
    exists fs, Later SampleCombinedLife (lifeAt process synced nfSaved nfFs witFs)
        (lifeAt process synced true fs witFs) ∧
      fs.read Nullifier.snapshotFilename = some payload := by
  rcases lifeInvariant_sample hreached with ⟨a, b, h⟩
  rcases exists_save (s := { fs := nfFs, stage := .idle }) rfl payload with
    ⟨first, written, done, fs, hstart, hwrite, hsync, hrename⟩
  have hread := read_of_save Nullifier.snapshotFilenames_ne h.nfStands hstart
    (((Run.nil first).snoc hwrite).snoc hsync) (by simp) hrename
  have hstarted : Later SampleCombinedLife (lifeAt process synced nfSaved nfFs witFs) _ :=
    (Later.refl _).next ⟨.saveTable hsaves hsnapshot hstart, trivial⟩
  have hwritten := hstarted.next ⟨.writeTable (Or.inr ⟨_, rfl⟩) hwrite, trivial⟩
  have hsynced := hwritten.next ⟨.writeTable (Or.inl rfl) hsync, trivial⟩
  exact ⟨fs, hsynced.next ⟨.renameTable hrename, trivial⟩, hread⟩

theorem later_treeSaved {unsaved : SyncedWitness}
    (hreached : Later SampleCombinedLife CombinedLife.init
      (lifeAt process (some unsaved) nfSaved nfFs witFs))
    (hunsaved : unsaved.saved = false) (hrecord : unsaved.tree.blocks ≠ []) :
    exists fs, Later SampleCombinedLife (lifeAt process (some unsaved) nfSaved nfFs witFs)
        (lifeAt process (some { unsaved with saved := true }) nfSaved nfFs fs) ∧
      fs.read Witness.snapshotFilename = some (unsaved.tree.toSnapshot (fun _ _ => 0)) := by
  rcases lifeInvariant_sample hreached with ⟨a, b, h⟩
  rcases exists_save (s := { fs := witFs, stage := .idle }) rfl
    (unsaved.tree.toSnapshot (fun _ _ => 0)) with
    ⟨first, written, done, fs, hstart, hwrite, hsync, hrename⟩
  have hread := read_of_save Witness.snapshotFilenames_ne h.witStands hstart
    (((Run.nil first).snoc hwrite).snoc hsync) (by simp) hrename
  have hstarted : Later SampleCombinedLife
      (lifeAt process (some unsaved) nfSaved nfFs witFs) _ :=
    (Later.refl _).next ⟨.saveTree (.synced rfl hunsaved) hstart, by
      intro tree hsaves
      cases hsaves with
      | synced hfound _ =>
          cases hfound
          exact hrecord
      | periodic _ hfalse _ => cases hfalse⟩
  have hwritten := hstarted.next ⟨.writeTree (Or.inr ⟨_, rfl⟩) hwrite, trivial⟩
  have hsynced := hwritten.next ⟨.writeTree (Or.inl rfl) hsync, trivial⟩
  exact ⟨fs, hsynced.next ⟨.renameTree hrename, trivial⟩, hread⟩

theorem sampleLife_syncing {nullifier : Option (SpendServer (List UInt8))}
    {witness : Option (Option (Witness.WitnessServer StubServerState))}
    {state' : CombinedState (List UInt8) StubServerState} {input : CombinedInput}
    (hadmits : (lifeAt (some (.syncing nullifier witness)) synced nfSaved nfFs witFs).Admits
      (fun _ _ => 0) input)
    (hpair : SamplePair (.syncing nullifier witness) input state') :
    SampleCombinedLife (lifeAt (some (.syncing nullifier witness)) synced nfSaved nfFs witFs)
      (.server input) (lifeAt (some state') synced nfSaved nfFs witFs) := by
  refine ⟨.server rfl hadmits hpair.coverage.step, ?_⟩
  have hover : forall found, some (CombinedState.syncing nullifier witness) = some found ->
      input.ServedFrom chainAfter ∧ found.LeavesNoGap input ∧
      forall connection, input = .enter connection -> found.ServesNewest connection := by
    intro found hfound
    cases hfound
    refine ⟨hpair.coverage.served, hpair.coverage.noGap, ?_⟩
    intro connection heq
    cases heq
    exact hpair.window
  cases hadmits with
  | connect _ => exact trivial
  | range => exact hover
  | publish _ => exact hover
  | witness _ _ => exact hover
  | enter => exact hover
  | poll _ => exact hover

theorem sampleLife_start :
    SampleCombinedLife (CombinedLife.crashed nfFs witFs) .start
      (lifeAt (some (.syncing (some SpendServer.init) (some none))) none false nfFs witFs) :=
  ⟨.start rfl, trivial⟩

/-!
## The first process
-/

def spendTwo : SpendServer (List UInt8) :=
  { hashtable := HashTableDb.new, livePir := none, stage := .forward 1 2 1 false }

def spendReplaced : SpendServer (List UInt8) :=
  { hashtable := tableReplaced, livePir := none, stage := .synced }

theorem samplePair_fresh {witness : Option (Option (Witness.WitnessServer StubServerState))} :
    SamplePair (.syncing (some SpendServer.init) witness) (.nullifier (.connect 2 none))
      (.syncing (some spendTwo) witness) := by
  refine samplePair_nullifier ?_ rfl ?_ ?_
  · exact trivial
  · exact fun _ hfalse => (nomatch hfalse)
  · exact fun _ _ _ hfalse => (nomatch hfalse)

theorem samplePair_range {witness : Option (Option (Witness.WitnessServer StubServerState))} :
    SamplePair (.syncing (some spendTwo) witness)
      (.nullifier (.range (some (orphanedConnection chainAfter))))
      (.syncing (some spendReplaced) witness) := by
  have hsync : Nullifier.syncRange (some (orphanedConnection chainAfter)) 1 2 HashTableDb.new
      none = .ok tableReplaced := by
    rw [Nullifier.syncRange_of_serves honest_chainAfter.heights (fun _ _ => rfl)
      (Nat.le_succ 1)]
    rfl
  refine samplePair_nullifier ?_ (congrArg some (SpendServer.syncStage_of_ok hsync _)) ?_ ?_
  · exact trivial
  · intro c hc
    cases hc
    exact List.prefix_refl _
  · exact fun _ _ _ _ hfalse => (nomatch hfalse)

theorem exists_syncedTree :
    exists tree, Witness.syncedTree (orphanedClient chainBefore)
        (some (orphanedConnection chainBefore)) Witness.l0MaxShards none = .ok tree ∧
      OnWindow sampleHash pairWindow chainAfter 2 tree := by
  have hempty : OnWindow sampleHash pairWindow chainAfter 1 CommitmentTreeDb.new :=
    ⟨CommitmentTreeDb.treeInvariant_withOffset sampleHash 0 [], rfl, rfl, Nat.zero_le _,
      Nat.le_refl 1, by decide⟩
  have hview : (orphanedConnection chainBefore).view.IsPrefix chainAfter :=
    List.prefix_append chainBefore [sampleReplacement, sampleNext]
  have hawaits := Witness.awaits_sync_complete honestChain_chainAfter hempty hview
    (List.cons_ne_nil _ _) (fun _ _ => rfl) (by decide)
  rcases hawaits.appendEvents sound_pairWindow honestChain_chainAfter with
    ⟨tree, happend, hon⟩
  exact ⟨tree, happend, hon⟩

theorem reportsWindow_chainBefore :
    ReportsWindow sampleHash pairWindow chainAfter (orphanedClient chainBefore)
      Witness.l0MaxShards where
  view := List.prefix_append chainBefore [sampleReplacement, sampleNext]
  nonempty := List.cons_ne_nil _ _
  reports := by
    intro subtreeRoots hroots
    cases hroots
    refine ⟨⟨rfl, ?_, ?_⟩, rfl⟩
    · intro i shard hfalse
      cases hfalse
    · intro i shard hfalse
      cases hfalse
  activation := rfl

theorem evictToTarget_tableReplaced : tableReplaced.evictToTarget = some tableReplaced :=
  HashTableDb.evictToTarget_of_le (Nat.le_of_ble_eq_true rfl)

theorem exists_killed :
    exists (nfFs witFs : FileSystem String) (tree : CommitmentTreeDb),
      Later SampleCombinedLife CombinedLife.init (CombinedLife.crashed nfFs witFs) ∧
      Nullifier.loadSnapshot (fun _ _ => 0) nfFs = .ok tableLoaded ∧
      Witness.loadSnapshot .checked (fun _ _ => 0) witFs = .ok tree ∧
      OnWindow sampleHash pairWindow chainAfter 2 tree := by
  rcases exists_syncedTree with ⟨tree, hsync, hon⟩
  have hrecord : tree.blocks ≠ [] := by
    intro hnil
    exact absurd (hon.blocks_eq_nil_iff.mp hnil) (by decide)
  have hview : (orphanedConnection chainBefore).view.IsPrefix chainAfter :=
    List.prefix_append chainBefore [sampleReplacement, sampleNext]
  have hholds : tableReplaced.HoldsThroughLatest chainAfter :=
    HashTableDb.holdsThroughLatest_iff.mpr ⟨1, 3, mirrors_tableReplaced⟩
  rcases hholds.consistent.toSnapshot_isSome (by decide) (fun _ _ => 0) with
    ⟨payload, hpayload⟩
  let unsaved : SyncedWitness :=
    { client := orphanedClient chainBefore
      connection := some (orphanedConnection chainBefore)
      snapshot := none
      tree := tree
      saved := false }
  have hstarted : Later SampleCombinedLife CombinedLife.init _ :=
    (Later.refl _).next sampleLife_start
  have hconnected := hstarted.next (sampleLife_syncing (.connect false) samplePair_fresh)
  have hfilled := hconnected.next (sampleLife_syncing .range samplePair_range)
  rcases later_tableSaved hfilled (.synced rfl rfl rfl evictToTarget_tableReplaced) hpayload with
    ⟨nfFs, htableSaved, hnfRead⟩
  have htable := hfilled.trans htableSaved
  have hstep : SampleCombinedLife
      (lifeAt (some (.syncing (some spendReplaced) (some none))) none true nfFs FileSystem.empty)
      (.syncWitness (orphanedClient chainBefore) (some (orphanedConnection chainBefore)) false)
      (lifeAt (some (.syncing (some spendReplaced) (some none))) (some unsaved) true nfFs
        FileSystem.empty) := by
    refine ⟨.syncWitness rfl rfl .unreadable hsync, ?_, ?_⟩
    · intro served heq
      cases heq
      exact hview
    · exact fun _ => ⟨pairWindow, sound_pairWindow, reportsWindow_chainBefore⟩
  have hsynced := htable.next hstep
  rcases later_treeSaved hsynced rfl hrecord with ⟨witFs, htreeSaved, hwitRead⟩
  have hkilled := (hsynced.trans htreeSaved).next ⟨.kill, trivial⟩
  refine ⟨nfFs, witFs, tree, hkilled, ?_, ?_, hon⟩
  · exact Nullifier.loadSnapshot_of_read hholds.consistent hpayload hnfRead
  · exact hon.loadSnapshot_eq sound_pairWindow honestChain_chainAfter (by decide) hwitRead

/-!
## The second process
-/

theorem sampleLife_loadTree {tree : CommitmentTreeDb}
    (hload : Witness.loadSnapshot .checked (fun _ _ => 0) witFs = .ok tree)
    (hlatest : tree.latestHeight = some 1)
    (nullifier : Option (SpendServer (List UInt8))) :
    SampleCombinedLife
      (lifeAt (some (.syncing nullifier (some none))) none nfSaved nfFs witFs)
      (.syncWitness (orphanedClient chainBefore) none true)
      (lifeAt (some (.syncing nullifier (some none)))
        (some
          { client := orphanedClient chainBefore
            connection := none
            snapshot := some tree
            tree := tree
            saved := false }) nfSaved nfFs witFs) := by
  refine ⟨.syncWitness rfl rfl (.snapshot hload) ?_, ?_, ?_⟩
  · exact Witness.syncedTree_of_upToDate none _ hlatest (by decide)
  · exact fun _ hfalse => (nomatch hfalse)
  · exact fun _ => ⟨pairWindow, sound_pairWindow, reportsWindow_chainBefore⟩

theorem exists_restarted {tree : CommitmentTreeDb}
    (hreached : Later SampleCombinedLife CombinedLife.init (CombinedLife.crashed nfFs witFs))
    (hnfLoad : Nullifier.loadSnapshot (fun _ _ => 0) nfFs = .ok tableLoaded)
    (hwitLoad : Witness.loadSnapshot .checked (fun _ _ => 0) witFs = .ok tree)
    (hon : OnWindow sampleHash pairWindow chainAfter 2 tree) :
    exists witPir caughtUp nfFs' witFs' synced,
      Later SampleCombinedLife (CombinedLife.crashed nfFs witFs)
        (lifeAt (some (.following (enteredPair witPir caughtUp))) synced true nfFs' witFs') := by
  have hlatest := hon.latestHeight_eq honest_chainAfter (by decide)
  have hrecord : tree.blocks ≠ [] := by
    intro hnil
    exact absurd (hon.blocks_eq_nil_iff.mp hnil) (by decide)
  have hevict : tableLoaded.evictToTarget = some tableLoaded :=
    HashTableDb.evictToTarget_of_le (Nat.le_of_ble_eq_true rfl)
  rcases holds_tableLoaded.consistent.toSnapshot_isSome (by decide) (fun _ _ => 0) with
    ⟨payload, hpayload⟩
  rcases exists_samplePair_witness hon (some pairSynced) with ⟨server, hwitness, hserver⟩
  rcases exists_samplePair_enter hserver with ⟨caughtUp, henter, _⟩
  have hadmits : (lifeAt (some (.syncing (some SpendServer.init) (some none))) none false nfFs
      witFs).Admits (fun _ _ => 0) (.nullifier (.connect 2 (some tableLoaded))) := by
    have hloaded : (Nullifier.SpendLife.crashed nfFs : Nullifier.SpendLife (List UInt8)).loaded
        (fun _ _ => 0) true = some tableLoaded := by
      change (Nullifier.loadSnapshot (fun _ _ => 0) nfFs).toOption = _
      rw [hnfLoad]
      rfl
    rw [← hloaded]
    exact .connect true
  have hstarted : Later SampleCombinedLife (CombinedLife.crashed nfFs witFs) _ :=
    (Later.refl _).next sampleLife_start
  have hconnected := hstarted.next (sampleLife_syncing hadmits samplePair_connect)
  rcases later_tableSaved (hreached.trans hconnected) (.synced rfl rfl rfl hevict) hpayload with
    ⟨nfFs', htableSaved, _⟩
  have hpublished := (hconnected.trans htableSaved).next
    (sampleLife_syncing (.publish rfl) samplePair_publish)
  have hsynced := hpublished.next (sampleLife_loadTree hwitLoad hlatest (some pairSynced))
  rcases later_treeSaved (hreached.trans hsynced) rfl hrecord with ⟨witFs', htreeSaved, _⟩
  have hboth := (hsynced.trans htreeSaved).next (sampleLife_syncing (.witness rfl rfl) hwitness)
  exact ⟨_, caughtUp, nfFs', witFs', _, hboth.next (sampleLife_syncing .enter henter)⟩

/-- Killed with a table of block 2 and a tree of block 1 on disk, the server comes back, and
publishes the spends and the witnesses of block 3. -/
theorem crashes_publish_pairs_restarted :
    exists (nfFs witFs : FileSystem String) (tree : CommitmentTreeDb)
        (s : CombinedLife (List UInt8) StubServerState)
        (server server' : CombinedServer (List UInt8) StubServerState) (w : Window)
        (nfPir : Nullifier.PirState (List UInt8)) (witPir : Witness.PirState StubServerState),
      Later SampleCombinedLife CombinedLife.init (CombinedLife.crashed nfFs witFs) ∧
      Nullifier.loadSnapshot (fun _ _ => 0) nfFs = .ok tableLoaded ∧
      tableLoaded.latestHeight = some 2 ∧
      Witness.loadSnapshot .checked (fun _ _ => 0) witFs = .ok tree ∧
      tree.latestHeight = some 1 ∧
      Later SampleCombinedLife (CombinedLife.crashed nfFs witFs) s ∧
      s.process = some (.following server) ∧
      server.poll sampleHash keepingEngine stubPirEngine.toPirEngine chainAfter = some server' ∧
      server'.nfPir = some nfPir ∧ server'.witPir = some witPir ∧
      PairShows sampleHash keepingEngine stubPirEngine.toPirEngine w chainAfter 3 nfPir
        witPir := by
  rcases exists_killed with ⟨nfFs, witFs, tree, hkilled, hnfLoad, hwitLoad, hon⟩
  rcases exists_restarted hkilled hnfLoad hwitLoad hon with
    ⟨witPir, caughtUp, nfFs', witFs', synced, hrestarted⟩
  rcases hkilled.trans hrestarted with ⟨inputs, hrun⟩
  rcases (crashes_publish_pairs accepts_keepingEngine Witness.accepts_stubPirEngine
    honestChain_chainAfter (by decide) coverable_chainAfter small_chainAfter hrun).left _ rfl with
    ⟨w, height, hw, hloop, hturn⟩
  have hheight : height = 2 := by
    rw [← hloop.current, currentHeight_enteredPair]
  rcases hturn chainAfter (List.prefix_refl _) (by rw [hheight]; decide)
    (insertsFit_enteredPair witPir caughtUp) with
    ⟨server', nfPir, witPir', hpoll, _, hnfPir, hwitPir, hshows⟩
  exact ⟨nfFs, witFs, tree, _, _, server', w, nfPir, witPir', hkilled, hnfLoad, rfl, hwitLoad,
    hon.latestHeight_eq honest_chainAfter (by decide), hrestarted, rfl, hpoll, hnfPir, hwitPir,
    hshows⟩

end Sample

end Combined
end SpendabilityPir
