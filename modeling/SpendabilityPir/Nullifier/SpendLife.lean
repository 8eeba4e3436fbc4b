import SpendabilityPir.Nullifier.PublishedAnswers
import SpendabilityPir.Nullifier.SnapshotIo

/-!
# The nullifier server across restarts

The server loads the snapshot file when it starts, saves the table when the sync is
complete and after some number of followed events, and may die at any point of this.
Each start continues from a table that holds an interval of the chain, so what is
published covers the heights it reports however often the server is restarted.
-/

namespace SpendabilityPir
namespace Nullifier

open Foundation Shared

structure LifeConfig extends ServerConfig where
  snapshotInterval : Nat

/-- The server, its data directory, whether the synced table is saved, the events handled
since the last snapshot, and whether a periodic snapshot is due. -/
structure SpendLife (σ : Type) where
  server : SpendServer σ
  files : Replacing String
  saved : Bool
  blocksSinceSnapshot : Nat
  due : Bool

/-- What happens next: a step of the server, a call of `save_snapshot`, or an end of the
process. -/
inductive LifeInput where
  | server (input : ServerInput)
  | file (label : ReplaceLabel)
  | saveFails
  | kill
  | powerLoss

namespace SpendLife

variable {σ : Type}

/-- A server that has not been started yet, with an empty data directory. -/
def init : SpendLife σ :=
  { server := SpendServer.init
    files := { fs := FileSystem.empty, stage := .idle }
    saved := false
    blocksSinceSnapshot := 0
    due := false }

/-- The snapshot a start loads; every failure counts as no snapshot. -/
def loaded (xxh64 : List UInt8 -> Nat -> UInt64) (s : SpendLife σ) (readable : Bool) :
    Option HashTableDb :=
  if readable then (loadSnapshot xxh64 s.files.fs).toOption else none

/-- The main task waits until the snapshot is saved. -/
inductive Admits (xxh64 : List UInt8 -> Nat -> UInt64) (s : SpendLife σ) :
    ServerInput -> Prop where
  | connect {tipHeight : Nat} (readable : Bool) :
      Admits xxh64 s (.connect tipHeight (s.loaded xxh64 readable))
  | range {connection : Option Connection} : Admits xxh64 s (.range connection)
  | publish : s.saved = true -> Admits xxh64 s .publish
  | poll {view : ChainView} : Admits xxh64 s (.poll view)
  | requestFails : Admits xxh64 s .requestFails
  | handle : s.files.stage = .idle -> s.due = false -> Admits xxh64 s .handle

def advance (config : LifeConfig) (s : SpendLife σ) (input : ServerInput)
    (server : SpendServer σ) : SpendLife σ :=
  match input with
  | .publish => { s with server := server, blocksSinceSnapshot := 0, due := false }
  | .handle =>
      { s with
        server := server
        blocksSinceSnapshot := s.blocksSinceSnapshot + 1
        due := decide (s.blocksSinceSnapshot + 1 ≥ config.snapshotInterval) }
  | _ => { s with server := server }

/-- The table is to be saved: it is synced, or a periodic snapshot is due. -/
def SaveDue (s : SpendLife σ) : Prop :=
  (s.server.stage = .synced ∧ s.saved = false) ∨
    (exists task queue, s.server.stage = .follow task queue) ∧ s.due = true

/-- The process is gone; the data directory is left. -/
def crashed (fs : FileSystem String) : SpendLife σ :=
  { server := SpendServer.init
    files := { fs := fs, stage := .idle }
    saved := false
    blocksSinceSnapshot := 0
    due := false }

/-- One step of `run` or of its surroundings. -/
inductive LifeStep (config : LifeConfig) (xxh64 : List UInt8 -> Nat -> UInt64)
    (engine : PirEngine σ) (s : SpendLife σ) : LifeInput -> SpendLife σ -> Prop where
  | server {input : ServerInput} {server : SpendServer σ} :
      s.Admits xxh64 input ->
      s.server.step config.toServerConfig engine input = some server ->
      LifeStep config xxh64 engine s (.server input) (s.advance config input server)
  | startSave {payload : List UInt8} {files : Replacing String} :
      s.SaveDue -> s.server.hashtable.toSnapshot xxh64 = some payload ->
      SaveStep s.files (.start payload) files ->
      LifeStep config xxh64 engine s (.file (.start payload)) { s with files := files }
  | write {count : Nat} {files : Replacing String} :
      SaveStep s.files (.write count) files ->
      LifeStep config xxh64 engine s (.file (.write count)) { s with files := files }
  | sync {files : Replacing String} :
      SaveStep s.files .sync files ->
      LifeStep config xxh64 engine s (.file .sync) { s with files := files }
  | rename {files : Replacing String} :
      SaveStep s.files .rename files ->
      LifeStep config xxh64 engine s (.file .rename)
        { s with files := files, saved := true, blocksSinceSnapshot := 0, due := false }
  | saveFails :
      s.SaveDue ->
      LifeStep config xxh64 engine s .saveFails
        { s with
          server := { s.server with stage := .stopped }
          files := { fs := s.files.fs, stage := .idle } }
  | kill : LifeStep config xxh64 engine s .kill (crashed s.files.fs)
  | powerLoss {fs : FileSystem String} :
      s.files.fs.PowerLoss fs ->
      LifeStep config xxh64 engine s .powerLoss (crashed fs)

/-- Lightwalletd serves parts of the chain, and the backfill leaves no gap. -/
def ServedLife (chain : ChainView) (s : SpendLife σ) : LifeInput -> Prop
  | .server (.connect _ _) => True
  | .server input => ServedFrom chain input ∧ LeavesNoGap s.server input
  | _ => True

def StepOver (config : LifeConfig) (xxh64 : List UInt8 -> Nat -> UInt64)
    (engine : PirEngine σ) (chain : ChainView) (s : SpendLife σ) (input : LifeInput)
    (s' : SpendLife σ) : Prop :=
  LifeStep config xxh64 engine s input s' ∧ s.ServedLife chain input

/-!
## The invariant
-/

def applyEvents (hashtable : HashTableDb) (events : List ChainEvent) :
    Outcome ServerError HashTableDb :=
  events.foldlM applyEvent hashtable

/-- The table in memory is what the saved one becomes by eviction and the events since. -/
structure Replays (saved hashtable : HashTableDb) (count : Nat) : Prop where
  replay : exists base events, (base = saved ∨ saved.evictToTarget = some base) ∧
    applyEvents base events = .ok hashtable ∧ events.length = count

theorem applyEvents_concat {base hashtable hashtable' : HashTableDb}
    {events : List ChainEvent} {event : ChainEvent}
    (h : applyEvents base events = .ok hashtable)
    (hevent : applyEvent hashtable event = .ok hashtable') :
    applyEvents base (events ++ [event]) = .ok hashtable' := by
  rw [applyEvents, List.foldlM_append]
  change (applyEvents base events >>= fun t => [event].foldlM applyEvent t) = _
  rw [h, ok_bind, List.foldlM_cons, hevent]
  rfl

def IsSyncing (stage : Stage) : Prop :=
  stage ≠ .synced ∧ forall task queue, stage ≠ .follow task queue

section Invariant

variable (U : BlockUniverse) (xxh64 : List UInt8 -> Nat -> UInt64) (engine : PirEngine σ)
variable (chain : ChainView) (interval : Nat)

def HoldsSnapshot (a : AtomicFile) (saved : HashTableDb) : Prop :=
  saved.HoldsThroughLatest chain ∧
    exists data, saved.toSnapshot xxh64 = some data ∧ a.current = some data

/-- The server follows the chain, the data directory only ever has snapshots of such
tables, and the table in memory is at most an interval of events ahead of the file. -/
structure LifeInvariant (s : SpendLife σ) (a : AtomicFile) : Prop where
  server : CoverageInvariant U engine chain s.server
  built : BuiltFromChain engine chain s.server
  stands : StandsFor snapshotTmpFilename snapshotFilename s.files a
  offers : a.Offers (SavedFrom xxh64 (fun db => db.HoldsThroughLatest chain))
  unsaved : IsSyncing s.server.stage -> s.server.stage ≠ .stopped -> s.saved = false
  saving : s.files.stage ≠ .idle ->
    s.SaveDue ∧ a.pending = s.server.hashtable.toSnapshot xxh64
  synced : s.server.stage = .synced -> s.saved = true ->
    HoldsSnapshot xxh64 chain a s.server.hashtable
  following : forall task queue, s.server.stage = .follow task queue ->
    exists saved, HoldsSnapshot xxh64 chain a saved ∧
      Replays saved s.server.hashtable s.blocksSinceSnapshot
  bounded : s.blocksSinceSnapshot ≤ max interval 1 ∧
    (s.due = false -> s.blocksSinceSnapshot < max interval 1)

end Invariant

/-!
## Steps of the server
-/

section Steps

variable {U : BlockUniverse} {xxh64 : List UInt8 -> Nat -> UInt64} {engine : PirEngine σ}
variable {chain : ChainView} {config : LifeConfig}

theorem loaded_holdsThroughLatest {s : SpendLife σ} {a : AtomicFile} {interval : Nat}
    (h : LifeInvariant U xxh64 engine chain interval s a) {readable : Bool}
    {hashtable : HashTableDb} (hloaded : s.loaded xxh64 readable = some hashtable) :
    hashtable.HoldsThroughLatest chain := by
  unfold loaded at hloaded
  split at hloaded
  · rcases loadSnapshot_of_offers h.stands h.offers with hnone | ⟨db, hdb, hok⟩
    · rw [hnone] at hloaded
      cases hloaded
    · rw [hok] at hloaded
      cases hloaded
      exact hdb.recounted
  · cases hloaded

theorem coverageStep_of_life {s : SpendLife σ} {a : AtomicFile} {interval : Nat}
    (h : LifeInvariant U xxh64 engine chain interval s a) {input : ServerInput}
    {server : SpendServer σ} (hadmits : s.Admits xxh64 input)
    (hstep : s.server.step config.toServerConfig engine input = some server)
    (hserved : s.ServedLife chain (.server input)) :
    CoverageStep config.toServerConfig engine chain s.server input server := by
  cases hadmits with
  | connect readable =>
      exact ⟨hstep, fun _ hloaded => loaded_holdsThroughLatest h hloaded,
        fun _ _ _ hfalse => (nomatch hfalse)⟩
  | range => exact ⟨hstep, hserved.left, hserved.right⟩
  | publish _ => exact ⟨hstep, hserved.left, hserved.right⟩
  | poll => exact ⟨hstep, hserved.left, hserved.right⟩
  | requestFails => exact ⟨hstep, hserved.left, hserved.right⟩
  | handle _ _ => exact ⟨hstep, hserved.left, hserved.right⟩

theorem not_saveDue_of_isSyncing {s : SpendLife σ} (h : IsSyncing s.server.stage) :
    ¬ s.SaveDue := by
  rintro (⟨hsynced, _⟩ | ⟨⟨task, queue, hfollow⟩, _⟩)
  · exact h.left hsynced
  · exact h.right task queue hfollow

theorem LifeInvariant.files_idle {s : SpendLife σ} {a : AtomicFile} {interval : Nat}
    (h : LifeInvariant U xxh64 engine chain interval s a) (hdue : ¬ s.SaveDue) :
    s.files.stage = .idle := by
  by_contra hbusy
  exact hdue (h.saving hbusy).left

theorem lifeInvariant_syncing {s : SpendLife σ} {a : AtomicFile} {interval : Nat}
    {server : SpendServer σ} (h : LifeInvariant U xxh64 engine chain interval s a)
    (hbefore : IsSyncing s.server.stage) (hrunning : s.server.stage ≠ .stopped)
    (hserver : CoverageInvariant U engine chain server)
    (hbuilt : BuiltFromChain engine chain server)
    (hafter : forall task queue, server.stage ≠ .follow task queue) :
    LifeInvariant U xxh64 engine chain interval { s with server := server } a where
  server := hserver
  built := hbuilt
  stands := h.stands
  offers := h.offers
  unsaved _ _ := h.unsaved hbefore hrunning
  saving hbusy := absurd (h.files_idle (not_saveDue_of_isSyncing hbefore)) hbusy
  synced _ hsaved := by
    rw [show s.saved = false from h.unsaved hbefore hrunning] at hsaved
    cases hsaved
  following task queue hstage := absurd hstage (hafter task queue)
  bounded := h.bounded

theorem lifeInvariant_polled {s : SpendLife σ} {a : AtomicFile} {interval : Nat}
    (h : LifeInvariant U xxh64 engine chain interval s a) {task task' : Option FollowState}
    {queue queue' : List ChainEvent} (hstage : s.server.stage = .follow task queue)
    (hserver : CoverageInvariant U engine chain
      { s.server with stage := Stage.follow task' queue' }) :
    LifeInvariant U xxh64 engine chain interval
      { s with server := { s.server with stage := .follow task' queue' } } a where
  server := hserver
  built := h.built
  stands := h.stands
  offers := h.offers
  unsaved hsyncing _ := absurd rfl (hsyncing.right task' queue')
  saving hbusy := by
    rcases h.saving hbusy with ⟨hdue, hpending⟩
    refine ⟨?_, hpending⟩
    rcases hdue with ⟨hsynced, _⟩ | ⟨_, hdue⟩
    · rw [hstage] at hsynced
      cases hsynced
    · exact Or.inr ⟨⟨task', queue', rfl⟩, hdue⟩
  synced hsynced _ := by cases hsynced
  following _ _ _ := h.following task queue hstage
  bounded := h.bounded

theorem lifeInvariant_publish {s : SpendLife σ} {a : AtomicFile} {interval : Nat}
    (h : LifeInvariant U xxh64 engine chain interval s a)
    (hstage : s.server.stage = .synced) (hsaved : s.saved = true)
    (hserver : CoverageInvariant U engine chain (s.server.publish engine))
    (hbuilt : BuiltFromChain engine chain (s.server.publish engine)) :
    LifeInvariant U xxh64 engine chain interval
      (s.advance config .publish (s.server.publish engine)) a := by
  have hidle : s.files.stage = .idle := by
    apply h.files_idle
    rintro (⟨_, hunsaved⟩ | ⟨⟨_, _, hfollow⟩, _⟩)
    · rw [hsaved] at hunsaved
      cases hunsaved
    · rw [hstage] at hfollow
      cases hfollow
  have hcases : (s.server.publish engine).stage = .stopped ∨
      exists hashtable, s.server.hashtable.evictToTarget = some hashtable ∧
        (s.server.publish engine).hashtable = hashtable ∧
        exists task, (s.server.publish engine).stage = .follow task [] := by
    unfold SpendServer.publish
    split
    · exact Or.inl rfl
    · next hashtable hevict =>
        split
        · exact Or.inl rfl
        · exact Or.inr ⟨hashtable, hevict, rfl, _, rfl⟩
  have hpos : 0 < max interval 1 := Nat.lt_of_lt_of_le Nat.one_pos (Nat.le_max_right _ _)
  constructor
  · exact hserver
  · exact hbuilt
  · exact h.stands
  · exact h.offers
  · intro hsyncing hrunning
    rcases hcases with hstopped | ⟨_, _, _, task, hfollow⟩
    · exact absurd hstopped hrunning
    · exact absurd hfollow (hsyncing.right task [])
  · exact fun hbusy => absurd hidle hbusy
  · intro hsynced _
    change (s.server.publish engine).stage = .synced at hsynced
    rcases hcases with hstopped | ⟨_, _, _, task, hfollow⟩
    · rw [hstopped] at hsynced
      cases hsynced
    · rw [hfollow] at hsynced
      cases hsynced
  · intro task queue hfollow
    change (s.server.publish engine).stage = .follow task queue at hfollow
    rcases hcases with hstopped | ⟨hashtable, hevict, htable, _⟩
    · rw [hstopped] at hfollow
      cases hfollow
    · refine ⟨s.server.hashtable, h.synced hstage hsaved, hashtable, [], Or.inr hevict, ?_, rfl⟩
      exact congrArg Except.ok htable.symm
  · exact ⟨Nat.le_of_lt hpos, fun _ => hpos⟩

theorem lifeInvariant_handle {s : SpendLife σ} {a : AtomicFile}
    (h : LifeInvariant U xxh64 engine chain config.snapshotInterval s a)
    {task : Option FollowState} {event : ChainEvent} {rest : List ChainEvent}
    (hstage : s.server.stage = .follow task (event :: rest))
    (hidle : s.files.stage = .idle) (hdue : s.due = false)
    (hserver : CoverageInvariant U engine chain (s.server.handle engine task event rest))
    (hbuilt : BuiltFromChain engine chain (s.server.handle engine task event rest)) :
    LifeInvariant U xxh64 engine chain config.snapshotInterval
      (s.advance config .handle (s.server.handle engine task event rest)) a := by
  have hcases : (s.server.handle engine task event rest).stage = .stopped ∨
      exists hashtable, applyEvent s.server.hashtable event = .ok hashtable ∧
        (s.server.handle engine task event rest).hashtable = hashtable ∧
        (s.server.handle engine task event rest).stage = .follow task rest := by
    unfold SpendServer.handle
    split
    · exact Or.inl rfl
    · next hashtable pir hhandle =>
        exact Or.inr ⟨hashtable, (handleEvent_eq_ok hhandle).left, rfl, rfl⟩
  have hlt := h.bounded.right hdue
  constructor
  · exact hserver
  · exact hbuilt
  · exact h.stands
  · exact h.offers
  · intro hsyncing hrunning
    rcases hcases with hstopped | ⟨_, _, _, hfollow⟩
    · exact absurd hstopped hrunning
    · exact absurd hfollow (hsyncing.right task rest)
  · exact fun hbusy => absurd hidle hbusy
  · intro hsynced _
    change (s.server.handle engine task event rest).stage = .synced at hsynced
    rcases hcases with hstopped | ⟨_, _, _, hfollow⟩
    · rw [hstopped] at hsynced
      cases hsynced
    · rw [hfollow] at hsynced
      cases hsynced
  · intro task' queue' hfollow
    change (s.server.handle engine task event rest).stage = .follow task' queue' at hfollow
    rcases hcases with hstopped | ⟨hashtable, happly, htable, _⟩
    · rw [hstopped] at hfollow
      cases hfollow
    · rcases h.following _ _ hstage with ⟨saved, hsaved, base, events, hbase, hreplay, hcount⟩
      refine ⟨saved, hsaved, base, events ++ [event], hbase, ?_, ?_⟩
      · change applyEvents base (events ++ [event]) =
          .ok (s.server.handle engine task event rest).hashtable
        rw [htable]
        exact applyEvents_concat hreplay happly
      · change (events ++ [event]).length = s.blocksSinceSnapshot + 1
        rw [List.length_append, hcount]
        rfl
  · refine ⟨hlt, ?_⟩
    intro hnot
    have hless := of_decide_eq_false hnot
    change s.blocksSinceSnapshot + 1 < max config.snapshotInterval 1
    lia

theorem lifeInvariant_server {s : SpendLife σ} {a : AtomicFile}
    (hchain : CoverableChain U chain)
    (h : LifeInvariant U xxh64 engine chain config.snapshotInterval s a)
    {input : ServerInput} {server : SpendServer σ} (hadmits : s.Admits xxh64 input)
    (hstep : s.server.step config.toServerConfig engine input = some server)
    (hserved : s.ServedLife chain (.server input)) :
    LifeInvariant U xxh64 engine chain config.snapshotInterval
      (s.advance config input server) a := by
  have hserver := coverageInvariant_step hchain h.server
    (coverageStep_of_life h hadmits hstep hserved)
  have hbuilt := builtFromChain_step h.built hserver.table hstep
  cases SpendServer.moves_of_step hstep with
  | connect hstage =>
      have hsyncing : IsSyncing s.server.stage := by simp [IsSyncing, hstage]
      exact lifeInvariant_syncing h hsyncing (by simp [hstage]) hserver hbuilt
        SpendServer.not_follow_connect
  | forward hstage =>
      have hsyncing : IsSyncing s.server.stage := by simp [IsSyncing, hstage]
      apply lifeInvariant_syncing h hsyncing (by simp [hstage]) hserver hbuilt
      exact SpendServer.not_follow_syncStage (fun _ => isPlain_afterForward _ _ _ _)
  | backfill hstage =>
      have hsyncing : IsSyncing s.server.stage := by simp [IsSyncing, hstage]
      apply lifeInvariant_syncing h hsyncing (by simp [hstage]) hserver hbuilt
      exact SpendServer.not_follow_syncStage (fun _ => isPlain_afterBackfill _ _ _)
  | publish hstage =>
      cases hadmits with
      | publish hsaved => exact lifeInvariant_publish h hstage hsaved hserver hbuilt
  | poll hstage => exact lifeInvariant_polled h hstage hserver
  | requestFails hstage => exact lifeInvariant_polled h hstage hserver
  | handle hstage =>
      cases hadmits with
      | handle hidle hdue => exact lifeInvariant_handle h hstage hidle hdue hserver hbuilt

/-!
## Steps of a save
-/

theorem lifeInvariant_file {s : SpendLife σ} {a b : AtomicFile} {interval : Nat}
    {files : Replacing String} (h : LifeInvariant U xxh64 engine chain interval s a)
    (hstands : StandsFor snapshotTmpFilename snapshotFilename files b)
    (hoffers : b.Offers (SavedFrom xxh64 (fun db => db.HoldsThroughLatest chain)))
    (hcurrent : b.current = a.current)
    (hsaving : files.stage ≠ .idle ->
      s.SaveDue ∧ b.pending = s.server.hashtable.toSnapshot xxh64) :
    LifeInvariant U xxh64 engine chain interval { s with files := files } b where
  server := h.server
  built := h.built
  stands := hstands
  offers := hoffers
  unsaved := h.unsaved
  saving := hsaving
  synced hsynced hsaved := by
    rcases h.synced hsynced hsaved with ⟨hholds, data, hsnapshot, hdata⟩
    exact ⟨hholds, data, hsnapshot, hcurrent.trans hdata⟩
  following task queue hfollow := by
    rcases h.following task queue hfollow with ⟨saved, ⟨hholds, data, hsnapshot, hdata⟩, hreplay⟩
    exact ⟨saved, ⟨hholds, data, hsnapshot, hcurrent.trans hdata⟩, hreplay⟩
  bounded := h.bounded

theorem lifeInvariant_rename {s : SpendLife σ} {a b : AtomicFile} {interval : Nat}
    {files : Replacing String} (h : LifeInvariant U xxh64 engine chain interval s a)
    (hstands : StandsFor snapshotTmpFilename snapshotFilename files b)
    (hoffers : b.Offers (SavedFrom xxh64 (fun db => db.HoldsThroughLatest chain)))
    (hbusy : s.files.stage ≠ .idle) (hidle : files.stage = .idle) {payload : List UInt8}
    (hpending : a.pending = some payload) (hcurrent : b.current = some payload) :
    LifeInvariant U xxh64 engine chain interval
      { s with files := files, saved := true, blocksSinceSnapshot := 0, due := false } b := by
  rcases h.saving hbusy with ⟨hdue, hsnapshot⟩
  have hholds : HoldsSnapshot xxh64 chain b s.server.hashtable :=
    ⟨h.server.table, payload, hsnapshot.symm.trans hpending, hcurrent⟩
  have hpos : 0 < max interval 1 := Nat.lt_of_lt_of_le Nat.one_pos (Nat.le_max_right _ _)
  constructor
  · exact h.server
  · exact h.built
  · exact hstands
  · exact hoffers
  · intro hsyncing
    exact absurd hdue (not_saveDue_of_isSyncing hsyncing)
  · exact fun hbusy => absurd hidle hbusy
  · exact fun _ _ => hholds
  · intro _ _ _
    exact ⟨s.server.hashtable, hholds, s.server.hashtable, [], Or.inl rfl, rfl, rfl⟩
  · exact ⟨Nat.le_of_lt hpos, fun _ => hpos⟩

theorem lifeInvariant_of_down {s : SpendLife σ} {b : AtomicFile} {interval : Nat}
    (hserver : CoverageInvariant U engine chain s.server)
    (hbuilt : BuiltFromChain engine chain s.server)
    (hstands : StandsFor snapshotTmpFilename snapshotFilename s.files b)
    (hoffers : b.Offers (SavedFrom xxh64 (fun db => db.HoldsThroughLatest chain)))
    (hidle : s.files.stage = .idle) (hdown : IsSyncing s.server.stage)
    (hunsaved : s.server.stage ≠ .stopped -> s.saved = false)
    (hbounded : s.blocksSinceSnapshot ≤ max interval 1 ∧
      (s.due = false -> s.blocksSinceSnapshot < max interval 1)) :
    LifeInvariant U xxh64 engine chain interval s b where
  server := hserver
  built := hbuilt
  stands := hstands
  offers := hoffers
  unsaved _ := hunsaved
  saving hbusy := absurd hidle hbusy
  synced hsynced := absurd hsynced hdown.left
  following task queue hfollow := absurd hfollow (hdown.right task queue)
  bounded := hbounded

theorem lifeInvariant_crashed {fs : FileSystem String} {b : AtomicFile} {interval : Nat}
    (hstands : StandsFor snapshotTmpFilename snapshotFilename
      { fs := fs, stage := .idle } b)
    (hoffers : b.Offers (SavedFrom xxh64 (fun db => db.HoldsThroughLatest chain))) :
    LifeInvariant U xxh64 engine chain interval (crashed fs : SpendLife σ) b := by
  have hpos : 0 < max interval 1 := Nat.lt_of_lt_of_le Nat.one_pos (Nat.le_max_right _ _)
  apply lifeInvariant_of_down coverageInvariant_init _ hstands hoffers rfl
  · simp [IsSyncing, crashed, SpendServer.init]
  · exact fun _ => rfl
  · exact ⟨Nat.le_of_lt hpos, fun _ => hpos⟩
  · intro pir hpir
    cases hpir

theorem lifeInvariant_step {s s' : SpendLife σ} {a : AtomicFile} {input : LifeInput}
    (hchain : CoverableChain U chain)
    (h : LifeInvariant U xxh64 engine chain config.snapshotInterval s a)
    (hstep : StepOver config xxh64 engine chain s input s') :
    exists b, LifeInvariant U xxh64 engine chain config.snapshotInterval s' b := by
  rcases hstep with ⟨hstep, hserved⟩
  cases hstep with
  | server hadmits hstep => exact ⟨a, lifeInvariant_server hchain h hadmits hstep hserved⟩
  | @startSave payload files hdue hsnapshot hsave =>
      rcases standsFor_step snapshotFilenames_ne h.stands hsave with ⟨b, hb, hstands⟩
      cases hb
      have hoffers := h.offers.start
        ⟨s.server.hashtable, h.server.table, h.server.table.consistent, hsnapshot⟩
      exact ⟨_, lifeInvariant_file h hstands hoffers rfl (fun _ => ⟨hdue, hsnapshot.symm⟩)⟩
  | write hsave =>
      rcases standsFor_step snapshotFilenames_ne h.stands hsave with ⟨b, hb, hstands⟩
      cases hb
      cases hsave with
      | write hstage =>
          refine ⟨a, lifeInvariant_file h hstands h.offers rfl (fun _ => h.saving ?_)⟩
          simp [hstage]
  | sync hsave =>
      rcases standsFor_step snapshotFilenames_ne h.stands hsave with ⟨b, hb, hstands⟩
      cases hb
      cases hsave with
      | sync hstage =>
          refine ⟨a, lifeInvariant_file h hstands h.offers rfl (fun _ => h.saving ?_)⟩
          simp [hstage]
  | rename hsave =>
      rcases standsFor_step snapshotFilenames_ne h.stands hsave with ⟨b, hb, hstands⟩
      cases hb with
      | rename hpending =>
          have hoffers := h.offers.rename hpending
          cases hsave with
          | rename hstage =>
              have hbusy : s.files.stage ≠ .idle := by simp [hstage]
              exact ⟨_, lifeInvariant_rename h hstands hoffers hbusy rfl hpending rfl⟩
  | saveFails hdue =>
      refine ⟨_, lifeInvariant_of_down ?_ h.built h.stands.giveUp h.offers.giveUp rfl ?_ ?_
        h.bounded⟩
      · exact CoverageInvariant.of_isPlain isPlain_stopped h.server.table h.server.published
      · simp [IsSyncing]
      · exact fun hrunning => absurd rfl hrunning
  | kill =>
      exact ⟨_, lifeInvariant_crashed h.stands.giveUp h.offers.giveUp⟩
  | powerLoss hloss =>
      rcases h.stands.powerLoss hloss with ⟨hmem, hstands⟩
      exact ⟨_, lifeInvariant_crashed hstands (h.offers.powerLoss hmem)⟩

/-- In every life over the chain, some version history of the snapshot file explains the
data directory. -/
theorem lifeInvariant_run {s : SpendLife σ} {inputs : List LifeInput}
    (hchain : CoverableChain U chain)
    (hrun : Run (StepOver config xxh64 engine chain) init inputs s) :
    exists a, LifeInvariant U xxh64 engine chain config.snapshotInterval s a := by
  apply hrun.invariant (fun _ _ _ hkept hstep => ?_)
  · exact ⟨_, lifeInvariant_crashed (standsFor_empty _ _) (AtomicFile.offers_missing _)⟩
  · rcases hkept with ⟨a, h⟩
    exact lifeInvariant_step hchain h hstep

end Steps

end SpendLife

end Nullifier
end SpendabilityPir
