import SpendabilityPir.Nullifier.PublishedAnswers
import SpendabilityPir.Nullifier.SpendPublication

/-!
# Where entries come from

Every entry of the table was made from a nullifier of a block that lightwalletd served,
whatever it served: also over reorgs, after an insertion that ran out of room, and after
blocks were rolled back or evicted.
-/

namespace SpendabilityPir
namespace Nullifier

open Foundation Shared

/-- The entry is the one made for a nullifier of a served block. -/
def MadeFrom (Served : CompactBlock -> Prop) (entry : NullifierEntry) : Prop :=
  exists block priorTreeSize nwm, Served block ∧
    nwm ∈ (extractNullifiersWithMeta block priorTreeSize).1 ∧
    entry = HashTableDb.entryOf (UInt32.ofNat block.height.toNat) nwm

namespace HashTableDb

section Entries

variable {P : NullifierEntry -> Prop}

/-- Every occupied slot of the buckets has an entry of a kind. -/
def BucketsFrom (P : NullifierEntry -> Prop) (buckets : Fin numBuckets -> Bucket) : Prop :=
  forall slot, (entryAt buckets slot).isEmpty = false -> P (entryAt buckets slot)

def EntriesFrom (P : NullifierEntry -> Prop) (db : HashTableDb) : Prop :=
  BucketsFrom P db.buckets

theorem entriesFrom_new : EntriesFrom P new := by
  intro slot hfull
  have hzero : entryAt new.buckets slot = NullifierEntry.zero := by
    unfold entryAt
    split <;> rfl
  rw [hzero, NullifierEntry.isEmpty_zero] at hfull
  cases hfull

theorem EntriesFrom.mono {Q : NullifierEntry -> Prop} {db : HashTableDb}
    (h : db.EntriesFrom P) (himp : forall entry, P entry -> Q entry) : db.EntriesFrom Q :=
  fun slot hfull => himp _ (h slot hfull)

theorem EntriesFrom.putEntry {db : HashTableDb} (h : db.EntriesFrom P)
    {b : Fin numBuckets} {i : Fin bucketCapacity} {entry : NullifierEntry}
    (hentry : P entry) : (db.putEntry b i entry).EntriesFrom P := by
  intro slot hfull
  rw [entryAt_putEntry] at hfull ⊢
  split
  · exact hentry
  · next hother =>
      rw [if_neg hother] at hfull
      exact h slot hfull

theorem bucketsFrom_removeSlots {slots : List (Nat × Nat)}
    {buckets buckets' : Fin numBuckets -> Bucket} (h : BucketsFrom P buckets)
    (hremove : removeSlots buckets slots = some buckets') : BucketsFrom P buckets' := by
  intro slot hfull
  rw [entryAt_removeSlots hremove] at hfull ⊢
  split at hfull
  · rw [NullifierEntry.isEmpty_zero] at hfull
    cases hfull
  · next hkept =>
      rw [if_neg hkept]
      exact h slot hfull

/-- The loop of an insertion, whether it ran out of room or not. -/
theorem entriesFrom_insertNullifiers {spendHeight : UInt32}
    {nullifiers : List NullifierWithMeta} {db db' : HashTableDb}
    {slots : List (Nat × Nat)} {result : Except HashTableError (List (Nat × Nat))}
    (h : db.EntriesFrom P)
    (hnullifiers : forall nwm, nwm ∈ nullifiers -> P (entryOf spendHeight nwm))
    (hinsert : insertNullifiers spendHeight db slots nullifiers = (db', result)) :
    db'.EntriesFrom P := by
  induction nullifiers generalizing db slots with
  | nil =>
      cases hinsert
      exact h
  | cons nwm rest ih =>
      unfold insertNullifiers at hinsert
      cases hfree : (db.buckets (hashToBucket nwm.nullifier)).findFreeSlot with
      | none =>
          simp only [hfree] at hinsert
          cases hinsert
          exact h
      | some slot =>
          simp only [hfree] at hinsert
          have hput := h.putEntry (b := hashToBucket nwm.nullifier) (i := slot)
            (hnullifiers nwm List.mem_cons_self)
          exact ih hput (fun other hmem => hnullifiers other (List.mem_cons_of_mem _ hmem))
            hinsert

theorem entriesFrom_insertBlock {db db' : HashTableDb} {height : Nat}
    {blockHash : ByteVec 32} {nullifiers : List NullifierWithMeta}
    {result : Except HashTableError Unit} (h : db.EntriesFrom P)
    (hnullifiers : forall nwm, nwm ∈ nullifiers -> P (entryOf (UInt32.ofNat height) nwm))
    (hinsert : db.insertBlock height blockHash nullifiers = (db', result)) :
    db'.EntriesFrom P := by
  unfold insertBlock at hinsert
  split at hinsert
  · next hloop =>
      cases hinsert
      exact entriesFrom_insertNullifiers h hnullifiers hloop
  · next inserted slots hloop =>
      cases hinsert
      exact show inserted.EntriesFrom P from entriesFrom_insertNullifiers h hnullifiers hloop

theorem entriesFrom_removeRecord {db db' : HashTableDb} {record : BlockRecord}
    (h : db.EntriesFrom P) (hremove : removeRecord db record = some db') :
    db'.EntriesFrom P := by
  rcases removeRecord_eq_some hremove with ⟨buckets, hslots, heq⟩
  rw [heq]
  exact bucketsFrom_removeSlots h hslots

theorem entriesFrom_rollbackBlock {db db' : HashTableDb} {blockHash : ByteVec 32}
    {result : Except HashTableError Unit} (h : db.EntriesFrom P)
    (hrollback : db.rollbackBlock blockHash = some (db', result)) : db'.EntriesFrom P := by
  unfold rollbackBlock at hrollback
  split at hrollback
  · cases hrollback
    exact h
  · next height _ =>
      split at hrollback
      · cases hrollback
        exact h
      · split at hrollback
        · cases hrollback
        · next removed hremove =>
            cases hrollback
            have hforgotten : ((db.forgetHash blockHash).forgetHeight height).EntriesFrom P := h
            exact entriesFrom_removeRecord hforgotten hremove

theorem entriesFrom_evictOldestBlock {db db' : HashTableDb} {height : Option Nat}
    (h : db.EntriesFrom P) (hevict : db.evictOldestBlock = some (db', height)) :
    db'.EntriesFrom P := by
  unfold evictOldestBlock at hevict
  split at hevict
  · cases hevict
    exact h
  · next oldestHeight record _ =>
      split at hevict
      · cases hevict
      · next removed hremove =>
          cases hevict
          have hforgotten :
              ((db.forgetHeight oldestHeight).forgetHash record.blockHash).EntriesFrom P := h
          exact entriesFrom_removeRecord hforgotten hremove

theorem entriesFrom_evictToTarget {db db' : HashTableDb} (h : db.EntriesFrom P)
    (hevict : db.evictToTarget = some db') : db'.EntriesFrom P := by
  have hrounds := evictionRounds_of_evictToTarget hevict
  clear hevict
  induction hrounds with
  | done _ => exact h
  | empty hround => exact entriesFrom_evictOldestBlock h hround
  | round _ hround _ ih => exact ih (entriesFrom_evictOldestBlock h hround)

end Entries

end HashTableDb

/-!
## Events
-/

section Events

variable {P : NullifierEntry -> Prop} {hashtable hashtable' : HashTableDb}

def EventFrom (P : NullifierEntry -> Prop) : ChainEvent -> Prop
  | .newBlock height _ _ nullifiers =>
      forall nwm, nwm ∈ nullifiers -> P (HashTableDb.entryOf (UInt32.ofNat height) nwm)
  | .reorg _ newBlocks => forall block, block ∈ newBlocks -> forall nwm,
      nwm ∈ block.nullifiers -> P (HashTableDb.entryOf (UInt32.ofNat block.height) nwm)

theorem entriesFrom_insertOrFail {height : Nat} {hash : ByteVec 32}
    {nullifiers : List NullifierWithMeta} (h : hashtable.EntriesFrom P)
    (hnullifiers : forall nwm, nwm ∈ nullifiers ->
      P (HashTableDb.entryOf (UInt32.ofNat height) nwm))
    (hinsert : insertOrFail hashtable height hash nullifiers = .ok hashtable') :
    hashtable'.EntriesFrom P :=
  HashTableDb.entriesFrom_insertBlock h hnullifiers (insertOrFail_eq_ok.mp hinsert)

theorem entriesFrom_insertNewBlocks {blocks : List NewBlock} (h : hashtable.EntriesFrom P)
    (hblocks : forall block, block ∈ blocks -> forall nwm, nwm ∈ block.nullifiers ->
      P (HashTableDb.entryOf (UInt32.ofNat block.height) nwm))
    (hinsert : insertNewBlocks hashtable blocks = .ok hashtable') :
    hashtable'.EntriesFrom P := by
  induction blocks generalizing hashtable with
  | nil =>
      cases hinsert
      exact h
  | cons block rest ih =>
      rcases bind_eq_ok.mp hinsert with ⟨inserted, hfirst, hrest⟩
      have hmid := entriesFrom_insertOrFail h (hblocks block List.mem_cons_self) hfirst
      exact ih hmid (fun other hother => hblocks other (List.mem_cons_of_mem _ hother)) hrest

theorem entriesFrom_rollbackOrphaned {blocks : List OrphanedBlock}
    (h : hashtable.EntriesFrom P)
    (hrollback : rollbackOrphaned hashtable blocks = some hashtable') :
    hashtable'.EntriesFrom P := by
  induction blocks generalizing hashtable with
  | nil =>
      cases hrollback
      exact h
  | cons block rest ih =>
      unfold rollbackOrphaned at hrollback
      split at hrollback
      · cases hrollback
      · next rolledBack result hone =>
          exact ih (HashTableDb.entriesFrom_rollbackBlock h hone) hrollback

theorem entriesFrom_applyEvent {event : ChainEvent} (h : hashtable.EntriesFrom P)
    (hevent : EventFrom P event) (happly : applyEvent hashtable event = .ok hashtable') :
    hashtable'.EntriesFrom P := by
  cases event with
  | newBlock height hash prevHash nullifiers =>
      rcases bind_eq_ok.mp happly with ⟨inserted, hinsert, hevict⟩
      exact HashTableDb.entriesFrom_evictToTarget (entriesFrom_insertOrFail h hevent hinsert)
        (Outcome.ofPanics_eq_ok.mp hevict)
  | reorg orphaned newBlocks =>
      rcases bind_eq_ok.mp happly with ⟨rolledBack, hrollback, hrest⟩
      rcases bind_eq_ok.mp hrest with ⟨inserted, hinsert, hevict⟩
      have hmid := entriesFrom_rollbackOrphaned h (Outcome.ofPanics_eq_ok.mp hrollback)
      exact HashTableDb.entriesFrom_evictToTarget
        (entriesFrom_insertNewBlocks hmid hevent hinsert) (Outcome.ofPanics_eq_ok.mp hevict)

variable {Served : CompactBlock -> Prop}

theorem entriesFrom_insertEvents {priorTreeSize : Option UInt32} {blocks : List CompactBlock}
    (h : hashtable.EntriesFrom (MadeFrom Served))
    (hblocks : forall block, block ∈ blocks -> Served block)
    (hinsert : insertEvents hashtable (emitBlocks newBlockEvent priorTreeSize blocks) =
      .ok hashtable') : hashtable'.EntriesFrom (MadeFrom Served) := by
  induction blocks generalizing hashtable priorTreeSize with
  | nil =>
      cases hinsert
      exact h
  | cons block rest ih =>
      rcases bind_eq_ok.mp hinsert with ⟨inserted, hfirst, hrest⟩
      have hmid := entriesFrom_insertOrFail h
        (fun nwm hmem => ⟨block, priorTreeSize, nwm, hblocks block List.mem_cons_self, hmem,
          rfl⟩) hfirst
      exact ih hmid (fun other hother => hblocks other (List.mem_cons_of_mem _ hother)) hrest

theorem eventFrom_followBlocks {st : FollowState} {blocks : List CompactBlock}
    (hblocks : forall block, block ∈ blocks -> Served block) {event : ChainEvent}
    (h : event ∈ (st.followBlocks followEvents blocks).2) :
    EventFrom (MadeFrom Served) event := by
  induction blocks generalizing st with
  | nil => cases h
  | cons block rest ih =>
      rcases List.mem_append.mp h with hhead | htail
      · have hserved := hblocks block List.mem_cons_self
        unfold followEvents at hhead
        split at hhead
        · rw [List.mem_singleton.mp hhead]
          intro nwm hmem
          exact ⟨block, _, nwm, hserved, hmem, rfl⟩
        · rw [List.mem_singleton.mp hhead]
          intro other hother nwm hmem
          rw [List.mem_singleton.mp hother] at hmem ⊢
          exact ⟨block, _, nwm, hserved, hmem, rfl⟩
      · exact ih (fun other hother => hblocks other (List.mem_cons_of_mem _ hother)) htail

theorem mem_view_of_mem_fetchBatches {connection : Connection} {current toHeight : Nat}
    {block : CompactBlock} (h : block ∈ fetchBatches connection current toHeight) :
    block ∈ connection.view := by
  induction current using fetchBatches.induct connection toHeight with
  | case1 current hle hfail =>
      rw [fetchBatches_of_fails hfail] at h
      cases h
  | case2 current hle blocks hblocks ih =>
      rw [fetchBatches_of_some hle hblocks] at h
      rcases List.mem_append.mp h with hhead | htail
      · exact (Connection.mem_getBlockRange hblocks hhead).1
      · exact ih htail
  | case3 current hgt =>
      rw [fetchBatches_of_gt connection hgt] at h
      cases h

theorem mem_view_of_mem_newBlocks {st : FollowState} {view : ChainView} {block : CompactBlock}
    (h : block ∈ st.newBlocks view) : block ∈ view := by
  unfold FollowState.newBlocks at h
  split at h
  · cases h
  · exact List.mem_of_mem_filter h

theorem entriesFrom_syncRange {connection : Option Connection} {fromHeight toHeight : Nat}
    (h : hashtable.EntriesFrom (MadeFrom Served))
    (hserved : forall c, connection = some c -> forall block, block ∈ c.view -> Served block)
    (hsync : syncRange connection fromHeight toHeight hashtable none = .ok hashtable') :
    hashtable'.EntriesFrom (MadeFrom Served) := by
  unfold syncRange at hsync
  split at hsync
  · cases hsync
    exact h
  · cases connection with
    | none => cases hsync
    | some c =>
        exact entriesFrom_insertEvents h
          (fun block hmem => hserved c rfl block (mem_view_of_mem_fetchBatches hmem)) hsync

end Events

/-!
## The server
-/

section Server

variable {σ : Type} {Served : CompactBlock -> Prop} {engine : PirEngine σ}
variable {config : ServerConfig}

/-- The state was built of a table whose entries were made from served blocks. -/
def PirState.ReportsFrom (pir : PirState σ) (engine : PirEngine σ)
    (Served : CompactBlock -> Prop) : Prop :=
  exists hashtable : HashTableDb, hashtable.EntriesFrom (MadeFrom Served) ∧
    rebuildPir engine hashtable scenario = .ok pir

/-- Whatever is served, it is of these blocks, and so is a snapshot. -/
def ServedOf (Served : CompactBlock -> Prop) : ServerInput -> Prop
  | .connect _ snapshot => forall hashtable, snapshot = some hashtable ->
      hashtable.EntriesFrom (MadeFrom Served)
  | .range connection => forall c, connection = some c ->
      forall block, block ∈ c.view -> Served block
  | .poll view => forall block, block ∈ view -> Served block
  | _ => True

/-- The table, the queued events and what is published are made from served blocks. -/
structure MadeInvariant (Served : CompactBlock -> Prop) (engine : PirEngine σ)
    (s : SpendServer σ) : Prop where
  table : s.hashtable.EntriesFrom (MadeFrom Served)
  queued : forall task queue, s.stage = .follow task queue ->
    forall event, event ∈ queue -> EventFrom (MadeFrom Served) event
  published : forall pir, s.livePir = some pir -> pir.ReportsFrom engine Served

theorem MadeInvariant.of_isPlain {s : SpendServer σ} (hplain : IsPlain s.stage)
    (htable : s.hashtable.EntriesFrom (MadeFrom Served))
    (hpublished : forall pir, s.livePir = some pir -> pir.ReportsFrom engine Served) :
    MadeInvariant Served engine s where
  table := htable
  queued := fun _ _ hstage => absurd hstage (hplain.2 _ _)
  published := hpublished

theorem madeInvariant_init : MadeInvariant Served engine SpendServer.init where
  table := HashTableDb.entriesFrom_new
  queued := fun _ _ hstage => by cases hstage
  published := fun _ hpir => by cases hpir

theorem madeInvariant_connect {s : SpendServer σ} {tipHeight : Nat}
    {snapshot : Option HashTableDb} (h : MadeInvariant Served engine s)
    (hserved : ServedOf Served (.connect tipHeight snapshot)) :
    MadeInvariant Served engine (s.connect config tipHeight snapshot) := by
  have htable : (snapshot.getD HashTableDb.new).EntriesFrom (MadeFrom Served) := by
    cases snapshot with
    | none => exact HashTableDb.entriesFrom_new
    | some hashtable => exact hserved hashtable rfl
  unfold SpendServer.connect
  dsimp only
  split
  · exact ⟨htable, fun _ _ hstage => (nomatch hstage), h.published⟩
  · exact .of_isPlain (isPlain_afterForward _ _ _ _) htable h.published

theorem madeInvariant_syncStage {s : SpendServer σ} {connection : Option Connection}
    {start stop : Nat} {next : HashTableDb -> Stage} (h : MadeInvariant Served engine s)
    (hserved : forall c, connection = some c -> forall block, block ∈ c.view -> Served block)
    (hnext : forall hashtable, IsPlain (next hashtable)) :
    MadeInvariant Served engine (s.syncStage connection start stop next) := by
  unfold SpendServer.syncStage
  cases hsync : syncRange connection start stop s.hashtable none with
  | error e => exact .of_isPlain isPlain_stopped h.table h.published
  | ok hashtable =>
      exact .of_isPlain (hnext hashtable) (entriesFrom_syncRange h.table hserved hsync)
        h.published

theorem madeInvariant_publish {s : SpendServer σ} (h : MadeInvariant Served engine s) :
    MadeInvariant Served engine (s.publish engine) := by
  unfold SpendServer.publish
  split
  · exact .of_isPlain isPlain_stopped h.table h.published
  · next hashtable hevict =>
      have htable := HashTableDb.entriesFrom_evictToTarget h.table hevict
      split
      · exact .of_isPlain isPlain_stopped htable h.published
      · next pir hrebuild =>
          constructor
          · exact htable
          · intro task queue hstage event hmem
            cases hstage
            cases hmem
          · intro found hfound
            cases hfound
            exact ⟨hashtable, htable, hrebuild⟩

theorem madeInvariant_poll {s : SpendServer σ} {st : FollowState}
    {queue : List ChainEvent} {view : ChainView} (h : MadeInvariant Served engine s)
    (hstage : s.stage = .follow (some st) queue)
    (hserved : forall block, block ∈ view -> Served block) :
    MadeInvariant Served engine
      { s with
        stage := Stage.follow (some (followPoll st view).1)
          (queue ++ (followPoll st view).2) } := by
  constructor
  · exact h.table
  · intro task queue' hstage' event hmem
    cases hstage'
    rcases List.mem_append.mp hmem with hold | hnew
    · exact h.queued _ _ hstage event hold
    · exact eventFrom_followBlocks
        (fun block hblock => hserved block (mem_view_of_mem_newBlocks hblock)) hnew
  · exact h.published

theorem madeInvariant_handle {s : SpendServer σ} {task : Option FollowState}
    {event : ChainEvent} {rest : List ChainEvent} (h : MadeInvariant Served engine s)
    (hstage : s.stage = .follow task (event :: rest)) :
    MadeInvariant Served engine (s.handle engine task event rest) := by
  unfold SpendServer.handle
  split
  · exact .of_isPlain isPlain_stopped h.table h.published
  · next hashtable pir hhandle =>
      rcases handleEvent_eq_ok hhandle with ⟨happly, hrebuild⟩
      have hevent := h.queued _ _ hstage event List.mem_cons_self
      have htable := entriesFrom_applyEvent h.table hevent happly
      constructor
      · exact htable
      · intro task' queue' hstage' other hmem
        cases hstage'
        exact h.queued _ _ hstage other (List.mem_cons_of_mem _ hmem)
      · intro found hfound
        cases hfound
        exact ⟨hashtable, htable, hrebuild⟩

theorem madeInvariant_step {s s' : SpendServer σ} {input : ServerInput}
    (h : MadeInvariant Served engine s) (hserved : ServedOf Served input)
    (hstep : s.step config engine input = some s') : MadeInvariant Served engine s' := by
  cases SpendServer.moves_of_step hstep with
  | connect _ => exact madeInvariant_connect h hserved
  | forward _ =>
      exact madeInvariant_syncStage h hserved (fun _ => isPlain_afterForward _ _ _ _)
  | backfill _ =>
      exact madeInvariant_syncStage h hserved (fun _ => isPlain_afterBackfill _ _ _)
  | publish _ => exact madeInvariant_publish h
  | poll hstage => exact madeInvariant_poll h hstage hserved
  | requestFails hstage =>
      refine ⟨h.table, ?_, h.published⟩
      intro task queue hstage' event hmem
      cases hstage'
      exact h.queued _ _ hstage event hmem
  | handle hstage => exact madeInvariant_handle h hstage

end Server

/-!
## What the rows report
-/

/-- What a scan of the database finds was made from a nullifier of a served block. -/
theorem madeFrom_of_scan {Served : CompactBlock -> Prop} {hashtable : HashTableDb}
    (h : hashtable.EntriesFrom (MadeFrom Served)) {nf : ByteVec 32}
    (hnf : nf ≠ ByteVec.zeros 32) {found : SpendMetadata}
    (hfound : scanBucketForNf (rowFor hashtable.toPirBytes nf) nf = some found) :
    exists block priorTreeSize nwm, Served block ∧
      nwm ∈ (extractNullifiersWithMeta block priorTreeSize).1 ∧ nwm.nullifier = nf ∧
      found = { spendHeight := UInt32.ofNat block.height.toNat
                firstOutputPosition := nwm.firstOutputPosition
                actionCount := nwm.actionCount } := by
  rw [rowFor, HashTableDb.slice_toPirBytes] at hfound
  rcases entry_of_scanBucketForNf hfound with ⟨i, hcarries, hmetadata⟩
  have hentry := HashTableDb.entryAt_val hashtable.buckets (hashToBucket nf) i
  have hfull : ((hashtable.buckets (hashToBucket nf)).entries i).isEmpty = false := by
    rw [NullifierEntry.isEmpty, hcarries]
    exact decide_eq_false hnf
  rcases h _ (hentry ▸ hfull) with ⟨block, priorTreeSize, nwm, hserved, hmem, heq⟩
  rw [hentry] at heq
  refine ⟨block, priorTreeSize, nwm, hserved, hmem, ?_, ?_⟩
  · rw [heq] at hcarries
    exact hcarries
  · rw [hmetadata, heq]
    rfl

/-- What is found in the rows of a state is the metadata of a served block's nullifier. -/
def PirState.ReportsServed {σ : Type} (pir : PirState σ) (engine : PirEngine σ)
    (Served : CompactBlock -> Prop) : Prop :=
  exists bytes, engine.setup bytes scenario = some pir.engineState ∧
    forall nf found, nf ≠ ByteVec.zeros 32 ->
      scanBucketForNf (rowFor bytes nf) nf = some found ->
      exists block priorTreeSize nwm, Served block ∧
        nwm ∈ (extractNullifiersWithMeta block priorTreeSize).1 ∧ nwm.nullifier = nf ∧
        found = { spendHeight := UInt32.ofNat block.height.toNat
                  firstOutputPosition := nwm.firstOutputPosition
                  actionCount := nwm.actionCount }

theorem PirState.ReportsFrom.reportsServed {σ : Type} {pir : PirState σ}
    {engine : PirEngine σ} {Served : CompactBlock -> Prop}
    (h : pir.ReportsFrom engine Served) : pir.ReportsServed engine Served := by
  rcases h with ⟨hashtable, hentries, hrebuild⟩
  unfold rebuildPir at hrebuild
  split at hrebuild
  · cases hrebuild
  · next engineState hsetup =>
      cases hrebuild
      exact ⟨_, hsetup, fun _ _ hnf hfound => madeFrom_of_scan hentries hnf hfound⟩

end Nullifier
end SpendabilityPir
