import SpendabilityPir.Combined.CombinedRun
import SpendabilityPir.Nullifier.SpendEviction
import SpendabilityPir.Nullifier.SpendReorg

/-!
# The configured target size

Both servers pass the configured target size to the backfill only.  The eviction loop
stops at the built-in one, and the follow loop of the combined server publishes the
table of a reorganization without running it.
-/

namespace SpendabilityPir
namespace Combined

open Foundation Shared
open Nullifier (HashTableDb SpendServer ServerConfig servedSize)
open Witness (CommitmentTreeDb MerkleHashOrchard WitnessServer)

/-!
## A turn of the follow loop
-/

/-- The nullifiers of a block, read with the tree size of the loop's task. -/
def blockNullifiers (loop : FollowLoop) (block : CompactBlock) :
    List Nullifier.NullifierWithMeta :=
  (Nullifier.extractNullifiersWithMeta block loop.task.prevTreeSize).1

def withBlock (loop : FollowLoop) (block : CompactBlock) (hashtable : HashTableDb) :
    HashTableDb :=
  (hashtable.insertBlock block.height.toNat (toHashArray block.hash)
    (blockNullifiers loop block)).1

/-- The table a block runs the eviction loop on; a reorganization does not run it. -/
def tableToEvict (loop : FollowLoop) (block : CompactBlock) : Option HashTableDb :=
  match (loop.task.advance block).2 with
  | .extend => loop.databases.hashtable.map (withBlock loop block)
  | .reorg _ => none

/-- The totals at which the blocks of a turn evict one. -/
def blocksEvictions : FollowLoop -> List CompactBlock -> List Nat
  | _, [] => []
  | loop, block :: rest =>
      ((tableToEvict loop block).map HashTableDb.evictedAt).getD [] ++
        match ingestBlock loop block with
        | none => []
        | some loop' => blocksEvictions loop' rest

/-- In a turn over some blocks, `mid` is the loop that ingests `block`, before `rest`. -/
inductive IngestedAt : FollowLoop -> List CompactBlock -> FollowLoop -> CompactBlock ->
    List CompactBlock -> Prop where
  | here {loop : FollowLoop} {block : CompactBlock} {rest : List CompactBlock} :
      IngestedAt loop (block :: rest) loop block rest
  | later {loop loop' mid : FollowLoop} {first block : CompactBlock}
      {others rest : List CompactBlock} :
      ingestBlock loop first = some loop' -> IngestedAt loop' others mid block rest ->
      IngestedAt loop (first :: others) mid block rest

/-- What a turn over some blocks has to meet to stay within `limit`: every eviction is
above it, and the table published at the end fits, be it trimmed for the last block,
rolled back for it, or the one before the turn. -/
structure TurnWithin (limit : Nat) (loop : FollowLoop) (blocks : List CompactBlock) :
    Prop where
  evictions : forall mid block rest hashtable, IngestedAt loop blocks mid block rest ->
    tableToEvict mid block = some hashtable -> hashtable.EvictsOnlyAbove limit
  trims : forall mid block hashtable, IngestedAt loop blocks mid block [] ->
    tableToEvict mid block = some hashtable -> hashtable.TrimsTo limit
  rollback : forall mid block hashtable rollbackTo rolledBack,
    IngestedAt loop blocks mid block [] -> mid.databases.hashtable = some hashtable ->
    (mid.task.advance block).2 = .reorg rollbackTo ->
    rollbackAbove hashtable rollbackTo = some rolledBack ->
    rolledBack.len + (blockNullifiers mid block).length ≤ limit
  unchanged : forall hashtable, blocks = [] -> loop.databases.hashtable = some hashtable ->
    hashtable.len ≤ limit

theorem mem_blocksEvictions {loop : FollowLoop} {blocks : List CompactBlock} {total : Nat}
    (h : total ∈ blocksEvictions loop blocks) :
    exists mid block rest hashtable, IngestedAt loop blocks mid block rest ∧
      tableToEvict mid block = some hashtable ∧ total ∈ hashtable.evictedAt := by
  induction blocks generalizing loop with
  | nil => cases h
  | cons first others ih =>
      rcases List.mem_append.mp h with hnow | hlater
      · cases htable : tableToEvict loop first with
        | none =>
            rw [htable] at hnow
            cases hnow
        | some hashtable =>
            rw [htable] at hnow
            exact ⟨loop, first, others, hashtable, .here, htable, hnow⟩
      · split at hlater
        · cases hlater
        · next loop' hingest =>
            rcases ih hlater with ⟨mid, block, rest, hashtable, hat, htable, hmem⟩
            exact ⟨mid, block, rest, hashtable, .later hingest hat, htable, hmem⟩

theorem ingestedAt_last {loop loop' : FollowLoop} {first : CompactBlock}
    {others : List CompactBlock} (h : ingestBlocks loop (first :: others) = some loop') :
    exists mid block, IngestedAt loop (first :: others) mid block [] ∧
      ingestBlock mid block = some loop' := by
  induction others generalizing loop first with
  | nil =>
      unfold ingestBlocks at h
      split at h
      · cases h
      · next mid hingest =>
          cases h
          exact ⟨loop, first, .here, hingest⟩
  | cons second others ih =>
      unfold ingestBlocks at h
      split at h
      · cases h
      · next next hingest =>
          rcases ih h with ⟨mid, block, hat, hlast⟩
          exact ⟨mid, block, .later hingest hat, hlast⟩

theorem hashtable_ingestBlock {loop loop' : FollowLoop} {block : CompactBlock}
    {hashtable' : HashTableDb} (h : ingestBlock loop block = some loop')
    (hafter : loop'.databases.hashtable = some hashtable') :
    (exists hashtable, tableToEvict loop block = some hashtable ∧
      hashtable.evictToTarget = some hashtable') ∨
    exists hashtable rollbackTo rolledBack, loop.databases.hashtable = some hashtable ∧
      (loop.task.advance block).2 = .reorg rollbackTo ∧
      rollbackAbove hashtable rollbackTo = some rolledBack ∧
      hashtable' = withBlock loop block rolledBack := by
  rcases ingestBlock_cases h with
    ⟨_, _, ⟨_, hnone⟩ | ⟨hashtable, ingested, htable, htable', hingest⟩⟩
  · rw [hnone] at hafter
    cases hafter
  · rw [htable'] at hafter
    cases hafter
    cases haction : (loop.task.advance block).2 with
    | extend =>
        rw [haction] at hingest
        refine Or.inl ⟨withBlock loop block hashtable, ?_, hingest⟩
        rw [tableToEvict, haction, htable]
        rfl
    | reorg rollbackTo =>
        rw [haction] at hingest
        rcases Option.map_eq_some_iff.mp hingest with ⟨rolledBack, hrollback, heq⟩
        exact Or.inr ⟨hashtable, rollbackTo, rolledBack, htable, rfl, hrollback, heq.symm⟩

/-- A turn within a limit leaves a table within it. -/
theorem TurnWithin.len_le {limit : Nat} {loop loop' : FollowLoop}
    {blocks : List CompactBlock} (hwithin : TurnWithin limit loop blocks)
    (h : ingestBlocks loop blocks = some loop') {hashtable : HashTableDb}
    (hafter : loop'.databases.hashtable = some hashtable) : hashtable.len ≤ limit := by
  cases blocks with
  | nil =>
      cases h
      exact hwithin.unchanged hashtable rfl hafter
  | cons first others =>
      rcases ingestedAt_last h with ⟨mid, block, hat, hlast⟩
      rcases hashtable_ingestBlock hlast hafter with ⟨inserted, htable, hevict⟩ |
        ⟨before, rollbackTo, rolledBack, hbefore, haction, hrollback, heq⟩
      · exact (HashTableDb.trimsTo_iff hevict).mp (hwithin.trims mid block inserted hat htable)
      · have hfits := hwithin.rollback mid block before rollbackTo rolledBack hat hbefore
          haction hrollback
        rw [heq]
        exact (rolledBack.len_insertBlock_le _ _ _).trans hfits

theorem TurnWithin.lt_of_mem {limit : Nat} {loop : FollowLoop} {blocks : List CompactBlock}
    (hwithin : TurnWithin limit loop blocks) {total : Nat}
    (h : total ∈ blocksEvictions loop blocks) : limit < total := by
  rcases mem_blocksEvictions h with ⟨mid, block, rest, hashtable, hat, htable, hmem⟩
  exact (hwithin.evictions mid block rest hashtable hat htable).evictedAt hmem

/-!
## The follow loop
-/

namespace CombinedServer

variable {σ τ : Type}

theorem servedSize_publish {M : MerkleHashOrchard} {nfEngine : PirEngine σ}
    {witEngine : PirEngine τ} {s : CombinedServer σ τ} {size : Nat}
    (h : size ∈ servedSize (s.publish M nfEngine witEngine).nfPir) :
    size ∈ servedSize s.nfPir ∨
      exists hashtable, s.loop.databases.hashtable = some hashtable ∧ size = hashtable.len := by
  rcases h with ⟨pir, hpir, hsize⟩
  rcases nfPir_publish hpir with hold | ⟨hashtable, htable, hrebuild⟩
  · exact Or.inl ⟨pir, hold, hsize⟩
  · rw [Nullifier.numNullifiers_rebuildPir hrebuild] at hsize
    exact Or.inr ⟨hashtable, htable, hsize.symm⟩

/-- A turn that finds nothing new neither evicts nor publishes. -/
def pollEvictions (s : CombinedServer σ τ) (view : ChainView) : List Nat :=
  if view.tipHeight ≤ s.loop.task.currentHeight then []
  else blocksEvictions s.loop (s.loop.task.newBlocks view)

def PollWithin (limit : Nat) (s : CombinedServer σ τ) (view : ChainView) : Prop :=
  s.loop.task.currentHeight < view.tipHeight ->
    TurnWithin limit s.loop (s.loop.task.newBlocks view)

theorem servedSize_poll {M : MerkleHashOrchard} {nfEngine : PirEngine σ}
    {witEngine : PirEngine τ} {limit : Nat} {s s' : CombinedServer σ τ} {view : ChainView}
    (h : s.poll M nfEngine witEngine view = some s') (hwithin : s.PollWithin limit view)
    {size : Nat} (hmem : size ∈ servedSize s'.nfPir) :
    size ∈ servedSize s.nfPir ∨ size ≤ limit := by
  rcases poll_cases h with
    ⟨_, ⟨_, hsame⟩ | ⟨_, _, hstopped⟩ | ⟨loop, hnew, hingest, hpublished⟩⟩
  · rw [hsame] at hmem
    exact Or.inl hmem
  · rw [hstopped] at hmem
    exact Or.inl hmem
  · rw [hpublished] at hmem
    rcases servedSize_publish hmem with hold | ⟨hashtable, htable, heq⟩
    · exact Or.inl hold
    · rw [heq]
      exact Or.inr ((hwithin hnew).len_le hingest htable)

theorem lt_of_mem_pollEvictions {limit : Nat} {s : CombinedServer σ τ} {view : ChainView}
    (hwithin : s.PollWithin limit view) {total : Nat} (h : total ∈ s.pollEvictions view) :
    limit < total := by
  unfold pollEvictions at h
  split at h
  · cases h
  · next hnew => exact (hwithin (Nat.lt_of_not_le hnew)).lt_of_mem h

end CombinedServer

/-!
## The server
-/

/-- The table the catch-up of the nullifiers runs the eviction loop on; it is not
published. -/
def catchUpTable (connection : Option Connection) : Databases -> Option HashTableDb
  | { hashtable := some hashtable, tree := some tree } =>
      let nfLatest := hashtable.latestHeight.getD 0
      let witLatest := tree.latestHeight.getD 0
      if nfLatest < witLatest then
        match Nullifier.syncRange connection (nfLatest + 1) witLatest hashtable none with
        | .error _ => none
        | .ok synced => some synced
      else none
  | _ => none

namespace CombinedState

variable {σ τ : Type}

/-- The numbers of nullifiers of the tables the server serves. -/
def servedSizes : CombinedState σ τ -> Set Nat
  | .syncing nullifier _ => servedSize (nullifier.bind SpendServer.livePir)
  | .following server => servedSize server.nfPir

def evictions (s : CombinedState σ τ) : CombinedInput -> List Nat
  | .nullifier input =>
      match s with
      | .syncing (some server) _ => server.evictions input
      | _ => []
  | .witness _ _ _ _ => []
  | .enter connection =>
      match s with
      | .syncing nullifier witness =>
          ((catchUpTable connection (syncedDatabases nullifier witness)).map
            HashTableDb.evictedAt).getD []
      | .following _ => []
  | .poll view =>
      match s with
      | .syncing _ _ => []
      | .following server => server.pollEvictions view

/-- What a step has to meet to stay within `limit`. -/
def Within (limit : Nat) (s : CombinedState σ τ) : CombinedInput -> Prop
  | .nullifier input =>
      match s with
      | .syncing (some server) _ => server.Within limit input
      | _ => True
  | .witness _ _ _ _ => True
  | .enter connection =>
      match s with
      | .syncing nullifier witness =>
          forall hashtable, catchUpTable connection (syncedDatabases nullifier witness) =
            some hashtable -> hashtable.EvictsOnlyAbove limit
      | .following _ => True
  | .poll view =>
      match s with
      | .syncing _ _ => True
      | .following server => server.PollWithin limit view

theorem servedSizes_step {M : MerkleHashOrchard} {config : ServerConfig}
    {nfEngine : PirEngine σ} {witEngine : PirEngine τ} {limit : Nat}
    {s s' : CombinedState σ τ} {input : CombinedInput}
    (h : CombinedRunStep M config nfEngine witEngine s input s')
    (hwithin : s.Within limit input) {size : Nat} (hmem : size ∈ s'.servedSizes) :
    size ∈ s.servedSizes ∨ size ≤ limit := by
  cases h with
  | nullifier _ hstep => exact SpendServer.served_within hstep hwithin hmem
  | witness _ => exact Or.inl hmem
  | enter _ _ _ => exact Or.inl hmem
  | poll hpoll => exact CombinedServer.servedSize_poll hpoll hwithin hmem

theorem lt_of_mem_evictions {M : MerkleHashOrchard} {config : ServerConfig}
    {nfEngine : PirEngine σ} {witEngine : PirEngine τ} {limit : Nat}
    {s s' : CombinedState σ τ} {input : CombinedInput}
    (h : CombinedRunStep M config nfEngine witEngine s input s')
    (hwithin : s.Within limit input) {total : Nat} (hmem : total ∈ s.evictions input) :
    limit < total := by
  cases h with
  | nullifier _ _ => exact SpendServer.evictions_within hwithin hmem
  | witness _ => cases hmem
  | @enter nullifier witness connection databases _ _ _ =>
      cases htable : catchUpTable connection (syncedDatabases nullifier witness) with
      | none =>
          rw [evictions, htable] at hmem
          cases hmem
      | some hashtable =>
          rw [evictions, htable] at hmem
          exact (hwithin hashtable htable).evictedAt hmem
  | poll _ => exact CombinedServer.lt_of_mem_pollEvictions hwithin hmem

end CombinedState

def combinedEvictor {σ τ : Type} (M : MerkleHashOrchard) (config : ServerConfig)
    (nfEngine : PirEngine σ) (witEngine : PirEngine τ) :
    Evictor (CombinedState σ τ) CombinedInput where
  Step := CombinedRunStep M config nfEngine witEngine
  evictions := CombinedState.evictions
  served := CombinedState.servedSizes
  Within := CombinedState.Within
  served_step _ _ _ _ h hwithin _ hmem := CombinedState.servedSizes_step h hwithin hmem
  evictions_step _ _ _ _ h hwithin _ hmem := CombinedState.lt_of_mem_evictions h hwithin hmem

/-- In a run of either server whose steps reach the configured target size and the
built-in one at once, and which publishes no larger table after a reorganization, every
published table holds at most the configured number of nullifiers, and blocks are evicted
only above it. -/
theorem target_size_honoured {σ τ : Type} {M : MerkleHashOrchard} {config : ServerConfig}
    {nfEngine : PirEngine σ} {witEngine : PirEngine τ} :
    (forall inputs o,
      (Nullifier.spendEvictor config nfEngine).WithinRun config.targetSize SpendServer.init
        inputs o ->
      (Nullifier.spendEvictor config nfEngine).Honours config.targetSize o) ∧
    forall nullifier witness inputs o,
      (combinedEvictor M config nfEngine witEngine).WithinRun config.targetSize
        (startingServer σ τ nullifier witness) inputs o ->
      (combinedEvictor M config nfEngine witEngine).Honours config.targetSize o := by
  constructor
  · intro inputs o hrun
    apply Evictor.honours_run hrun
    ext size
    simp [Nullifier.spendEvictor, servedSize, SpendServer.init]
  · intro nullifier witness inputs o hrun
    apply Evictor.honours_run hrun
    ext size
    cases nullifier <;>
      simp [combinedEvictor, startingServer, CombinedState.servedSizes, servedSize,
        SpendServer.init]

/-!
## A target size of one

The server restarts from the snapshot of block 1.
-/

open Nullifier (acceptingEngine drained)
open Nullifier.HashTableDb (oneNullifier)

def configOne : ServerConfig := { targetSize := 1 }

def otherNullifier : Nullifier.NullifierWithMeta :=
  { nullifier := ByteVec.ofBytes 32 [2], firstOutputPosition := 4, actionCount := 2 }

def tableOf (nullifiers : List Nullifier.NullifierWithMeta) : HashTableDb :=
  (HashTableDb.new.insertBlock 1 (ByteVec.zeros 32) nullifiers).1

def loadedFrom (hashtable : HashTableDb) : SpendServer Unit :=
  { hashtable := hashtable, livePir := none, stage := .synced }

theorem step_loaded {hashtable : HashTableDb} (h : hashtable.latestHeight = some 1) :
    SpendServer.init.step configOne acceptingEngine (.connect 1 (some hashtable)) =
      some (loadedFrom hashtable) := by
  have hstart : ¬ SpendServer.forwardStart hashtable true 1 (minSyncHeight 1) ≤ 1 := by
    rw [SpendServer.forwardStart, if_pos rfl, h]
    decide
  change some (SpendServer.init.connect configOne 1 (some hashtable)) = _
  rw [SpendServer.connect]
  dsimp only [Option.getD_some, Option.isSome_some]
  rw [if_neg hstart]
  rfl

theorem step_served {hashtable : HashTableDb} (h : hashtable.len ≤ Nullifier.targetSize) :
    (loadedFrom hashtable).step configOne acceptingEngine .publish =
      some (drained hashtable (SpendServer.followStart hashtable)) := by
  have hsize : (loadedFrom hashtable).hashtable.len ≤ Nullifier.targetSize := h
  exact congrArg some (SpendServer.publish_of_le hsize rfl)

theorem len_tableOf_one : (tableOf [oneNullifier]).len = 1 := by decide

theorem len_tableOf_two : (tableOf [oneNullifier, otherNullifier]).len = 2 := by decide

theorem within_publish_one :
    (loadedFrom (tableOf [oneNullifier])).Within 1 .publish := by
  intro hashtable hevicts
  rw [show hashtable = tableOf [oneNullifier] from hevicts]
  apply HashTableDb.evictsWithin_of_le <;> decide

theorem within_connect (s : SpendServer Unit) (limit tipHeight : Nat)
    (snapshot : Option HashTableDb) : s.Within limit (.connect tipHeight snapshot) := by
  intro hashtable hfalse
  cases hfalse

/-- Restarts of both servers with one nullifier; the combined server enters its follow
loop and finds nothing new. -/
theorem target_size_honoured_one :
    (exists o, o.server = drained (tableOf [oneNullifier])
        (SpendServer.followStart (tableOf [oneNullifier])) ∧
      (Nullifier.spendEvictor configOne acceptingEngine).Honours 1 o) ∧
    exists o, 1 ∈ CombinedState.servedSizes o.server ∧
      (combinedEvictor Witness.sampleHash configOne acceptingEngine
        (acceptingEngine : PirEngine Unit)).Honours 1 o := by
  let table := tableOf [oneNullifier]
  let E := Nullifier.spendEvictor configOne acceptingEngine
  let C := combinedEvictor Witness.sampleHash configOne acceptingEngine acceptingEngine
  have hload : SpendServer.init.step configOne acceptingEngine (.connect 1 (some table)) =
      some (loadedFrom table) := step_loaded rfl
  have hserve := step_served (show table.len ≤ Nullifier.targetSize by decide)
  have hhonoured := @target_size_honoured Unit Unit Witness.sampleHash configOne
    acceptingEngine acceptingEngine
  constructor
  · have hstart : E.WithinRun 1 SpendServer.init [] _ := Run.nil _
    have hloaded := Evictor.withinRun_next hstart (.connect 1 (some table)) hload
      (within_connect _ _ _ _)
    have hserved := Evictor.withinRun_next hloaded .publish hserve within_publish_one
    exact ⟨_, rfl, hhonoured.left _ _ hserved⟩
  · have hstart : C.WithinRun 1 (startingServer Unit Unit true false) [] _ := Run.nil _
    have hloaded := Evictor.withinRun_next hstart (.nullifier (.connect 1 (some table)))
      (.nullifier trivial hload) (within_connect _ _ _ _)
    have hserved := Evictor.withinRun_next hloaded (.nullifier .publish)
      (.nullifier trivial hserve) within_publish_one
    have hentered := Evictor.withinRun_next hserved (.enter none) (.enter ?_ ?_ rfl) ?_
    · have hpolled := Evictor.withinRun_next hentered (.poll []) (.poll rfl) ?_
      · refine ⟨_, ?_, hhonoured.right true false _ _ hpolled⟩
        exact ⟨_, rfl, len_tableOf_one⟩
      · intro hnew
        exact absurd hnew (by decide)
    · intro s hs
      cases hs
      exact ⟨_, _, rfl⟩
    · intro hfalse
      cases hfalse
    · intro hashtable hfalse
      cases hfalse

/-- With two nullifiers in its table the server publishes both. -/
theorem larger_table_published :
    ¬ forall inputs o,
      Run (Nullifier.spendEvictor configOne acceptingEngine).LoggedStep
        (Evictor.startOf SpendServer.init) inputs o ->
      IsSynced o.server ->
      (Nullifier.spendEvictor configOne acceptingEngine).Honours configOne.targetSize o := by
  intro hall
  let table := tableOf [oneNullifier, otherNullifier]
  let E := Nullifier.spendEvictor configOne acceptingEngine
  let atStart : Logged (SpendServer Unit) := Evictor.startOf SpendServer.init
  let atLoad := E.next atStart (.connect 1 (some table)) (loadedFrom table)
  have hload : E.LoggedStep atStart (.connect 1 (some table)) atLoad :=
    Evictor.loggedStep_next (step_loaded rfl)
  have hserve : E.LoggedStep atLoad .publish
      (E.next atLoad .publish (drained table (SpendServer.followStart table))) :=
    Evictor.loggedStep_next (step_served (by decide))
  have hhonoured := hall _ _ (((Run.nil atStart).snoc hload).snoc hserve) ⟨_, _, rfl⟩
  have hsize := hhonoured.left 2 ⟨_, rfl, len_tableOf_two⟩
  exact absurd hsize (by decide)

end Combined
end SpendabilityPir
