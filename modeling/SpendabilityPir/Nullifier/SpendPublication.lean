import SpendabilityPir.Nullifier.SpendSync
import SpendabilityPir.Shared.Publication

/-!
# What the nullifier server publishes

The server records heights of its snapshot and of the blocks it is served, and publishes
the newest one it has.
-/

namespace SpendabilityPir
namespace Nullifier

open Foundation Shared

namespace HashTableDb

def recordedHeights (db : HashTableDb) : Set Nat :=
  {height | exists record, db.blockIndex.find? height = some record}

theorem recordedHeights_new : new.recordedHeights = ∅ := by
  ext height
  simp [recordedHeights, new]

theorem latestHeight_mem (db : HashTableDb) :
    db.latestHeight.getD 0 ∈ insert 0 db.recordedHeights := by
  rw [latestHeight]
  cases hlast : db.blockIndex.last? with
  | none => exact Or.inl rfl
  | some last => exact Or.inr ⟨last.2, OrderedMap.find?_of_last? hlast⟩

theorem recordedHeights_insert {db db' : HashTableDb} {height : Nat} {record : BlockRecord}
    (h : db'.blockIndex = db.blockIndex.insert height record) :
    db'.recordedHeights ⊆ insert height db.recordedHeights := by
  intro other hmem
  rcases hmem with ⟨found, hfound⟩
  rw [h, OrderedMap.find?_insert] at hfound
  split at hfound
  · next heq => exact Or.inl heq
  · exact Or.inr ⟨found, hfound⟩

theorem recordedHeights_erase {db db' : HashTableDb} {height : Nat}
    (h : db'.blockIndex = db.blockIndex.erase height) :
    db'.recordedHeights ⊆ db.recordedHeights := by
  intro other hmem
  rcases hmem with ⟨found, hfound⟩
  rw [h, OrderedMap.find?_erase] at hfound
  split at hfound
  · cases hfound
  · exact ⟨found, hfound⟩

theorem recordedHeights_insertBlock (db : HashTableDb) (height : Nat)
    (blockHash : ByteVec 32) (nullifiers : List NullifierWithMeta) :
    (db.insertBlock height blockHash nullifiers).1.recordedHeights ⊆
      insert height db.recordedHeights := by
  cases hinsert : db.insertBlock height blockHash nullifiers with
  | mk db' result =>
      cases result with
      | error e =>
          unfold insertBlock at hinsert
          split at hinsert
          · next hloop =>
              cases hinsert
              intro other hmem
              rcases hmem with ⟨found, hfound⟩
              change db'.blockIndex.find? other = some found at hfound
              rw [(insertNullifiers_counts hloop).1] at hfound
              exact Or.inr ⟨found, hfound⟩
          · cases hinsert
      | ok u =>
          rcases insertBlock_counts hinsert with ⟨slots, hindex, _⟩
          exact recordedHeights_insert hindex

theorem recordedHeights_rollbackBlock {db db' : HashTableDb} {blockHash : ByteVec 32}
    {result : Except HashTableError Unit}
    (h : db.rollbackBlock blockHash = some (db', result)) :
    db'.recordedHeights ⊆ db.recordedHeights := by
  unfold rollbackBlock at h
  split at h
  · cases h
    exact Set.Subset.refl _
  · split at h
    · cases h
      exact Set.Subset.refl _
    · split at h
      · cases h
      · next removed hremove =>
          cases h
          exact recordedHeights_erase (removeRecord_blockIndex hremove)

theorem recordedHeights_evictOldestBlock {db db' : HashTableDb} {height : Option Nat}
    (h : db.evictOldestBlock = some (db', height)) :
    db'.recordedHeights ⊆ db.recordedHeights := by
  unfold evictOldestBlock at h
  split at h
  · cases h
    exact Set.Subset.refl _
  · split at h
    · cases h
    · next removed hremove =>
        cases h
        exact recordedHeights_erase (removeRecord_blockIndex hremove)

theorem recordedHeights_evictToTarget {db db' : HashTableDb}
    (h : db.evictToTarget = some db') : db'.recordedHeights ⊆ db.recordedHeights := by
  have hrounds := evictionRounds_of_evictToTarget h
  clear h
  induction hrounds with
  | done _ => exact Set.Subset.refl _
  | empty hevict => exact recordedHeights_evictOldestBlock hevict
  | round _ hevict _ ih => exact ih.trans (recordedHeights_evictOldestBlock hevict)

end HashTableDb

/-!
## Events
-/

def eventHeights : ChainEvent -> Set Nat
  | .newBlock height _ _ _ => {height}
  | .reorg _ newBlocks => {height | exists block, block ∈ newBlocks ∧ block.height = height}

theorem recordedHeights_insertOrFail {hashtable hashtable' : HashTableDb} {height : Nat}
    {hash : ByteVec 32} {nullifiers : List NullifierWithMeta}
    (h : insertOrFail hashtable height hash nullifiers = .ok hashtable') :
    hashtable'.recordedHeights ⊆ insert height hashtable.recordedHeights := by
  have hsubset := hashtable.recordedHeights_insertBlock height hash nullifiers
  rw [insertOrFail_eq_ok.mp h] at hsubset
  exact hsubset

theorem recordedHeights_insertEvents {hashtable hashtable' : HashTableDb}
    {priorTreeSize : Option UInt32} {blocks : List CompactBlock}
    (h : insertEvents hashtable (emitBlocks newBlockEvent priorTreeSize blocks) =
      .ok hashtable') :
    hashtable'.recordedHeights ⊆ hashtable.recordedHeights ∪ blockHeights blocks := by
  apply insertEvents_induction (P := fun front mid =>
    HashTableDb.recordedHeights mid ⊆ hashtable.recordedHeights ∪ blockHeights front) _
    (List.nil_append blocks) h
  · exact Set.subset_union_left
  · intro front block mid inserted nullifiers _ hfront _ hinsert height hmem
    have hsubset := mid.recordedHeights_insertBlock block.height.toNat
      (toHashArray block.hash) nullifiers
    rw [hinsert] at hsubset
    rcases hsubset hmem with hnew | hold
    · exact Or.inr ⟨block, List.mem_append_right _ List.mem_cons_self, hnew.symm⟩
    · rcases hfront hold with hbefore | ⟨other, hother, heq⟩
      · exact Or.inl hbefore
      · exact Or.inr ⟨other, List.mem_append_left _ hother, heq⟩

theorem recordedHeights_insertNewBlocks {hashtable hashtable' : HashTableDb}
    {blocks : List NewBlock} (h : insertNewBlocks hashtable blocks = .ok hashtable') :
    hashtable'.recordedHeights ⊆ hashtable.recordedHeights ∪
      {height | exists block, block ∈ blocks ∧ block.height = height} := by
  induction blocks generalizing hashtable with
  | nil =>
      cases h
      exact Set.subset_union_left
  | cons block rest ih =>
      rcases bind_eq_ok.mp h with ⟨inserted, hinsert, hrest⟩
      intro height hmem
      rcases ih hrest hmem with hinserted | ⟨other, hother, heq⟩
      · rcases recordedHeights_insertOrFail hinsert hinserted with hnew | hold
        · exact Or.inr ⟨block, List.mem_cons_self, hnew.symm⟩
        · exact Or.inl hold
      · exact Or.inr ⟨other, List.mem_cons_of_mem _ hother, heq⟩

theorem recordedHeights_rollbackOrphaned {hashtable hashtable' : HashTableDb}
    {blocks : List OrphanedBlock} (h : rollbackOrphaned hashtable blocks = some hashtable') :
    hashtable'.recordedHeights ⊆ hashtable.recordedHeights := by
  induction blocks generalizing hashtable with
  | nil =>
      cases h
      exact Set.Subset.refl _
  | cons block rest ih =>
      unfold rollbackOrphaned at h
      split at h
      · cases h
      · next rolledBack result hrollback =>
          exact (ih h).trans (HashTableDb.recordedHeights_rollbackBlock hrollback)

theorem recordedHeights_applyEvent {hashtable hashtable' : HashTableDb} {event : ChainEvent}
    (h : applyEvent hashtable event = .ok hashtable') :
    hashtable'.recordedHeights ⊆ hashtable.recordedHeights ∪ eventHeights event := by
  cases event with
  | newBlock height hash prevHash nullifiers =>
      rcases bind_eq_ok.mp h with ⟨inserted, hinsert, hevict⟩
      intro other hmem
      have hinserted := HashTableDb.recordedHeights_evictToTarget
        (Outcome.ofPanics_eq_ok.mp hevict) hmem
      rcases recordedHeights_insertOrFail hinsert hinserted with hnew | hold
      · exact Or.inr hnew
      · exact Or.inl hold
  | reorg orphaned newBlocks =>
      rcases bind_eq_ok.mp h with ⟨rolledBack, hrollback, hrest⟩
      rcases bind_eq_ok.mp hrest with ⟨inserted, hinsert, hevict⟩
      intro other hmem
      have hinserted := HashTableDb.recordedHeights_evictToTarget
        (Outcome.ofPanics_eq_ok.mp hevict) hmem
      rcases recordedHeights_insertNewBlocks hinsert hinserted with hold | hnew
      · exact Or.inl (recordedHeights_rollbackOrphaned
          (Outcome.ofPanics_eq_ok.mp hrollback) hold)
      · exact Or.inr hnew

theorem eventHeights_followBlocks {st : FollowState} {blocks : List CompactBlock}
    {event : ChainEvent} (h : event ∈ (st.followBlocks followEvents blocks).2) :
    eventHeights event ⊆ blockHeights blocks := by
  induction blocks generalizing st with
  | nil => cases h
  | cons block rest ih =>
      rcases List.mem_append.mp h with hhead | htail
      · intro height hmem
        refine ⟨block, List.mem_cons_self, ?_⟩
        unfold followEvents at hhead
        split at hhead
        · rw [List.mem_singleton.mp hhead] at hmem
          exact hmem.symm
        · rw [List.mem_singleton.mp hhead] at hmem
          rcases hmem with ⟨other, hother, heq⟩
          rw [List.mem_singleton.mp hother] at heq
          exact heq
      · intro height hmem
        rcases ih htail hmem with ⟨other, hother, heq⟩
        exact ⟨other, List.mem_cons_of_mem _ hother, heq⟩

/-!
## The server
-/

namespace SpendServer

variable {σ : Type}

def publishedHeights (s : SpendServer σ) : Set Nat :=
  {height | exists pir, s.livePir = some pir ∧ pir.metadata.latestHeight = height}

def queuedHeights : Stage -> Set Nat
  | .follow _ queue => {height | exists event, event ∈ queue ∧ height ∈ eventHeights event}
  | _ => ∅

def heights (s : SpendServer σ) : Set Nat :=
  s.hashtable.recordedHeights ∪ s.publishedHeights ∪ queuedHeights s.stage

/-- The heights of the blocks a step loads or is served. -/
def given (s : SpendServer σ) : ServerInput -> Set Nat
  | .connect _ (some snapshot) => snapshot.recordedHeights
  | .range connection =>
      match s.stage with
      | .forward start tipHeight _ _ => fetchedHeights connection start tipHeight
      | .backfill floor backfillEnd =>
          fetchedHeights connection (backfillStart floor backfillEnd) backfillEnd
      | _ => ∅
  | .poll view =>
      match s.stage with
      | .follow (some st) _ => blockHeights (st.newBlocks view)
      | _ => ∅
  | _ => ∅

def builds : ServerInput -> Bool
  | .publish => true
  | .handle => true
  | _ => false

theorem queuedHeights_backfillStage (config : ServerConfig) (hashtable : HashTableDb)
    (floor backfillEnd : Nat) :
    queuedHeights (backfillStage config hashtable floor backfillEnd) = ∅ := by
  rw [backfillStage]
  split <;> rfl

theorem queuedHeights_afterForward (config : ServerConfig) (hashtable : HashTableDb)
    (forwardStart floor : Nat) (fromSnapshot : Bool) :
    queuedHeights (afterForward config hashtable forwardStart floor fromSnapshot) = ∅ := by
  rw [afterForward]
  split
  · rfl
  · exact queuedHeights_backfillStage _ _ _ _

theorem queuedHeights_afterBackfill (config : ServerConfig) (hashtable : HashTableDb)
    (floor backfillEnd : Nat) :
    queuedHeights (afterBackfill config hashtable floor backfillEnd) = ∅ := by
  unfold afterBackfill
  dsimp only
  split
  · rfl
  · exact queuedHeights_backfillStage _ _ _ _

theorem heights_of_not_queued {s : SpendServer σ} (h : queuedHeights s.stage = ∅) :
    s.heights = s.hashtable.recordedHeights ∪ s.publishedHeights := by
  rw [heights, h, Set.union_empty]

theorem heights_init : (init : SpendServer σ).heights = ∅ := by
  rw [heights_of_not_queued rfl]
  ext height
  simp [init, publishedHeights, HashTableDb.recordedHeights_new]

theorem heights_syncStage {s : SpendServer σ} {connection : Option Connection}
    {fromHeight toHeight : Nat} {next : HashTableDb -> Stage}
    (hnext : forall hashtable, queuedHeights (next hashtable) = ∅) :
    (s.syncStage connection fromHeight toHeight next).heights ⊆
      s.hashtable.recordedHeights ∪ s.publishedHeights ∪
        fetchedHeights connection fromHeight toHeight := by
  unfold syncStage
  split
  · rw [heights_of_not_queued rfl]
    exact Set.subset_union_left
  · next hashtable hsync =>
      rw [heights_of_not_queued (hnext hashtable)]
      intro height hmem
      rcases hmem with hrecorded | hpublished
      · unfold syncRange at hsync
        split at hsync
        · cases hsync
          exact Or.inl (Or.inl hrecorded)
        · cases connection with
          | none => cases hsync
          | some connection =>
              rcases recordedHeights_insertEvents hsync hrecorded with hold | hnew
              · exact Or.inl (Or.inl hold)
              · exact Or.inr hnew
      · exact Or.inl (Or.inr hpublished)

theorem latestHeight_rebuildPir {engine : PirEngine σ} {hashtable : HashTableDb}
    {scenario : YpirScenario} {pir : PirState σ}
    (h : rebuildPir engine hashtable scenario = .ok pir) :
    pir.metadata.latestHeight = hashtable.latestHeight.getD 0 := by
  unfold rebuildPir at h
  split at h
  · cases h
  · cases h
    rfl

theorem heights_published {engine : PirEngine σ} {hashtable : HashTableDb}
    {pir : PirState σ} (h : rebuildPir engine hashtable scenario = .ok pir) (stage : Stage) :
    heights { hashtable := hashtable, livePir := some pir, stage := stage } ⊆
      insert 0 (hashtable.recordedHeights ∪ queuedHeights stage) := by
  intro height hmem
  rcases hmem with (hrecorded | hpublished) | hqueued
  · exact Or.inr (Or.inl hrecorded)
  · rcases hpublished with ⟨published, heq, hheight⟩
    cases heq
    rw [latestHeight_rebuildPir h] at hheight
    rw [← hheight]
    exact Set.insert_subset_insert Set.subset_union_left hashtable.latestHeight_mem
  · exact Or.inr (Or.inr hqueued)

theorem heights_publish (engine : PirEngine σ) (s : SpendServer σ) :
    (s.publish engine).heights ⊆ insert 0 s.heights := by
  unfold publish
  split
  · rw [heights_of_not_queued rfl]
    exact Set.subset_union_left.trans (Set.subset_insert _ _)
  · next hashtable hevict =>
      have hsubset := HashTableDb.recordedHeights_evictToTarget hevict
      split
      · rw [heights_of_not_queued rfl]
        intro height hmem
        rcases hmem with hrecorded | hpublished
        · exact Or.inr (Or.inl (Or.inl (hsubset hrecorded)))
        · exact Or.inr (Or.inl (Or.inr hpublished))
      · next pir hrebuild =>
          intro height hmem
          rcases heights_published hrebuild _ hmem with hzero | hrecorded | hqueued
          · exact Or.inl hzero
          · exact Or.inr (Or.inl (Or.inl (hsubset hrecorded)))
          · rcases hqueued with ⟨event, hfalse, _⟩
            cases hfalse

theorem heights_handle {engine : PirEngine σ} {s : SpendServer σ}
    {task : Option FollowState} {event : ChainEvent} {rest : List ChainEvent}
    (hstage : s.stage = .follow task (event :: rest)) :
    (s.handle engine task event rest).heights ⊆ insert 0 s.heights := by
  unfold handle
  split
  · rw [heights_of_not_queued rfl]
    exact Set.subset_union_left.trans (Set.subset_insert _ _)
  · next hashtable pir hhandle =>
      rcases handleEvent_eq_ok hhandle with ⟨happly, hrebuild⟩
      have hqueue : forall queued, queued ∈ event :: rest ->
          eventHeights queued ⊆ s.heights := by
        intro queued hqueued height hmem
        refine Or.inr ?_
        rw [hstage]
        exact ⟨queued, hqueued, hmem⟩
      intro height hmem
      rcases heights_published hrebuild _ hmem with hzero | hrecorded | hqueued
      · exact Or.inl hzero
      · rcases recordedHeights_applyEvent happly hrecorded with hold | hnew
        · exact Or.inr (Or.inl (Or.inl hold))
        · exact Or.inr (hqueue event List.mem_cons_self hnew)
      · rcases hqueued with ⟨queued, hqueued, hmem⟩
        exact Or.inr (hqueue queued (List.mem_cons_of_mem _ hqueued) hmem)

theorem heights_poll {s : SpendServer σ} {st : FollowState} {queue : List ChainEvent}
    (hstage : s.stage = .follow (some st) queue) (view : ChainView) :
    heights { s with
        stage := Stage.follow (some (followPoll st view).1)
          (queue ++ (followPoll st view).2) } ⊆
      s.heights ∪ blockHeights (st.newBlocks view) := by
  intro height hmem
  rcases hmem with hheld | ⟨event, hevent, hmem⟩
  · exact Or.inl (Or.inl hheld)
  · rcases List.mem_append.mp hevent with hold | hnew
    · refine Or.inl (Or.inr ?_)
      rw [hstage]
      exact ⟨event, hold, hmem⟩
    · exact Or.inr (eventHeights_followBlocks hnew hmem)

/-- A step records and publishes nothing that was not given. -/
theorem heights_step {config : ServerConfig} {engine : PirEngine σ} {s s' : SpendServer σ}
    {input : ServerInput} (h : s.step config engine input = some s') :
    s'.heights ⊆ insert 0 (s.heights ∪ s.given input) := by
  cases moves_of_step h with
  | @connect tipHeight snapshot _ =>
      have hqueue : queuedHeights (s.connect config tipHeight snapshot).stage = ∅ := by
        unfold connect
        dsimp only
        split
        · rfl
        · exact queuedHeights_afterForward _ _ _ _ _
      rw [heights_of_not_queued hqueue]
      intro height hmem
      rcases hmem with hrecorded | hpublished
      · cases snapshot with
        | none =>
            change height ∈ HashTableDb.new.recordedHeights at hrecorded
            rw [HashTableDb.recordedHeights_new] at hrecorded
            cases hrecorded
        | some table => exact Or.inr (Or.inr hrecorded)
      · exact Or.inr (Or.inl (Or.inl (Or.inr hpublished)))
  | @forward connection start tipHeight floor fromSnapshot hstage =>
      intro height hmem
      rcases heights_syncStage (fun hashtable => queuedHeights_afterForward config
        hashtable start floor fromSnapshot) hmem with hheld | hnew
      · exact Or.inr (Or.inl (Or.inl hheld))
      · refine Or.inr (Or.inr ?_)
        rw [given, hstage]
        exact hnew
  | @backfill connection floor backfillEnd hstage =>
      intro height hmem
      rcases heights_syncStage (fun hashtable => queuedHeights_afterBackfill config
        hashtable floor backfillEnd) hmem with hheld | hnew
      · exact Or.inr (Or.inl (Or.inl hheld))
      · refine Or.inr (Or.inr ?_)
        rw [given, hstage]
        exact hnew
  | publish _ =>
      exact (heights_publish engine s).trans
        (Set.insert_subset_insert Set.subset_union_left)
  | @poll view st queue hstage =>
      intro height hmem
      rcases heights_poll hstage view hmem with hheld | hnew
      · exact Or.inr (Or.inl hheld)
      · refine Or.inr (Or.inr ?_)
        rw [given, hstage]
        exact hnew
  | requestFails hstage =>
      intro height hmem
      refine Or.inr (Or.inl ?_)
      rw [heights, hstage]
      exact hmem
  | handle hstage =>
      exact (heights_handle hstage).trans (Set.insert_subset_insert Set.subset_union_left)

theorem livePir_syncStage (s : SpendServer σ) (connection : Option Connection)
    (fromHeight toHeight : Nat) (next : HashTableDb -> Stage) :
    (s.syncStage connection fromHeight toHeight next).livePir = s.livePir := by
  unfold syncStage
  split <;> rfl

/-- What is served stays what it was unless a step builds. -/
theorem livePir_step {config : ServerConfig} {engine : PirEngine σ} {s s' : SpendServer σ}
    {input : ServerInput} (h : s.step config engine input = some s')
    (hbuilds : builds input = false) : s'.livePir = s.livePir := by
  cases moves_of_step h with
  | connect _ => rfl
  | forward _ => exact livePir_syncStage s _ _ _ _
  | backfill _ => exact livePir_syncStage s _ _ _ _
  | publish _ => cases hbuilds
  | poll _ => rfl
  | requestFails _ => rfl
  | handle _ => cases hbuilds

end SpendServer

def spendPublisher {σ : Type} (config : ServerConfig) (engine : PirEngine σ) :
    Publisher (SpendServer σ) ServerInput where
  Step s input s' := s.step config engine input = some s'
  builds _ input := SpendServer.builds input
  given := SpendServer.given
  heights := SpendServer.heights
  published := SpendServer.publishedHeights
  step_heights _ _ _ h := SpendServer.heights_step h
  published_heights _ := fun _ hmem => Or.inl (Or.inr hmem)
  published_kept s input s' h hbuilds := by
    intro height hmem
    rcases hmem with ⟨pir, hpir, hheight⟩
    rw [SpendServer.livePir_step h hbuilds] at hpir
    exact ⟨pir, hpir, hheight⟩

end Nullifier
end SpendabilityPir
