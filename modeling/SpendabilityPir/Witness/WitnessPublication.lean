import SpendabilityPir.Shared.Publication
import SpendabilityPir.Witness.WitnessFollow
import SpendabilityPir.Witness.WitnessStartup

/-!
# What the witness server publishes

The server records heights of its snapshot, of the shards lightwalletd reports and of the
blocks it is served, and publishes the newest one it has.
-/

namespace SpendabilityPir
namespace Witness

open Foundation Shared

/-!
## Runs
-/

/-- What happens next: the start, a poll of the follow task, or an event. -/
inductive WitnessInput where
  | start (client : LwdClient) (connection : Option Connection) (windowShardLimit : Nat)
      (snapshot : Option CommitmentTreeDb)
  | poll (view : ChainView)
  | work

/-- The server from its start on; `none` before it. -/
inductive WitnessRunStep {σ : Type} (M : MerkleHashOrchard) (engine : PirEngine σ) :
    Option (WitnessServer σ) -> WitnessInput -> Option (WitnessServer σ) -> Prop where
  | start {client : LwdClient} {connection : Option Connection} {windowShardLimit : Nat}
      {snapshot : Option CommitmentTreeDb} {tree : CommitmentTreeDb} {pir : PirState σ} :
      runSyncOnly M engine client connection windowShardLimit snapshot = .ok (tree, pir) ->
      WitnessRunStep M engine none (.start client connection windowShardLimit snapshot)
        (some { tree := tree
                livePir := some pir
                stage := .follow (WitnessServer.followStart tree) [] })
  | poll {s s' : WitnessServer σ} {view : ChainView} :
      s.poll view = some s' -> WitnessRunStep M engine (some s) (.poll view) (some s')
  | work {s s' : WitnessServer σ} :
      s.work M engine = some s' -> WitnessRunStep M engine (some s) .work (some s')

/-!
## Recorded heights
-/

namespace CommitmentTreeDb

def recordedHeights (t : CommitmentTreeDb) : Set Nat :=
  {height | exists record, record ∈ t.blocks ∧ record.height = height}

theorem latestHeight_mem (t : CommitmentTreeDb) :
    t.latestHeight.getD 0 ∈ insert 0 t.recordedHeights := by
  rw [latestHeight]
  cases hlast : t.blocks.getLast? with
  | none => exact Or.inl rfl
  | some last => exact Or.inr ⟨last, List.mem_of_getLast? hlast, rfl⟩

theorem recordedHeights_appendCommitments (t : CommitmentTreeDb) (height : Nat)
    (hash : ByteVec 32) (commitments : List Hash) :
    (t.appendCommitments height hash commitments).recordedHeights ⊆
      insert height t.recordedHeights := by
  intro other hmem
  rcases hmem with ⟨record, hrecord, heq⟩
  rw [blocks_appendCommitments] at hrecord
  rcases List.mem_append.mp hrecord with hold | hnew
  · exact Or.inr ⟨record, hold, heq⟩
  · rw [List.mem_singleton.mp hnew] at heq
    exact Or.inl heq.symm

theorem popAbove_subset (targetHeight : Nat) (blocks : List BlockRecord) (toRemove : Nat) :
    (popAbove targetHeight blocks toRemove).1 ⊆ blocks := by
  induction blocks generalizing toRemove with
  | nil => exact List.Subset.refl _
  | cons last rest ih =>
      unfold popAbove
      split
      · exact List.Subset.trans (ih _) (List.subset_cons_self _ _)
      · exact List.Subset.refl _

theorem recordedHeights_rollbackTo (t : CommitmentTreeDb) (targetHeight : Nat) :
    (t.rollbackTo targetHeight).recordedHeights ⊆ t.recordedHeights := by
  intro height hmem
  rcases hmem with ⟨record, hrecord, heq⟩
  change record ∈ (popAbove targetHeight t.blocks.reverse 0).1.reverse at hrecord
  have hpopped := popAbove_subset targetHeight _ 0 (List.mem_reverse.mp hrecord)
  exact ⟨record, List.mem_reverse.mp hpopped, heq⟩

end CommitmentTreeDb

theorem recordedHeights_appendBlocks (tree : CommitmentTreeDb) (blocks : List CompactBlock) :
    (appendBlocks tree blocks).recordedHeights ⊆ tree.recordedHeights ∪ blockHeights blocks := by
  induction blocks generalizing tree with
  | nil => exact Set.subset_union_left
  | cons block rest ih =>
      intro height hmem
      rcases ih _ hmem with happended | ⟨other, hother, heq⟩
      · rcases tree.recordedHeights_appendCommitments _ _ _ happended with hnew | hold
        · exact Or.inr ⟨block, List.mem_cons_self, hnew.symm⟩
        · exact Or.inl hold
      · exact Or.inr ⟨other, List.mem_cons_of_mem _ hother, heq⟩

def eventHeights : WitnessChainEvent -> Set Nat
  | .newBlock height _ _ _ _ => {height}
  | .reorg _ => ∅

theorem recordedHeights_applyEvent {tree tree' : CommitmentTreeDb}
    {event : WitnessChainEvent} (h : applyEvent tree event = .ok tree') :
    tree'.recordedHeights ⊆ tree.recordedHeights ∪ eventHeights event := by
  cases event with
  | newBlock height hash prevHash commitments priorTreeSize =>
      rw [appendValidated_eq_ok h]
      intro other hmem
      rcases tree.recordedHeights_appendCommitments _ _ _ hmem with hnew | hold
      · exact Or.inr hnew
      · exact Or.inl hold
  | reorg rollbackTo =>
      cases h
      exact (tree.recordedHeights_rollbackTo rollbackTo).trans Set.subset_union_left

theorem eventHeights_followBlocks {st : FollowState} {blocks : List CompactBlock}
    {event : WitnessChainEvent} (h : event ∈ (st.followBlocks followEvents blocks).2) :
    eventHeights event ⊆ blockHeights blocks := by
  induction blocks generalizing st with
  | nil => cases h
  | cons block rest ih =>
      intro height hmem
      rcases List.mem_append.mp h with hhead | htail
      · refine ⟨block, List.mem_cons_self, ?_⟩
        unfold followEvents at hhead
        split at hhead
        · rw [List.mem_singleton.mp hhead] at hmem
          exact hmem.symm
        · rcases List.mem_cons.mp hhead with hreorg | hlast
          · rw [hreorg] at hmem
            cases hmem
          · rw [List.mem_singleton.mp hlast] at hmem
            exact hmem.symm
      · rcases ih htail hmem with ⟨other, hother, heq⟩
        exact ⟨other, List.mem_cons_of_mem _ hother, heq⟩

theorem rebuildPir_heights {σ : Type} {M : MerkleHashOrchard} {engine : PirEngine σ}
    {tree tree' : CommitmentTreeDb} {anchorHeight : Nat} {pir : PirState σ}
    (h : rebuildPir M engine tree scenario anchorHeight = .ok (tree', pir)) :
    tree'.recordedHeights = tree.recordedHeights ∧
      pir.metadata.anchorHeight = anchorHeight := by
  constructor
  · rw [rebuildPir_cache_only h]
    rfl
  · unfold rebuildPir at h
    split at h
    · cases h
    · split at h
      · cases h
      · cases h
        rfl

/-!
## The start
-/

def completingHeights (client : LwdClient) : Set Nat :=
  {height | exists roots root, client.subtreeRoots = some roots ∧ root ∈ roots ∧
    root.completingBlockHeight = height}

/-- The heights of the snapshot, or else those reported for completed shards. -/
def loadedHeights (client : LwdClient) : Option CommitmentTreeDb -> Set Nat
  | some snapshot => snapshot.recordedHeights
  | none => completingHeights client

def startHeights (client : LwdClient) (connection : Option Connection)
    (windowShardLimit : Nat) (snapshot : Option CommitmentTreeDb) : Set Nat :=
  loadedHeights client snapshot ∪
    match startingTree client client.blocks.view.tipHeight windowShardLimit snapshot with
    | .error _ => ∅
    | .ok (_, forwardStart, _) =>
        fetchedHeights connection forwardStart client.blocks.view.tipHeight

theorem recordedHeights_withOffset (leafOffset : Nat) (prefetched : List Hash) :
    (CommitmentTreeDb.withOffset leafOffset prefetched).recordedHeights = ∅ := by
  ext height
  constructor
  · rintro ⟨record, hfalse, _⟩
    cases hfalse
  · intro hfalse
    cases hfalse

theorem recordedHeights_seedWindow (leafOffset : Nat) (prefetched : List Hash)
    (completingHeight : Nat) (block : CompactBlock) :
    (seedWindow leafOffset prefetched completingHeight block).recordedHeights ⊆
      {completingHeight} := by
  unfold seedWindow
  dsimp only
  split
  · rw [recordedHeights_withOffset]
    exact Set.empty_subset _
  · intro height hmem
    have hnew := CommitmentTreeDb.recordedHeights_appendCommitments _ _ _ _ hmem
    rw [recordedHeights_withOffset] at hnew
    rcases hnew with heq | hfalse
    · exact heq
    · cases hfalse

theorem recordedHeights_prepareTree {client : LwdClient} {tipHeight limit start : Nat}
    {tree : CommitmentTreeDb} {initialTreeSize : Option UInt32}
    (h : prepareTree client tipHeight limit = .ok (tree, start, initialTreeSize)) :
    tree.recordedHeights ⊆ completingHeights client := by
  rcases prepareTree_eq_ok h with
    ⟨roots, last, block, rest, hroots, _, hlast, _, rfl, _⟩ | ⟨_, _, _, rfl, _⟩
  · intro height hmem
    have hheight := recordedHeights_seedWindow _ _ _ _ hmem
    exact ⟨roots, last, hroots, List.mem_of_getElem? hlast, hheight.symm⟩
  · change (CommitmentTreeDb.withOffset 0 []).recordedHeights ⊆ _
    rw [recordedHeights_withOffset]
    exact Set.empty_subset _

theorem recordedHeights_syncToTip {connection : Option Connection} {tipHeight : Nat}
    {tree tree' : CommitmentTreeDb} {forwardStart : Nat} {initialTreeSize : Option UInt32}
    (h : syncToTip connection tipHeight tree forwardStart initialTreeSize = .ok tree') :
    tree'.recordedHeights ⊆
      tree.recordedHeights ∪ fetchedHeights connection forwardStart tipHeight := by
  unfold syncToTip at h
  split at h
  · next hle =>
      cases connection with
      | none =>
          rw [syncRange, if_neg (Nat.not_lt_of_le hle)] at h
          cases h
      | some connection =>
          rw [syncRange_eq_ok h]
          exact recordedHeights_appendBlocks _ _
  · cases h
    exact Set.subset_union_left

theorem recordedHeights_runSyncOnly {σ : Type} {M : MerkleHashOrchard}
    {engine : PirEngine σ} {client : LwdClient} {connection : Option Connection}
    {limit : Nat} {snapshot : Option CommitmentTreeDb} {tree : CommitmentTreeDb}
    {pir : PirState σ}
    (h : runSyncOnly M engine client connection limit snapshot = .ok (tree, pir)) :
    tree.recordedHeights ⊆ startHeights client connection limit snapshot ∧
      pir.metadata.anchorHeight = tree.latestHeight.getD 0 := by
  rcases bind_eq_ok.mp h with ⟨started, hstart, hrest⟩
  rcases started with ⟨loaded, forwardStart, initialTreeSize⟩
  rcases bind_eq_ok.mp hrest with ⟨synced, hsync, hrebuild⟩
  rcases rebuildPir_heights hrebuild with ⟨hheights, hanchor⟩
  have hloaded : loaded.recordedHeights ⊆ loadedHeights client snapshot := by
    cases snapshot with
    | none => exact recordedHeights_prepareTree hstart
    | some tree =>
        cases hstart
        exact Set.Subset.refl _
  constructor
  · rw [hheights, startHeights, hstart]
    intro height hmem
    rcases recordedHeights_syncToTip hsync hmem with hold | hnew
    · exact Or.inl (hloaded hold)
    · exact Or.inr hnew
  · rw [hanchor, rebuildPir_cache_only hrebuild]
    rfl

/-!
## The server
-/

namespace WitnessServer

variable {σ : Type}

def publishedHeights (s : WitnessServer σ) : Set Nat :=
  {height | exists pir, s.livePir = some pir ∧ pir.metadata.anchorHeight = height}

def queuedHeights : Stage -> Set Nat
  | .follow _ queue => {height | exists event, event ∈ queue ∧ height ∈ eventHeights event}
  | .stopped => ∅

def heights (s : WitnessServer σ) : Set Nat :=
  s.tree.recordedHeights ∪ s.publishedHeights ∪ queuedHeights s.stage

theorem heights_published (tree : CommitmentTreeDb) {pir : PirState σ}
    (h : pir.metadata.anchorHeight = tree.latestHeight.getD 0) (stage : Stage) :
    heights { tree := tree, livePir := some pir, stage := stage } ⊆
      insert 0 (tree.recordedHeights ∪ queuedHeights stage) := by
  intro height hmem
  rcases hmem with (hrecorded | hpublished) | hqueued
  · exact Or.inr (Or.inl hrecorded)
  · rcases hpublished with ⟨published, heq, hheight⟩
    cases heq
    rw [h] at hheight
    rw [← hheight]
    exact Set.insert_subset_insert Set.subset_union_left tree.latestHeight_mem
  · exact Or.inr (Or.inr hqueued)

def polledHeights (s : WitnessServer σ) (view : ChainView) : Set Nat :=
  match s.stage with
  | .follow task _ => blockHeights (task.newBlocks view)
  | .stopped => ∅

theorem heights_poll {s s' : WitnessServer σ} {view : ChainView}
    (h : s.poll view = some s') : s'.heights ⊆ s.heights ∪ s.polledHeights view := by
  unfold poll at h
  split at h
  · next task queue hstage =>
      cases h
      intro height hmem
      rcases hmem with hheld | ⟨event, hevent, hmem⟩
      · exact Or.inl (Or.inl hheld)
      · rcases List.mem_append.mp hevent with hold | hnew
        · refine Or.inl (Or.inr ?_)
          rw [hstage]
          exact ⟨event, hold, hmem⟩
        · refine Or.inr ?_
          rw [polledHeights, hstage]
          exact eventHeights_followBlocks hnew hmem
  · cases h

theorem heights_work {M : MerkleHashOrchard} {engine : PirEngine σ}
    {s s' : WitnessServer σ} (h : s.work M engine = some s') :
    s'.heights ⊆ insert 0 s.heights := by
  unfold work at h
  split at h
  · next task event rest hstage =>
      cases h
      have hqueue : forall queued, queued ∈ event :: rest ->
          eventHeights queued ⊆ s.heights := by
        intro queued hqueued height hmem
        refine Or.inr ?_
        rw [hstage]
        exact ⟨queued, hqueued, hmem⟩
      unfold handle
      split
      · intro height hmem
        rcases hmem with hheld | hfalse
        · exact Or.inr (Or.inl hheld)
        · cases hfalse
      · next tree pir hhandle =>
          rcases bind_eq_ok.mp hhandle with ⟨applied, happly, hrebuild⟩
          rcases rebuildPir_heights hrebuild with ⟨hheights, hanchor⟩
          rw [rebuildPir_cache_only hrebuild] at hheights ⊢
          intro height hmem
          rcases heights_published _ hanchor _ hmem with hzero | hrecorded | hqueued
          · exact Or.inl hzero
          · rcases recordedHeights_applyEvent happly hrecorded with hold | hnew
            · exact Or.inr (Or.inl (Or.inl hold))
            · exact Or.inr (hqueue event List.mem_cons_self hnew)
          · rcases hqueued with ⟨queued, hqueued, hmem⟩
            exact Or.inr (hqueue queued (List.mem_cons_of_mem _ hqueued) hmem)
  · cases h

end WitnessServer

def givenHeights {σ : Type} : Option (WitnessServer σ) -> WitnessInput -> Set Nat
  | _, .start client connection windowShardLimit snapshot =>
      startHeights client connection windowShardLimit snapshot
  | some s, .poll view => s.polledHeights view
  | _, _ => ∅

def WitnessInput.builds : WitnessInput -> Bool
  | .poll _ => false
  | _ => true

def runHeights {σ : Type} : Option (WitnessServer σ) -> Set Nat
  | none => ∅
  | some s => s.heights

def runPublished {σ : Type} : Option (WitnessServer σ) -> Set Nat
  | none => ∅
  | some s => s.publishedHeights

/-- A step records and publishes nothing that was not given. -/
theorem runHeights_step {σ : Type} {M : MerkleHashOrchard} {engine : PirEngine σ}
    {s s' : Option (WitnessServer σ)} {input : WitnessInput}
    (h : WitnessRunStep M engine s input s') :
    runHeights s' ⊆ insert 0 (runHeights s ∪ givenHeights s input) := by
  cases h with
  | start hrun =>
      rcases recordedHeights_runSyncOnly hrun with ⟨hheights, hanchor⟩
      intro height hmem
      rcases WitnessServer.heights_published _ hanchor _ hmem with hzero | hrecorded | hqueued
      · exact Or.inl hzero
      · exact Or.inr (Or.inr (hheights hrecorded))
      · rcases hqueued with ⟨event, hfalse, _⟩
        cases hfalse
  | poll hpoll => exact (WitnessServer.heights_poll hpoll).trans (Set.subset_insert _ _)
  | work hwork =>
      exact (WitnessServer.heights_work hwork).trans
        (Set.insert_subset_insert Set.subset_union_left)

theorem runPublished_step {σ : Type} {M : MerkleHashOrchard} {engine : PirEngine σ}
    {s s' : Option (WitnessServer σ)} {input : WitnessInput}
    (h : WitnessRunStep M engine s input s') (hbuilds : input.builds = false) :
    runPublished s' ⊆ runPublished s := by
  cases h with
  | start hrun => cases hbuilds
  | work hwork => cases hbuilds
  | poll hpoll =>
      unfold WitnessServer.poll at hpoll
      split at hpoll
      · cases hpoll
        exact Set.Subset.refl _
      · cases hpoll

def witnessPublisher {σ : Type} (M : MerkleHashOrchard) (engine : PirEngine σ) :
    Publisher (Option (WitnessServer σ)) WitnessInput where
  Step := WitnessRunStep M engine
  builds _ input := input.builds
  given := givenHeights
  heights := runHeights
  published := runPublished
  step_heights _ _ _ h := runHeights_step h
  published_heights s := by
    intro height hmem
    cases s with
    | none => cases hmem
    | some server => exact Or.inl (Or.inr hmem)
  published_kept _ _ _ h hbuilds := runPublished_step h hbuilds

end Witness
end SpendabilityPir
