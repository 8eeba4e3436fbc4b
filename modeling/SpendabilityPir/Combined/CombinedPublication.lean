import SpendabilityPir.Combined.CombinedRun
import SpendabilityPir.Nullifier.SpendPublication
import SpendabilityPir.Nullifier.SpendReorg

/-!
# Publishing behind the tip

All three servers publish the newest block they have.  They stay behind the tip by the
confirmation depth as long as what they are given does.
-/

namespace SpendabilityPir
namespace Combined

open Foundation Shared
open Nullifier (HashTableDb SpendServer ServerConfig)
open Witness (CommitmentTreeDb MerkleHashOrchard WitnessServer)

/-!
## Recorded heights
-/

namespace Databases

def tableHeights (databases : Databases) : Set Nat :=
  {height | exists hashtable, databases.hashtable = some hashtable ∧
    height ∈ hashtable.recordedHeights}

def treeHeights (databases : Databases) : Set Nat :=
  {height | exists tree, databases.tree = some tree ∧ height ∈ tree.recordedHeights}

def heights (databases : Databases) : Set Nat :=
  databases.tableHeights ∪ databases.treeHeights

end Databases

theorem recordedHeights_rollbackAbove {hashtable hashtable' : HashTableDb}
    {rollbackTo : Nat} (h : rollbackAbove hashtable rollbackTo = some hashtable') :
    hashtable'.recordedHeights ⊆ hashtable.recordedHeights := by
  induction hsize : hashtable.blockIndex.size using Nat.strong_induction_on
    generalizing hashtable with
  | _ size ih =>
      unfold rollbackAbove at h
      split at h
      · split at h
        · cases h
          exact Set.Subset.refl _
        · split at h
          · cases h
          · next hrollback =>
              cases h
              exact HashTableDb.recordedHeights_rollbackBlock hrollback
          · next hrollback =>
              have hlt := rollbackBlock_size_lt hrollback
              rw [hsize] at hlt
              exact (ih _ hlt h rfl).trans
                (HashTableDb.recordedHeights_rollbackBlock hrollback)
      · cases h
        exact Set.Subset.refl _

theorem recordedHeights_ingestNullifiers {hashtable hashtable' : HashTableDb}
    {action : ChainAction} {height : Nat} {hash : ByteVec 32}
    {nullifiers : List Nullifier.NullifierWithMeta}
    (h : ingestNullifiers hashtable action height hash nullifiers = some hashtable') :
    hashtable'.recordedHeights ⊆ insert height hashtable.recordedHeights := by
  cases action with
  | extend =>
      exact (HashTableDb.recordedHeights_evictToTarget h).trans
        (hashtable.recordedHeights_insertBlock height hash nullifiers)
  | reorg rollbackTo =>
      rcases Option.map_eq_some_iff.mp h with ⟨rolledBack, hrollback, heq⟩
      rw [← heq]
      exact (rolledBack.recordedHeights_insertBlock height hash nullifiers).trans
        (Set.insert_subset_insert (recordedHeights_rollbackAbove hrollback))

theorem recordedHeights_ingestCommitments (tree : CommitmentTreeDb) (action : ChainAction)
    (height : Nat) (hash : ByteVec 32) (commitments : List Witness.Hash) :
    (ingestCommitments tree action height hash commitments).recordedHeights ⊆
      insert height tree.recordedHeights := by
  cases action with
  | extend => exact tree.recordedHeights_appendCommitments height hash commitments
  | reorg rollbackTo =>
      exact (CommitmentTreeDb.recordedHeights_appendCommitments _ height hash commitments).trans
        (Set.insert_subset_insert (tree.recordedHeights_rollbackTo rollbackTo))

theorem heights_ingestBlock {loop loop' : FollowLoop} {block : CompactBlock}
    (h : ingestBlock loop block = some loop') :
    loop'.databases.heights ⊆ insert block.height.toNat loop.databases.heights := by
  have htree : forall tree, loop.databases.tree.map (fun tree =>
      ingestCommitments tree (loop.task.advance block).2 block.height.toNat
        (toHashArray block.hash) (Witness.extractCommitments block)) = some tree ->
      tree.recordedHeights ⊆ insert block.height.toNat loop.databases.heights := by
    intro tree hsome height hmem
    rcases Option.map_eq_some_iff.mp hsome with ⟨before, hbefore, heq⟩
    rw [← heq] at hmem
    rcases recordedHeights_ingestCommitments _ _ _ _ _ hmem with hnew | hold
    · exact Or.inl hnew
    · exact Or.inr (Or.inr ⟨before, hbefore, hold⟩)
  rcases ingestBlock_cases h with
    ⟨_, htree', ⟨_, hnone⟩ | ⟨hashtable, hashtable', htable, htable', hingest⟩⟩
  · intro height hmem
    rcases hmem with ⟨hashtable, hfalse, _⟩ | ⟨tree, hsome, hmem⟩
    · rw [hnone] at hfalse
      cases hfalse
    · rw [htree'] at hsome
      exact htree tree hsome hmem
  · intro height hmem
    rcases hmem with ⟨found, heq, hmem⟩ | ⟨tree, hsome, hmem⟩
    · rw [htable'] at heq
      cases heq
      rcases recordedHeights_ingestNullifiers hingest hmem with hnew | hold
      · exact Or.inl hnew
      · exact Or.inr (Or.inl ⟨hashtable, htable, hold⟩)
    · rw [htree'] at hsome
      exact htree tree hsome hmem

theorem heights_ingestBlocks {loop loop' : FollowLoop} {blocks : List CompactBlock}
    (h : ingestBlocks loop blocks = some loop') :
    loop'.databases.heights ⊆ loop.databases.heights ∪ blockHeights blocks := by
  induction blocks generalizing loop with
  | nil =>
      cases h
      exact Set.subset_union_left
  | cons block rest ih =>
      unfold ingestBlocks at h
      split at h
      · cases h
      · next mid hblock =>
          intro height hmem
          rcases ih h hmem with hmid | ⟨other, hother, heq⟩
          · rcases heights_ingestBlock hblock hmid with hnew | hold
            · exact Or.inr ⟨block, List.mem_cons_self, hnew.symm⟩
            · exact Or.inl hold
          · exact Or.inr ⟨other, List.mem_cons_of_mem _ hother, heq⟩

def catchUpHeights (connection : Option Connection) : Databases -> Set Nat
  | { hashtable := some hashtable, tree := some tree } =>
      if hashtable.latestHeight.getD 0 < tree.latestHeight.getD 0 then
        fetchedHeights connection (hashtable.latestHeight.getD 0 + 1)
          (tree.latestHeight.getD 0)
      else
        fetchedHeights connection (tree.latestHeight.getD 0 + 1)
          (hashtable.latestHeight.getD 0)
  | _ => ∅

theorem recordedHeights_catchUpNullifier {connection : Option Connection}
    {fromHeight toHeight : Nat} {hashtable hashtable' : HashTableDb}
    (h : catchUpNullifier connection fromHeight toHeight hashtable = .ok hashtable') :
    hashtable'.recordedHeights ⊆
      hashtable.recordedHeights ∪ fetchedHeights connection fromHeight toHeight := by
  rcases bind_eq_ok.mp h with ⟨synced, hsync, hevict⟩
  have hkept := HashTableDb.recordedHeights_evictToTarget (Outcome.ofPanics_eq_ok.mp hevict)
  refine hkept.trans ?_
  have hsynced := Outcome.mapErr_eq_ok.mp hsync
  unfold Nullifier.syncRange at hsynced
  split at hsynced
  · cases hsynced
    exact Set.subset_union_left
  · cases connection with
    | none => cases hsynced
    | some connection => exact Nullifier.recordedHeights_insertEvents hsynced

theorem recordedHeights_catchUpWitness {connection : Option Connection}
    {fromHeight toHeight : Nat} {tree tree' : CommitmentTreeDb}
    {initialTreeSize : Option UInt32}
    (h : catchUpWitness connection fromHeight toHeight tree initialTreeSize = .ok tree') :
    tree'.recordedHeights ⊆
      tree.recordedHeights ∪ fetchedHeights connection fromHeight toHeight := by
  have hsynced := Outcome.mapErr_eq_ok.mp h
  cases connection with
  | none =>
      unfold Witness.syncRange at hsynced
      split at hsynced
      · cases hsynced
        exact Set.subset_union_left
      · cases hsynced
  | some connection =>
      rw [Witness.syncRange_eq_ok hsynced]
      exact Witness.recordedHeights_appendBlocks _ _

theorem heights_catchUp {connection : Option Connection} {databases databases' : Databases}
    (h : catchUp connection databases = .ok databases') :
    databases'.heights ⊆ databases.heights ∪ catchUpHeights connection databases := by
  rcases catchUp_cases h with hnullifier | hwitness | hsame
  · rcases hnullifier with ⟨hashtable, tree, hashtable', heq, heq', hbehind, hcaught⟩
    rw [heq, heq', catchUpHeights, if_pos hbehind]
    intro height hmem
    rcases hmem with ⟨_, hfound, hmem⟩ | htree
    · cases hfound
      rcases recordedHeights_catchUpNullifier hcaught hmem with hold | hnew
      · exact Or.inl (Or.inl ⟨hashtable, rfl, hold⟩)
      · exact Or.inr hnew
    · exact Or.inl (Or.inr htree)
  · rcases hwitness with ⟨hashtable, tree, tree', heq, heq', hahead, hcaught⟩
    rw [heq, heq', catchUpHeights, if_neg (Nat.lt_asymm hahead)]
    intro height hmem
    rcases hmem with htable | ⟨_, hfound, hmem⟩
    · exact Or.inl (Or.inl htable)
    · cases hfound
      rcases recordedHeights_catchUpWitness hcaught hmem with hold | hnew
      · exact Or.inl (Or.inr ⟨tree, rfl, hold⟩)
      · exact Or.inr hnew
  · rw [hsame.1]
    exact Set.subset_union_left

/-!
## The follow loop
-/

namespace CombinedServer

variable {σ τ : Type}

def publishedHeights (s : CombinedServer σ τ) : Set Nat :=
  {height | (exists pir, s.nfPir = some pir ∧ pir.metadata.latestHeight = height) ∨
    exists pir, s.witPir = some pir ∧ pir.metadata.anchorHeight = height}

def heights (s : CombinedServer σ τ) : Set Nat :=
  s.loop.databases.heights ∪ s.publishedHeights

theorem heights_publishNullifier (nfEngine : PirEngine σ) (s : CombinedServer σ τ) :
    (s.publishNullifier nfEngine).heights ⊆ insert 0 s.heights := by
  unfold publishNullifier
  split
  · exact Set.subset_insert _ _
  · next hashtable htable =>
      split
      · exact Set.subset_insert _ _
      · next pir hrebuild =>
          intro height hmem
          rcases hmem with hrecorded | ⟨published, heq, hheight⟩ | hwitness
          · exact Or.inr (Or.inl hrecorded)
          · cases heq
            rw [SpendServer.latestHeight_rebuildPir hrebuild] at hheight
            rw [← hheight]
            rcases hashtable.latestHeight_mem with hzero | hlatest
            · exact Or.inl hzero
            · exact Or.inr (Or.inl (Or.inl ⟨hashtable, htable, hlatest⟩))
          · exact Or.inr (Or.inr (Or.inr hwitness))

theorem heights_publishWitness (M : MerkleHashOrchard) (witEngine : PirEngine τ)
    (s : CombinedServer σ τ) :
    (s.publishWitness M witEngine).heights ⊆ insert 0 s.heights := by
  unfold publishWitness
  split
  · exact Set.subset_insert _ _
  · next tree htree =>
      split
      · exact Set.subset_insert _ _
      · next tree' pir hrebuild =>
          rcases Witness.rebuildPir_heights hrebuild with ⟨hheights, hanchor⟩
          intro height hmem
          rcases hmem with (htable | ⟨_, heq, hmem⟩) | hnullifier | ⟨published, heq, hheight⟩
          · exact Or.inr (Or.inl (Or.inl htable))
          · cases heq
            rw [hheights] at hmem
            exact Or.inr (Or.inl (Or.inr ⟨tree, htree, hmem⟩))
          · exact Or.inr (Or.inr (Or.inl hnullifier))
          · cases heq
            rw [hanchor] at hheight
            rw [← hheight]
            rcases tree.latestHeight_mem with hzero | hlatest
            · exact Or.inl hzero
            · exact Or.inr (Or.inl (Or.inr ⟨tree, htree, hlatest⟩))

theorem heights_publish (M : MerkleHashOrchard) (nfEngine : PirEngine σ)
    (witEngine : PirEngine τ) (s : CombinedServer σ τ) :
    (s.publish M nfEngine witEngine).heights ⊆ insert 0 s.heights := by
  unfold publish
  dsimp only
  split
  · exact heights_publishNullifier nfEngine s
  · intro height hmem
    rcases heights_publishWitness M witEngine _ hmem with hzero | hnullifier
    · exact Or.inl hzero
    · exact heights_publishNullifier nfEngine s hnullifier

theorem heights_poll {M : MerkleHashOrchard} {nfEngine : PirEngine σ}
    {witEngine : PirEngine τ} {s s' : CombinedServer σ τ} {view : ChainView}
    (h : s.poll M nfEngine witEngine view = some s') :
    s'.heights ⊆ insert 0 (s.heights ∪ blockHeights (s.loop.task.newBlocks view)) := by
  rcases poll_cases h with ⟨_, ⟨_, hsame⟩ | ⟨_, _, hstopped⟩ | ⟨loop, _, hingest, hpublished⟩⟩
  · rw [hsame]
    exact Set.subset_union_left.trans (Set.subset_insert _ _)
  · rw [hstopped]
    exact Set.subset_union_left.trans (Set.subset_insert _ _)
  · rw [hpublished]
    intro height hmem
    rcases heights_publish M nfEngine witEngine _ hmem with hzero | hdatabases | hserved
    · exact Or.inl hzero
    · rcases heights_ingestBlocks hingest hdatabases with hold | hnew
      · exact Or.inr (Or.inl (Or.inl hold))
      · exact Or.inr (Or.inr hnew)
    · exact Or.inr (Or.inl (Or.inr hserved))

end CombinedServer

/-!
## The server
-/

section Server

variable {σ τ : Type}

namespace CombinedState

def nullifierHeights : Option (SpendServer σ) -> Set Nat
  | none => ∅
  | some s => s.heights

def nullifierPublished : Option (SpendServer σ) -> Set Nat
  | none => ∅
  | some s => s.publishedHeights

def heights : CombinedState σ τ -> Set Nat
  | .syncing nullifier witness =>
      nullifierHeights nullifier ∪ Witness.runHeights witness.join
  | .following server => server.heights

def publishedHeights : CombinedState σ τ -> Set Nat
  | .syncing nullifier witness =>
      nullifierPublished nullifier ∪ Witness.runPublished witness.join
  | .following server => server.publishedHeights

/-- The heights of the blocks a step loads or is served. -/
def given (s : CombinedState σ τ) : CombinedInput -> Set Nat
  | .nullifier input =>
      match s with
      | .syncing (some server) _ => server.given input
      | _ => ∅
  | .witness client connection windowShardLimit snapshot =>
      Witness.startHeights client connection windowShardLimit snapshot
  | .enter connection =>
      match s with
      | .syncing nullifier witness =>
          catchUpHeights connection (syncedDatabases nullifier witness)
      | .following _ => ∅
  | .poll view =>
      match s with
      | .syncing _ _ => ∅
      | .following server => blockHeights (server.loop.task.newBlocks view)

/-- A subsystem's sync publishes at its end, and the follow loop whenever it finds a tip
above its height. -/
def builds (s : CombinedState σ τ) : CombinedInput -> Bool
  | .nullifier input => SpendServer.builds input
  | .witness _ _ _ _ => true
  | .enter _ => false
  | .poll view =>
      match s with
      | .syncing _ _ => false
      | .following server => decide (server.loop.task.currentHeight < view.tipHeight)

theorem heights_startingServer (nullifier witness : Bool) :
    (startingServer σ τ nullifier witness).heights = ∅ := by
  have hnullifier : nullifierHeights
      (if nullifier then some (SpendServer.init : SpendServer σ) else none) = ∅ := by
    cases nullifier with
    | false => rfl
    | true => exact SpendServer.heights_init
  have hwitness : Witness.runHeights
      (if witness then some (none : Option (WitnessServer τ)) else none).join = ∅ := by
    cases witness <;> rfl
  change _ ∪ _ = _
  rw [hnullifier, hwitness, Set.union_self]

theorem heights_syncedDatabases (nullifier : Option (SpendServer σ))
    (witness : Option (Option (WitnessServer τ))) :
    (syncedDatabases nullifier witness).heights ⊆
      heights (.syncing nullifier witness : CombinedState σ τ) := by
  intro height hmem
  rcases hmem with ⟨hashtable, htable, hmem⟩ | ⟨tree, htree, hmem⟩
  · rcases Option.map_eq_some_iff.mp htable with ⟨s, hs, heq⟩
    rw [← heq] at hmem
    rw [hs]
    exact Or.inl (Or.inl (Or.inl hmem))
  · rcases Option.map_eq_some_iff.mp htree with ⟨s, hs, heq⟩
    rw [← heq] at hmem
    refine Or.inr ?_
    rw [hs]
    exact Or.inl (Or.inl hmem)

theorem publishedHeights_enterFollow (nullifier : Option (SpendServer σ))
    (witness : Option (Option (WitnessServer τ))) (databases : Databases) :
    (CombinedServer.enterFollow (nullifier.bind SpendServer.livePir)
      (witness.join.bind WitnessServer.livePir) databases).publishedHeights ⊆
      publishedHeights (.syncing nullifier witness : CombinedState σ τ) := by
  intro height hmem
  rcases hmem with ⟨pir, hpir, hheight⟩ | ⟨pir, hpir, hheight⟩
  · rcases Option.bind_eq_some_iff.mp hpir with ⟨s, hs, hlive⟩
    rw [hs]
    exact Or.inl ⟨pir, hlive, hheight⟩
  · rcases Option.bind_eq_some_iff.mp hpir with ⟨s, hs, hlive⟩
    refine Or.inr ?_
    rw [hs]
    exact ⟨pir, hlive, hheight⟩

theorem published_subset_heights (s : CombinedState σ τ) : s.publishedHeights ⊆ s.heights := by
  cases s with
  | syncing nullifier witness =>
      intro height hmem
      rcases hmem with hnullifier | hwitness
      · cases nullifier with
        | none => cases hnullifier
        | some s => exact Or.inl (Or.inl (Or.inr hnullifier))
      · cases hjoin : witness.join with
        | none =>
            rw [hjoin] at hwitness
            cases hwitness
        | some s =>
            rw [hjoin] at hwitness
            refine Or.inr ?_
            rw [hjoin]
            exact Or.inl (Or.inr hwitness)
  | following server => exact Set.subset_union_right

/-- A step records and publishes nothing that was not given. -/
theorem heights_step {M : MerkleHashOrchard} {config : ServerConfig}
    {nfEngine : PirEngine σ} {witEngine : PirEngine τ} {s s' : CombinedState σ τ}
    {input : CombinedInput} (h : CombinedRunStep M config nfEngine witEngine s input s') :
    s'.heights ⊆ insert 0 (s.heights ∪ s.given input) := by
  cases h with
  | nullifier _ hstep =>
      intro height hmem
      rcases hmem with hnullifier | hwitness
      · rcases SpendServer.heights_step hstep hnullifier with hzero | hold | hnew
        · exact Or.inl hzero
        · exact Or.inr (Or.inl (Or.inl hold))
        · exact Or.inr (Or.inr hnew)
      · exact Or.inr (Or.inl (Or.inr hwitness))
  | witness hstep =>
      intro height hmem
      rcases hmem with hnullifier | hwitness
      · exact Or.inr (Or.inl (Or.inl hnullifier))
      · rcases Witness.runHeights_step hstep hwitness with hzero | hold | hnew
        · exact Or.inl hzero
        · cases hold
        · exact Or.inr (Or.inr hnew)
  | @enter nullifier witness connection databases _ _ hcatchUp =>
      intro height hmem
      rcases hmem with hdatabases | hpublished
      · rcases heights_catchUp hcatchUp hdatabases with hold | hnew
        · exact Or.inr (Or.inl (heights_syncedDatabases nullifier witness hold))
        · exact Or.inr (Or.inr hnew)
      · have hkept := publishedHeights_enterFollow nullifier witness databases hpublished
        exact Or.inr (Or.inl (published_subset_heights _ hkept))
  | poll hpoll => exact CombinedServer.heights_poll hpoll

theorem publishedHeights_step {M : MerkleHashOrchard} {config : ServerConfig}
    {nfEngine : PirEngine σ} {witEngine : PirEngine τ} {s s' : CombinedState σ τ}
    {input : CombinedInput} (h : CombinedRunStep M config nfEngine witEngine s input s')
    (hbuilds : s.builds input = false) : s'.publishedHeights ⊆ s.publishedHeights := by
  cases h with
  | @nullifier before after witness step _ hstep =>
      have hlive := SpendServer.livePir_step hstep hbuilds
      intro height hmem
      rcases hmem with ⟨pir, hpir, hheight⟩ | hwitness
      · rw [hlive] at hpir
        exact Or.inl ⟨pir, hpir, hheight⟩
      · exact Or.inr hwitness
  | witness hstep => cases hbuilds
  | @enter nullifier witness connection databases _ _ _ =>
      exact publishedHeights_enterFollow nullifier witness databases
  | @poll before after view hpoll =>
      have hidle := of_decide_eq_false hbuilds
      rcases CombinedServer.poll_cases hpoll with
        ⟨_, ⟨_, hsame⟩ | ⟨hnew, _⟩ | ⟨_, hnew, _⟩⟩
      · rw [hsame]
      · exact absurd hnew hidle
      · exact absurd hnew hidle

end CombinedState

def combinedPublisher (M : MerkleHashOrchard) (config : ServerConfig)
    (nfEngine : PirEngine σ) (witEngine : PirEngine τ) :
    Publisher (CombinedState σ τ) CombinedInput where
  Step := CombinedRunStep M config nfEngine witEngine
  builds := CombinedState.builds
  given := CombinedState.given
  heights := CombinedState.heights
  published := CombinedState.publishedHeights
  step_heights _ _ _ h := CombinedState.heights_step h
  published_heights := CombinedState.published_subset_heights
  published_kept _ _ _ h hbuilds := CombinedState.publishedHeights_step h hbuilds

end Server

end Combined
end SpendabilityPir
