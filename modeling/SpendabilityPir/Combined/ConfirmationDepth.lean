import SpendabilityPir.Combined.CombinedFollow
import SpendabilityPir.Combined.CombinedPublication

/-!
# Server data and the confirmation depth

None of the servers subtracts the confirmation depth: each publishes the newest block it
has.
-/

namespace SpendabilityPir
namespace Combined

open Foundation Shared
open Nullifier (HashTableDb SpendServer ServerConfig)
open Witness (CommitmentTreeDb MerkleHashOrchard WitnessServer)

/-- In a run of any of the servers in which, whenever a state is built, every block given
so far is at least the confirmation depth behind the tip, so is every published state. -/
theorem published_behind_tip {σ τ : Type} {M : MerkleHashOrchard} {config : ServerConfig}
    {nfEngine : PirEngine σ} {witEngine : PirEngine τ} :
    (forall labels o,
      (Nullifier.spendPublisher config nfEngine).DelayedRun SpendServer.init labels o ->
      (Nullifier.spendPublisher config nfEngine).PublishedBehindTip o) ∧
    (forall labels o,
      (Witness.witnessPublisher M witEngine).DelayedRun none labels o ->
      (Witness.witnessPublisher M witEngine).PublishedBehindTip o) ∧
    forall nullifier witness labels o,
      (combinedPublisher M config nfEngine witEngine).DelayedRun
        (startingServer σ τ nullifier witness) labels o ->
      (combinedPublisher M config nfEngine witEngine).PublishedBehindTip o := by
  refine ⟨?_, ?_, ?_⟩
  · intro labels o hrun
    exact Publisher.publishedBehindTip_run hrun SpendServer.heights_init
  · intro labels o hrun
    exact Publisher.publishedBehindTip_run hrun rfl
  · intro nullifier witness labels o hrun
    exact Publisher.publishedBehindTip_run hrun
      (CombinedState.heights_startingServer nullifier witness)

/-!
## Restarts ten blocks behind the tip, and at the tip

The snapshots are those of block 1.
-/

open Nullifier (sampleConfig acceptingEngine tableBefore)

/-- The server that restarted from the table of block 1. -/
def spendRestarted : SpendServer Unit :=
  { hashtable := tableBefore
    livePir := some { engineState := (), metadata := Nullifier.metadataOf tableBefore }
    stage := .follow (some (SpendServer.followStart tableBefore)) [] }

def spendLoaded : SpendServer Unit :=
  { hashtable := tableBefore, livePir := none, stage := .synced }

theorem step_connect :
    SpendServer.init.step sampleConfig acceptingEngine (.connect 1 (some tableBefore)) =
      some spendLoaded := rfl

theorem step_publish :
    spendLoaded.step sampleConfig acceptingEngine .publish = some spendRestarted := by
  have hsize : spendLoaded.hashtable.len ≤ Nullifier.targetSize := by decide
  exact congrArg some (SpendServer.publish_of_le hsize rfl)

theorem recordedHeights_tableBefore {height : Nat}
    (h : height ∈ tableBefore.recordedHeights) : height = 1 := by
  rcases HashTableDb.recordedHeights_insertBlock _ _ _ _ h with hone | hnone
  · exact hone
  · rw [HashTableDb.recordedHeights_new] at hnone
    cases hnone

theorem recordedHeights_treeBefore {height : Nat}
    (h : height ∈ treeBefore.recordedHeights) : height = 1 := by
  rcases CommitmentTreeDb.recordedHeights_appendCommitments _ _ _ _ h with hone | hnone
  · exact hone
  · rcases hnone with ⟨record, hfalse, _⟩
    cases hfalse

theorem behind_eleven {height : Nat} (h : height = 1) : height + confirmationDepth ≤ 11 := by
  rw [h]
  exact Nat.le_refl _

/-- What the server was given when it publishes the loaded table. -/
theorem loaded_behind_eleven {height : Nat}
    (h : height ∈ (∅ ∪ tableBefore.recordedHeights) ∪ (∅ : Set Nat)) :
    height + confirmationDepth ≤ 11 := by
  rcases h with (hfalse | htable) | hfalse
  · cases hfalse
  · exact behind_eleven (recordedHeights_tableBefore htable)
  · cases hfalse

def clientBefore : Witness.LwdClient :=
  { blocks := { view := chainBefore, fails := fun _ _ => false }, subtreeRoots := none }

theorem runSyncOnly_treeBefore :
    exists cache pir, Witness.runSyncOnly Witness.sampleHash acceptingEngine clientBefore none 1
      (some treeBefore) = .ok ({ treeBefore with ssRootCache := cache }, pir) := by
  have hcanonical : treeBefore.CanonicalLeaves Witness.sampleHash :=
    fun _ hfalse => (nomatch hfalse)
  rcases Witness.rebuildPir_of_canonical (accepts_acceptingEngine _) treeInvariant_treeBefore
    hcanonical 1 with ⟨cache, pir, hrebuild, _⟩
  exact ⟨cache, pir, hrebuild⟩

theorem startHeights_treeBefore {height : Nat}
    (h : height ∈ Witness.startHeights clientBefore none 1 (some treeBefore)) :
    height = 1 := by
  rcases h with hloaded | hfetched
  · exact recordedHeights_treeBefore hloaded
  · cases hfetched

theorem delayedRun_spend :
    exists labels o, o.server = spendRestarted ∧ o.builtAt = 11 ∧
      (Nullifier.spendPublisher sampleConfig acceptingEngine).DelayedRun SpendServer.init
        labels o := by
  have hloaded := Publisher.delayedRun_next
    (P := Nullifier.spendPublisher sampleConfig acceptingEngine) (Run.nil _)
    (.connect 1 (some tableBefore)) 11 step_connect
    (Publisher.givenBehindTip_of_not_builds rfl)
  refine ⟨_, _, rfl, rfl, Publisher.delayedRun_next hloaded .publish 11 step_publish ?_⟩
  intro _
  exact ⟨by decide, fun _ hmem => loaded_behind_eleven hmem⟩

theorem delayedRun_witness :
    exists labels o, o.builtAt = 11 ∧
      (Witness.witnessPublisher Witness.sampleHash acceptingEngine).DelayedRun none labels
        o := by
  rcases runSyncOnly_treeBefore with ⟨cache, pir, hrun⟩
  refine ⟨_, _, rfl, Publisher.delayedRun_next
    (P := Witness.witnessPublisher Witness.sampleHash acceptingEngine) (Run.nil _)
    (.start clientBefore none 1 (some treeBefore)) 11 (.start hrun) ?_⟩
  intro _
  refine ⟨by decide, ?_⟩
  intro height hmem
  rcases hmem with hfalse | hstart
  · cases hfalse
  · exact behind_eleven (startHeights_treeBefore hstart)

theorem delayedRun_combined :
    exists labels o, o.builtAt = 11 ∧
      (combinedPublisher Witness.sampleHash sampleConfig acceptingEngine
        acceptingEngine).DelayedRun (startingServer Unit Unit true true) labels o := by
  rcases runSyncOnly_treeBefore with ⟨cache, pir, hrun⟩
  have hloaded := Publisher.delayedRun_next
    (P := combinedPublisher Witness.sampleHash sampleConfig acceptingEngine acceptingEngine)
    (Run.nil (Publisher.startOf (startingServer Unit Unit true true)))
    (.nullifier (.connect 1 (some tableBefore))) 11
    (.nullifier trivial step_connect) (Publisher.givenBehindTip_of_not_builds rfl)
  have hsynced := Publisher.delayedRun_next hloaded (.nullifier .publish) 11
    (.nullifier trivial step_publish) ?_
  · have hstarted := Publisher.delayedRun_next hsynced
      (.witness clientBefore none 1 (some treeBefore)) 11 (.witness (.start hrun)) ?_
    · refine ⟨_, _, rfl, Publisher.delayedRun_next hstarted (.enter none) 11
        (.enter ?_ ?_ rfl) (Publisher.givenBehindTip_of_not_builds rfl)⟩
      · intro s hs
        cases hs
        exact ⟨_, _, rfl⟩
      · intro hfalse
        cases hfalse
    · intro _
      refine ⟨by decide, ?_⟩
      intro height hmem
      rcases hmem with hloadedHeight | hstart
      · exact loaded_behind_eleven hloadedHeight
      · exact behind_eleven (startHeights_treeBefore hstart)
  · intro _
    exact ⟨by decide, fun _ hmem => loaded_behind_eleven hmem⟩

/-- Runs of the three servers that restart from block 1 under the tip 11. -/
theorem published_behind_tip_restarted :
    exists spend witness combined,
      (spend.server = spendRestarted ∧ spend.builtAt = 11 ∧
        (Nullifier.spendPublisher sampleConfig acceptingEngine).PublishedBehindTip spend) ∧
      (witness.builtAt = 11 ∧
        (Witness.witnessPublisher Witness.sampleHash acceptingEngine).PublishedBehindTip
          witness) ∧
      (combined.builtAt = 11 ∧
        (combinedPublisher Witness.sampleHash sampleConfig acceptingEngine
          acceptingEngine).PublishedBehindTip combined) := by
  rcases delayedRun_spend with ⟨labels, spend, hserver, hbuilt, hspend⟩
  rcases delayedRun_witness with ⟨witLabels, witness, hwitBuilt, hwitness⟩
  rcases delayedRun_combined with ⟨bothLabels, combined, hbothBuilt, hcombined⟩
  have hbehind := @published_behind_tip Unit Unit Witness.sampleHash sampleConfig
    acceptingEngine acceptingEngine
  exact ⟨spend, witness, combined, ⟨hserver, hbuilt, hbehind.1 labels spend hspend⟩,
    ⟨hwitBuilt, hbehind.2.1 witLabels witness hwitness⟩,
    hbothBuilt, hbehind.2.2 true true bothLabels combined hcombined⟩

/-!
## A fresh start

Eleven blocks, synced completely.
-/

def chainEleven : ChainView :=
  (List.range 11).map (fun i =>
    sampleBlock (UInt64.ofNat i) (UInt8.ofNat (i + 1)) (UInt8.ofNat i) [] 0)

def connectionEleven : Connection :=
  { view := chainEleven, fails := fun _ _ => false }

def tableEleven : HashTableDb :=
  (chainEleven.drop 1).foldl (fun hashtable block =>
    (hashtable.insertBlock block.height.toNat (toHashArray block.hash) []).1) HashTableDb.new

def spendConnected : SpendServer Unit :=
  { hashtable := HashTableDb.new, livePir := none, stage := .forward 1 10 1 false }

def spendSynced : SpendServer Unit :=
  { hashtable := tableEleven, livePir := none, stage := .synced }

def spendEleven : SpendServer Unit :=
  { hashtable := tableEleven
    livePir := some { engineState := (), metadata := Nullifier.metadataOf tableEleven }
    stage := .follow (some (SpendServer.followStart tableEleven)) [] }

theorem step_connect_eleven :
    SpendServer.init.step sampleConfig acceptingEngine (.connect 10 none) =
      some spendConnected := rfl

theorem step_range_eleven :
    spendConnected.step sampleConfig acceptingEngine (.range (some connectionEleven)) =
      some spendSynced := by
  have hnumbered : Numbered ChainView.heightOf 0 chainEleven :=
    numbered_of_map_eq (by decide)
  have hsync : Nullifier.syncRange (some connectionEleven) 1 10 HashTableDb.new none =
      .ok tableEleven := by
    rw [Nullifier.syncRange_of_serves hnumbered (fun _ _ => rfl) (by decide)]
    rfl
  exact congrArg some (SpendServer.syncStage_of_ok hsync _)

theorem step_publish_eleven :
    spendSynced.step sampleConfig acceptingEngine .publish = some spendEleven := by
  have hsize : spendSynced.hashtable.len ≤ Nullifier.targetSize := by decide
  exact congrArg some (SpendServer.publish_of_le hsize rfl)

/-- A server that syncs completely publishes the tip. -/
theorem fresh_start_publishes_tip :
    ¬ forall labels o,
      Run (fun o label o' =>
          (Nullifier.spendPublisher sampleConfig acceptingEngine).ObservedStep o label o' ∧
          (SpendServer.builds label.1 = true -> confirmationDepth ≤ label.2))
        (Publisher.startOf SpendServer.init) labels o ->
      (Nullifier.spendPublisher sampleConfig acceptingEngine).PublishedBehindTip o := by
  intro hall
  let P := Nullifier.spendPublisher sampleConfig acceptingEngine
  let atStart : Observed (SpendServer Unit) := Publisher.startOf SpendServer.init
  let atConnect := P.next atStart (.connect 10 none, 10) spendConnected
  let atSync := P.next atConnect (.range (some connectionEleven), 10) spendSynced
  have hconnect : P.ObservedStep atStart (.connect 10 none, 10) atConnect :=
    Publisher.observedStep_next step_connect_eleven
  have hsync : P.ObservedStep atConnect (.range (some connectionEleven), 10) atSync :=
    Publisher.observedStep_next step_range_eleven
  have hpublish : P.ObservedStep atSync (.publish, 10)
      (P.next atSync (.publish, 10) spendEleven) :=
    Publisher.observedStep_next step_publish_eleven
  have hbehind := hall _ _ ((((Run.nil atStart).snoc ⟨hconnect, fun _ => Nat.le_refl _⟩).snoc
    ⟨hsync, fun _ => Nat.le_refl _⟩).snoc ⟨hpublish, fun _ => Nat.le_refl _⟩)
  have htip := hbehind 10 ⟨_, rfl, rfl⟩
  exact absurd htip (by decide)

end Combined
end SpendabilityPir
