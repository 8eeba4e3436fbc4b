import SpendabilityPir.Combined.CombinedFollow
import SpendabilityPir.Nullifier.SnapshotCatchUp
import SpendabilityPir.Witness.TreeCatchUp

/-!
# Restarting from a snapshot

A restart takes the blocks after the snapshot's newest one, whatever that is.  So both
servers are canonical afterwards exactly when what they keep of the snapshot is.
-/

namespace SpendabilityPir
namespace Combined

open Foundation Shared
open Nullifier (HashTableDb LiveBlocks ServerConfig)
open Witness (CommitmentTreeDb MerkleHashOrchard HonestChain LwdClient)

/-- After a restart the tree holds the canonical leaves through its latest height exactly
when the snapshot's tree did; and the table holds the canonical blocks through its latest
height exactly when the blocks of its snapshot that survive the eviction are canonical. -/
theorem restart_canonical_iff {σ τ : Type} {U : BlockUniverse} {M : MerkleHashOrchard}
    {nfEngine : PirEngine σ} {witEngine : PirEngine τ} {chain : ChainView}
    {client : LwdClient} {connection : Option Connection} {limit : Nat}
    {config : ServerConfig} {connect : Nat -> Nat -> Option Connection}
    {tree : CommitmentTreeDb} {snapshot : HashTableDb} {live : LiveBlocks}
    (hchain : HonestChain U M chain)
    (hnonzero : forall block, block ∈ chain -> Nullifier.NonzeroNullifiers block)
    (hview : forall served, connection = some served -> served.view = chain)
    (hconnect : forall fromHeight toHeight served,
      connect fromHeight toHeight = some served -> served.view = chain)
    (hrep : snapshot.Represents live) (hserved : Nullifier.WereServed U live) :
    (forall tree' pir,
      Witness.runSyncOnly M witEngine client connection limit (some tree) =
        .ok (tree', pir) ->
      (Witness.HoldsThroughLatest tree' chain ↔ Witness.HoldsThroughLatest tree chain)) ∧
    forall hashtable pir,
      Nullifier.runSyncOnly config nfEngine chain.tipHeight connect (some snapshot) =
        .ok (hashtable, pir) ->
      (hashtable.HoldsThroughLatest chain ↔ exists lo hi, Nullifier.LiveOn
        (live.survivors ((Nullifier.servedBlocks connect snapshot chain.tipHeight).flatMap
          Nullifier.extractNullifiers).length) chain (Set.Ico lo hi)) := by
  constructor
  · intro tree' pir hrun
    exact Witness.restarted_holdsThroughLatest_iff hchain.blocks hview hrun
  · intro hashtable pir hrun
    exact Nullifier.restarted_holdsThroughLatest_iff hchain.blocks hnonzero hconnect hrep
      hserved hrun

/-!
## An orphaned snapshot

Block 2 of the snapshot is not block 2 of the chain at the restart.
-/

def forkedBlock : CompactBlock :=
  sampleBlock 2 6 2
    [{ nullifier := List.replicate 32 9
       cmx := 1 :: List.replicate 31 0
       ephemeralKey := []
       ciphertext := [] }] 1

def forkedUniverse : BlockUniverse :=
  BlockUniverse.ofList (forkedBlock :: sampleBlocks) (by decide) (by decide)

def chainForked : ChainView := [sampleGenesis, sampleFirst, forkedBlock]

theorem honest_chainForked : HonestView forkedUniverse chainForked := by
  have hserved : chainForked ⊆ forkedBlock :: sampleBlocks := by decide
  exact honestView_of_list (by decide) hserved (by decide) (by decide)

theorem honestChain_chainAfter_forked :
    HonestChain forkedUniverse Witness.sampleHash chainAfter := by
  have hserved : chainAfter ⊆ forkedBlock :: sampleBlocks := by decide
  exact ⟨honestView_of_list (by decide) hserved (by decide) (by decide),
    honestCommitments_of_zeros 1 (by decide) rfl⟩

def connectionAfter : Connection :=
  { view := chainAfter, fails := fun _ _ => false }

def clientAfter : LwdClient :=
  { blocks := connectionAfter, subtreeRoots := none }

theorem fetchBatches_connectionAfter : fetchBatches connectionAfter 3 3 = [sampleNext] := by
  rw [fetchBatches_complete honestChain_chainAfter.blocks.heights (fun _ _ => rfl) (by decide)]
  rfl

def tableForked : HashTableDb :=
  (Nullifier.tableBefore.insertBlock 2 (toHashArray forkedBlock.hash)
    (Nullifier.extractNullifiersWithMeta forkedBlock none).1).1

def tableRestarted : HashTableDb :=
  (tableForked.insertBlock 3 (toHashArray sampleNext.hash) []).1

theorem runSyncOnly_tableForked :
    Nullifier.runSyncOnly Nullifier.sampleConfig Nullifier.acceptingEngine
        chainAfter.tipHeight (fun _ _ => some connectionAfter) (some tableForked) =
      .ok (tableRestarted,
        { engineState := (), metadata := Nullifier.metadataOf tableRestarted }) := by
  have hsync : Nullifier.syncBatch (fun _ _ => some connectionAfter) 3 3 tableForked =
      .ok tableRestarted := by
    change Nullifier.insertEvents tableForked (emitBlocks Nullifier.newBlockEvent none
      (fetchBatches connectionAfter 3 3)) = _
    rw [fetchBatches_connectionAfter]
    rfl
  have hevict : tableRestarted.evictToTarget = some tableRestarted :=
    HashTableDb.evictToTarget_of_le (by decide)
  change (Nullifier.syncBatch (fun _ _ => some connectionAfter) 3 3 tableForked >>= _) = _
  rw [hsync, ok_bind]
  change (Outcome.ofPanics tableRestarted.evictToTarget >>= _) = _
  rw [hevict]
  rfl

theorem holdsThroughLatest_tableForked : tableForked.HoldsThroughLatest chainForked := by
  have hinsert : Nullifier.tableBefore.insertBlock 2 (toHashArray forkedBlock.hash)
      (Nullifier.extractNullifiersWithMeta forkedBlock none).1 = (tableForked, .ok ()) := rfl
  have hsame : forall height, height ∈ Set.Ico 1 2 ->
      chainForked[height]? = chainBefore[height]? := by
    intro height hheight
    have hone : height = 1 := by
      have hlo := hheight.1
      have hhi := hheight.2
      lia
    rw [hone]
    rfl
  have hmirrors := HashTableDb.mirrors_insertBlock honest_chainForked
    (Nullifier.mirrors_tableBefore.congr hsame) rfl (by simp) (by decide) rfl hinsert
  rw [HashTableDb.holdsThroughLatest_iff]
  exact ⟨1, 3, Nullifier.insert_Ico_right 1 2 ▸ hmirrors⟩

def treeForked : CommitmentTreeDb :=
  Witness.appendBlocks treeBefore [forkedBlock]

theorem holdsThroughLatest_treeForked :
    Witness.HoldsThroughLatest treeForked chainForked :=
  ⟨by decide, Nat.zero_le _⟩

theorem runSyncOnly_treeForked :
    exists tree pir,
      Witness.runSyncOnly Witness.sampleHash Nullifier.acceptingEngine clientAfter
        (some connectionAfter) 1 (some treeForked) = .ok (tree, pir) := by
  have hsync : Witness.syncToTip (some connectionAfter) 3 treeForked 3
      (Witness.knownTreeSize treeForked) =
        .ok (Witness.appendBlocks treeForked [sampleNext]) := by
    change Witness.appendEvents treeForked (emitBlocks Witness.newBlockEvent _
      (fetchBatches connectionAfter 3 3)) = _
    rw [fetchBatches_connectionAfter]
    rfl
  have hinv : CommitmentTreeDb.TreeInvariant Witness.sampleHash 0 []
      (Witness.appendBlocks treeForked [sampleNext]) :=
    Witness.treeInvariant_appendBlock rfl
      (Witness.treeInvariant_appendBlock rfl treeInvariant_treeBefore forkedBlock) sampleNext
  have hcanonical : (Witness.appendBlocks treeForked [sampleNext]).CanonicalLeaves
      Witness.sampleHash := by
    intro leaf hleaf
    rw [List.mem_singleton.mp hleaf]
    exact Witness.canonical_sampleHash (by decide)
  rcases Witness.rebuildPir_of_canonical (accepts_acceptingEngine _) hinv hcanonical 3 with
    ⟨cache, pir, hrebuild, _⟩
  refine ⟨{ Witness.appendBlocks treeForked [sampleNext] with ssRootCache := cache }, pir, ?_⟩
  change (Witness.syncToTip (some connectionAfter) 3 treeForked 3
    (Witness.knownTreeSize treeForked) >>= _) = _
  rw [hsync, ok_bind]
  exact hrebuild

/-- Block 2 of the restarted table is the orphan. -/
theorem not_holdsThroughLatest_tableRestarted :
    ¬ tableRestarted.HoldsThroughLatest chainAfter := by
  intro h
  rcases h with ⟨lo, live, hrep, hlive⟩
  have horphan : exists record, tableRestarted.blockIndex.find? 2 = some record ∧
      record.blockHash = toHashArray forkedBlock.hash := ⟨_, rfl, rfl⟩
  rcases horphan with ⟨record, hrecord, horphan⟩
  rcases hrep.holds hrecord with ⟨block, hfind, hhash, _⟩
  rcases hlive.blocks 2 block hfind with ⟨served, hserved, hservedHash, _⟩
  cases hserved
  rw [← hhash, horphan] at hservedHash
  exact absurd hservedHash (by decide)

theorem not_holdsThroughLatest_treeForked :
    ¬ Witness.HoldsThroughLatest treeForked chainAfter := by
  intro h
  exact absurd h.leaves (by decide)

/-- The restart from the orphaned snapshot. -/
theorem restart_canonical_iff_forked :
    exists live, tableForked.Represents live ∧
      (exists tree pir,
        Witness.runSyncOnly Witness.sampleHash Nullifier.acceptingEngine clientAfter
          (some connectionAfter) 1 (some treeForked) = .ok (tree, pir) ∧
        (Witness.HoldsThroughLatest tree chainAfter ↔
          Witness.HoldsThroughLatest treeForked chainAfter)) ∧
      (tableRestarted.HoldsThroughLatest chainAfter ↔ exists lo hi, Nullifier.LiveOn
        (live.survivors ((Nullifier.servedBlocks (fun _ _ => some connectionAfter) tableForked
          chainAfter.tipHeight).flatMap Nullifier.extractNullifiers).length)
        chainAfter (Set.Ico lo hi)) := by
  rcases holdsThroughLatest_tableForked with ⟨lo, live, hrep, hlive⟩
  rcases runSyncOnly_treeForked with ⟨tree, pir, hrun⟩
  have hview : forall served, some connectionAfter = some served ->
      served.view = chainAfter := by
    intro served hserved
    cases hserved
    rfl
  have hrestart := @restart_canonical_iff Unit Unit _ _ Nullifier.acceptingEngine
    Nullifier.acceptingEngine _ clientAfter _ 1 Nullifier.sampleConfig _ treeForked _ _
    honestChain_chainAfter_forked (by decide) hview (fun _ _ => hview) hrep
    (hlive.wereServed honest_chainForked)
  exact ⟨live, hrep, ⟨tree, pir, hrun, hrestart.1 tree pir hrun⟩,
    hrestart.2 _ _ runSyncOnly_tableForked⟩

/-- A restart from a snapshot of an earlier honest chain keeps what that chain's
replacement orphaned, in either server. -/
theorem restart_keeps_orphans :
    (¬ forall (U : BlockUniverse) (M : MerkleHashOrchard) (saved chain : ChainView)
        (engine : PirEngine Unit) (client : LwdClient) (connection : Connection)
        (limit : Nat) (tree tree' : CommitmentTreeDb) (pir : Witness.PirState Unit),
        HonestView U saved -> HonestChain U M chain -> client.blocks.view = chain ->
        connection.view = chain -> Witness.HoldsThroughLatest tree saved ->
        Witness.runSyncOnly M engine client (some connection) limit (some tree) =
          .ok (tree', pir) ->
        Witness.HoldsThroughLatest tree' chain) ∧
    ¬ forall (U : BlockUniverse) (M : MerkleHashOrchard) (saved chain : ChainView)
        (engine : PirEngine Unit) (config : ServerConfig) (connection : Connection)
        (snapshot hashtable : HashTableDb) (pir : Nullifier.PirState Unit),
        HonestView U saved -> HonestChain U M chain -> connection.view = chain ->
        snapshot.HoldsThroughLatest saved ->
        Nullifier.runSyncOnly config engine chain.tipHeight (fun _ _ => some connection)
          (some snapshot) = .ok (hashtable, pir) ->
        hashtable.HoldsThroughLatest chain := by
  constructor
  · intro hall
    rcases runSyncOnly_treeForked with ⟨tree, pir, hrun⟩
    have hholds := hall _ _ _ _ _ _ _ _ _ _ _ honest_chainForked
      honestChain_chainAfter_forked rfl rfl holdsThroughLatest_treeForked hrun
    have hview : forall served, some connectionAfter = some served ->
        served.view = chainAfter := by
      intro served hserved
      cases hserved
      rfl
    exact not_holdsThroughLatest_treeForked ((Witness.restarted_holdsThroughLatest_iff
      honestChain_chainAfter_forked.blocks hview hrun).mp hholds)
  · intro hall
    exact not_holdsThroughLatest_tableRestarted (hall _ _ _ _ _ _ _ _ _ _
      honest_chainForked honestChain_chainAfter_forked rfl holdsThroughLatest_tableForked
      runSyncOnly_tableForked)

end Combined
end SpendabilityPir
