import SpendabilityPir.Combined.CoverageSoundness
import SpendabilityPir.Nullifier.Provenance

/-!
# Reported spends

Neither server reports a spend that lightwalletd did not serve it, whatever it was served:
the metadata a client decodes is that of a nullifier of a served block.
-/

namespace SpendabilityPir
namespace Combined

open Foundation Shared
open Nullifier (EventFrom HashTableDb MadeFrom MadeInvariant NullifierWithMeta ServedOf
  ServerConfig ServerInput SpendServer)
open Witness (MerkleHashOrchard)

/-!
## The follow loop
-/

section Loop

variable {σ τ : Type} {M : MerkleHashOrchard} {config : ServerConfig}
variable {nfEngine : PirEngine σ} {witEngine : PirEngine τ} {Served : CompactBlock -> Prop}

theorem entriesFrom_rollbackAbove {P : Nullifier.NullifierEntry -> Prop}
    {hashtable hashtable' : HashTableDb} {rollbackTo : Nat} (h : hashtable.EntriesFrom P)
    (hrollback : rollbackAbove hashtable rollbackTo = some hashtable') :
    hashtable'.EntriesFrom P := by
  induction hsize : hashtable.blockIndex.size using Nat.strong_induction_on
    generalizing hashtable with
  | _ size ih =>
      unfold rollbackAbove at hrollback
      split at hrollback
      · split at hrollback
        · cases hrollback
          exact h
        · split at hrollback
          · cases hrollback
          · next hlast =>
              cases hrollback
              exact HashTableDb.entriesFrom_rollbackBlock h hlast
          · next hlast =>
              have hlt := rollbackBlock_size_lt hlast
              rw [hsize] at hlt
              exact ih _ hlt (HashTableDb.entriesFrom_rollbackBlock h hlast) hrollback rfl
      · cases hrollback
        exact h

/-- The entries a failing insertion leaves are of the block as well. -/
theorem entriesFrom_ingestNullifiers {hashtable hashtable' : HashTableDb}
    {action : ChainAction} {block : CompactBlock} {priorTreeSize : Option UInt32}
    (h : hashtable.EntriesFrom (MadeFrom Served)) (hserved : Served block)
    (hingest : ingestNullifiers hashtable action block.height.toNat (toHashArray block.hash)
      (Nullifier.extractNullifiersWithMeta block priorTreeSize).1 = some hashtable') :
    hashtable'.EntriesFrom (MadeFrom Served) := by
  have hmade : forall nwm,
      nwm ∈ (Nullifier.extractNullifiersWithMeta block priorTreeSize).1 ->
      MadeFrom Served (HashTableDb.entryOf (UInt32.ofNat block.height.toNat) nwm) :=
    fun nwm hmem => ⟨block, priorTreeSize, nwm, hserved, hmem, rfl⟩
  cases action with
  | extend =>
      exact HashTableDb.entriesFrom_evictToTarget
        (HashTableDb.entriesFrom_insertBlock h hmade rfl) hingest
  | reorg rollbackTo =>
      rcases Option.map_eq_some_iff.mp hingest with ⟨rolledBack, hrollback, heq⟩
      rw [← heq]
      exact HashTableDb.entriesFrom_insertBlock (entriesFrom_rollbackAbove h hrollback) hmade
        rfl

/-- The table of the databases, where there is one, is made from served blocks. -/
def DatabasesFrom (Served : CompactBlock -> Prop) (databases : Databases) : Prop :=
  forall hashtable, databases.hashtable = some hashtable ->
    hashtable.EntriesFrom (MadeFrom Served)

theorem databasesFrom_ingestBlocks {loop loop' : FollowLoop} {blocks : List CompactBlock}
    (h : DatabasesFrom Served loop.databases)
    (hserved : forall block, block ∈ blocks -> Served block)
    (hingest : ingestBlocks loop blocks = some loop') :
    DatabasesFrom Served loop'.databases := by
  induction blocks generalizing loop with
  | nil =>
      cases hingest
      exact h
  | cons block rest ih =>
      unfold ingestBlocks at hingest
      split at hingest
      · cases hingest
      · next mid hblock =>
          apply ih _ (fun other hother => hserved other (List.mem_cons_of_mem _ hother)) hingest
          intro inserted hinserted
          rcases ingestBlock_cases hblock with
            ⟨_, _, ⟨_, hnone⟩ | ⟨hashtable, hashtable', htable, htable', hone⟩⟩
          · rw [hnone] at hinserted
            cases hinserted
          · rw [htable'] at hinserted
            cases hinserted
            exact entriesFrom_ingestNullifiers (h hashtable htable)
              (hserved block List.mem_cons_self) hone

theorem databasesFrom_catchUp {connection : Option Connection}
    {databases databases' : Databases} (h : DatabasesFrom Served databases)
    (hserved : forall c, connection = some c -> forall block, block ∈ c.view -> Served block)
    (hcatch : catchUp connection databases = .ok databases') :
    DatabasesFrom Served databases' := by
  rcases catchUp_cases hcatch with hnullifier | hwitness | ⟨hsame, _⟩
  · rcases hnullifier with ⟨hashtable, tree, hashtable', heq, heq', _, hcaught⟩
    rw [heq'] at *
    rw [heq] at h
    intro found hfound
    cases hfound
    rcases bind_eq_ok.mp hcaught with ⟨synced, hsync, hevict⟩
    have hsynced := Nullifier.entriesFrom_syncRange (h hashtable rfl) hserved
      (Outcome.mapErr_eq_ok.mp hsync)
    exact HashTableDb.entriesFrom_evictToTarget hsynced (Outcome.ofPanics_eq_ok.mp hevict)
  · rcases hwitness with ⟨hashtable, tree, tree', heq, heq', _⟩
    rw [heq'] at *
    rw [heq] at h
    exact h
  · rw [hsame]
    exact h

/-!
## Runs
-/

def CombinedInput.ServedOf (Served : CompactBlock -> Prop) : CombinedInput -> Prop
  | .nullifier input => Nullifier.ServedOf Served input
  | .witness _ _ _ _ => True
  | .enter connection => forall c, connection = some c ->
      forall block, block ∈ c.view -> Served block
  | .poll view => forall block, block ∈ view -> Served block

/-- The tables and what is published are made from served blocks. -/
def CombinedMade (Served : CompactBlock -> Prop) (nfEngine : PirEngine σ) :
    CombinedState σ τ -> Prop
  | .syncing nullifier _ => forall s, nullifier = some s -> MadeInvariant Served nfEngine s
  | .following s => DatabasesFrom Served s.loop.databases ∧
      forall pir, s.nfPir = some pir -> pir.ReportsFrom nfEngine Served

theorem combinedMade_poll {s s' : CombinedServer σ τ} {view : ChainView}
    (h : CombinedMade Served nfEngine (.following s))
    (hserved : forall block, block ∈ view -> Served block)
    (hpoll : s.poll M nfEngine witEngine view = some s') :
    CombinedMade Served nfEngine (.following s') := by
  rcases CombinedServer.poll_cases hpoll with
    ⟨_, ⟨_, hsame⟩ | ⟨_, _, hstopped⟩ | ⟨loop', _, hingest, hpublished⟩⟩
  · rw [hsame]
    exact h
  · rw [hstopped]
    exact h
  · have hdatabases := databasesFrom_ingestBlocks h.left (fun block hblock =>
      hserved block (Nullifier.mem_view_of_mem_newBlocks hblock)) hingest
    have hsame := publish_loop M nfEngine witEngine { s with loop := loop' }
    rw [hpublished]
    constructor
    · intro hashtable htable
      rw [hsame.hashtable] at htable
      exact hdatabases hashtable htable
    · intro pir hpir
      rcases CombinedServer.nfPir_publish hpir with hold | ⟨hashtable, htable, hrebuild⟩
      · exact h.right pir hold
      · exact ⟨hashtable, hdatabases hashtable htable, hrebuild⟩

theorem combinedMade_step {s s' : CombinedState σ τ} {input : CombinedInput}
    (h : CombinedMade Served nfEngine s) (hserved : input.ServedOf Served)
    (hstep : CombinedRunStep M config nfEngine witEngine s input s') :
    CombinedMade Served nfEngine s' := by
  cases hstep with
  | nullifier _ hnext =>
      intro found hfound
      cases hfound
      exact Nullifier.madeInvariant_step (h _ rfl) hserved hnext
  | witness _ => exact h
  | @enter nullifier witness connection databases hsynced hbuilt hcatch =>
      constructor
      · apply databasesFrom_catchUp _ hserved hcatch
        intro hashtable htable
        rcases Option.map_eq_some_iff.mp htable with ⟨server, hserver, heq⟩
        rw [← heq]
        exact (h server hserver).table
      · intro pir hpir
        rcases Option.bind_eq_some_iff.mp hpir with ⟨server, hserver, hlive⟩
        exact (h server hserver).published pir hlive
  | poll hpoll => exact combinedMade_poll h hserved hpoll

theorem CombinedMade.published {s : CombinedState σ τ} (h : CombinedMade Served nfEngine s)
    {pir : Nullifier.PirState σ} (hpir : s.nfPir = some pir) :
    pir.ReportsFrom nfEngine Served := by
  cases s with
  | syncing nullifier witness =>
      rcases Option.bind_eq_some_iff.mp hpir with ⟨server, hserver, hlive⟩
      exact (h server hserver).published pir hlive
  | following server => exact h.right pir hpir

theorem combinedMade_startingServer (nullifier witness : Bool) :
    CombinedMade Served nfEngine (startingServer σ τ nullifier witness) := by
  intro s hs
  cases nullifier with
  | false => cases hs
  | true =>
      cases hs
      exact Nullifier.madeInvariant_init

end Loop

/-- In every run of either server, whatever lightwalletd serves and however often it
reorganises, a spend found in the published rows is one of a block that it served, at that
block's height and with the output range computed from it. -/
theorem reported_spends_were_served {σ τ : Type} {M : MerkleHashOrchard}
    {config : ServerConfig} {nfEngine : PirEngine σ} {witEngine : PirEngine τ}
    {Served : CompactBlock -> Prop} :
    (forall inputs s,
      Run (fun s input s' => SpendServer.step config nfEngine s input = some s')
        SpendServer.init inputs s ->
      (forall input, input ∈ inputs -> ServedOf Served input) ->
      forall pir, s.livePir = some pir -> pir.ReportsServed nfEngine Served) ∧
    forall nullifier witness inputs s,
      Run (CombinedRunStep M config nfEngine witEngine)
        (startingServer σ τ nullifier witness) inputs s ->
      (forall input, input ∈ inputs -> input.ServedOf Served) ->
      forall pir, s.nfPir = some pir -> pir.ReportsServed nfEngine Served := by
  constructor
  · intro inputs s hrun hserved pir hpir
    have hmade : MadeInvariant Served nfEngine s :=
      hrun.invariant_of_forall (fun _ _ _ h hinput hstep =>
        Nullifier.madeInvariant_step h hinput hstep) hserved Nullifier.madeInvariant_init
    exact (hmade.published pir hpir).reportsServed
  · intro nullifier witness inputs s hrun hserved pir hpir
    have hmade : CombinedMade Served nfEngine s :=
      hrun.invariant_of_forall (fun _ _ _ h hinput hstep =>
        combinedMade_step h hinput hstep) hserved (combinedMade_startingServer _ _)
    exact (hmade.published hpir).reportsServed

theorem subset_chainOrphaned : forall block, block ∈ chainBefore -> block ∈ chainOrphaned :=
  fun _ h => List.mem_append_left [sampleOrphan] h

/-- What is found after block 2 was served is of the blocks of the chain. -/
theorem reported_spends_were_served_nextBlock :
    (exists s : SpendServer (List UInt8),
      s.livePir = some (pirOf Nullifier.tableOrphaned) ∧
      (pirOf Nullifier.tableOrphaned).ReportsServed keepingEngine (· ∈ chainOrphaned)) ∧
    exists s : CombinedState (List UInt8) Unit,
      s.nfPir = some (pirOf Nullifier.tableOrphaned) ∧
      (pirOf Nullifier.tableOrphaned).ReportsServed keepingEngine (· ∈ chainOrphaned) := by
  have hserved := @reported_spends_were_served (List UInt8) Unit Witness.sampleHash
    Nullifier.sampleConfig keepingEngine Nullifier.acceptingEngine (· ∈ chainOrphaned)
  have hspend := (((((Run.nil _).snoc sampleCoverage_connect).snoc sampleCoverage_range).snoc
    sampleCoverage_publish).snoc sampleCoverage_poll).snoc sampleCoverage_handle
  have hsynced := (((Run.nil (startingServer (List UInt8) Unit true false)).snoc
    (sampleCombined_nullifier sampleCoverage_connect trivial)).snoc
    (sampleCombined_nullifier sampleCoverage_range trivial)).snoc
    (sampleCombined_nullifier sampleCoverage_publish trivial)
  have hcombined := (hsynced.snoc sampleCombined_enter).snoc sampleCombined_poll
  constructor
  · refine ⟨spendServing Nullifier.tableOrphaned Nullifier.taskOrphaned [], rfl,
      hserved.1 _ _ (hspend.mono (fun _ _ _ h => h.step)) ?_ _ rfl⟩
    simpa [Nullifier.ServedOf, connectionStart] using subset_chainOrphaned
  · refine ⟨.following (combinedServing Nullifier.tableOrphaned Nullifier.taskOrphaned), rfl,
      hserved.2 true false _ _ (hcombined.mono (fun _ _ _ h => h.step)) ?_ _ rfl⟩
    simpa [CombinedInput.ServedOf, Nullifier.ServedOf, connectionStart] using
      subset_chainOrphaned

end Combined
end SpendabilityPir
