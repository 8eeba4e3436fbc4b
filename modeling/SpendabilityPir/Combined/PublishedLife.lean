import SpendabilityPir.Combined.CombinedLife
import SpendabilityPir.Combined.ReportedSpends
import SpendabilityPir.Nullifier.PublishedAnswers

/-!
# What a life of the combined server publishes

Whatever crashed before, the published nullifiers were built from a table of the chain,
with entries of its blocks, and the published witnesses are those of a window of it.
-/

namespace SpendabilityPir
namespace Combined

open Foundation Shared
open Nullifier (HashTableDb SpendServer ServerConfig CoverableChain MadeFrom SmallBlocks)
open Witness (CommitmentTreeDb HonestChain LwdClient MerkleHashOrchard OnWindow ReportsWindow
  Window WitnessServer)

def CombinedState.table {σ τ : Type} : CombinedState σ τ -> Option HashTableDb
  | .syncing nullifier _ => nullifier.map SpendServer.hashtable
  | .following s => s.loop.databases.hashtable

/-- A table of an interval of the chain, with entries of its blocks. -/
structure TableOf (chain : ChainView) (hashtable : HashTableDb) : Prop where
  holds : hashtable.HoldsThroughLatest chain
  made : hashtable.EntriesFrom (MadeFrom (· ∈ chain))

/-- The state was built from a table of the chain. -/
def FromTable {σ : Type} (nfEngine : PirEngine σ) (chain : ChainView)
    (pir : Nullifier.PirState σ) : Prop :=
  exists hashtable, TableOf chain hashtable ∧
    Nullifier.rebuildPir nfEngine hashtable Nullifier.scenario = .ok pir

/-- The state shows the chain on a window of it. -/
def OnSomeWindow {τ : Type} (M : MerkleHashOrchard) (witEngine : PirEngine τ)
    (chain : ChainView) (pir : Witness.PirState τ) : Prop :=
  exists w n, w.Sound M chain ∧ pir.Shows M witEngine w chain n

/-- The witnesses that are published are of a window; a sync may end without a block of it,
but the loop is not entered then. -/
def WitnessesShown {σ τ : Type} (M : MerkleHashOrchard) (witEngine : PirEngine τ)
    (chain : ChainView) : CombinedState σ τ -> Prop
  | .syncing _ witness => forall server : WitnessServer τ, witness = some (some server) ->
      server.tree.latestHeight ≠ none -> forall pir, server.livePir = some pir ->
        OnSomeWindow M witEngine chain pir
  | .following s => forall pir, s.witPir = some pir -> OnSomeWindow M witEngine chain pir

/-- What a process works on and publishes is of the chain. -/
structure Published {σ τ : Type} (M : MerkleHashOrchard) (nfEngine : PirEngine σ)
    (witEngine : PirEngine τ) (chain : ChainView) (state : CombinedState σ τ) : Prop where
  made : CombinedMade (· ∈ chain) nfEngine state
  nullifiers : forall pir, state.nfPir = some pir -> FromTable nfEngine chain pir
  witnesses : WitnessesShown M witEngine chain state

/-!
## Steps of the server
-/

section Steps

variable {σ τ : Type} {U : BlockUniverse} {M : MerkleHashOrchard} {config : ServerConfig}
variable {nfEngine : PirEngine σ} {witEngine : PirEngine τ} {chain : ChainView}
variable {state state' : CombinedState σ τ} {input : CombinedInput}

theorem nfPir_of_step {pir : Nullifier.PirState σ}
    (hstep : CombinedRunStep M config nfEngine witEngine state input state')
    (hpir : state'.nfPir = some pir) :
    state.nfPir = some pir ∨ exists hashtable, state'.table = some hashtable ∧
      Nullifier.rebuildPir nfEngine hashtable Nullifier.scenario = .ok pir := by
  cases hstep with
  | nullifier _ hnext =>
      rcases SpendServer.livePir_of_step hnext hpir with hold | hbuilt
      · exact Or.inl hold
      · exact Or.inr ⟨_, rfl, hbuilt⟩
  | witness _ => exact Or.inl hpir
  | enter _ _ _ => exact Or.inl hpir
  | poll hpoll =>
      rcases (CombinedServer.poll_cases hpoll).right with
        ⟨_, hsame⟩ | ⟨_, _, hstopped⟩ | ⟨loop, _, _, hpublished⟩
      · rw [hsame] at hpir
        exact Or.inl hpir
      · rw [hstopped] at hpir
        exact Or.inl hpir
      · rw [hpublished] at hpir
        rcases CombinedServer.nfPir_publish hpir with hold | ⟨hashtable, htable, hbuilt⟩
        · exact Or.inl hold
        · refine Or.inr ⟨hashtable, ?_, hbuilt⟩
          rw [hpublished]
          exact (publish_loop M nfEngine witEngine _).hashtable.trans htable

theorem CombinedCoverage.table_holds {hashtable : HashTableDb}
    (h : CombinedCoverage U nfEngine chain state) (htable : state.table = some hashtable) :
    hashtable.HoldsThroughLatest chain := by
  cases state with
  | syncing nullifier witness =>
      rcases Option.map_eq_some_iff.mp htable with ⟨server, hserver, heq⟩
      rw [← heq]
      exact (h server hserver).table
  | following server => exact (h.covers hashtable htable).holds

theorem CombinedMade.table_made {Served : CompactBlock -> Prop} {hashtable : HashTableDb}
    (h : CombinedMade Served nfEngine state) (htable : state.table = some hashtable) :
    hashtable.EntriesFrom (MadeFrom Served) := by
  cases state with
  | syncing nullifier witness =>
      rcases Option.map_eq_some_iff.mp htable with ⟨server, hserver, heq⟩
      rw [← heq]
      exact (h server hserver).table
  | following server => exact h.left hashtable htable

theorem onSomeWindow_runSyncOnly {w : Window} {client : LwdClient}
    {connection : Option Connection} {windowShardLimit : Nat}
    {snapshot : Option CommitmentTreeDb} {tree : CommitmentTreeDb} {pir : Witness.PirState τ}
    (hwit : witEngine.Accepts Witness.scenario) (hw : w.Sound M chain)
    (hchain : HonestChain U M chain)
    (hover : SyncsOnWindow M w chain client connection windowShardLimit snapshot)
    (hsync : Witness.runSyncOnly M witEngine client connection windowShardLimit snapshot =
      .ok (tree, pir))
    (hlatest : tree.latestHeight ≠ none) : OnSomeWindow M witEngine chain pir := by
  rw [Witness.runSyncOnly_eq] at hsync
  rcases bind_eq_ok.mp hsync with ⟨synced, hsynced, hrebuild⟩
  rcases Witness.onWindow_syncedTree hw hchain hover.view hover.loaded hover.fresh hsynced with
    ⟨n, hon⟩
  have hcache := Witness.rebuildPir_cache_only hrebuild
  have hbase : w.base < n := by
    apply Nat.lt_of_le_of_ne hon.base_le
    intro heq
    apply hlatest
    rw [hcache, CommitmentTreeDb.latestHeight]
    change synced.blocks.getLast?.map _ = none
    rw [hon.blocks_eq_nil_iff.mpr heq.symm]
    rfl
  rcases Witness.rebuildPir_of_onWindow hwit hchain hon hbase with
    ⟨built, shown, hshown, _, hshows⟩
  rw [hrebuild] at hshown
  cases hshown
  exact ⟨w, n, hw, hshows⟩

theorem published_step (hnf : nfEngine.Accepts Nullifier.scenario)
    (hwit : witEngine.Accepts Witness.scenario) (hchain : HonestChain U M chain)
    (hcoverable : CoverableChain U chain) (hsmall : SmallBlocks chain)
    (hcoverage : CombinedCoverage U nfEngine chain state)
    (hprocess : CombinedLife.ProcessOn M chain state)
    (h : Published M nfEngine witEngine chain state)
    (hstep : CombinedCoverageStep M config nfEngine witEngine chain state input state')
    (hserved : input.ServedOf (· ∈ chain))
    (hstarts : forall client connection windowShardLimit snapshot,
      input = .witness client connection windowShardLimit snapshot ->
      exists w, w.Sound M chain ∧
        SyncsOnWindow M w chain client connection windowShardLimit snapshot)
    (hnewest : forall connection, input = .enter connection -> state.ServesNewest connection) :
    Published M nfEngine witEngine chain state' := by
  have hmade := combinedMade_step h.made hserved hstep.step
  have hcovers := combinedCoverage_step hcoverable hcoverage hstep
  constructor
  · exact hmade
  · intro pir hpir
    rcases nfPir_of_step hstep.step hpir with hold | ⟨hashtable, htable, hbuilt⟩
    · exact h.nullifiers pir hold
    · exact ⟨hashtable, ⟨hcovers.table_holds htable, hmade.table_made htable⟩, hbuilt⟩
  · have hview := hstep.served
    have hfit := hstep.noGap
    cases hstep.step with
    | nullifier _ _ => exact h.witnesses
    | witness hstart =>
        cases hstart with
        | start hsync =>
            rcases hstarts _ _ _ _ rfl with ⟨w, hw, hover⟩
            intro server hserver hlatest pir hpir
            cases hserver
            cases hpir
            exact onSomeWindow_runSyncOnly hwit hw hchain hover hsync hlatest
    | @enter nullifier witness connection databases _ _ _ =>
        rcases hnewest _ rfl with ⟨_, _, witLatest, _, _, hlatest, _⟩
        intro pir hpir
        rcases Option.bind_eq_some_iff.mp hpir with ⟨server, hserver, hlive⟩
        rcases Option.join_eq_some_iff.mp hserver with hserver
        apply h.witnesses server hserver _ pir hlive
        intro hnone
        rw [syncedDatabases, hserver] at hlatest
        change server.tree.latestHeight = some witLatest at hlatest
        rw [hnone] at hlatest
        cases hlatest
    | @poll before after view hpoll =>
        cases hprocess with
        | @window w _ hw hpair =>
            rcases hpair with ⟨hrunning, height, hloop⟩
            by_cases hnew : before.loop.task.currentHeight < view.tipHeight
            · rcases poll_of_loopAt hnf hwit hw hchain hcoverable hsmall hrunning hloop hview
                hfit hnew with ⟨polled, _, shown, hpolled, _, _, hshown, hpair, _⟩
              rw [hpolled] at hpoll
              cases hpoll
              intro pir hpir
              rw [hshown] at hpir
              cases hpir
              exact ⟨w, _, hw, hpair.shows⟩
            · rw [poll_of_idle hrunning (Nat.le_of_not_lt hnew)] at hpoll
              cases hpoll
              exact h.witnesses

end Steps

/-!
## Lives
-/

namespace CombinedLife

section Lives

variable {σ τ : Type} {U : BlockUniverse} {M : MerkleHashOrchard} {mode : Arithmetic}
variable {xxh64 : List UInt8 -> Nat -> UInt64} {nfEngine : PirEngine σ}
variable {witEngine : PirEngine τ} {chain : ChainView} {config : CombinedConfig}
variable {s s' : CombinedLife σ τ} {a b c : AtomicFile} {input : CombinedLifeInput}

/-- The snapshots of the nullifier side are of tables made from the chain's blocks, and so
is what a process works on and publishes. -/
structure LifePublished (M : MerkleHashOrchard) (xxh64 : List UInt8 -> Nat -> UInt64)
    (nfEngine : PirEngine σ) (witEngine : PirEngine τ) (chain : ChainView)
    (s : CombinedLife σ τ) (c : AtomicFile) : Prop where
  stands : StandsFor Nullifier.snapshotTmpFilename Nullifier.snapshotFilename s.nfFiles c
  offers : c.Offers (Nullifier.SavedFrom xxh64 (fun db => db.EntriesFrom (MadeFrom (· ∈ chain))))
  published : forall state, s.process = some state -> Published M nfEngine witEngine chain state

theorem published_startingServer (nullifier witness : Bool) :
    Published M nfEngine witEngine chain (startingServer σ τ nullifier witness) where
  made := combinedMade_startingServer nullifier witness
  nullifiers pir hpir := by cases nullifier <;> cases hpir
  witnesses server hserver := by cases witness <;> cases hserver

theorem SavesTable.made {hashtable : HashTableDb} (hsaves : s.SavesTable hashtable)
    (h : LifePublished M xxh64 nfEngine witEngine chain s c) :
    hashtable.EntriesFrom (MadeFrom (· ∈ chain)) := by
  cases hsaves with
  | synced hprocess _ _ hevict =>
      exact HashTableDb.entriesFrom_evictToTarget
        ((h.published _ hprocess).made.table_made rfl) hevict
  | periodic hprocess _ htable => exact (h.published _ hprocess).made.table_made htable

theorem servedOf_of_admits {state : CombinedState σ τ} {input : CombinedInput}
    (h : LifePublished M xxh64 nfEngine witEngine chain s c)
    (hprocess : s.process = some state) (hadmits : s.Admits xxh64 input)
    (hover : s.OverChain M mode xxh64 chain (.server input)) :
    input.ServedOf (· ∈ chain) := by
  cases hadmits with
  | connect readable =>
      intro hashtable hloaded
      unfold Nullifier.SpendLife.loaded at hloaded
      split at hloaded
      · change (Nullifier.loadSnapshot xxh64 s.nfFiles.fs).toOption = _ at hloaded
        rcases Nullifier.loadSnapshot_of_offers h.stands h.offers with
          hnone | ⟨db, hdb, hok⟩
        · rw [hnone] at hloaded
          cases hloaded
        · rw [hok] at hloaded
          cases hloaded
          exact hdb
      · cases hloaded
  | range =>
      intro connection heq block hmem
      exact ((hover state hprocess).left connection heq).subset hmem
  | publish _ => exact trivial
  | witness _ _ => exact trivial
  | enter =>
      intro connection heq block hmem
      exact ((hover state hprocess).left connection heq).subset hmem
  | poll _ =>
      intro block hmem
      exact (hover state hprocess).left.subset hmem

theorem lifePublished_server {state state' : CombinedState σ τ} {input : CombinedInput}
    (hnf : nfEngine.Accepts Nullifier.scenario) (hwit : witEngine.Accepts Witness.scenario)
    (hchain : HonestChain U M chain) (hcoverable : CoverableChain U chain)
    (hsmall : SmallBlocks chain) (hlife : LifeInvariant U M xxh64 nfEngine chain s a b)
    (h : LifePublished M xxh64 nfEngine witEngine chain s c)
    (hprocess : s.process = some state) (hadmits : s.Admits xxh64 input)
    (hstep : CombinedRunStep M config.nfConfig nfEngine witEngine state input state')
    (hover : s.OverChain M mode xxh64 chain (.server input)) :
    LifePublished M xxh64 nfEngine witEngine chain (s.advance config state input state') c := by
  have hcovers := coverageStep_of_life hlife hprocess hadmits hstep hover
  rcases advance_eq config s state input state' with ⟨hnext, _, hnfFiles, _⟩
  constructor
  · exact hnfFiles ▸ h.stands
  · exact h.offers
  · intro found hfound
    rw [hnext] at hfound
    cases hfound
    apply published_step hnf hwit hchain hcoverable hsmall (hlife.coverage state hprocess)
      (hlife.process state hprocess) (h.published state hprocess) hcovers
      (servedOf_of_admits h hprocess hadmits hover)
    · intro client connection windowShardLimit snapshot heq
      cases hadmits with
      | witness hsynced _ =>
          cases heq
          rcases hlife.synced _ hsynced with ⟨w, hw, hloads, _⟩
          exact ⟨w, hw, hloads⟩
      | connect _ => cases heq
      | range => cases heq
      | publish _ => cases heq
      | enter => cases heq
      | poll _ => cases heq
    · intro connection heq
      cases hadmits with
      | enter => exact (hover state hprocess).right.right connection heq
      | connect _ => cases heq
      | range => cases heq
      | publish _ => cases heq
      | witness _ _ => cases heq
      | poll _ => cases heq

theorem lifePublished_nfFiles {label : ReplaceLabel} {files : Replacing String}
    (h : LifePublished M xxh64 nfEngine witEngine chain s c)
    (hsave : Nullifier.SaveStep s.nfFiles label files)
    (hpayload : forall payload, label = .start payload ->
      Nullifier.SavedFrom xxh64 (fun db => db.EntriesFrom (MadeFrom (· ∈ chain))) payload) :
    exists c', LifePublished M xxh64 nfEngine witEngine chain { s with nfFiles := files } c' := by
  rcases standsFor_step Nullifier.snapshotFilenames_ne h.stands hsave with
    ⟨c', hatomic, hstands⟩
  exact ⟨c', hstands, AtomicFile.offers_step h.offers hpayload hatomic, h.published⟩

theorem lifePublished_crashed {nfFs witFs : FileSystem String}
    (hstands : StandsFor Nullifier.snapshotTmpFilename Nullifier.snapshotFilename
      { fs := nfFs, stage := .idle } c)
    (hoffers : c.Offers
      (Nullifier.SavedFrom xxh64 (fun db => db.EntriesFrom (MadeFrom (· ∈ chain))))) :
    LifePublished M xxh64 nfEngine witEngine chain (crashed nfFs witFs : CombinedLife σ τ) c where
  stands := hstands
  offers := hoffers
  published _ hfalse := by cases hfalse

theorem lifePublished_step (hnf : nfEngine.Accepts Nullifier.scenario)
    (hwit : witEngine.Accepts Witness.scenario) (hchain : HonestChain U M chain)
    (hcoverable : CoverableChain U chain) (hsmall : SmallBlocks chain)
    (hlife : LifeInvariant U M xxh64 nfEngine chain s a b)
    (h : LifePublished M xxh64 nfEngine witEngine chain s c)
    (hstep : StepOver config M mode xxh64 nfEngine witEngine chain s input s') :
    exists c', LifePublished M xxh64 nfEngine witEngine chain s' c' := by
  rcases hstep with ⟨hstep, hover⟩
  cases hstep with
  | start _ =>
      refine ⟨c, h.stands, h.offers, ?_⟩
      intro state hstate
      cases hstate
      exact published_startingServer true true
  | syncWitness _ _ _ _ => exact ⟨c, h.stands, h.offers, h.published⟩
  | server hprocess hadmits hstep =>
      exact ⟨c, lifePublished_server hnf hwit hchain hcoverable hsmall hlife h hprocess hadmits
        hstep hover⟩
  | saveTable hsaves hsnapshot hsave =>
      exact lifePublished_nfFiles h hsave (fun _ heq => by
        cases heq
        exact ⟨_, hsaves.made h, (hsaves.holds hlife).consistent, hsnapshot⟩)
  | saveTree _ _ => exact ⟨c, h.stands, h.offers, h.published⟩
  | writeTable hlabel hsave =>
      exact lifePublished_nfFiles h hsave
        (fun payload heq => absurd heq (AtomicFile.no_payload_of_writes hlabel payload))
  | writeTree _ _ => exact ⟨c, h.stands, h.offers, h.published⟩
  | renameTable hsave =>
      have hsaved : LifePublished M xxh64 nfEngine witEngine chain s.tableSaved c :=
        ⟨h.stands, h.offers, h.published⟩
      exact lifePublished_nfFiles hsaved hsave (fun _ hfalse => by cases hfalse)
  | renameTree _ =>
      refine ⟨c, ?_, h.offers, ?_⟩
      · unfold treeSaved
        split <;> exact h.stands
      · unfold treeSaved
        split <;> exact h.published
  | kill =>
      exact ⟨_, lifePublished_crashed h.stands.giveUp h.offers.giveUp⟩
  | powerLoss hloss _ =>
      rcases h.stands.powerLoss hloss with ⟨hmem, hstands⟩
      exact ⟨_, lifePublished_crashed hstands (h.offers.powerLoss hmem)⟩

/-- In every life over the chain, what a process publishes is of the chain. -/
theorem lifePublished_run {inputs : List CombinedLifeInput}
    (hnf : nfEngine.Accepts Nullifier.scenario) (hwit : witEngine.Accepts Witness.scenario)
    (hchain : HonestChain U M chain) (hshort : chain.length ≤ 2 ^ 31)
    (hcoverable : CoverableChain U chain) (hsmall : SmallBlocks chain)
    (hrun : Run (StepOver config M mode xxh64 nfEngine witEngine chain) init inputs s) :
    exists c, LifePublished M xxh64 nfEngine witEngine chain s c := by
  have hinvariant := hrun.invariant (P := fun s =>
    (exists a b, LifeInvariant U M xxh64 nfEngine chain s a b) ∧
      exists c, LifePublished M xxh64 nfEngine witEngine chain s c) (fun _ _ _ hkept hstep => by
    rcases hkept with ⟨⟨a, b, hlife⟩, c, h⟩
    exact ⟨lifeInvariant_step hnf hwit hchain hshort hcoverable hsmall hlife hstep,
      lifePublished_step hnf hwit hchain hcoverable hsmall hlife h hstep⟩)
    ⟨⟨_, _, lifeInvariant_crashed (standsFor_empty _ _) (AtomicFile.offers_missing _)
      (standsFor_empty _ _) (AtomicFile.offers_missing _)⟩,
      _, lifePublished_crashed (standsFor_empty _ _) (AtomicFile.offers_missing _)⟩
  exact hinvariant.right

end Lives

end CombinedLife

end Combined
end SpendabilityPir
