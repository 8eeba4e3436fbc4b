import SpendabilityPir.Combined.CoverageSoundness
import SpendabilityPir.Nullifier.SnapshotIo
import SpendabilityPir.Nullifier.WalletSession
import SpendabilityPir.Witness.ServerRecovery

/-!
# Both sides at one height

The follow loop of the combined server starts with both databases at one block, and each
turn that sees new blocks publishes the spends and the witnesses of the same tip.
-/

namespace SpendabilityPir
namespace Combined

open Foundation Shared
open Nullifier (HashTableDb SpendServer ServerConfig CoverableChain SmallBlocks)
open Witness (CommitmentTreeDb HonestChain LwdClient MerkleHashOrchard OnWindow Window
  WitnessServer)

/-- What both sides publish is of the chain through one height. -/
structure PairShows {σ τ : Type} (M : MerkleHashOrchard) (nfEngine : PirEngine σ)
    (witEngine : PirEngine τ) (w : Window) (chain : ChainView) (height : Nat)
    (nfPir : Nullifier.PirState σ) (witPir : Witness.PirState τ) : Prop where
  answers : nfPir.Answers nfEngine chain
  latestHeight : nfPir.metadata.latestHeight = height
  shows : witPir.Shows M witEngine w chain (height + 1)

theorem PairShows.sameHeight {σ τ : Type} {M : MerkleHashOrchard} {nfEngine : PirEngine σ}
    {witEngine : PirEngine τ} {w : Window} {chain : ChainView} {height : Nat}
    {nfPir : Nullifier.PirState σ} {witPir : Witness.PirState τ}
    (h : PairShows M nfEngine witEngine w chain height nfPir witPir) :
    witPir.metadata.anchorHeight = nfPir.metadata.latestHeight :=
  h.shows.anchorHeight.trans h.latestHeight.symm

/-- The loop has both databases through one block of the chain. -/
structure LoopAt (M : MerkleHashOrchard) (w : Window) (chain : ChainView) (height : Nat)
    (loop : FollowLoop) : Prop where
  lt : height < chain.length
  current : loop.task.currentHeight = height
  tip : loop.task.AtTip (chain.take (height + 1))
  table : exists hashtable lo, loop.databases.hashtable = some hashtable ∧
    hashtable.Mirrors chain (Set.Ico lo (height + 1)) ∧ hashtable.latestHeight = some height
  tree : exists tree, loop.databases.tree = some tree ∧ OnWindow M w chain (height + 1) tree
  base_le : w.base ≤ height

section Loop

variable {U : BlockUniverse} {M : MerkleHashOrchard} {w : Window} {chain : ChainView}
variable {height : Nat} {loop loop' : FollowLoop} {block : CompactBlock}

theorem ingestNullifiers_extend {hashtable : HashTableDb} {lo next : Nat}
    {nullifiers : List Nullifier.NullifierWithMeta} (hchain : CoverableChain U chain)
    (hsmall : SmallBlocks chain) (hmirrors : hashtable.Mirrors chain (Set.Ico lo next))
    (hblock : chain[next]? = some block)
    (hroom : HashTableDb.RoomFor hashtable nullifiers)
    (hnullifiers : nullifiers.map Nullifier.NullifierWithMeta.nullifier =
      Nullifier.extractNullifiers block) :
    exists hashtable' lo',
      ingestNullifiers hashtable .extend next (toHashArray block.hash) nullifiers =
        some hashtable' ∧
      hashtable'.Mirrors chain (Set.Ico lo' (next + 1)) ∧
      hashtable'.latestHeight = some next := by
  rcases HashTableDb.insertBlock_ok_iff.mpr hroom with ⟨inserted, hinsert⟩
  have hinserted := HashTableDb.mirrors_insertBlock hchain.honest hmirrors hblock
    (fun hmem => Nat.lt_irrefl next hmem.2)
    (hchain.nonzero block (List.mem_of_getElem? hblock)) hnullifiers hinsert
  rw [Nullifier.insert_Ico_right] at hinserted
  rcases hinserted.evictToTarget_Ico with ⟨evicted, _, hevict, _⟩
  rcases hinserted.evict_keepsNewest hchain.honest hsmall (Nat.min_le_right _ _)
    (List.getElem?_eq_some_iff.mp hblock).1 hevict with ⟨k, _, hkept, hlatest⟩
  refine ⟨evicted, k, ?_, hkept, hlatest⟩
  rw [ingestNullifiers, hinsert]
  exact hevict

theorem loopAt_ingestBlock (hw : w.Sound M chain) (hchain : CoverableChain U chain)
    (hsmall : SmallBlocks chain) (h : LoopAt M w chain height loop)
    (hblock : chain[height + 1]? = some block)
    (hroom : forall hashtable, loop.databases.hashtable = some hashtable ->
      HashTableDb.RoomFor hashtable
        (Nullifier.extractNullifiersWithMeta block loop.task.prevTreeSize).1) :
    exists loop', ingestBlock loop block = some loop' ∧
      LoopAt M w chain (height + 1) loop' := by
  have hheight := hchain.honest.height_eq hblock
  have hlt := (List.getElem?_eq_some_iff.mp hblock).1
  have hgrown : chain.take (height + 1) ++ [block] = chain.take (height + 1 + 1) :=
    (Witness.take_succ_eq hblock).symm
  have hhonest : HonestView U (chain.take (height + 1) ++ [block]) := by
    rw [hgrown]
    apply hchain.honest.of_prefix _ (List.take_prefix _ _)
    apply List.ne_nil_of_length_pos
    rw [List.length_take]
    lia
  have hextend := h.tip.advance_extend hhonest
  rcases h.table with ⟨hashtable, lo, htable, hmirrors, hlatest⟩
  rcases h.tree with ⟨tree, htree, hon⟩
  rcases ingestNullifiers_extend hchain hsmall hmirrors hblock (hroom hashtable htable)
    (Nullifier.map_nullifier_extractNullifiersWithMeta _ _) with
    ⟨hashtable', lo', hingest, hkept, hnewest⟩
  refine ⟨{ databases :=
              { hashtable := some hashtable'
                tree := some (tree.appendCommitments block.height.toNat
                  (toHashArray block.hash) (Witness.extractCommitments block)) }
            task := (loop.task.advance block).1 }, ?_, ?_⟩
  · unfold ingestBlock
    dsimp only
    rw [htable, htree, hextend, hheight]
    dsimp only
    rw [hingest]
    rfl
  · refine ⟨hlt, hheight, ?_, ⟨hashtable', lo', rfl, hkept, hnewest⟩, ⟨_, rfl, ?_⟩,
      Nat.le_succ_of_le h.base_le⟩
    · rw [← hgrown]
      exact FollowState.atTip_advance h.tip.depth hhonest
    · exact hon.append hw hblock

theorem loopAt_ingestBlocks {blocks : List CompactBlock} (hw : w.Sound M chain)
    (hchain : CoverableChain U chain) (hsmall : SmallBlocks chain)
    (h : LoopAt M w chain height loop)
    (hblocks : forall i block, blocks[i]? = some block ->
      chain[height + 1 + i]? = some block) (hfit : InsertsFit loop blocks) :
    exists loop', ingestBlocks loop blocks = some loop' ∧
      LoopAt M w chain (height + blocks.length) loop' := by
  induction blocks generalizing loop height with
  | nil => exact ⟨loop, rfl, h⟩
  | cons block rest ih =>
      have hroom := fun hashtable htable =>
        hfit [] block rest loop hashtable rfl rfl htable
      rcases loopAt_ingestBlock hw hchain hsmall h (hblocks 0 block rfl) hroom with
        ⟨mid, hmid, hnext⟩
      have hrest : forall i block, rest[i]? = some block ->
          chain[height + 1 + 1 + i]? = some block := by
        intro i later hlater
        have hsucc := hblocks (i + 1) later hlater
        rw [show height + 1 + 1 + i = height + 1 + (i + 1) by lia]
        exact hsucc
      rcases ih hnext hrest (hfit.tail hmid) with ⟨loop', hloop', hdone⟩
      refine ⟨loop', ?_, ?_⟩
      · rw [ingestBlocks, hmid]
        exact hloop'
      · rw [List.length_cons, show height + (rest.length + 1) = height + 1 + rest.length by lia]
        exact hdone

end Loop

/-!
## A turn
-/

section Turn

variable {σ τ : Type} {U : BlockUniverse} {M : MerkleHashOrchard} {w : Window}
variable {nfEngine : PirEngine σ} {witEngine : PirEngine τ} {chain : ChainView}
variable {height : Nat}

theorem nullifier_rebuildPir_shows {hashtable : HashTableDb} {lo : Nat}
    (hengine : nfEngine.Accepts Nullifier.scenario) (hchain : CoverableChain U chain)
    (hmirrors : hashtable.Mirrors chain (Set.Ico lo (height + 1)))
    (hlatest : hashtable.latestHeight = some height) :
    exists pir, Nullifier.rebuildPir nfEngine hashtable Nullifier.scenario = .ok pir ∧
      pir.Answers nfEngine chain ∧ pir.metadata.latestHeight = height := by
  rcases nullifier_rebuildPir_isOk hengine hashtable with ⟨pir, hpir⟩
  have hholds : hashtable.HoldsThroughLatest chain :=
    HashTableDb.holdsThroughLatest_iff.mpr ⟨lo, _, hmirrors⟩
  refine ⟨pir, hpir, Nullifier.answers_rebuildPir hchain hholds hpir, ?_⟩
  rw [SpendServer.latestHeight_rebuildPir hpir, hlatest]
  rfl

theorem publish_of_loopAt {s : CombinedServer σ τ}
    (hnf : nfEngine.Accepts Nullifier.scenario) (hwit : witEngine.Accepts Witness.scenario)
    (hchain : HonestChain U M chain) (hcoverable : CoverableChain U chain)
    (hrunning : s.stopped = false) (h : LoopAt M w chain height s.loop) :
    exists nfPir witPir,
      (s.publish M nfEngine witEngine).stopped = false ∧
      (s.publish M nfEngine witEngine).nfPir = some nfPir ∧
      (s.publish M nfEngine witEngine).witPir = some witPir ∧
      PairShows M nfEngine witEngine w chain height nfPir witPir ∧
      LoopAt M w chain height (s.publish M nfEngine witEngine).loop := by
  rcases h.table with ⟨hashtable, lo, htable, hmirrors, hlatest⟩
  rcases h.tree with ⟨tree, htree, hon⟩
  rcases nullifier_rebuildPir_shows hnf hcoverable hmirrors hlatest with
    ⟨nfPir, hnfPir, hanswers, hheight⟩
  rcases Witness.rebuildPir_of_onWindow hwit hchain hon (Nat.lt_succ_of_le h.base_le) with
    ⟨tree', witPir, hwitPir, hbuilt, hshows⟩
  have hfirst : s.publishNullifier nfEngine = { s with nfPir := some nfPir } := by
    unfold CombinedServer.publishNullifier
    rw [htable]
    dsimp only
    rw [hnfPir]
  have hpublished : s.publish M nfEngine witEngine =
      { s with
        nfPir := some nfPir
        loop := { s.loop with databases := { s.loop.databases with tree := some tree' } }
        witPir := some witPir } := by
    unfold CombinedServer.publish
    rw [hfirst]
    dsimp only
    rw [if_neg (by simp [hrunning]), CombinedServer.publishWitness]
    dsimp only
    rw [htree]
    dsimp only
    rw [hwitPir]
  rw [hpublished]
  refine ⟨nfPir, witPir, hrunning, rfl, rfl, ⟨hanswers, hheight, hshows⟩, ?_⟩
  exact ⟨h.lt, h.current, h.tip, ⟨hashtable, lo, htable, hmirrors, hlatest⟩,
    ⟨tree', rfl, hbuilt⟩, h.base_le⟩

/-- A turn that sees new blocks publishes both sides at the tip it sees. -/
theorem poll_of_loopAt {s : CombinedServer σ τ} {view : ChainView}
    (hnf : nfEngine.Accepts Nullifier.scenario) (hwit : witEngine.Accepts Witness.scenario)
    (hw : w.Sound M chain) (hchain : HonestChain U M chain) (hcoverable : CoverableChain U chain)
    (hsmall : SmallBlocks chain) (hrunning : s.stopped = false)
    (h : LoopAt M w chain height s.loop) (hview : view.IsPrefix chain)
    (hfit : InsertsFit s.loop (s.loop.task.newBlocks view))
    (hnew : s.loop.task.currentHeight < view.tipHeight) :
    exists s' nfPir witPir, s.poll M nfEngine witEngine view = some s' ∧
      s'.stopped = false ∧ s'.nfPir = some nfPir ∧ s'.witPir = some witPir ∧
      PairShows M nfEngine witEngine w chain view.tipHeight nfPir witPir ∧
      LoopAt M w chain view.tipHeight s'.loop := by
  have hnonempty : view ≠ [] := by
    intro hnil
    rw [hnil] at hnew
    exact absurd hnew (Nat.not_lt_zero _)
  have hhonest := hchain.blocks.of_prefix hnonempty hview
  have htip := hhonest.tipHeight_succ
  have hfetched : s.loop.task.newBlocks view = view.drop (height + 1) := by
    rw [FollowState.newBlocks_eq hhonest, h.current]
  have hblocks : forall i block, (view.drop (height + 1))[i]? = some block ->
      chain[height + 1 + i]? = some block := by
    intro i block hblock
    rw [List.getElem?_drop] at hblock
    exact getElem?_of_isPrefix hview hblock
  rw [hfetched] at hfit
  rcases loopAt_ingestBlocks hw hcoverable hsmall h hblocks hfit with ⟨loop, hloop, hdone⟩
  have hstop : height + (view.drop (height + 1)).length = view.tipHeight := by
    rw [h.current] at hnew
    rw [List.length_drop]
    lia
  rw [hstop] at hdone
  rw [← hfetched] at hloop
  rcases publish_of_loopAt (s := { s with loop := loop }) hnf hwit hchain hcoverable hrunning
    hdone with ⟨nfPir, witPir, hpublish⟩
  exact ⟨_, nfPir, witPir, poll_of_new hrunning hnew hloop, hpublish⟩

end Turn

/-!
## Entering the loop
-/

section Enter

variable {U : BlockUniverse} {M : MerkleHashOrchard} {w : Window} {chain : ChainView}
variable {connection : Connection} {height stop : Nat}

theorem mirrors_catchUpNullifier {hashtable hashtable' : HashTableDb} {lo : Nat}
    (hchain : CoverableChain U chain) (hsmall : SmallBlocks chain)
    (hview : connection.view.IsPrefix chain)
    (hserves : forall first last, connection.fails first last = false)
    (hmirrors : hashtable.Mirrors chain (Set.Ico lo (height + 1))) (hle : lo ≤ height)
    (hbehind : height < stop) (hstop : stop < connection.view.length)
    (h : catchUpNullifier (some connection) (height + 1) stop hashtable = .ok hashtable') :
    exists lo', hashtable'.Mirrors chain (Set.Ico lo' (stop + 1)) ∧
      hashtable'.latestHeight = some stop := by
  rcases bind_eq_ok.mp h with ⟨synced, hsync, hevict⟩
  have hsynced := Outcome.mapErr_eq_ok.mp hsync
  have hevicted := Outcome.ofPanics_eq_ok.mp hevict
  have hlength := hview.length_le
  rw [Nullifier.syncRange_of_serves (hchain.honest.heights.of_prefix hview)
    (fun request _ => hserves request.1 request.2) (by lia),
    Witness.take_eq_of_isPrefix hview (by lia)] at hsynced
  have hblocks : forall i block, ((chain.take (stop + 1)).drop (height + 1))[i]? = some block ->
      chain[height + 1 + i]? = some block := by
    intro i block hblock
    rw [List.getElem?_drop] at hblock
    exact getElem?_of_isPrefix (List.take_prefix _ _) hblock
  have hextended := Nullifier.mirrors_insertEvents hchain.honest hchain.nonzero hmirrors hblocks
    (fun i _ hmem => by have hlt := hmem.2; lia) hsynced
  rw [Nullifier.length_segment (by lia), Set.Ico_union_Ico_eq_Ico (by lia) (by lia),
    Nat.add_sub_cancel' (by lia)] at hextended
  rcases hextended.evict_keepsNewest hchain.honest hsmall (by lia) (by lia) hevicted with
    ⟨lo', _, hkept, hlatest⟩
  exact ⟨lo', hkept, hlatest⟩

theorem catchUpWitness_isOk {tree : CommitmentTreeDb} (hw : w.Sound M chain)
    (hchain : HonestChain U M chain) (hview : connection.view.IsPrefix chain)
    (hserves : forall first last, connection.fails first last = false)
    (h : OnWindow M w chain (height + 1) tree) (hbehind : height < stop)
    (hstop : stop < connection.view.length) :
    exists tree', catchUpWitness (some connection) (height + 1) stop tree
        (Witness.knownTreeSize tree) = .ok tree' ∧ OnWindow M w chain (stop + 1) tree' := by
  have hlength := hview.length_le
  rcases (h.awaits hchain (Nat.add_le_add_right (Nat.le_of_lt hbehind) 1) (by lia)).appendEvents hw
    hchain with ⟨synced, happend, hon⟩
  refine ⟨synced, ?_, hon⟩
  rw [catchUpWitness, Witness.syncRange, if_neg (by lia), Witness.sync,
    fetchBatches_complete (hchain.blocks.heights.of_prefix hview)
      (fun request _ => hserves request.1 request.2) (by lia),
    Witness.take_eq_of_isPrefix hview (by lia), h.knownTreeSize_eq, happend]
  rfl

/-- The databases of both syncs, each with the chain through its newest block. -/
structure SyncedAt (M : MerkleHashOrchard) (w : Window) (chain : ChainView)
    (hashtable : HashTableDb) (tree : CommitmentTreeDb) (nfLatest witLatest : Nat) :
    Prop where
  table : hashtable.HoldsThroughLatest chain
  nfLatest : hashtable.latestHeight = some nfLatest
  tree : OnWindow M w chain (witLatest + 1) tree
  witLatest : w.base ≤ witLatest

theorem loopAt_followStart {hashtable : HashTableDb} {tree : CommitmentTreeDb} {lo : Nat}
    (hmirrors : hashtable.Mirrors chain (Set.Ico lo (height + 1)))
    (hlatest : hashtable.latestHeight = some height)
    (hon : OnWindow M w chain (height + 1) tree) (hbase : w.base ≤ height) :
    LoopAt M w chain height
      { databases := { hashtable := some hashtable, tree := some tree }
        task := followStart { hashtable := some hashtable, tree := some tree } } := by
  have hlt : height < chain.length := hon.le
  have hblock := List.getElem?_eq_getElem hlt
  have hhash := hmirrors.latestBlockHash_eq hlatest hblock
  have htask : followStart { hashtable := some hashtable, tree := some tree } =
      FollowState.start height (toHashArray chain[height].hash) none := by
    rw [followStart]
    dsimp only
    rw [hlatest, hhash]
    rfl
  refine ⟨hlt, ?_, ?_, ⟨hashtable, lo, rfl, hmirrors, hlatest⟩, ⟨tree, rfl, hon⟩, hbase⟩
  · rw [htask]
    rfl
  · rw [htask]
    exact FollowState.atTip_start hblock none

theorem loopAt_catchUp {hashtable : HashTableDb} {tree : CommitmentTreeDb}
    {nfLatest witLatest : Nat} {databases : Databases} (hw : w.Sound M chain)
    (hchain : HonestChain U M chain) (hcoverable : CoverableChain U chain)
    (hsmall : SmallBlocks chain) (hview : connection.view.IsPrefix chain)
    (hserves : forall first last, connection.fails first last = false)
    (h : SyncedAt M w chain hashtable tree nfLatest witLatest)
    (hnf : nfLatest < connection.view.length) (hwit : witLatest < connection.view.length)
    (hcaught : catchUp (some connection) { hashtable := some hashtable, tree := some tree } =
      .ok databases) :
    LoopAt M w chain (max nfLatest witLatest)
      { databases := databases, task := followStart databases } := by
  rcases h.table with ⟨lo, hmirrors⟩
  rw [h.nfLatest] at hmirrors
  change hashtable.Mirrors chain (Set.Ico lo (nfLatest + 1)) at hmirrors
  have hnewest : tree.latestHeight = some witLatest :=
    h.tree.latestHeight_eq hchain.blocks (Nat.lt_succ_of_le h.witLatest)
  have hlo : lo ≤ nfLatest := (hmirrors.latestHeight_spec h.nfLatest).1.1
  rcases catchUp_cases hcaught with
    ⟨_, _, hashtable', heq, hresult, hbehind, hnullifier⟩ |
    ⟨_, _, tree', heq, hresult, hbehind, hwitness⟩ | ⟨hresult, hsame⟩
  · cases heq
    rw [h.nfLatest, hnewest] at hbehind hnullifier
    change nfLatest < witLatest at hbehind
    rcases mirrors_catchUpNullifier hcoverable hsmall hview hserves hmirrors hlo hbehind hwit
      hnullifier with ⟨lo', hkept, hlatest⟩
    rw [hresult, Nat.max_eq_right (Nat.le_of_lt hbehind)]
    exact loopAt_followStart hkept hlatest h.tree h.witLatest
  · cases heq
    rw [h.nfLatest, hnewest] at hbehind hwitness
    change witLatest < nfLatest at hbehind
    rcases catchUpWitness_isOk hw hchain hview hserves h.tree hbehind hnf with
      ⟨caught, hcaught', hon⟩
    cases hcaught'.symm.trans hwitness
    rw [hresult, Nat.max_eq_left (Nat.le_of_lt hbehind)]
    exact loopAt_followStart hmirrors h.nfLatest hon
      (Nat.le_trans h.witLatest (Nat.le_of_lt hbehind))
  · have hheights := hsame hashtable tree rfl
    rw [h.nfLatest, hnewest] at hheights
    change nfLatest = witLatest at hheights
    rw [hresult, ← hheights, Nat.max_self]
    exact loopAt_followStart hmirrors h.nfLatest (hheights ▸ h.tree) (hheights ▸ h.witLatest)

end Enter

/-!
## Runs
-/

section Runs

variable {σ τ : Type} {U : BlockUniverse} {M : MerkleHashOrchard} {w : Window}
variable {config : ServerConfig} {nfEngine : PirEngine σ} {witEngine : PirEngine τ}
variable {chain : ChainView}

/-- The catch-up is over a connection that serves the newest blocks of both databases. -/
def CombinedState.ServesNewest : CombinedState σ τ -> Option Connection -> Prop
  | .syncing nullifier witness, connection =>
      exists served nfLatest witLatest, connection = some served ∧
        (syncedDatabases nullifier witness).hashtable.bind HashTableDb.latestHeight =
          some nfLatest ∧
        (syncedDatabases nullifier witness).tree.bind CommitmentTreeDb.latestHeight =
          some witLatest ∧
        nfLatest < served.view.length ∧ witLatest < served.view.length ∧
        forall first last, served.fails first last = false
  | .following _, _ => True

/-- The sync of a tree is given a snapshot on the window, or reports that give it. -/
structure SyncsOnWindow (M : MerkleHashOrchard) (w : Window) (chain : ChainView)
    (client : LwdClient) (connection : Option Connection) (windowShardLimit : Nat)
    (snapshot : Option CommitmentTreeDb) : Prop where
  view : forall served, connection = some served -> served.view.IsPrefix chain
  loaded : forall saved, snapshot = some saved ->
    exists n, w.base < n ∧ OnWindow M w chain n saved
  fresh : snapshot = none -> Witness.ReportsWindow M w chain client windowShardLimit

/-- The tree is synced on the window, and the catch-up gets what it asks for. -/
def OverPair (M : MerkleHashOrchard) (w : Window) (chain : ChainView) :
    CombinedState σ τ -> CombinedInput -> Prop
  | _, .witness client connection windowShardLimit snapshot =>
      SyncsOnWindow M w chain client connection windowShardLimit snapshot
  | state, .enter connection => state.ServesNewest connection
  | _, _ => True

structure PairStep (M : MerkleHashOrchard) (config : ServerConfig) (nfEngine : PirEngine σ)
    (witEngine : PirEngine τ) (w : Window) (chain : ChainView) (s : CombinedState σ τ)
    (input : CombinedInput) (s' : CombinedState σ τ) : Prop where
  coverage : CombinedCoverageStep M config nfEngine witEngine chain s input s'
  window : OverPair M w chain s input

/-- The tree of a synced subsystem is on the window; the loop goes on and has both databases
at one height. -/
def PairInvariant (M : MerkleHashOrchard) (w : Window) (chain : ChainView) :
    CombinedState σ τ -> Prop
  | .syncing _ witness => forall server : WitnessServer τ, witness = some (some server) ->
      exists n, OnWindow M w chain n server.tree
  | .following s => s.stopped = false ∧ exists height, LoopAt M w chain height s.loop

theorem syncedAt_of_latest {nullifier : Option (SpendServer σ)}
    {witness : Option (Option (WitnessServer τ))} {nfLatest witLatest : Nat}
    (hchain : HonestChain U M chain)
    (hcoverage : CombinedCoverage U nfEngine chain (.syncing nullifier witness))
    (h : PairInvariant M w chain (.syncing nullifier witness))
    (hnf : (syncedDatabases nullifier witness).hashtable.bind HashTableDb.latestHeight =
      some nfLatest)
    (hwit : (syncedDatabases nullifier witness).tree.bind CommitmentTreeDb.latestHeight =
      some witLatest) :
    exists hashtable tree, syncedDatabases nullifier witness =
        { hashtable := some hashtable, tree := some tree } ∧
      SyncedAt M w chain hashtable tree nfLatest witLatest := by
  cases nullifier with
  | none => cases hnf
  | some spend =>
      cases witness with
      | none => cases hwit
      | some started =>
          cases started with
          | none => cases hwit
          | some server =>
              change spend.hashtable.latestHeight = some nfLatest at hnf
              change server.tree.latestHeight = some witLatest at hwit
              rcases h server rfl with ⟨n, hon⟩
              have hbase : w.base < n := by
                apply Nat.lt_of_le_of_ne hon.base_le
                intro heq
                have hempty := hon.blocks_eq_nil_iff.mpr heq.symm
                rw [CommitmentTreeDb.latestHeight, hempty] at hwit
                cases hwit
              have hnewest := hon.latestHeight_eq hchain.blocks hbase
              rw [hwit] at hnewest
              have hsucc : witLatest + 1 = n := by
                have hlatest := Option.some.inj hnewest
                lia
              refine ⟨spend.hashtable, server.tree, rfl, (hcoverage spend rfl).table, hnf, ?_, ?_⟩
              · rw [hsucc]
                exact hon
              · exact Nat.le_of_lt_succ (by rw [Nat.succ_eq_add_one, hsucc]; exact hbase)

theorem pairInvariant_step {s s' : CombinedState σ τ} {input : CombinedInput}
    (hnf : nfEngine.Accepts Nullifier.scenario) (hwit : witEngine.Accepts Witness.scenario)
    (hw : w.Sound M chain) (hchain : HonestChain U M chain) (hcoverable : CoverableChain U chain)
    (hsmall : SmallBlocks chain) (hcoverage : CombinedCoverage U nfEngine chain s)
    (h : PairInvariant M w chain s)
    (hstep : PairStep M config nfEngine witEngine w chain s input s') :
    PairInvariant M w chain s' := by
  have hserved := hstep.coverage.served
  have hfit := hstep.coverage.noGap
  have hover := hstep.window
  cases hstep.coverage.step with
  | nullifier _ _ => exact h
  | witness hstarts =>
      cases hstarts with
      | start hsync =>
          intro server heq
          cases heq
          exact Witness.onWindow_runSyncOnly hw hchain hover.view hover.loaded hover.fresh
            hsync
  | enter _ _ hcaught =>
      rcases hover with
        ⟨served, nfLatest, witLatest, rfl, hnfLatest, hwitLatest, hlt, hlt', hserves⟩
      rcases syncedAt_of_latest hchain hcoverage h hnfLatest hwitLatest with
        ⟨hashtable, tree, heq, hsynced⟩
      rw [heq] at hcaught
      exact ⟨rfl, _, loopAt_catchUp hw hchain hcoverable hsmall (hserved served rfl) hserves
        hsynced hlt hlt' hcaught⟩
  | @poll before after view hpoll =>
      rcases h with ⟨hrunning, height, hloop⟩
      by_cases hnew : before.loop.task.currentHeight < view.tipHeight
      · rcases poll_of_loopAt hnf hwit hw hchain hcoverable hsmall hrunning hloop hserved hfit
          hnew with ⟨polled, _, _, hpolled, hgoes, _, _, _, hdone⟩
        rw [hpolled] at hpoll
        cases hpoll
        exact ⟨hgoes, _, hdone⟩
      · rw [poll_of_idle hrunning (Nat.le_of_not_lt hnew)] at hpoll
        cases hpoll
        exact ⟨hrunning, height, hloop⟩

/-- In every run the loop has both databases at one height. -/
theorem pairInvariant_run {s : CombinedState σ τ} {inputs : List CombinedInput}
    (hnf : nfEngine.Accepts Nullifier.scenario) (hwit : witEngine.Accepts Witness.scenario)
    (hw : w.Sound M chain) (hchain : HonestChain U M chain) (hcoverable : CoverableChain U chain)
    (hsmall : SmallBlocks chain)
    (hrun : Run (PairStep M config nfEngine witEngine w chain) (startingServer σ τ true true)
      inputs s) : PairInvariant M w chain s := by
  have hinvariant := hrun.invariant (P := fun s => CombinedCoverage U nfEngine chain s ∧
      PairInvariant M w chain s)
    (fun _ _ _ hkept hstep => ⟨combinedCoverage_step hcoverable hkept.left hstep.coverage,
      pairInvariant_step hnf hwit hw hchain hcoverable hsmall hkept.left hkept.right hstep⟩)
    ⟨combinedCoverage_startingServer true true, fun _ hfalse => by cases hfalse⟩
  exact hinvariant.right

/-- Both sides of the server, synced on their own, follow the chain from one block on, and
each turn that sees new blocks publishes the spends and the witnesses of the tip it saw. -/
theorem rounds_publish_pairs (hnf : nfEngine.Accepts Nullifier.scenario)
    (hwit : witEngine.Accepts Witness.scenario) (hw : w.Sound M chain)
    (hchain : HonestChain U M chain) (hcoverable : CoverableChain U chain)
    (hsmall : SmallBlocks chain) {inputs : List CombinedInput} {s : CombinedServer σ τ}
    {view : ChainView}
    (hrun : Run (PairStep M config nfEngine witEngine w chain) (startingServer σ τ true true)
      inputs (.following s))
    (hview : view.IsPrefix chain) (hfit : InsertsFit s.loop (s.loop.task.newBlocks view))
    (hnew : s.loop.task.currentHeight < view.tipHeight) :
    exists s' nfPir witPir, s.poll M nfEngine witEngine view = some s' ∧
      s'.stopped = false ∧ s'.nfPir = some nfPir ∧ s'.witPir = some witPir ∧
      PairShows M nfEngine witEngine w chain view.tipHeight nfPir witPir ∧
      LoopAt M w chain view.tipHeight s'.loop := by
  rcases pairInvariant_run hnf hwit hw hchain hcoverable hsmall hrun with
    ⟨hrunning, height, hloop⟩
  exact poll_of_loopAt hnf hwit hw hchain hcoverable hsmall hrunning hloop hview hfit hnew

end Runs

theorem insertsFit_singleton {loop : FollowLoop} {block : CompactBlock}
    (hroom : forall hashtable, loop.databases.hashtable = some hashtable ->
      HashTableDb.RoomFor hashtable
        (Nullifier.extractNullifiersWithMeta block loop.task.prevTreeSize).1) :
    InsertsFit loop [block] := by
  intro front later rest mid hashtable hsplit hmid htable
  cases front with
  | cons first others =>
      have hlengths := congrArg List.length hsplit
      rw [List.length_append, List.length_cons, List.length_cons] at hlengths
      change 1 = others.length + 1 + (rest.length + 1) at hlengths
      lia
  | nil =>
      cases hsplit
      cases hmid
      exact hroom hashtable htable

/-!
## A catch-up

The table has the chain through block 2 and the tree through block 1.  The tree catches up,
and the first turn sees block 3.
-/

open Nullifier (sampleConfig tableBefore)
open Witness (orphanedTree orphanedClient orphanedConnection sampleHash stubPirEngine
  StubServerState)

theorem accepts_keepingEngine : keepingEngine.Accepts Nullifier.scenario :=
  fun bytes _ => ⟨bytes, rfl⟩

theorem coverable_chainAfter : CoverableChain sampleUniverse chainAfter where
  honest := honest_chainAfter
  nonzero := by decide
  genesis := by
    intro block hblock
    cases hblock
    rfl

theorem small_chainAfter : SmallBlocks chainAfter := by
  unfold SmallBlocks
  decide

/-- The window of a start that syncs the chain from the first block. -/
def pairWindow : Window := Window.ofReports chainAfter [] Witness.l0MaxShards 2

theorem sound_pairWindow : pairWindow.Sound sampleHash chainAfter :=
  Witness.sound_firstWindow (by decide) rfl

theorem onWindow_pairTree : OnWindow sampleHash pairWindow chainAfter 2 orphanedTree := by
  have hempty : OnWindow sampleHash pairWindow chainAfter 1 CommitmentTreeDb.new :=
    ⟨CommitmentTreeDb.treeInvariant_withOffset sampleHash 0 [], rfl, rfl, Nat.zero_le _,
      Nat.le_refl 1, by decide⟩
  exact hempty.append sound_pairWindow rfl

def tableReplaced : HashTableDb :=
  (tableBefore.insertBlock 2 (toHashArray sampleReplacement.hash)
    (Nullifier.extractNullifiersWithMeta sampleReplacement none).1).1

theorem mirrors_tableReplaced : tableReplaced.Mirrors chainAfter (Set.Ico 1 3) := by
  have hinsert : tableBefore.insertBlock 2 (toHashArray sampleReplacement.hash)
      (Nullifier.extractNullifiersWithMeta sampleReplacement none).1 =
        (tableReplaced, .ok ()) := rfl
  have hbefore : tableBefore.Mirrors chainAfter (Set.Ico 1 2) := by
    apply Nullifier.mirrors_tableBefore.congr
    intro height hheight
    change (chainBefore ++ [sampleReplacement, sampleNext])[height]? = _
    exact List.getElem?_append_left hheight.2
  have hmirrors := HashTableDb.mirrors_insertBlock honest_chainAfter hbefore rfl
    (fun hmem => Nat.lt_irrefl 2 hmem.2) (by decide)
    (Nullifier.map_nullifier_extractNullifiersWithMeta _ _) hinsert
  rw [Nullifier.insert_Ico_right] at hmirrors
  exact hmirrors

def tableLoaded : HashTableDb := tableReplaced.recounted

theorem holds_tableLoaded : tableLoaded.HoldsThroughLatest chainAfter := by
  have hholds : tableReplaced.HoldsThroughLatest chainAfter :=
    HashTableDb.holdsThroughLatest_iff.mpr ⟨1, 3, mirrors_tableReplaced⟩
  exact hholds.recounted

abbrev SamplePair : CombinedState (List UInt8) StubServerState -> CombinedInput ->
    CombinedState (List UInt8) StubServerState -> Prop :=
  PairStep sampleHash sampleConfig keepingEngine stubPirEngine.toPirEngine pairWindow
    chainAfter

theorem samplePair_nullifier {s s' : SpendServer (List UInt8)} {input : Nullifier.ServerInput}
    {witness : Option (Option (WitnessServer StubServerState))} (hsync : IsSyncInput input)
    (hstep : s.step sampleConfig keepingEngine input = some s')
    (hserved : Nullifier.ServedFrom chainAfter input) (hnoGap : Nullifier.LeavesNoGap s input) :
    SamplePair (.syncing (some s) witness) (.nullifier input)
      (.syncing (some s') witness) where
  coverage := ⟨.nullifier hsync hstep, hserved, hnoGap⟩
  window := trivial

def spendReloaded : SpendServer (List UInt8) :=
  { hashtable := tableLoaded, livePir := none, stage := .synced }

def pairSynced : SpendServer (List UInt8) :=
  spendServing tableLoaded (SpendServer.followStart tableLoaded) []

theorem samplePair_connect
    {witness : Option (Option (WitnessServer StubServerState))} :
    SamplePair (.syncing (some SpendServer.init) witness)
      (.nullifier (.connect 2 (some tableLoaded))) (.syncing (some spendReloaded) witness) := by
  refine samplePair_nullifier ?_ rfl ?_ ?_
  · exact trivial
  · intro hashtable hsome
    cases hsome
    exact holds_tableLoaded
  · exact fun _ _ _ hfalse => (nomatch hfalse)

theorem samplePair_publish {witness : Option (Option (WitnessServer StubServerState))} :
    SamplePair (.syncing (some spendReloaded) witness) (.nullifier .publish)
      (.syncing (some pairSynced) witness) := by
  have hsize : spendReloaded.hashtable.len ≤ Nullifier.targetSize := Nat.le_of_ble_eq_true rfl
  refine samplePair_nullifier ?_ (congrArg some (publish_keepingEngine hsize)) ?_ ?_
  · exact trivial
  · exact trivial
  · exact fun _ _ _ hfalse => (nomatch hfalse)

theorem exists_samplePair_witness {tree : CommitmentTreeDb}
    (hon : OnWindow sampleHash pairWindow chainAfter 2 tree)
    (nullifier : Option (SpendServer (List UInt8))) :
    exists server, SamplePair (.syncing nullifier (some none))
        (.witness (orphanedClient chainBefore) none Witness.l0MaxShards (some tree))
        (.syncing nullifier (some (some server))) ∧
      OnWindow sampleHash pairWindow chainAfter 2 server.tree := by
  have hlatest := hon.latestHeight_eq honest_chainAfter (by decide)
  rcases Witness.rebuildPir_of_onWindow Witness.accepts_stubPirEngine
    honestChain_chainAfter hon (by decide) with ⟨published, pir, hrebuild, hbuilt, _⟩
  have hsync : Witness.runSyncOnly sampleHash stubPirEngine.toPirEngine
      (orphanedClient chainBefore) none Witness.l0MaxShards (some tree) =
        .ok (published, pir) := by
    rw [Witness.runSyncOnly_eq, Witness.syncedTree_of_upToDate none _ hlatest (by decide)]
    exact hrebuild
  refine ⟨_, ⟨⟨.witness (.start hsync), trivial, ?_⟩, ?_⟩, hbuilt⟩
  · cases nullifier <;> exact trivial
  · refine ⟨?_, ?_, ?_⟩
    · intro served hfalse
      cases hfalse
    · intro saved hsaved
      cases hsaved
      exact ⟨2, by decide, hon⟩
    · intro hfalse
      cases hfalse

def enteredPair (witPir : Option (Witness.PirState StubServerState)) (tree : CommitmentTreeDb) :
    CombinedServer (List UInt8) StubServerState :=
  CombinedServer.enterFollow (some (pirOf tableLoaded)) witPir
    { hashtable := some tableLoaded, tree := some tree }

theorem exists_samplePair_enter {server : WitnessServer StubServerState}
    (hon : OnWindow sampleHash pairWindow chainAfter 2 server.tree) :
    exists tree, SamplePair (.syncing (some pairSynced) (some (some server)))
        (.enter (some (orphanedConnection chainAfter)))
        (.following (enteredPair server.livePir tree)) ∧
      server.tree.latestHeight = some 1 ∧ tableLoaded.latestHeight = some 2 := by
  have hlatest := hon.latestHeight_eq honest_chainAfter (by decide)
  have hserves : forall first last, (orphanedConnection chainAfter).fails first last = false :=
    fun _ _ => rfl
  have hstop : 2 < (orphanedConnection chainAfter).view.length := by decide
  rcases catchUpWitness_isOk sound_pairWindow honestChain_chainAfter
    (List.prefix_refl chainAfter) hserves hon (by decide) hstop with ⟨tree, hcaught, _⟩
  have hpair : catchUp (some (orphanedConnection chainAfter))
      { hashtable := some tableLoaded, tree := some server.tree } =
        .ok { hashtable := some tableLoaded, tree := some tree } := by
    change (if (tableLoaded.latestHeight.getD 0) < (server.tree.latestHeight.getD 0) then _
      else if (server.tree.latestHeight.getD 0) < (tableLoaded.latestHeight.getD 0) then
        catchUpWitness _ ((server.tree.latestHeight.getD 0) + 1)
          (tableLoaded.latestHeight.getD 0) _ _ >>= _
      else _) = _
    rw [hlatest]
    change catchUpWitness (some (orphanedConnection chainAfter)) (1 + 1) 2 server.tree
      (Witness.knownTreeSize server.tree) >>= _ = _
    rw [hcaught]
    rfl
  refine ⟨tree, ⟨⟨.enter ?_ (fun hfalse => by cases hfalse) hpair, ?_, trivial⟩, ?_⟩, hlatest,
    rfl⟩
  · intro s hs
    cases hs
    exact ⟨_, _, rfl⟩
  · intro c hc
    cases hc
    exact List.prefix_refl _
  · exact ⟨_, 2, 1, rfl, rfl, hlatest, by decide, by decide, fun _ _ => rfl⟩

theorem currentHeight_enteredPair (witPir : Option (Witness.PirState StubServerState))
    (tree : CommitmentTreeDb) : (enteredPair witPir tree).loop.task.currentHeight = 2 := by
  change (SpendServer.followStart tableLoaded).currentHeight = 2
  decide

theorem insertsFit_enteredPair (witPir : Option (Witness.PirState StubServerState))
    (tree : CommitmentTreeDb) :
    InsertsFit (enteredPair witPir tree).loop
      ((enteredPair witPir tree).loop.task.newBlocks chainAfter) := by
  change InsertsFit (enteredPair witPir tree).loop [sampleNext]
  apply insertsFit_singleton
  intro hashtable htable
  cases htable
  have hinsert : (tableLoaded.insertBlock 3 (toHashArray sampleNext.hash)
      (Nullifier.extractNullifiersWithMeta sampleNext
        (enteredPair witPir tree).loop.task.prevTreeSize).1).2 = .ok () := rfl
  exact HashTableDb.insertBlock_ok_iff.mp ⟨_, Prod.ext rfl hinsert⟩

/-- After the catch-up of the tree, the first turn publishes the spends and the witnesses of
block 3. -/
theorem rounds_publish_pairs_caughtUp :
    exists (server : WitnessServer StubServerState) (tree : CommitmentTreeDb)
        (s : CombinedServer (List UInt8) StubServerState)
        (nfPir : Nullifier.PirState (List UInt8)) (witPir : Witness.PirState StubServerState),
      SamplePair (.syncing (some pairSynced) (some (some server)))
        (.enter (some (orphanedConnection chainAfter)))
        (.following (enteredPair server.livePir tree)) ∧
      server.tree.latestHeight = some 1 ∧ tableLoaded.latestHeight = some 2 ∧
      s.nfPir = some nfPir ∧ s.witPir = some witPir ∧
      PairShows sampleHash keepingEngine stubPirEngine.toPirEngine pairWindow chainAfter 3
        nfPir witPir := by
  rcases exists_samplePair_witness onWindow_pairTree (some pairSynced) with
    ⟨server, hwitness, hon⟩
  rcases exists_samplePair_enter hon with ⟨tree, henter, htree, htable⟩
  have hrun : Run SamplePair (startingServer _ _ true true) _
      (.following (enteredPair server.livePir tree)) :=
    ((((Run.nil _).cons henter).cons hwitness).cons samplePair_publish).cons samplePair_connect
  have hnew : (enteredPair server.livePir tree).loop.task.currentHeight <
      chainAfter.tipHeight := by
    rw [currentHeight_enteredPair]
    decide
  rcases rounds_publish_pairs accepts_keepingEngine Witness.accepts_stubPirEngine
    sound_pairWindow honestChain_chainAfter coverable_chainAfter small_chainAfter hrun
    (List.prefix_refl chainAfter) (insertsFit_enteredPair server.livePir tree) hnew with
    ⟨s, nfPir, witPir, _, _, hnfPir, hwitPir, hshows, _⟩
  exact ⟨server, tree, s, nfPir, witPir, henter, htree, htable, hnfPir, hwitPir, hshows⟩

end Combined
end SpendabilityPir
