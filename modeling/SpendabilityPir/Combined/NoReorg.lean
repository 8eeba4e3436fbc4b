import SpendabilityPir.Combined.CombinedFollow
import SpendabilityPir.Nullifier.SpendSync
import SpendabilityPir.Witness.WitnessSync

/-!
# The combined server on a growing chain

Where the nullifier subsystem is compiled in, the follow loop starts at the tip of what
both databases hold, and on a chain that only grows it never rolls back.  Without it, the
tracker starts at a zero hash, and the first block looks like a reorganization.
-/

namespace SpendabilityPir
namespace Combined

open Foundation Shared
open Nullifier (HashTableDb)
open Witness (CommitmentTreeDb MerkleHashOrchard Tracks sampleHash)

/-!
## The start
-/

/-- What the sync of each subsystem leaves: databases that agree with the chain, the table
through its newest record and the tree through some height. -/
structure AgreesWithChain (databases : Databases) (base : Nat) (chain : ChainView) : Prop
    where
  table : forall hashtable, databases.hashtable = some hashtable ->
    exists (height : Nat) (block : CompactBlock), chain[height]? = some block ∧
      Nullifier.EndsWith hashtable block
  tree : exists (tree : CommitmentTreeDb) (height : Nat), databases.tree = some tree ∧
    height < chain.length ∧
    Tracks tree base (chain.take (height + 1))

/-- Where the table is behind the tree, its eviction keeps the last block caught up. -/
def KeepsNewest (databases : Databases) (chain : ChainView) : Prop :=
  forall hashtable tree height block, databases.hashtable = some hashtable ->
    databases.tree = some tree -> tree.latestHeight = some height ->
    hashtable.latestHeight.getD 0 < height -> chain[height]? = some block ->
    (Nullifier.extractNullifiers block).length ≤ Nullifier.targetSize

/-- The databases and the task the follow loop starts with, both at the end of a part of
the chain. -/
structure Seeded (databases : Databases) (base : Nat) (chain : ChainView) : Prop where
  backed : databases.TableBacked
  tree : exists tree, databases.tree = some tree ∧ Tracks tree base chain
  tip : (followStart databases).AtTip chain

theorem getLast?_take {chain : ChainView} {height : Nat} {block : CompactBlock}
    (hblock : chain[height]? = some block) :
    (chain.take (height + 1)).getLast? = some block := by
  rw [List.take_add_one, hblock]
  exact List.getLast?_concat

theorem seeded_of_endsWith {U : BlockUniverse} {hashtable : HashTableDb}
    {tree : CommitmentTreeDb} {base height : Nat} {chain : ChainView}
    {block : CompactBlock} (hchain : HonestView U chain) (hblock : chain[height]? = some block)
    (htable : Nullifier.EndsWith hashtable block)
    (htracks : Tracks tree base (chain.take (height + 1))) :
    Seeded { hashtable := some hashtable, tree := some tree } base
      (chain.take (height + 1)) := by
  have hheight := hchain.height_eq hblock
  refine ⟨?_, ⟨tree, rfl, htracks⟩, ?_⟩
  · intro found hfound
    cases hfound
    exact htable.counted.backed
  · rw [followStart]
    dsimp only
    rw [htable.latestHeight_eq, htable.latestBlockHash_eq, hheight]
    exact FollowState.atTip_start hblock none

theorem endsWith_catchUpNullifier {U : BlockUniverse} {connection : Connection}
    {hashtable hashtable' : HashTableDb} {nfLatest witLatest : Nat}
    {last block : CompactBlock} (hchain : HonestView U connection.view)
    (hserves : forall start stop, connection.fails start stop = false)
    (hlast : connection.view[nfLatest]? = some last)
    (hblock : connection.view[witLatest]? = some block)
    (hbehind : nfLatest < witLatest)
    (hfits : (Nullifier.extractNullifiers block).length ≤ Nullifier.targetSize)
    (htable : Nullifier.EndsWith hashtable last)
    (h : catchUpNullifier (some connection) (nfLatest + 1) witLatest hashtable =
      .ok hashtable') : Nullifier.EndsWith hashtable' block := by
  rcases bind_eq_ok.mp h with ⟨synced, hsync, hevict⟩
  have hsynced := Outcome.mapErr_eq_ok.mp hsync
  rw [Nullifier.syncRange_of_serves hchain.heights
    (fun request _ => hserves request.1 request.2) (by lia)] at hsynced
  have hlt := (List.getElem?_eq_some_iff.mp hblock).1
  have hfinal := getLast?_take hblock
  have hwhole : (connection.view.take (witLatest + 1)).drop nfLatest =
      last :: (connection.view.take (witLatest + 1)).drop (nfLatest + 1) := by
    rw [List.drop_eq_getElem?_toList_append,
      List.getElem?_take_of_lt (by lia), hlast]
    rfl
  have hgrowing := ((hchain.pairwise_heights).sublist (List.take_sublist (witLatest + 1) _)).sublist
    (List.drop_sublist nfLatest _)
  rw [hwhole] at hgrowing
  have hfetched : ((connection.view.take (witLatest + 1)).drop (nfLatest + 1)).getLast? =
      some block := by
    rw [List.getLast?_drop, if_neg (by rw [List.length_take]; lia)]
    exact hfinal
  cases hrange : (connection.view.take (witLatest + 1)).drop (nfLatest + 1) with
  | nil =>
      rw [hrange] at hfetched
      cases hfetched
  | cons first rest =>
      rw [hrange] at hgrowing hsynced hfetched
      rcases Nullifier.endsWith_insertEvents htable hgrowing hsynced hfetched with
        ⟨hends, record, hnewest, hlength⟩
      rcases hends.counted.evictToTarget hnewest (hlength ▸ hfits) with
        ⟨evicted, hevicted, hcounted, hkept⟩
      rcases hends.newest with ⟨record', hnewest', hhash⟩
      rw [hnewest] at hnewest'
      cases hnewest'
      rw [Outcome.ofPanics_eq_ok.mp hevict] at hevicted
      cases hevicted
      exact ⟨hcounted, record, hkept, hhash⟩

theorem tracks_catchUpWitness {U : BlockUniverse} {connection : Connection}
    {tree tree' : CommitmentTreeDb} {base nfLatest witLatest : Nat}
    {initialTreeSize : Option UInt32} (hchain : HonestView U connection.view)
    (hserves : forall start stop, connection.fails start stop = false)
    (hbehind : witLatest < nfLatest)
    (htracks : Tracks tree base (connection.view.take (witLatest + 1)))
    (h : catchUpWitness (some connection) (witLatest + 1) nfLatest tree initialTreeSize =
      .ok tree') : Tracks tree' base (connection.view.take (nfLatest + 1)) := by
  have hsynced := Witness.syncRange_eq_ok (Outcome.mapErr_eq_ok.mp h)
  rw [fetchBatches_complete hchain.heights
    (fun request _ => hserves request.1 request.2) (by lia)] at hsynced
  have hgrown := htracks.appendBlocks
    ((connection.view.take (nfLatest + 1)).drop (witLatest + 1))
  rw [take_append_drop_take _ (by lia)] at hgrown
  rw [hsynced]
  exact hgrown

theorem latestHeight_of_tracks {U : BlockUniverse} {tree : CommitmentTreeDb}
    {base height : Nat} {chain : ChainView} (hchain : HonestView U chain)
    (hlt : height < chain.length) (htracks : Tracks tree base (chain.take (height + 1))) :
    tree.latestHeight = some height := by
  have hblock := List.getElem?_eq_getElem hlt
  rw [htracks.latestHeight_eq (getLast?_take hblock), hchain.height_eq hblock]

theorem seeded_catchUp {U : BlockUniverse} {connection : Connection}
    {databases databases' : Databases} {base : Nat}
    (hchain : HonestView U connection.view)
    (hserves : forall start stop, connection.fails start stop = false)
    (hnullifier : databases.hashtable.isSome = true)
    (hagrees : AgreesWithChain databases base connection.view)
    (hkeeps : KeepsNewest databases connection.view)
    (h : catchUp (some connection) databases = .ok databases') :
    exists height, height < connection.view.length ∧
      Seeded databases' base (connection.view.take (height + 1)) := by
  rcases hagrees.tree with ⟨tree, witLatest, htree, hlt, htracks⟩
  rcases Option.isSome_iff_exists.mp hnullifier with ⟨hashtable, hhashtable⟩
  rcases hagrees.table hashtable hhashtable with ⟨nfLatest, last, hlast, htable⟩
  have hnf : hashtable.latestHeight = some nfLatest := by
    rw [htable.latestHeight_eq, hchain.height_eq hlast]
  have hwit := latestHeight_of_tracks hchain hlt htracks
  have hblock := List.getElem?_eq_getElem hlt
  have hnflt := (List.getElem?_eq_some_iff.mp hlast).1
  have hboth : databases = { hashtable := some hashtable, tree := some tree } := by
    rw [← hhashtable, ← htree]
  rw [hboth] at hkeeps h
  rcases catchUp_cases h with hbehind | hahead | hsame
  · rcases hbehind with ⟨_, _, hashtable', heq, heq', hlatest, hcaught⟩
    cases heq
    rw [hwit] at hlatest hcaught
    have hfits := hkeeps hashtable tree witLatest _ rfl rfl hwit hlatest hblock
    rw [hnf] at hlatest hcaught
    have hends := endsWith_catchUpNullifier hchain hserves hlast hblock hlatest hfits htable
      hcaught
    rw [heq']
    exact ⟨witLatest, hlt, seeded_of_endsWith hchain hblock hends htracks⟩
  · rcases hahead with ⟨_, _, tree', heq, heq', hlatest, hcaught⟩
    cases heq
    rw [hnf, hwit] at hlatest hcaught
    rw [heq']
    exact ⟨nfLatest, hnflt, seeded_of_endsWith hchain hlast htable
      (tracks_catchUpWitness hchain hserves hlatest htracks hcaught)⟩
  · have hlatest := hsame.2 hashtable tree rfl
    rw [hnf, hwit] at hlatest
    change nfLatest = witLatest at hlatest
    rw [← hlatest] at htracks
    rw [hsame.1]
    exact ⟨nfLatest, hnflt, seeded_of_endsWith hchain hlast htable htracks⟩

/-!
## The follow loop
-/

section Runs

variable {σ τ : Type} {U : BlockUniverse} {M : MerkleHashOrchard} {base : Nat}
variable {nfEngine : PirEngine σ} {witEngine : PirEngine τ}

/-- The tree holds every block of the chain through the current height once, and whatever
is served next extends it. -/
structure FollowsGrowth (U : BlockUniverse) (base : Nat) (s : CombinedServer σ τ)
    (served chain : ChainView) : Prop where
  through : chain = served.take (s.loop.task.currentHeight + 1)
  tree : exists tree, s.loop.databases.tree = some tree ∧ Tracks tree base chain
  noRollback : forall view, HonestView U view -> served.IsPrefix view ->
    forall action, action ∈ s.loop.task.actions (s.loop.task.newBlocks view) ->
      action = .extend

/-- What holds of the follow loop, also once a failing engine has stopped it. -/
structure GrowthInvariant (U : BlockUniverse) (base : Nat) (s : CombinedServer σ τ)
    (served chain : ChainView) : Prop where
  served : chain.IsPrefix served
  honest : HonestView U chain
  backed : s.loop.databases.TableBacked
  tree : exists tree, s.loop.databases.tree = some tree ∧ Tracks tree base chain
  tip : s.loop.task.AtTip chain

theorem growthInvariant_enterFollow {databases : Databases} {chain : ChainView}
    {height : Nat} (nfPir : Option (Nullifier.PirState σ))
    (witPir : Option (Witness.PirState τ)) (hchain : HonestView U chain)
    (hlt : height < chain.length) (hseeded : Seeded databases base (chain.take (height + 1))) :
    GrowthInvariant U base
      (CombinedServer.enterFollow nfPir witPir databases : CombinedServer σ τ) chain
      (chain.take (height + 1)) := by
  refine ⟨List.take_prefix _ _, ?_, hseeded.backed, hseeded.tree, hseeded.tip⟩
  apply hchain.of_prefix _ (List.take_prefix _ _)
  apply List.ne_nil_of_length_pos
  rw [List.length_take]
  lia

/-- A chain that grew still has the tip. -/
theorem GrowthInvariant.split {s : CombinedServer σ τ} {served chain view : ChainView}
    (h : GrowthInvariant U base s served chain) (hview : HonestView U view)
    (hgrows : served.IsPrefix view) : chain ++ s.loop.task.newBlocks view = view := by
  have htake : view.take (s.loop.task.currentHeight + 1) = chain := by
    rw [← h.tip.length]
    exact (List.prefix_iff_eq_take.mp (h.served.trans hgrows)).symm
  rw [← htake]
  exact FollowState.take_append_newBlocks hview

theorem GrowthInvariant.followsGrowth {s : CombinedServer σ τ} {served chain : ChainView}
    (h : GrowthInvariant U base s served chain) : FollowsGrowth U base s served chain := by
  refine ⟨?_, h.tree, ?_⟩
  · rw [← h.tip.length]
    exact List.prefix_iff_eq_take.mp h.served
  · intro view hview hgrows
    apply h.tip.actions_extend
    rw [h.split hview hgrows]
    exact hview

theorem growthInvariant_poll {s s' : CombinedServer σ τ} {served chain view : ChainView}
    (h : GrowthInvariant U base s served chain) (hview : HonestView U view)
    (hgrows : served.IsPrefix view) (hrunning : s.stopped = false)
    (hnew : s.loop.task.currentHeight < view.tipHeight)
    (hpoll : s.poll M nfEngine witEngine view = some s') :
    GrowthInvariant U base s' view view := by
  have hsplit := h.split hview hgrows
  rcases ingestBlocks_extend h.tip (hsplit.symm ▸ hview) h.backed with
    ⟨loop', hloop, htip', htree', hbacked'⟩
  rw [hsplit] at htip'
  rcases h.tree with ⟨tree, htree, htracks⟩
  have hgrown := htracks.appendBlocks (s.loop.task.newBlocks view)
  rw [hsplit] at hgrown
  rw [htree] at htree'
  rw [poll_of_new hrunning hnew hloop] at hpoll
  cases hpoll
  have hsame := publish_loop M nfEngine witEngine { s with loop := loop' }
  rcases hsame.tree _ htree' with ⟨cache, hcache⟩
  refine ⟨List.prefix_rfl, hview, ?_, ⟨_, hcache, hgrown.congr rfl rfl rfl⟩, ?_⟩
  · intro hashtable hhashtable
    rw [hsame.hashtable] at hhashtable
    exact hbacked' hashtable hhashtable
  · rw [hsame.task]
    exact htip'

/-- Where the nullifier subsystem is compiled in and its table keeps its newest block when
it catches up, no block of a growing chain rolls anything back, and the tree holds each
block through the current height once. -/
theorem growing_chain_never_rolls_back {connection : Connection}
    {databases databases' : Databases} (hchain : HonestView U connection.view)
    (hserves : forall start stop, connection.fails start stop = false)
    (hagrees : AgreesWithChain databases base connection.view)
    (hnullifier : databases.hashtable.isSome = true)
    (hkeeps : KeepsNewest databases connection.view)
    (hcatchUp : catchUp (some connection) databases = .ok databases')
    {nfPir : Option (Nullifier.PirState σ)} {witPir : Option (Witness.PirState τ)}
    {w' : Watched (CombinedServer σ τ)} {events : List WatchedEvent}
    (hrun : Run (GrowingStep (combinedFollowing M nfEngine witEngine) (HonestView U))
      { server := CombinedServer.enterFollow nfPir witPir databases'
        served := connection.view
        ingested := connection.view.take ((followStart databases').currentHeight + 1) }
      events w') : FollowsGrowth U base w'.server w'.served w'.ingested := by
  rcases seeded_catchUp hchain hserves hnullifier hagrees hkeeps hcatchUp with
    ⟨height, hlt, hseeded⟩
  have hlength := hseeded.tip.length
  rw [List.length_take, Nat.min_eq_left hlt] at hlength
  have hstart := growthInvariant_enterFollow nfPir witPir hchain hlt hseeded
  rw [show height + 1 = (followStart databases').currentHeight + 1 from hlength] at hstart
  have hinv : GrowthInvariant U base w'.server w'.served w'.ingested := by
    apply growing_invariant (P := GrowthInvariant U base) _ _ _ hrun hstart
    · intro s served chain st view s' h hfollow hview hgrows hidle hpoll
      change CombinedServer.followState s = some st at hfollow
      change CombinedServer.poll M nfEngine witEngine s view = some s' at hpoll
      rcases followState_eq_some hfollow with ⟨hrunning, htask⟩
      rw [← htask] at hidle
      rw [poll_of_idle hrunning hidle] at hpoll
      cases hpoll
      exact ⟨h.served.trans hgrows, h.honest, h.backed, h.tree, h.tip⟩
    · intro s served chain st view s' h hfollow hview hgrows hnew hpoll
      change CombinedServer.followState s = some st at hfollow
      change CombinedServer.poll M nfEngine witEngine s view = some s' at hpoll
      rcases followState_eq_some hfollow with ⟨hrunning, htask⟩
      rw [← htask] at hnew
      exact growthInvariant_poll h hview hgrows hrunning hnew hpoll
    · intro s served chain s' _ hwork
      cases hwork
  exact hinv.followsGrowth

end Runs

/-!
## A growing chain
-/

/-- The servers of a build as they enter the follow loop. -/
def entered (databases : Databases) (served : ChainView) : Watched (CombinedServer Unit Unit) :=
  { server := CombinedServer.enterFollow none none databases
    served := served
    ingested := served.take ((followStart databases).currentHeight + 1) }

abbrev SampleGrowth : Watched (CombinedServer Unit Unit) -> WatchedEvent ->
    Watched (CombinedServer Unit Unit) -> Prop :=
  GrowingStep (combinedFollowing sampleHash Nullifier.acceptingEngine
    Nullifier.acceptingEngine) (HonestView sampleUniverse)

theorem sampleGrowth_poll {databases : Databases} {served view : ChainView}
    {s' : CombinedServer Unit Unit} (hview : HonestView sampleUniverse view)
    (hgrows : served.IsPrefix view)
    (hnew : (followStart databases).currentHeight < view.tipHeight)
    (hone : (followStart databases).tracker.chain.length = 1)
    (h : CombinedServer.poll sampleHash Nullifier.acceptingEngine Nullifier.acceptingEngine
      (entered databases served).server view = some s') :
    SampleGrowth (entered databases served) (.poll view)
      { server := s', served := view, ingested := view } := by
  have hfollow : (combinedFollowing sampleHash Nullifier.acceptingEngine
      Nullifier.acceptingEngine).followState (entered databases served).server =
        some (followStart databases) := rfl
  have hreplaces : ReplacesFewerThan (followStart databases).tracker.chain.length
      served view := by
    rw [hone]
    refine ⟨0, Nat.one_pos, ?_⟩
    rw [Nat.sub_zero, List.take_length]
    exact hgrows
  have hstep := WatchedStep.poll hfollow hview hreplaces h
  rw [if_neg (Nat.not_le_of_lt hnew)] at hstep
  refine ⟨hstep, ?_⟩
  intro polled hpolled
  cases hpolled
  exact hgrows

theorem endsWith_tableBefore : Nullifier.EndsWith Nullifier.tableBefore sampleFirst := by
  have hinsert : HashTableDb.new.insertBlock 1 (toHashArray sampleFirst.hash) [] =
      (Nullifier.tableBefore, .ok ()) := rfl
  exact ⟨HashTableDb.counted_new.insertBlock rfl hinsert, _, rfl, rfl⟩

/-- The chain through block 2, and the tree over it. -/
def chainThroughTwo : ChainView := [sampleGenesis, sampleFirst, sampleReplacement]

def connectionThroughTwo : Connection :=
  { view := chainThroughTwo, fails := fun _ _ => false }

def treeThroughTwo : CommitmentTreeDb :=
  treeBefore.appendCommitments 2 (toHashArray sampleReplacement.hash) [ByteVec.zeros 32]

def databasesApart : Databases :=
  { hashtable := some Nullifier.tableBefore, tree := some treeThroughTwo }

def tableThroughTwo : HashTableDb :=
  (Nullifier.tableBefore.insertBlock 2 (toHashArray sampleReplacement.hash)
    (Nullifier.extractNullifiersWithMeta sampleReplacement none).1).1

def databasesLevel : Databases :=
  { hashtable := some tableThroughTwo, tree := some treeThroughTwo }

theorem honest_chainThroughTwo : HonestView sampleUniverse chainThroughTwo := by
  have hserved : chainThroughTwo ⊆ sampleBlocks := by decide
  exact honestView_of_list (by decide) hserved (by decide) (by decide)

theorem agrees_databasesApart : AgreesWithChain databasesApart 1 chainThroughTwo := by
  constructor
  · intro hashtable hsome
    cases hsome
    exact ⟨1, sampleFirst, rfl, endsWith_tableBefore⟩
  · exact ⟨treeThroughTwo, 2, rfl, Nat.lt_succ_self 2,
      tracks_treeBefore.appendCommitments sampleReplacement⟩

theorem keepsNewest_databasesApart : KeepsNewest databasesApart chainThroughTwo := by
  intro hashtable tree height block _ htree hlatest _ hblock
  cases htree
  cases hlatest
  cases hblock
  decide

theorem catchUp_databasesApart :
    catchUp (some connectionThroughTwo) databasesApart = .ok databasesLevel := by
  have hfetch : fetchBatches connectionThroughTwo 2 2 = [sampleReplacement] :=
    fetchBatches_complete honest_chainThroughTwo.heights (fun _ _ => rfl) (by lia)
  have hsync : Nullifier.syncRange (some connectionThroughTwo) 2 2 Nullifier.tableBefore none =
      .ok tableThroughTwo := by
    change Nullifier.insertEvents Nullifier.tableBefore (emitBlocks Nullifier.newBlockEvent none
      (fetchBatches connectionThroughTwo 2 2)) = _
    rw [hfetch]
    rfl
  have hevict : tableThroughTwo.evictToTarget = some tableThroughTwo :=
    HashTableDb.evictToTarget_of_le (by decide)
  change catchUpNullifier (some connectionThroughTwo) 2 2 Nullifier.tableBefore >>= _ = _
  rw [catchUpNullifier, hsync]
  change Outcome.ofPanics tableThroughTwo.evictToTarget >>= _ = _
  rw [hevict]
  rfl

/-- The table catches up with the tree, and block 3 is appended to both. -/
theorem growing_chain_never_rolls_back_apart :
    exists s' : CombinedServer Unit Unit,
      catchUp (some connectionThroughTwo) databasesApart = .ok databasesLevel ∧
      SampleGrowth (entered databasesLevel chainThroughTwo) (.poll chainAfter)
        { server := s', served := chainAfter, ingested := chainAfter } ∧
      FollowsGrowth sampleUniverse 1 s' chainAfter chainAfter := by
  have hrunning : (entered databasesLevel chainThroughTwo).server.stopped = false := rfl
  rcases poll_isSome sampleHash Nullifier.acceptingEngine Nullifier.acceptingEngine hrunning
      chainAfter with ⟨s', hs'⟩
  have hgrows : chainThroughTwo.IsPrefix chainAfter := ⟨[sampleNext], rfl⟩
  have hpoll := sampleGrowth_poll honest_chainAfter hgrows (by decide) rfl hs'
  have hchain : HonestView sampleUniverse connectionThroughTwo.view := honest_chainThroughTwo
  exact ⟨s', catchUp_databasesApart, hpoll,
    growing_chain_never_rolls_back hchain (fun _ _ => rfl) agrees_databasesApart rfl
      keepsNewest_databasesApart catchUp_databasesApart ((Run.nil _).snoc hpoll)⟩

/-!
## Without the nullifier subsystem
-/

def connectionBefore : Connection :=
  { view := chainBefore, fails := fun _ _ => false }

def witnessOnly : Databases :=
  { hashtable := none, tree := some treeBefore }

theorem agrees_witnessOnly : AgreesWithChain witnessOnly 1 chainBefore := by
  constructor
  · intro hashtable hfalse
    cases hfalse
  · exact ⟨treeBefore, 1, rfl, Nat.lt_succ_self 1, tracks_treeBefore⟩

/-- Without the nullifier subsystem, the first block drops the newest one from the tree. -/
theorem witnessOnly_drops_block :
    ¬ forall (U : BlockUniverse) (M : MerkleHashOrchard) (base : Nat)
        (nfEngine witEngine : PirEngine Unit) (connection : Connection)
        (databases databases' : Databases) (w' : Watched (CombinedServer Unit Unit))
        (events : List WatchedEvent),
        (forall block, U.Served block -> toHashArray block.hash ≠ ByteVec.zeros 32) ->
        HonestView U connection.view ->
        (forall start stop, connection.fails start stop = false) ->
        AgreesWithChain databases base connection.view ->
        catchUp (some connection) databases = .ok databases' ->
        Run (GrowingStep (combinedFollowing M nfEngine witEngine) (HonestView U))
          { server := CombinedServer.enterFollow none none databases'
            served := connection.view
            ingested := connection.view.take ((followStart databases').currentHeight + 1) }
          events w' ->
        FollowsGrowth U base w'.server w'.served w'.ingested := by
  intro hall
  have hrunning : (entered witnessOnly chainBefore).server.stopped = false := rfl
  have hnew : (entered witnessOnly chainBefore).server.loop.task.currentHeight <
      chainOrphaned.tipHeight := by
    decide
  have hloop : exists loop tree,
      ingestBlocks (entered witnessOnly chainBefore).server.loop
        ((entered witnessOnly chainBefore).server.loop.task.newBlocks chainOrphaned) = some loop ∧
      loop.databases.tree = some tree ∧ tree.blocks.length = 1 := ⟨_, _, rfl, rfl, rfl⟩
  rcases hloop with ⟨loop, tree, hloop, htree, hlength⟩
  have hpolled : CombinedServer.poll sampleHash Nullifier.acceptingEngine
      Nullifier.acceptingEngine (entered witnessOnly chainBefore).server chainOrphaned = _ :=
    poll_of_new hrunning hnew hloop
  have hgrows : chainBefore.IsPrefix chainOrphaned := ⟨[sampleOrphan], rfl⟩
  have hpoll := sampleGrowth_poll honest_chainOrphaned hgrows hnew rfl hpolled
  have hnonzero : forall block, sampleUniverse.Served block ->
      toHashArray block.hash ≠ ByteVec.zeros 32 := by
    intro block hblock
    have hnone : forall b, b ∈ sampleBlocks -> toHashArray b.hash ≠ ByteVec.zeros 32 := by
      decide
    exact hnone block hblock
  have hfollows := hall sampleUniverse sampleHash 1 Nullifier.acceptingEngine
    Nullifier.acceptingEngine connectionBefore witnessOnly witnessOnly _ _ hnonzero
    honest_chainBefore (fun _ _ => rfl) agrees_witnessOnly rfl ((Run.nil _).snoc hpoll)
  rcases (publish_loop sampleHash Nullifier.acceptingEngine Nullifier.acceptingEngine
    { (entered witnessOnly chainBefore).server with loop := loop }).tree tree htree with
    ⟨cache, hcache⟩
  rcases hfollows.tree with ⟨found, hfound, htracks⟩
  rw [hcache] at hfound
  cases hfound
  have hblocks := congrArg List.length htracks.blocks
  change tree.blocks.length = _ at hblocks
  rw [hlength] at hblocks
  cases hblocks

end Combined
end SpendabilityPir
