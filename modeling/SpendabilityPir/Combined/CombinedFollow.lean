import SpendabilityPir.Combined.CombinedServer
import SpendabilityPir.Nullifier.SpendReorg
import SpendabilityPir.Nullifier.TableSafety
import SpendabilityPir.Witness.WitnessFollow

/-!
# Following the chain into both databases

While no served chain replaces the tracker's tip, the follow loop appends every new block
to the tree once, and neither a full table nor an odd block stops it.
-/

namespace SpendabilityPir
namespace Combined

open Foundation Shared
open Nullifier (HashTableDb)
open Witness (CommitmentTreeDb Hash MerkleHashOrchard HonestChain HonestCommitments Tracks)

/-- The table, where there is one, cannot panic. -/
def Databases.TableBacked (databases : Databases) : Prop :=
  forall hashtable, databases.hashtable = some hashtable -> hashtable.Backed

/-!
## Extending blocks
-/

theorem ingestBlock_extend {loop : FollowLoop} {block : CompactBlock}
    (hextend : (loop.task.advance block).2 = .extend)
    (hbacked : loop.databases.TableBacked) :
    exists loop', ingestBlock loop block = some loop' ∧
      loop'.task = (loop.task.advance block).1 ∧
      loop'.databases.tree =
        loop.databases.tree.map (fun tree => Witness.appendBlocks tree [block]) ∧
      loop'.databases.TableBacked := by
  unfold ingestBlock
  dsimp only
  rw [hextend]
  cases htable : loop.databases.hashtable with
  | none =>
      refine ⟨_, rfl, rfl, rfl, ?_⟩
      intro hashtable hfalse
      cases hfalse
  | some hashtable =>
      rcases ((hbacked hashtable htable).insertBlock block.height.toNat
        (toHashArray block.hash)
        (Nullifier.extractNullifiersWithMeta block loop.task.prevTreeSize).1).evictToTarget
        with ⟨hashtable', hevict, hbacked'⟩
      dsimp only
      rw [ingestNullifiers, hevict]
      refine ⟨_, rfl, rfl, rfl, ?_⟩
      intro evicted heq
      cases heq
      exact hbacked'

theorem ingestBlocks_extend {U : BlockUniverse} {loop : FollowLoop} {chain : ChainView}
    {blocks : List CompactBlock} (htip : loop.task.AtTip chain)
    (hhonest : HonestView U (chain ++ blocks)) (hbacked : loop.databases.TableBacked) :
    exists loop', ingestBlocks loop blocks = some loop' ∧
      loop'.task.AtTip (chain ++ blocks) ∧
      loop'.databases.tree =
        loop.databases.tree.map (fun tree => Witness.appendBlocks tree blocks) ∧
      loop'.databases.TableBacked := by
  induction blocks generalizing loop chain with
  | nil =>
      refine ⟨loop, rfl, ?_, ?_, hbacked⟩
      · rw [List.append_nil]
        exact htip
      · exact Option.map_id'.symm
  | cons block rest ih =>
      have hsplit : (chain ++ [block]) ++ rest = chain ++ block :: rest := by
        rw [List.append_assoc]
        rfl
      have hfront : HonestView U (chain ++ [block]) :=
        hhonest.of_prefix (by simp) ⟨rest, hsplit⟩
      rcases ingestBlock_extend (htip.advance_extend hfront) hbacked with
        ⟨mid, hmid, htask, htree, hbacked'⟩
      have hnext : mid.task.AtTip (chain ++ [block]) := by
        rw [htask]
        exact FollowState.atTip_advance htip.depth hfront
      rcases ih hnext (hsplit.symm ▸ hhonest) hbacked' with
        ⟨loop', hloop, htip', htree', hbacked''⟩
      refine ⟨loop', ?_, hsplit ▸ htip', ?_, hbacked''⟩
      · rw [ingestBlocks, hmid]
        exact hloop
      · rw [htree', htree, Option.map_map]
        rfl

/-!
## Publishing
-/

section Publishing

variable {σ τ : Type} {M : MerkleHashOrchard} {nfEngine : PirEngine σ}
variable {witEngine : PirEngine τ} {leafOffset : Nat} {roots : List Hash} {base : Nat}

theorem nullifier_rebuildPir_isOk (hengine : nfEngine.Accepts Nullifier.scenario)
    (hashtable : HashTableDb) :
    exists pir, Nullifier.rebuildPir nfEngine hashtable Nullifier.scenario = .ok pir := by
  have hlength : hashtable.toPirBytes.length * 8 =
      Nullifier.scenario.numItems * Nullifier.scenario.itemSizeBits := by
    rw [HashTableDb.length_toPirBytes]
    rfl
  rcases hengine _ hlength with ⟨engineState, hsetup⟩
  rw [Nullifier.rebuildPir, hsetup]
  exact ⟨_, rfl⟩

theorem publishNullifier_loop (nfEngine : PirEngine σ) (s : CombinedServer σ τ) :
    (s.publishNullifier nfEngine).loop = s.loop := by
  unfold CombinedServer.publishNullifier
  split
  · rfl
  · split <;> rfl

/-- The loop states that differ in the tree's cache only. -/
structure SameUpToCache (loop loop' : FollowLoop) : Prop where
  task : loop'.task = loop.task
  hashtable : loop'.databases.hashtable = loop.databases.hashtable
  tree : forall tree, loop.databases.tree = some tree -> exists cache,
    loop'.databases.tree = some { tree with ssRootCache := cache }

theorem sameUpToCache_rfl (loop : FollowLoop) : SameUpToCache loop loop :=
  ⟨rfl, rfl, fun tree htree => ⟨tree.ssRootCache, htree⟩⟩

theorem publishWitness_loop (M : MerkleHashOrchard) (witEngine : PirEngine τ)
    (s : CombinedServer σ τ) : SameUpToCache s.loop (s.publishWitness M witEngine).loop := by
  unfold CombinedServer.publishWitness
  split
  · exact sameUpToCache_rfl s.loop
  · next tree htree =>
      split
      · exact sameUpToCache_rfl s.loop
      · next tree' pir hrebuild =>
          refine ⟨rfl, rfl, ?_⟩
          intro found hfound
          rw [htree] at hfound
          cases hfound
          exact ⟨tree'.ssRootCache, congrArg some (Witness.rebuildPir_cache_only hrebuild)⟩

theorem publish_loop (M : MerkleHashOrchard) (nfEngine : PirEngine σ)
    (witEngine : PirEngine τ) (s : CombinedServer σ τ) :
    SameUpToCache s.loop (s.publish M nfEngine witEngine).loop := by
  rw [← publishNullifier_loop nfEngine s]
  unfold CombinedServer.publish
  dsimp only
  split
  · exact sameUpToCache_rfl _
  · exact publishWitness_loop M witEngine _

/-- A server that goes on, with a tree of its own that tracks a chain. -/
structure Serves (M : MerkleHashOrchard) (leafOffset : Nat) (roots : List Hash)
    (base : Nat) (s : CombinedServer σ τ) (chain : ChainView) : Prop where
  running : s.stopped = false
  table : s.loop.databases.TableBacked
  tree : exists tree, s.loop.databases.tree = some tree ∧
    CommitmentTreeDb.TreeInvariant M leafOffset roots tree ∧ Tracks tree base chain

theorem serves_publish {s : CombinedServer σ τ} {chain : ChainView}
    (hnf : nfEngine.Accepts Nullifier.scenario)
    (hwit : witEngine.Accepts Witness.scenario) (hhonest : HonestCommitments M chain)
    (h : Serves M leafOffset roots base s chain) :
    Serves M leafOffset roots base (s.publish M nfEngine witEngine) chain ∧
      (s.publish M nfEngine witEngine).loop.task = s.loop.task := by
  have hpublished : Serves M leafOffset roots base (s.publishNullifier nfEngine) chain ∧
      (s.publishNullifier nfEngine).loop = s.loop := by
    unfold CombinedServer.publishNullifier
    cases htable : s.loop.databases.hashtable with
    | none => exact ⟨h, rfl⟩
    | some hashtable =>
        rcases nullifier_rebuildPir_isOk hnf hashtable with ⟨pir, hpir⟩
        dsimp only
        rw [hpir]
        exact ⟨⟨h.running, h.table, h.tree⟩, rfl⟩
  rcases hpublished with ⟨hserves, hloop⟩
  rcases hserves.tree with ⟨tree, htree, hinv, htracks⟩
  rcases Witness.rebuildPir_of_tracks hwit hinv htracks hhonest
      (tree.latestHeight.getD 0) with ⟨tree', pir, hpir, hinv', htracks'⟩
  rw [CombinedServer.publish, hserves.running, if_neg Bool.false_ne_true,
    CombinedServer.publishWitness, htree]
  dsimp only
  rw [hpir]
  refine ⟨⟨hserves.running, hserves.table, tree', rfl, hinv', htracks'⟩, ?_⟩
  change (s.publishNullifier nfEngine).loop.task = _
  rw [hloop]

end Publishing

/-!
## Runs
-/

section Runs

variable {σ τ : Type} {U : BlockUniverse} {M : MerkleHashOrchard} {leafOffset : Nat}
variable {roots : List Hash} {base : Nat} {nfEngine : PirEngine σ} {witEngine : PirEngine τ}

/-- When a served chain has new blocks, the tracker's tip is the tree's newest block, and
the served chain has it. -/
def KeepsTip (s : CombinedServer σ τ) (st : FollowState) (view : ChainView) : Prop :=
  st.currentHeight < view.tipHeight -> st.Continues view ∧
    forall tree, s.loop.databases.tree = some tree ->
      st.tracker.tip.map Prod.fst = tree.latestHeight ∧
      st.tracker.tip.map Prod.snd = tree.latestBlockHash

/-- The follow loop starts with a tree that is equal to the served chain through the
tree's newest block. -/
structure AgreesWithServed (U : BlockUniverse) (M : MerkleHashOrchard) (leafOffset : Nat)
    (roots : List Hash) (base : Nat) (w : Watched (CombinedServer σ τ)) : Prop where
  task : w.server.loop.task = followStart w.server.loop.databases
  honest : HonestChain U M w.served
  ingested : w.ingested.IsPrefix w.served
  serves : Serves M leafOffset roots base w.server w.ingested

/-- The server goes on, and its tree is that of the chain. -/
def TracksServed (base : Nat) (s : CombinedServer σ τ) (chain : ChainView) : Prop :=
  s.stopped = false ∧
  exists tree, s.loop.databases.tree = some tree ∧ Tracks tree base chain

theorem maxDepth_followStart (databases : Databases) :
    0 < (followStart databases).tracker.maxDepth := by
  unfold followStart
  cases databases.hashtable <;> exact Nat.succ_pos _

theorem atTip_of_newest {tree : CommitmentTreeDb} {chain view : ChainView}
    {st : FollowState} (hchain : HonestView U chain) (htracks : Tracks tree base chain)
    (hdepth : 0 < st.tracker.maxDepth) (hcontinues : st.Continues view)
    (hheight : st.tracker.tip.map Prod.fst = tree.latestHeight)
    (hhash : st.tracker.tip.map Prod.snd = tree.latestBlockHash) : st.AtTip chain := by
  have hpos : 0 < chain.length := Nat.lt_of_le_of_lt (Nat.zero_le _) htracks.base_lt
  have hlast : chain.getLast? = some chain[chain.length - 1] := by
    rw [List.getLast?_eq_getElem?, List.getElem?_eq_getElem]
  have hblock : chain[chain.length - 1]? = some chain[chain.length - 1] :=
    List.getElem?_eq_getElem _
  rcases hcontinues with ⟨served, _, htip⟩
  rw [htip, htracks.latestHeight_eq hlast, hchain.height_eq hblock] at hheight
  rw [htip, htracks.latestBlockHash_eq hlast] at hhash
  have hcurrent : st.currentHeight = chain.length - 1 := Option.some.inj hheight
  have hsame : toHashArray served.hash = toHashArray chain[chain.length - 1].hash :=
    Option.some.inj hhash
  refine ⟨by lia, ⟨chain[chain.length - 1], ?_, ?_⟩, hdepth⟩
  · rw [hcurrent]
    exact hblock
  · rw [htip, hsame]

theorem followState_eq_some {s : CombinedServer σ τ} {st : FollowState}
    (h : s.followState = some st) : s.stopped = false ∧ s.loop.task = st := by
  unfold CombinedServer.followState at h
  split at h
  · cases h
  · next hrunning => exact ⟨Bool.eq_false_of_not_eq_true hrunning, Option.some.inj h⟩

theorem poll_of_idle {s : CombinedServer σ τ} {view : ChainView}
    (hrunning : s.stopped = false) (hidle : view.tipHeight ≤ s.loop.task.currentHeight) :
    s.poll M nfEngine witEngine view = some s := by
  rw [CombinedServer.poll, if_neg (by rw [hrunning]; exact Bool.false_ne_true),
    if_pos hidle]

theorem poll_of_new {s : CombinedServer σ τ} {view : ChainView} {loop : FollowLoop}
    (hrunning : s.stopped = false) (hnew : s.loop.task.currentHeight < view.tipHeight)
    (hloop : ingestBlocks s.loop (s.loop.task.newBlocks view) = some loop) :
    s.poll M nfEngine witEngine view =
      some (CombinedServer.publish M nfEngine witEngine { s with loop := loop }) := by
  rw [CombinedServer.poll, if_neg (by rw [hrunning]; exact Bool.false_ne_true),
    if_neg (Nat.not_le_of_lt hnew), hloop]

theorem poll_isSome (M : MerkleHashOrchard) (nfEngine : PirEngine σ)
    (witEngine : PirEngine τ) {s : CombinedServer σ τ} (hrunning : s.stopped = false)
    (view : ChainView) : exists s', s.poll M nfEngine witEngine view = some s' := by
  unfold CombinedServer.poll
  rw [hrunning, if_neg Bool.false_ne_true]
  split
  · exact ⟨_, rfl⟩
  · split <;> exact ⟨_, rfl⟩

/-- A turn with new blocks appends them and publishes. -/
theorem serves_poll {s s' : CombinedServer σ τ} {chain view : ChainView}
    (hnf : nfEngine.Accepts Nullifier.scenario)
    (hwit : witEngine.Accepts Witness.scenario) (haligned : leafOffset % Witness.shardLeaves = 0)
    (hchain : HonestView U chain) (hview : HonestChain U M view)
    (h : Serves M leafOffset roots base s chain) (htip : s.loop.task.AtTip chain)
    (hcontinues : s.loop.task.Continues view)
    (hnew : s.loop.task.currentHeight < view.tipHeight)
    (hpoll : s.poll M nfEngine witEngine view = some s') :
    Serves M leafOffset roots base s' view ∧ s'.loop.task.AtTip view := by
  have htake := htip.take_eq hchain hview.blocks hcontinues
  have hsplit : chain ++ s.loop.task.newBlocks view = view := by
    rw [← htake]
    exact FollowState.take_append_newBlocks hview.blocks
  rcases ingestBlocks_extend htip (hsplit.symm ▸ hview.blocks) h.table with
    ⟨loop', hloop, htip', htree', hbacked'⟩
  rw [hsplit] at htip'
  rcases h.tree with ⟨tree, htree, hinv, htracks⟩
  have hgrown := htracks.appendBlocks (s.loop.task.newBlocks view)
  rw [hsplit] at hgrown
  rw [htree] at htree'
  have hserves : Serves M leafOffset roots base { s with loop := loop' } view :=
    ⟨h.running, hbacked', _, htree',
      Witness.treeInvariant_appendBlocks haligned hinv _, hgrown⟩
  rcases serves_publish hnf hwit hview.commitments hserves with ⟨hpublished, htask⟩
  rw [poll_of_new h.running hnew hloop] at hpoll
  cases hpoll
  refine ⟨hpublished, ?_⟩
  rw [htask]
  exact htip'

/-- In every run whose polls with new blocks keep the tip, the server goes on and its tree
is that of the chain ingested last. -/
theorem tracksServed_run {w w' : Watched (CombinedServer σ τ)} {events : List WatchedEvent}
    (hnf : nfEngine.Accepts Nullifier.scenario)
    (hwit : witEngine.Accepts Witness.scenario)
    (haligned : leafOffset % Witness.shardLeaves = 0)
    (hstart : AgreesWithServed U M leafOffset roots base w)
    (hrun : Run (StepUnder (combinedFollowing M nfEngine witEngine) (HonestChain U M)
      KeepsTip) w events w') : TracksServed base w'.server w'.ingested := by
  have hrunInv : HonestView U w'.ingested ∧
      Serves M leafOffset roots base w'.server w'.ingested ∧
      0 < w'.server.loop.task.tracker.maxDepth := by
    apply watched_invariant (P := fun s _ chain => HonestView U chain ∧
      Serves M leafOffset roots base s chain ∧ 0 < s.loop.task.tracker.maxDepth) _ _ _ hrun
    · rcases hstart.serves.tree with ⟨tree, _, _, htracks⟩
      have hnonempty : w.ingested ≠ [] := by
        apply List.ne_nil_of_length_pos
        exact Nat.lt_of_le_of_lt (Nat.zero_le _) htracks.base_lt
      refine ⟨hstart.honest.blocks.of_prefix hnonempty hstart.ingested, hstart.serves, ?_⟩
      rw [hstart.task]
      exact maxDepth_followStart _
    · intro s _ chain st view s' h hfollow _ hidle _ hpoll
      change CombinedServer.followState s = some st at hfollow
      change CombinedServer.poll M nfEngine witEngine s view = some s' at hpoll
      rw [CombinedServer.followState, h.2.1.running] at hfollow
      cases hfollow
      rw [poll_of_idle h.2.1.running hidle] at hpoll
      cases hpoll
      exact h
    · intro s _ chain st view s' h hfollow hview hnew hcond hpoll
      rcases h with ⟨hchain, hserves, hdepth⟩
      change CombinedServer.followState s = some st at hfollow
      rw [CombinedServer.followState, hserves.running] at hfollow
      cases hfollow
      rcases hserves.tree with ⟨tree, htree, _, htracks⟩
      rcases hcond hnew with ⟨hcontinues, hnewest⟩
      rcases hnewest tree htree with ⟨hheight, hhash⟩
      have htip := atTip_of_newest hchain htracks hdepth hcontinues hheight hhash
      rcases serves_poll hnf hwit haligned hchain hview hserves htip hcontinues hnew hpoll
        with ⟨hserves', htip'⟩
      exact ⟨hview.blocks, hserves', htip'.depth⟩
    · intro s _ chain s' _ hwork
      cases hwork
  rcases hrunInv.2.1.tree with ⟨tree, htree, _, htracks⟩
  exact ⟨hrunInv.2.1.running, tree, htree, htracks⟩

/-- In every run whose polls with new blocks keep the tip, neither server fails, and after
its poll is worked off the tree is that of the chain served then. -/
theorem tree_follows_served_chain (hnf : nfEngine.Accepts Nullifier.scenario)
    (hwit : witEngine.Accepts Witness.scenario)
    (haligned : leafOffset % Witness.shardLeaves = 0) :
    (forall (w w' : Watched (Witness.WitnessServer τ)) (events : List WatchedEvent),
      CommitmentTreeDb.TreeInvariant M leafOffset roots w.server.tree ->
      Witness.AgreesWithServed U M base w ->
      Run (StepUnder (Witness.witnessFollowing M witEngine) (HonestChain U M)
        Witness.KeepsTip) w events w' ->
      Witness.TracksServed base w'.server w'.ingested) ∧
    (forall (w w' : Watched (CombinedServer σ τ)) (events : List WatchedEvent),
      AgreesWithServed U M leafOffset roots base w ->
      Run (StepUnder (combinedFollowing M nfEngine witEngine) (HonestChain U M)
        KeepsTip) w events w' ->
      TracksServed base w'.server w'.ingested) := by
  constructor
  · intro w w' events hinv hstart hrun
    exact Witness.tracksServed_run hwit haligned hinv hstart hrun
  · intro w w' events hstart hrun
    exact tracksServed_run hnf hwit haligned hstart hrun

end Runs

/-!
## A reorganization by one block
-/

open Witness (WitnessServer sampleHash)

theorem honestCommitments_of_zeros {view : ChainView} (n : Nat)
    (hsizes : forall i : Fin view.length,
      (view.get i).chainMetadata.map (fun m => m.orchardCommitmentTreeSize.toNat) =
        some (Witness.commitmentsOf (view.take (i.val + 1))).length)
    (hzeros : Witness.commitmentsOf view = List.replicate n (ByteVec.zeros 32)) :
    HonestCommitments sampleHash view where
  sizes := by
    intro i block hblock
    rcases List.getElem?_eq_some_iff.mp hblock with ⟨hlt, heq⟩
    have hsize := hsizes ⟨i, hlt⟩
    change (view[i]).chainMetadata.map _ = _ at hsize
    rw [heq] at hsize
    exact Option.map_eq_some_iff.mp hsize
  canonical := by
    intro commitment hcommitment
    rw [hzeros] at hcommitment
    rw [List.eq_of_mem_replicate hcommitment]
    exact Witness.canonical_zeros

theorem honestChain_chainBefore : HonestChain sampleUniverse sampleHash chainBefore :=
  ⟨honest_chainBefore, honestCommitments_of_zeros 0 (by decide) rfl⟩

theorem honestChain_chainOrphaned : HonestChain sampleUniverse sampleHash chainOrphaned :=
  ⟨honest_chainOrphaned, honestCommitments_of_zeros 1 (by decide) rfl⟩

theorem honestChain_chainAfter : HonestChain sampleUniverse sampleHash chainAfter :=
  ⟨honest_chainAfter, honestCommitments_of_zeros 1 (by decide) rfl⟩

/-- The tree through block 1, and after the block that becomes an orphan. -/
def treeBefore : CommitmentTreeDb :=
  CommitmentTreeDb.new.appendCommitments 1 (toHashArray sampleFirst.hash) []

def treeOrphaned : CommitmentTreeDb :=
  treeBefore.appendCommitments 2 (toHashArray sampleOrphan.hash) [ByteVec.zeros 32]

theorem tracks_treeBefore : Tracks treeBefore 1 chainBefore :=
  ⟨rfl, rfl, Nat.zero_le _, by decide⟩

theorem treeInvariant_treeBefore :
    CommitmentTreeDb.TreeInvariant sampleHash 0 [] treeBefore :=
  Witness.treeInvariant_appendBlock rfl
    (CommitmentTreeDb.treeInvariant_withOffset sampleHash 0 []) sampleFirst

/-- A serving server with a tree, a follow task and a queue. -/
def serving (tree : CommitmentTreeDb) (pir : Option (Witness.PirState Unit))
    (task : FollowState) (queue : List Witness.WitnessChainEvent) : WitnessServer Unit :=
  { tree := tree, livePir := pir, stage := Witness.Stage.follow task queue }

def watchedBefore : Watched (WitnessServer Unit) :=
  { server := serving treeBefore none (WitnessServer.followStart treeBefore) []
    served := chainBefore
    ingested := chainBefore }

theorem agrees_watchedBefore :
    Witness.AgreesWithServed sampleUniverse sampleHash 1 watchedBefore where
  stage := rfl
  honest := honestChain_chainBefore
  ingested := List.prefix_rfl
  tracks := tracks_treeBefore

theorem accepts_acceptingEngine (scenario : YpirScenario) :
    Nullifier.acceptingEngine.Accepts scenario :=
  fun _ _ => ⟨(), rfl⟩

abbrev SampleStep : Watched (WitnessServer Unit) -> WatchedEvent ->
    Watched (WitnessServer Unit) -> Prop :=
  WatchedStep (Witness.witnessFollowing sampleHash Nullifier.acceptingEngine)
    (HonestChain sampleUniverse sampleHash)

theorem sampleStep_poll {tree : CommitmentTreeDb} {pir : Option (Witness.PirState Unit)}
    {task : FollowState} {view served ingested : ChainView}
    (hview : HonestChain sampleUniverse sampleHash view)
    (hreplaces : ReplacesFewerThan task.tracker.chain.length served view)
    (hnew : task.currentHeight < view.tipHeight) :
    SampleStep
      { server := serving tree pir task [], served := served, ingested := ingested }
      (.poll view)
      { server := serving tree pir (Witness.followPoll task view).1
          (Witness.followPoll task view).2
        served := view
        ingested := view } := by
  have hstep : SampleStep
      { server := serving tree pir task [], served := served, ingested := ingested }
      (.poll view) _ :=
    WatchedStep.poll rfl hview hreplaces rfl
  rw [if_neg (Nat.not_le_of_lt hnew)] at hstep
  exact hstep

theorem sampleStep_work {tree applied : CommitmentTreeDb}
    {pir : Option (Witness.PirState Unit)} {task : FollowState}
    {event : Witness.WitnessChainEvent} {rest : List Witness.WitnessChainEvent}
    {served ingested : ChainView} (n : Nat)
    (happly : Witness.applyEvent tree event = .ok applied)
    (hinv : CommitmentTreeDb.TreeInvariant sampleHash 0 [] applied)
    (hzeros : applied.leaves = List.replicate n (ByteVec.zeros 32)) :
    exists cache pir',
      SampleStep
        { server := serving tree pir task (event :: rest)
          served := served
          ingested := ingested } .work
        { server := serving { applied with ssRootCache := cache } pir' task rest
          served := served
          ingested := ingested } ∧
      CommitmentTreeDb.TreeInvariant sampleHash 0 []
        { applied with ssRootCache := cache } := by
  have hcanonical : applied.CanonicalLeaves sampleHash := by
    intro leaf hleaf
    rw [hzeros] at hleaf
    rw [List.eq_of_mem_replicate hleaf]
    exact Witness.canonical_zeros
  rcases Witness.rebuildPir_of_canonical (accepts_acceptingEngine _) hinv hcanonical
      (applied.latestHeight.getD 0) with ⟨cache, pir', hrebuild, hinv'⟩
  refine ⟨cache, some pir', WatchedStep.work ?_, hinv'⟩
  have hhandle : Witness.handleEvent sampleHash Nullifier.acceptingEngine
      (serving tree pir task (event :: rest)).tree event =
        .ok ({ applied with ssRootCache := cache }, pir') := by
    change (Witness.applyEvent tree event >>= _) = _
    rw [happly, ok_bind]
    exact hrebuild
  exact congrArg some (Witness.handle_of_handleEvent hhandle task rest)

def taskOrphaned : FollowState :=
  ((WitnessServer.followStart treeBefore).advance sampleOrphan).1

theorem followPoll_chainOrphaned :
    Witness.followPoll (WitnessServer.followStart treeBefore) chainOrphaned =
      (taskOrphaned, [Witness.newBlockEvent none sampleOrphan]) := rfl

theorem followPoll_chainAfter :
    Witness.followPoll taskOrphaned chainAfter =
      ((taskOrphaned.advance sampleNext).1,
        [.reorg 0, Witness.newBlockEvent none sampleNext]) := rfl

theorem steps_orphaned :
    exists mid cache pir,
      SampleStep watchedBefore (.poll chainOrphaned) mid ∧
      SampleStep mid .work
        { server := serving { treeOrphaned with ssRootCache := cache } pir taskOrphaned []
          served := chainOrphaned
          ingested := chainOrphaned } ∧
      CommitmentTreeDb.TreeInvariant sampleHash 0 []
        { treeOrphaned with ssRootCache := cache } := by
  have hpoll : SampleStep watchedBefore (.poll chainOrphaned) _ :=
    sampleStep_poll honestChain_chainOrphaned ⟨0, Nat.one_pos, by decide⟩ (by decide)
  rw [followPoll_chainOrphaned] at hpoll
  have happly : Witness.applyEvent treeBefore (Witness.newBlockEvent none sampleOrphan) =
      .ok treeOrphaned := rfl
  have hinv : CommitmentTreeDb.TreeInvariant sampleHash 0 [] treeOrphaned :=
    Witness.treeInvariant_appendBlock rfl treeInvariant_treeBefore sampleOrphan
  rcases sampleStep_work 1 happly hinv rfl with ⟨cache, pir, hwork, hinv'⟩
  exact ⟨_, cache, pir, hpoll, hwork, hinv'⟩

theorem steps_reorg {cache : Fin Witness.l0DbRows -> Option Hash}
    {pir : Option (Witness.PirState Unit)}
    (hinv : CommitmentTreeDb.TreeInvariant sampleHash 0 []
      { treeOrphaned with ssRootCache := cache }) :
    exists mid mid' tree pir',
      SampleStep
        { server := serving { treeOrphaned with ssRootCache := cache } pir taskOrphaned []
          served := chainOrphaned
          ingested := chainOrphaned } (.poll chainAfter) mid ∧
      SampleStep mid .work mid' ∧
      SampleStep mid' .work
        { server := serving tree pir' (taskOrphaned.advance sampleNext).1 []
          served := chainAfter
          ingested := chainAfter } ∧
      tree.blocks.length = 1 := by
  have hpoll : SampleStep
      { server := serving { treeOrphaned with ssRootCache := cache } pir taskOrphaned []
        served := chainOrphaned
        ingested := chainOrphaned } (.poll chainAfter) _ :=
    sampleStep_poll honestChain_chainAfter ⟨1, by decide, by decide⟩ (by decide)
  rw [followPoll_chainAfter] at hpoll
  have hrolled : CommitmentTreeDb.TreeStep sampleHash .wrapping (fun _ _ => 0)
      { treeOrphaned with ssRootCache := cache } (.rollbackTo 0) _ := .rollbackTo _ 0
  have hreorg : forall tree : CommitmentTreeDb,
      Witness.applyEvent tree (.reorg 0) = .ok (tree.rollbackTo 0) := fun _ => rfl
  have hnext : forall tree : CommitmentTreeDb,
      Witness.applyEvent tree (Witness.newBlockEvent none sampleNext) =
        .ok (Witness.appendBlocks tree [sampleNext]) := fun _ => rfl
  rcases sampleStep_work 0 (hreorg _) (CommitmentTreeDb.treeInvariant_step rfl hinv hrolled)
      rfl with ⟨cache', pir', hwork, hinv'⟩
  rcases sampleStep_work 0 (hnext _)
      (Witness.treeInvariant_appendBlocks rfl hinv' [sampleNext]) rfl with
    ⟨cache'', pir'', hwork', _⟩
  exact ⟨_, _, _, pir'', hpoll, hwork, hwork', rfl⟩

/-- Both subsystems at block 1, as they enter the follow loop. -/
def databasesBefore : Databases :=
  { hashtable := some Nullifier.tableBefore, tree := some treeBefore }

def combinedBefore : Watched (CombinedServer Unit Unit) :=
  { server := CombinedServer.enterFollow none none databasesBefore
    served := chainBefore
    ingested := chainBefore }

theorem agrees_combinedBefore :
    AgreesWithServed sampleUniverse sampleHash 0 [] 1 combinedBefore where
  task := rfl
  honest := honestChain_chainBefore
  ingested := List.prefix_rfl
  serves := by
    refine ⟨rfl, ?_, treeBefore, rfl, treeInvariant_treeBefore, tracks_treeBefore⟩
    intro hashtable hsome
    cases hsome
    exact HashTableDb.backed_new.insertBlock 1 (toHashArray sampleFirst.hash) []

/-- After the poll that serves the orphan is worked off, the tree of either server is that
of its chain. -/
theorem tree_follows_served_chain_orphaned :
    (exists w : Watched (WitnessServer Unit), w.ingested = chainOrphaned ∧
      Witness.TracksServed 1 w.server chainOrphaned) ∧
    exists w : Watched (CombinedServer Unit Unit), w.ingested = chainOrphaned ∧
      TracksServed 1 w.server chainOrphaned := by
  have hfollows := @tree_follows_served_chain Unit Unit sampleUniverse sampleHash 0 [] 1
    Nullifier.acceptingEngine Nullifier.acceptingEngine (accepts_acceptingEngine _)
    (accepts_acceptingEngine _) rfl
  constructor
  · rcases steps_orphaned with ⟨mid, cache, pir, hpoll, hwork, _⟩
    refine ⟨_, rfl, hfollows.1 watchedBefore _ _ treeInvariant_treeBefore
      agrees_watchedBefore (((Run.nil _).snoc ⟨hpoll, ?_⟩).snoc ⟨hwork, ?_⟩)⟩
    · intro view st hfalse
      cases hfalse
    · intro view st hview hst _
      cases hview
      cases hst
      exact ⟨sampleFirst, rfl, rfl⟩
  · have hrunning : combinedBefore.server.stopped = false := rfl
    rcases poll_isSome sampleHash Nullifier.acceptingEngine Nullifier.acceptingEngine
        hrunning chainOrphaned with ⟨s', hs'⟩
    have hreplaces : ReplacesFewerThan 1 chainBefore chainOrphaned :=
      ⟨0, Nat.one_pos, by decide⟩
    have hfollow : (combinedFollowing sampleHash Nullifier.acceptingEngine
        Nullifier.acceptingEngine).followState combinedBefore.server =
          some combinedBefore.server.loop.task := rfl
    have hpoll : WatchedStep (combinedFollowing sampleHash Nullifier.acceptingEngine
        Nullifier.acceptingEngine) (HonestChain sampleUniverse sampleHash) combinedBefore
        (.poll chainOrphaned)
        { server := s', served := chainOrphaned, ingested := chainOrphaned } :=
      WatchedStep.poll hfollow honestChain_chainOrphaned hreplaces hs'
    refine ⟨_, rfl, hfollows.2 combinedBefore _ _ agrees_combinedBefore
      ((Run.nil _).snoc ⟨hpoll, ?_⟩)⟩
    intro view st hview hst _
    cases hview
    cases hst
    refine ⟨⟨sampleFirst, rfl, rfl⟩, ?_⟩
    intro tree htree
    cases htree
    exact ⟨rfl, rfl⟩

/-- In the reorganization, block 1 and the replacement of block 2 are missing. -/
theorem replacement_block_lost :
    ¬ forall (U : BlockUniverse) (M : MerkleHashOrchard) (leafOffset : Nat)
        (roots : List Hash) (base : Nat) (engine : PirEngine Unit)
        (w w' : Watched (WitnessServer Unit)) (events : List WatchedEvent),
        engine.Accepts Witness.scenario -> leafOffset % Witness.shardLeaves = 0 ->
        CommitmentTreeDb.TreeInvariant M leafOffset roots w.server.tree ->
        Witness.AgreesWithServed U M base w ->
        Run (WatchedStep (Witness.witnessFollowing M engine) (HonestChain U M))
          w events w' ->
        Witness.TracksServed base w'.server w'.ingested := by
  intro hall
  rcases steps_orphaned with ⟨mid, cache, pir, hpoll, hwork, hinv⟩
  rcases steps_reorg hinv with ⟨mid', mid'', tree, pir', hpoll', hwork', hwork'', hlength⟩
  rcases hall sampleUniverse sampleHash 0 [] 1 Nullifier.acceptingEngine watchedBefore _ _
    (accepts_acceptingEngine _) rfl treeInvariant_treeBefore agrees_watchedBefore
    ((((((Run.nil _).snoc hpoll).snoc hwork).snoc hpoll').snoc hwork').snoc hwork'') with
    ⟨task, queue, hstage, htracks⟩
  cases hstage
  have hblocks := congrArg List.length (htracks rfl).blocks
  change tree.blocks.length = _ at hblocks
  rw [hlength] at hblocks
  cases hblocks

end Combined
end SpendabilityPir
