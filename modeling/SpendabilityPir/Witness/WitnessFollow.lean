import SpendabilityPir.Shared.Following
import SpendabilityPir.Witness.WindowLayout
import SpendabilityPir.Witness.WitnessSync

/-!
# Following the chain into the commitment tree

The queue announces the blocks above the ones the tree tracks, each with the tree size
below it.  A poll of a chain that still has the tracker's tip announces the blocks above
it, and the event loop appends the oldest announced block and never stops.
-/

namespace SpendabilityPir
namespace Witness

open Foundation Shared

/-- The events of consecutive blocks above a tree of a size. -/
def announce : Nat -> List CompactBlock -> List WitnessChainEvent
  | _, [] => []
  | size, block :: rest =>
      newBlockEvent (reportedSize size) block ::
        announce (size + (extractCommitments block).length) rest

theorem announce_append (size : Nat) (xs ys : List CompactBlock) :
    announce size (xs ++ ys) =
      announce size xs ++ announce (size + (commitmentsOf xs).length) ys := by
  induction xs generalizing size with
  | nil => rfl
  | cons block rest ih =>
      rw [List.cons_append, announce, announce, ih, List.cons_append, commitmentsOf_cons,
        List.length_append, Nat.add_assoc]

/-- What lightwalletd serves: honest blocks that report true tree sizes. -/
structure HonestChain (U : BlockUniverse) (M : MerkleHashOrchard) (view : ChainView) :
    Prop where
  blocks : HonestView U view
  commitments : HonestCommitments M view

/-- The tree tracks a chain up to a height, and the queue announces the rest. -/
structure Announced (tree : CommitmentTreeDb) (queue : List WitnessChainEvent)
    (base : Nat) (chain : ChainView) (next : Nat) : Prop where
  tracks : Tracks tree base (chain.take next)
  le : next ≤ chain.length
  queue : queue = announce (commitmentsOf (chain.take next)).length (chain.drop next)

/-- The task reads the tree size its newest block reported. -/
structure AtReportedTip (st : FollowState) (chain : ChainView) : Prop where
  tip : st.AtTip chain
  prevTreeSize : st.prevTreeSize = reportedSize (commitmentsOf chain).length

section Invariant

variable {σ : Type} (U : BlockUniverse) (M : MerkleHashOrchard) (leafOffset : Nat)
variable (roots : List Hash) (base : Nat)

/-- What holds of a serving server and the chain it ingested last. -/
structure FollowInvariant (s : WitnessServer σ) (chain : ChainView) (task : FollowState)
    (queue : List WitnessChainEvent) : Prop where
  stage : s.stage = .follow task queue
  honest : HonestChain U M chain
  tree : CommitmentTreeDb.TreeInvariant M leafOffset roots s.tree
  task : AtReportedTip task chain
  announced : exists next, Announced s.tree queue base chain next

end Invariant

/-!
## Polls
-/

theorem HonestChain.of_prefix {U : BlockUniverse} {M : MerkleHashOrchard}
    {front view : ChainView} (h : HonestChain U M view) (hnonempty : front ≠ [])
    (hpre : front.IsPrefix view) : HonestChain U M front where
  blocks := h.blocks.of_prefix hnonempty hpre
  commitments := h.commitments.of_prefix hpre

theorem Announced.concat {tree : CommitmentTreeDb} {queue : List WitnessChainEvent}
    {base next : Nat} {chain : ChainView} (h : Announced tree queue base chain next)
    (block : CompactBlock) :
    Announced tree
      (queue ++ [newBlockEvent (reportedSize (commitmentsOf chain).length) block]) base
      (chain ++ [block]) next := by
  have htake : (chain ++ [block]).take next = chain.take next :=
    List.take_append_of_le_length h.le
  have htotal : (commitmentsOf (chain.take next)).length +
      (commitmentsOf (chain.drop next)).length = (commitmentsOf chain).length := by
    rw [← List.length_append, ← commitmentsOf_append, List.take_append_drop]
  constructor
  · rw [htake]
    exact h.tracks
  · rw [List.length_append]
    exact Nat.le_add_right_of_le h.le
  · rw [htake, List.drop_append_of_le_length h.le, announce_append, htotal, ← h.queue]
    rfl

def Announcing (tree : CommitmentTreeDb) (base next : Nat) (chain : ChainView)
    (st : FollowState) (queue : List WitnessChainEvent) : Prop :=
  st.prevTreeSize = reportedSize (commitmentsOf chain).length ∧
  Announced tree queue base chain next

theorem announced_followBlocks {U : BlockUniverse} {M : MerkleHashOrchard}
    {tree : CommitmentTreeDb} {queue : List WitnessChainEvent} {base next : Nat}
    {chain : ChainView} {st : FollowState} {blocks : List CompactBlock}
    (htip : AtReportedTip st chain) (hhonest : HonestChain U M (chain ++ blocks))
    (h : Announced tree queue base chain next) :
    AtReportedTip (st.followBlocks followEvents blocks).1 (chain ++ blocks) ∧
    Announced tree (queue ++ (st.followBlocks followEvents blocks).2) base
      (chain ++ blocks) next := by
  have hfollow : (st.followBlocks followEvents blocks).1.AtTip (chain ++ blocks) ∧
      Announcing tree base next (chain ++ blocks) (st.followBlocks followEvents blocks).1
        (queue ++ (st.followBlocks followEvents blocks).2) := by
    apply FollowState.followBlocks_induction hhonest.blocks
      (Announcing tree base next) _ rfl htip.tip ⟨htip.prevTreeSize, h⟩
    intro chain' st' events block _ hpre hinv
    rcases hinv with ⟨hsize, hevents⟩
    refine ⟨(hhonest.commitments.of_prefix hpre).orchardTreeSize_concat, ?_⟩
    change Announced tree (events ++ [newBlockEvent st'.prevTreeSize block]) base _ next
    rw [hsize]
    exact hevents.concat block
  rcases hfollow with ⟨htip', hsize, hannounced⟩
  exact ⟨⟨htip', hsize⟩, hannounced⟩

/-!
## The event loop
-/

theorem length_l0Db : l0DbBytes * 8 = l0DbRows * (subshardRowBytes * 8) := rfl

theorem rebuildPir_cache_only {σ : Type} {M : MerkleHashOrchard} {engine : PirEngine σ}
    {tree tree' : CommitmentTreeDb} {anchorHeight : Nat} {pir : PirState σ}
    (h : rebuildPir M engine tree scenario anchorHeight = .ok (tree', pir)) :
    tree' = { tree with ssRootCache := tree'.ssRootCache } := by
  unfold rebuildPir at h
  split at h
  · cases h
  · next built db broadcast hbuild =>
      split at h
      · cases h
      · cases h
        exact CommitmentTreeDb.build_cache_only hbuild

theorem rebuildPir_of_canonical {σ : Type} {M : MerkleHashOrchard} {engine : PirEngine σ}
    {leafOffset : Nat} {roots : List Hash} {tree : CommitmentTreeDb}
    (hengine : engine.Accepts scenario)
    (hinv : CommitmentTreeDb.TreeInvariant M leafOffset roots tree)
    (hcanonical : tree.CanonicalLeaves M) (anchorHeight : Nat) :
    exists cache pir,
      rebuildPir M engine tree scenario anchorHeight =
        .ok ({ tree with ssRootCache := cache }, pir) ∧
      CommitmentTreeDb.TreeInvariant M leafOffset roots
        { tree with ssRootCache := cache } := by
  rcases CommitmentTreeDb.build_of_canonical hinv.cache hcanonical anchorHeight with
    ⟨tree', db, broadcast, hbuild⟩
  rcases CommitmentTreeDb.build_tree_eq hinv.cache hbuild with
    ⟨cache, _, htree, _, _, hdb, _⟩
  rw [htree] at hbuild
  have hlength : db.length * 8 = scenario.numItems * scenario.itemSizeBits := by
    rw [hdb, CommitmentTreeDb.length_resize]
    exact length_l0Db
  rcases hengine db hlength with ⟨engineState, hsetup⟩
  have hrebuild : exists pir, rebuildPir M engine tree scenario anchorHeight =
      .ok ({ tree with ssRootCache := cache }, pir) := by
    rw [rebuildPir, hbuild]
    dsimp only
    rw [hsetup]
    exact ⟨_, rfl⟩
  rcases hrebuild with ⟨pir, hpir⟩
  exact ⟨cache, pir, hpir, CommitmentTreeDb.treeInvariant_build hinv hbuild⟩

theorem rebuildPir_of_tracks {σ : Type} {M : MerkleHashOrchard} {engine : PirEngine σ}
    {leafOffset : Nat} {roots : List Hash} {tree : CommitmentTreeDb} {base : Nat}
    {chain : ChainView} (hengine : engine.Accepts scenario)
    (hinv : CommitmentTreeDb.TreeInvariant M leafOffset roots tree)
    (h : Tracks tree base chain) (hhonest : HonestCommitments M chain)
    (anchorHeight : Nat) :
    exists tree' pir, rebuildPir M engine tree scenario anchorHeight = .ok (tree', pir) ∧
      CommitmentTreeDb.TreeInvariant M leafOffset roots tree' ∧
      Tracks tree' base chain := by
  rcases rebuildPir_of_canonical hengine hinv (h.canonicalLeaves hhonest) anchorHeight with
    ⟨cache, pir, hpir, hinv'⟩
  exact ⟨_, pir, hpir, hinv', h.congr rfl rfl rfl⟩

theorem treeInvariant_appendBlock {M : MerkleHashOrchard} {leafOffset : Nat}
    {roots : List Hash} {tree : CommitmentTreeDb}
    (haligned : leafOffset % shardLeaves = 0)
    (hinv : CommitmentTreeDb.TreeInvariant M leafOffset roots tree)
    (block : CompactBlock) :
    CommitmentTreeDb.TreeInvariant M leafOffset roots
      (tree.appendCommitments block.height.toNat (toHashArray block.hash)
        (extractCommitments block)) := by
  have hstep : CommitmentTreeDb.TreeStep M .wrapping (fun _ _ => 0) tree _ _ :=
    .appendCommitments tree block.height (toHashArray block.hash)
      (extractCommitments block)
  exact CommitmentTreeDb.treeInvariant_step haligned hinv hstep

theorem treeInvariant_appendBlocks {M : MerkleHashOrchard} {leafOffset : Nat}
    {roots : List Hash} {tree : CommitmentTreeDb}
    (haligned : leafOffset % shardLeaves = 0)
    (hinv : CommitmentTreeDb.TreeInvariant M leafOffset roots tree)
    (blocks : List CompactBlock) :
    CommitmentTreeDb.TreeInvariant M leafOffset roots (appendBlocks tree blocks) := by
  induction blocks generalizing tree with
  | nil => exact hinv
  | cons block rest ih => exact ih (treeInvariant_appendBlock haligned hinv block)

theorem announced_handleEvent {σ : Type} {U : BlockUniverse} {M : MerkleHashOrchard}
    {engine : PirEngine σ} {leafOffset : Nat} {roots : List Hash}
    {tree : CommitmentTreeDb} {event : WitnessChainEvent}
    {queue : List WitnessChainEvent} {base next : Nat} {chain : ChainView}
    (hengine : engine.Accepts scenario) (haligned : leafOffset % shardLeaves = 0)
    (hhonest : HonestChain U M chain)
    (hinv : CommitmentTreeDb.TreeInvariant M leafOffset roots tree)
    (h : Announced tree (event :: queue) base chain next) :
    exists tree' pir, handleEvent M engine tree event = .ok (tree', pir) ∧
      CommitmentTreeDb.TreeInvariant M leafOffset roots tree' ∧
      Announced tree' queue base chain (next + 1) := by
  have hqueue := h.queue
  have hlt : next < chain.length := by
    by_contra hge
    rw [List.drop_of_length_le (Nat.le_of_not_lt hge)] at hqueue
    cases hqueue
  have htake : chain.take (next + 1) = chain.take next ++ [chain[next]] := by
    rw [List.take_add_one, List.getElem?_eq_getElem hlt]
    rfl
  rw [List.drop_eq_getElem_cons hlt, announce] at hqueue
  cases hqueue
  have hfront : HonestCommitments M (chain.take next ++ [chain[next]]) := by
    rw [← htake]
    exact hhonest.commitments.of_prefix (List.take_prefix _ _)
  have happend := appendValidated_of_holds h.tracks.holds hfront "follow mode"
  rcases rebuildPir_of_tracks hengine (treeInvariant_appendBlock haligned hinv chain[next])
      (h.tracks.appendCommitments chain[next]) hfront _ with
    ⟨tree', pir, hrebuild, hinv', htracks'⟩
  refine ⟨tree', pir, ?_, hinv', ?_, hlt, ?_⟩
  · change (appendValidated "follow mode" tree _ _ _ _ >>= _) = _
    rw [happend, ok_bind]
    exact hrebuild
  · rw [htake]
    exact htracks'
  · rw [htake, commitmentsOf_append, List.length_append, commitmentsOf_singleton]

/-!
## Runs
-/

section Following

variable {σ : Type} (M : MerkleHashOrchard) (engine : PirEngine σ)

/-- The follow task and the event loop of a serving server. -/
def witnessFollowing : FollowingServer (WitnessServer σ) :=
  { followState := WitnessServer.followState
    poll := WitnessServer.poll
    work := WitnessServer.work M engine }

end Following

/-- A served chain with new blocks still has the tracker's tip. -/
def KeepsTip {σ : Type} (_ : WitnessServer σ) (st : FollowState) (view : ChainView) :
    Prop :=
  st.currentHeight < view.tipHeight -> st.Continues view

/-- The server starts to follow with a tree that is equal to the served chain through
the tree's newest block. -/
structure AgreesWithServed {σ : Type} (U : BlockUniverse) (M : MerkleHashOrchard)
    (base : Nat) (w : Watched (WitnessServer σ)) : Prop where
  stage : w.server.stage = .follow (WitnessServer.followStart w.server.tree) []
  honest : HonestChain U M w.served
  ingested : w.ingested.IsPrefix w.served
  tracks : Tracks w.server.tree base w.ingested

/-- The server serves, and once its queue is drained its tree is that of the chain. -/
def TracksServed {σ : Type} (base : Nat) (s : WitnessServer σ) (chain : ChainView) :
    Prop :=
  exists task queue, s.stage = .follow task queue ∧
    (queue = [] -> Tracks s.tree base chain)

section Runs

variable {σ : Type} {U : BlockUniverse} {M : MerkleHashOrchard} {leafOffset : Nat}
variable {roots : List Hash} {base : Nat} {engine : PirEngine σ}

theorem atReportedTip_start {tree : CommitmentTreeDb} {chain : ChainView}
    (hhonest : HonestChain U M chain) (h : Tracks tree base chain) :
    AtReportedTip (WitnessServer.followStart tree) chain := by
  have hpos : 0 < chain.length := Nat.lt_of_le_of_lt (Nat.zero_le _) h.base_lt
  have hlast : chain.getLast? = some chain[chain.length - 1] := by
    rw [List.getLast?_eq_getElem?, List.getElem?_eq_getElem]
  have hblock : chain[chain.length - 1]? = some chain[chain.length - 1] :=
    List.getElem?_eq_getElem _
  have hheight := hhonest.blocks.height_eq hblock
  constructor
  · rw [WitnessServer.followStart, h.latestHeight_eq hlast, h.latestBlockHash_eq hlast]
    refine ⟨?_, ⟨chain[chain.length - 1], ?_, rfl⟩, Nat.succ_pos _⟩
    · change chain.length = chain[chain.length - 1].height.toNat + 1
      lia
    · change chain[chain[chain.length - 1].height.toNat]? = _
      rw [hheight]
      exact hblock
  · change knownTreeSize tree = _
    rw [knownTreeSize, h.treeSize_eq, reportedSize]

theorem followInvariant_start {w : Watched (WitnessServer σ)}
    (hinv : CommitmentTreeDb.TreeInvariant M leafOffset roots w.server.tree)
    (h : AgreesWithServed U M base w) :
    FollowInvariant U M leafOffset roots base w.server w.ingested
      (WitnessServer.followStart w.server.tree) [] := by
  have hnonempty : w.ingested ≠ [] := by
    apply List.ne_nil_of_length_pos
    exact Nat.lt_of_le_of_lt (Nat.zero_le _) h.tracks.base_lt
  have hhonest := h.honest.of_prefix hnonempty h.ingested
  refine ⟨h.stage, hhonest, hinv, atReportedTip_start hhonest h.tracks,
    w.ingested.length, ?_, Nat.le_refl _, ?_⟩
  · rw [List.take_length]
    exact h.tracks
  · rw [List.drop_length]
    rfl

theorem followInvariant_poll {s : WitnessServer σ} {chain view : ChainView}
    {st : FollowState} {queue : List WitnessChainEvent}
    (h : FollowInvariant U M leafOffset roots base s chain st queue)
    (hview : HonestChain U M view) (hcontinues : st.Continues view) :
    FollowInvariant U M leafOffset roots base
      { s with
        stage := Stage.follow (followPoll st view).1 (queue ++ (followPoll st view).2) }
      view (followPoll st view).1 (queue ++ (followPoll st view).2) := by
  rcases h.announced with ⟨next, hannounced⟩
  have htake := h.task.tip.take_eq h.honest.blocks hview.blocks hcontinues
  have hsplit : chain ++ view.drop (st.currentHeight + 1) = view := by
    rw [← htake, List.take_append_drop]
  have hfollow := announced_followBlocks h.task (hsplit.symm ▸ hview) hannounced
  rw [hsplit, ← FollowState.newBlocks_eq hview.blocks] at hfollow
  exact ⟨rfl, hview, h.tree, hfollow.1, next, hfollow.2⟩

theorem handle_of_handleEvent {s : WitnessServer σ} {tree' : CommitmentTreeDb}
    {event : WitnessChainEvent} {pir : PirState σ}
    (h : handleEvent M engine s.tree event = .ok (tree', pir)) (task : FollowState)
    (rest : List WitnessChainEvent) :
    s.handle M engine task event rest =
      { tree := tree', livePir := some pir, stage := .follow task rest } := by
  rw [WitnessServer.handle, h]

theorem followInvariant_handle {s : WitnessServer σ} {chain : ChainView}
    {task : FollowState} {event : WitnessChainEvent} {rest : List WitnessChainEvent}
    (hengine : engine.Accepts scenario) (haligned : leafOffset % shardLeaves = 0)
    (h : FollowInvariant U M leafOffset roots base s chain task (event :: rest)) :
    FollowInvariant U M leafOffset roots base (s.handle M engine task event rest) chain
      task rest := by
  rcases h.announced with ⟨next, hannounced⟩
  rcases announced_handleEvent hengine haligned h.honest h.tree hannounced with
    ⟨tree', pir, hhandle, hinv, hannounced'⟩
  rw [handle_of_handleEvent hhandle]
  exact ⟨rfl, h.honest, hinv, h.task, next + 1, hannounced'⟩

/-- In every run whose polls with new blocks keep the tip, the server serves, and a
drained queue leaves the tree of the chain ingested last. -/
theorem tracksServed_run {w w' : Watched (WitnessServer σ)} {events : List WatchedEvent}
    (hengine : engine.Accepts scenario) (haligned : leafOffset % shardLeaves = 0)
    (hinv : CommitmentTreeDb.TreeInvariant M leafOffset roots w.server.tree)
    (hstart : AgreesWithServed U M base w)
    (hrun : Run (StepUnder (witnessFollowing M engine) (HonestChain U M) KeepsTip)
      w events w') : TracksServed base w'.server w'.ingested := by
  have hrunInv : exists task queue,
      FollowInvariant U M leafOffset roots base w'.server w'.ingested task queue := by
    apply watched_invariant (P := fun s _ chain => exists task queue,
      FollowInvariant U M leafOffset roots base s chain task queue) _ _ _ hrun
      ⟨_, _, followInvariant_start hinv hstart⟩
    · intro s _ chain st view s' h hfollow _ hidle _ hpoll
      rcases h with ⟨task, queue, h⟩
      have hsame : (followPoll task view) = (task, []) := by
        change WitnessServer.followState s = some st at hfollow
        rw [WitnessServer.followState, h.stage] at hfollow
        cases hfollow
        rw [followPoll, FollowState.followPoll, FollowState.newBlocks, if_pos hidle]
        rfl
      change WitnessServer.poll s view = some s' at hpoll
      rw [WitnessServer.poll, h.stage] at hpoll
      cases hpoll
      rw [hsame, List.append_nil, ← h.stage]
      exact ⟨task, queue, h⟩
    · intro s _ chain st view s' h hfollow hview hnew hcond hpoll
      rcases h with ⟨task, queue, h⟩
      change WitnessServer.followState s = some st at hfollow
      rw [WitnessServer.followState, h.stage] at hfollow
      cases hfollow
      change WitnessServer.poll s view = some s' at hpoll
      rw [WitnessServer.poll, h.stage] at hpoll
      cases hpoll
      exact ⟨_, _, followInvariant_poll h hview (hcond hnew)⟩
    · intro s _ chain s' h hwork
      rcases h with ⟨task, queue, h⟩
      change WitnessServer.work M engine s = some s' at hwork
      rw [WitnessServer.work, h.stage] at hwork
      cases queue with
      | nil => cases hwork
      | cons event rest =>
          cases hwork
          exact ⟨task, rest, followInvariant_handle hengine haligned h⟩
  rcases hrunInv with ⟨task, queue, h⟩
  rcases h.announced with ⟨next, hannounced⟩
  refine ⟨task, queue, h.stage, ?_⟩
  intro hdrained
  have hqueue := hannounced.queue
  rw [hdrained] at hqueue
  have hnext : next = w'.ingested.length := by
    cases hdrop : w'.ingested.drop next with
    | nil => exact Nat.le_antisymm hannounced.le (List.drop_eq_nil_iff.mp hdrop)
    | cons block rest =>
        rw [hdrop] at hqueue
        cases hqueue
  have htracks := hannounced.tracks
  rw [hnext, List.take_length] at htracks
  exact htracks

end Runs
end Witness
end SpendabilityPir
