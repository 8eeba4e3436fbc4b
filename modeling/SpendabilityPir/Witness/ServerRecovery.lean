import SpendabilityPir.Witness.PirStub
import SpendabilityPir.Witness.ServingRun

/-!
# Coming to serve

A witness server that is restarted over its snapshot appends what the chain has gained and
serves it.  One that follows and polls a longer chain comes to serve its newest block.
-/

namespace SpendabilityPir
namespace Witness

open Foundation Shared

section Recovery

variable {σ : Type} {config : ServerConfig} {M : MerkleHashOrchard} {engine : PirEngine σ}
variable {w : Window} {chain : ChainView} {U : BlockUniverse} {n stop height : Nat}
variable {s : ServingRun σ} {queue : List WitnessChainEvent}

/-!
## A start
-/

theorem run_receive (config : ServerConfig) (engine : PirEngine σ) (hw : w.Sound M chain)
    (hchain : HonestChain U M chain) (hstage : s.run.stage = .syncing queue)
    (hlive : s.livePir = none)
    (h : Awaits M w chain n stop s.run.tree queue) :
    exists t, Run (WindowStep config M engine w chain) s
        (List.replicate queue.length .receive) t ∧
      t.run.stage = .syncing [] ∧ t.livePir = none ∧ OnWindow M w chain stop t.run.tree := by
  induction queue generalizing s n with
  | nil =>
      have hstop := h.stop_eq
      rw [← hstop]
      exact ⟨s, Run.nil s, hstage, hlive, h.tree⟩
  | cons event rest ih =>
      rcases h.append hw hchain "initial sync" with
        ⟨height, hash, prevHash, commitments, priorTreeSize, tree, heq, happend, hawaits⟩
      have hreceived : (s.run.receive event rest).tree = tree ∧
          (s.run.receive event rest).stage = .syncing rest := by
        rw [heq, ServerRun.receive, happend]
        exact ⟨rfl, rfl⟩
      let received : ServingRun σ := { run := s.run.receive event rest, livePir := none }
      have hstep : WindowStep config M engine w chain s .receive received :=
        ⟨⟨.receive hstage, hlive.symm⟩, trivial⟩
      have hnext : Awaits M w chain (n + 1) stop received.run.tree rest := by
        rw [hreceived.left]
        exact hawaits
      rcases ih (s := received) hreceived.right rfl hnext with ⟨t, hrun, hsynced⟩
      exact ⟨t, hrun.cons hstep, hsynced⟩

theorem step_serve (config : ServerConfig) (hengine : engine.Accepts scenario)
    (hchain : HonestChain U M chain) (hstage : s.run.stage = .syncing []) (hbase : w.base < n)
    (h : OnWindow M w chain n s.run.tree) :
    exists t, WindowStep config M engine w chain s .serve t ∧ ServesFrom (n - 1) t ∧
      OnWindow M w chain n t.run.tree := by
  rcases rebuildPir_of_onWindow hengine hchain h hbase with
    ⟨tree, pir, hrebuild, hbuilt, hshows⟩
  have hrecord : s.run.tree.blocks ≠ [] := by
    intro hnil
    rw [h.blocks_eq_nil_iff] at hnil
    exact absurd hnil (Nat.ne_of_gt hbase)
  have hpublished : s.livePirAfter M engine .serve = some pir := by
    change (ServingRun.published M engine s.run .serve).or s.livePir = some pir
    rw [ServingRun.published, hrebuild]
    rfl
  let served : ServingRun σ := { run := s.run.serve M engine, livePir := some pir }
  have hserved : served.run.stage = .following (WitnessServer.followStart tree) [] ∧
      served.run.tree = tree := by
    change (s.run.serve M engine).stage = _ ∧ (s.run.serve M engine).tree = _
    rw [ServerRun.serve_of_ok hrebuild]
    exact ⟨rfl, rfl⟩
  refine ⟨served, ⟨⟨.serve hstage, hpublished.symm⟩, hrecord⟩, ?_, hserved.right ▸ hbuilt⟩
  exact ⟨_, _, pir, hserved.left, rfl, Nat.le_of_eq hshows.anchorHeight.symm⟩

theorem awaits_sync_complete (hchain : HonestChain U M chain) {tree : CommitmentTreeDb}
    (h : OnWindow M w chain n tree) {connection : Connection}
    (hview : connection.view.IsPrefix chain) (hnonempty : connection.view ≠ [])
    (hconnection : forall first last, connection.fails first last = false)
    (hle : n ≤ connection.view.length) :
    Awaits M w chain n connection.view.length tree (sync connection n
      connection.view.tipHeight (reportedSize (commitmentsOf (chain.take n)).length)) := by
  have hhonest := (hchain.of_prefix hnonempty hview).blocks
  have htip := hhonest.tipHeight_succ
  have hawaits := h.awaits hchain hle hview.length_le
  rw [← List.prefix_iff_eq_take.mp hview] at hawaits
  rw [sync, fetchBatches_complete hhonest.heights
    (fun request _ => hconnection request.1 request.2) (by lia), htip, List.take_length]
  exact hawaits

theorem OnWindow.knownTreeSize_eq {tree : CommitmentTreeDb} (h : OnWindow M w chain n tree) :
    knownTreeSize tree = reportedSize (commitmentsOf (chain.take n)).length := by
  rw [knownTreeSize, h.treeSize_eq, reportedSize]

theorem OnWindow.startingTree_eq {tree : CommitmentTreeDb} (h : OnWindow M w chain n tree)
    (hchain : HonestChain U M chain) (hbase : w.base < n) (client : LwdClient)
    (tipHeight windowShardLimit : Nat) :
    startingTree client tipHeight windowShardLimit (some tree) =
      .ok (tree, n, reportedSize (commitmentsOf (chain.take n)).length) := by
  rw [startingTree, h.latestHeight_eq hchain.blocks hbase, h.knownTreeSize_eq]
  change Except.ok (tree, n - 1 + 1, _) = _
  rw [Nat.sub_add_cancel (Nat.zero_lt_of_lt hbase)]

theorem Awaits.appendEvents {tree : CommitmentTreeDb} {queue : List WitnessChainEvent}
    (h : Awaits M w chain n stop tree queue) (hw : w.Sound M chain)
    (hchain : HonestChain U M chain) :
    exists tree', Witness.appendEvents tree queue = .ok tree' ∧
      OnWindow M w chain stop tree' := by
  induction queue generalizing tree n with
  | nil =>
      have hstop := h.stop_eq
      rw [← hstop]
      exact ⟨tree, rfl, h.tree⟩
  | cons event rest ih =>
      rcases h.append hw hchain "initial sync" with
        ⟨height, hash, prevHash, commitments, priorTreeSize, next, heq, happend, hawaits⟩
      rcases ih hawaits with ⟨tree', hrest, hon⟩
      refine ⟨tree', ?_, hon⟩
      rw [heq, Witness.appendEvents, happend]
      exact hrest

/-- Syncing a range right behind the tree leaves it on the window. -/
theorem OnWindow.syncRange {tree tree' : CommitmentTreeDb} {connection : Option Connection}
    {toHeight : Nat} (h : OnWindow M w chain n tree) (hw : w.Sound M chain)
    (hchain : HonestChain U M chain)
    (hview : forall served, connection = some served -> served.view.IsPrefix chain)
    (hsync : Witness.syncRange connection n toHeight tree
      (reportedSize (commitmentsOf (chain.take n)).length) = .ok tree') :
    exists n', OnWindow M w chain n' tree' := by
  unfold Witness.syncRange at hsync
  split at hsync
  · cases hsync
    exact ⟨n, h⟩
  · cases connection with
    | none => cases hsync
    | some served =>
        rcases awaits_sync hchain h (hview served rfl) toHeight with ⟨stop, hawaits⟩
        rcases hawaits.appendEvents hw hchain with ⟨synced, happend, hon⟩
        change Witness.appendEvents tree (sync served n toHeight _) = _ at hsync
        rw [happend] at hsync
        cases hsync
        exact ⟨stop, hon⟩

def syncedTree (client : LwdClient) (connection : Option Connection) (windowShardLimit : Nat)
    (snapshot : Option CommitmentTreeDb) : Outcome ServerError CommitmentTreeDb := do
  let tipHeight := client.blocks.view.tipHeight
  let (tree, forwardStart, initialTreeSize) <-
    startingTree client tipHeight windowShardLimit snapshot
  syncToTip connection tipHeight tree forwardStart initialTreeSize

theorem runSyncOnly_eq (M : MerkleHashOrchard) (engine : PirEngine σ) (client : LwdClient)
    (connection : Option Connection) (windowShardLimit : Nat)
    (snapshot : Option CommitmentTreeDb) :
    runSyncOnly M engine client connection windowShardLimit snapshot =
      syncedTree client connection windowShardLimit snapshot >>= fun synced =>
        rebuildPir M engine synced scenario (synced.latestHeight.getD 0) := by
  rw [syncedTree, bind_assoc]
  rfl

theorem syncedTree_of_upToDate {client : LwdClient} (connection : Option Connection)
    (windowShardLimit : Nat) {tree : CommitmentTreeDb} {height : Nat}
    (hlatest : tree.latestHeight = some height)
    (htip : client.blocks.view.tipHeight ≤ height) :
    syncedTree client connection windowShardLimit (some tree) = .ok tree := by
  change syncToTip connection client.blocks.view.tipHeight tree
    ((tree.latestHeight.map Nat.succ).getD 0) (knownTreeSize tree) = _
  rw [hlatest]
  exact if_neg (Nat.not_le_of_lt (Nat.lt_succ_of_le htip))

theorem onWindow_syncedTree {client : LwdClient} {connection : Option Connection}
    {windowShardLimit : Nat} {snapshot : Option CommitmentTreeDb} {tree : CommitmentTreeDb}
    (hw : w.Sound M chain) (hchain : HonestChain U M chain)
    (hview : forall served, connection = some served -> served.view.IsPrefix chain)
    (hsnapshot : forall saved, snapshot = some saved ->
      exists n, w.base < n ∧ OnWindow M w chain n saved)
    (hfresh : snapshot = none -> ReportsWindow M w chain client windowShardLimit)
    (h : syncedTree client connection windowShardLimit snapshot = .ok tree) :
    exists n, OnWindow M w chain n tree := by
  rcases bind_eq_ok.mp h with ⟨⟨started, start, initialTreeSize⟩, hstart, hsync⟩
  rcases startingTree_onWindow hchain hsnapshot hfresh hstart with ⟨hon, hsize⟩
  change syncToTip connection _ started start initialTreeSize = _ at hsync
  unfold syncToTip at hsync
  split at hsync
  · rw [hsize] at hsync
    exact hon.syncRange hw hchain hview hsync
  · cases hsync
    exact ⟨start, hon⟩

theorem onWindow_runSyncOnly {client : LwdClient} {connection : Option Connection}
    {windowShardLimit : Nat} {snapshot : Option CommitmentTreeDb} {tree : CommitmentTreeDb}
    {pir : PirState σ} (hw : w.Sound M chain) (hchain : HonestChain U M chain)
    (hview : forall served, connection = some served -> served.view.IsPrefix chain)
    (hsnapshot : forall saved, snapshot = some saved ->
      exists n, w.base < n ∧ OnWindow M w chain n saved)
    (hfresh : snapshot = none -> ReportsWindow M w chain client windowShardLimit)
    (h : runSyncOnly M engine client connection windowShardLimit snapshot = .ok (tree, pir)) :
    exists n, OnWindow M w chain n tree := by
  rw [runSyncOnly_eq] at h
  rcases bind_eq_ok.mp h with ⟨synced, hsync, hrebuild⟩
  rcases onWindow_syncedTree hw hchain hview hsnapshot hfresh hsync with ⟨n, hon⟩
  refine ⟨n, ?_⟩
  unfold rebuildPir at hrebuild
  split at hrebuild
  · cases hrebuild
  · next built db broadcast hbuild =>
      split at hrebuild
      · cases hrebuild
      · cases hrebuild
        exact hon.build hbuild

theorem start_awaits (config : ServerConfig) {run : ServerRun} {client : LwdClient}
    {connection : Connection} {loads : Bool} {tree : CommitmentTreeDb}
    {initialTreeSize : Option UInt32} (hchain : HonestChain U M chain)
    (hstart : startingTree client client.blocks.view.tipHeight config.windowShardLimit
      (run.loaded loads) = .ok (tree, n, initialTreeSize))
    (hon : OnWindow M w chain n tree)
    (hsize : initialTreeSize = reportedSize (commitmentsOf (chain.take n)).length)
    (hview : connection.view.IsPrefix chain) (hsame : client.blocks.view = connection.view)
    (hnonempty : connection.view ≠ [])
    (hconnection : forall first last, connection.fails first last = false) :
    exists queue, (run.start config client (some connection) loads).stage = .syncing queue ∧
      Awaits M w chain n (max n connection.view.length)
        (run.start config client (some connection) loads).tree queue := by
  have htip := (hchain.of_prefix hnonempty hview).blocks.tipHeight_succ
  rw [ServerRun.start, hstart]
  dsimp only
  split
  · next hle =>
      rw [hsame] at hle ⊢
      have hmax : max n connection.view.length = connection.view.length := by lia
      rw [hmax, hsize]
      exact ⟨_, rfl, awaits_sync_complete hchain hon hview hnonempty hconnection (by lia)⟩
  · next hgt =>
      rw [hsame] at hgt
      have hmax : max n connection.view.length = n := by lia
      rw [hmax]
      exact ⟨[], rfl, hon.awaits_nil⟩

theorem run_start (hengine : engine.Accepts scenario) (hw : w.Sound M chain)
    (hchain : HonestChain U M chain) (hdown : s.run.stage = .down) {client : LwdClient}
    {connection : Connection} {loads : Bool} {tree : CommitmentTreeDb}
    {initialTreeSize : Option UInt32}
    (hover : OverWindow config M w chain s.run (.start client (some connection) loads))
    (hstart : startingTree client client.blocks.view.tipHeight config.windowShardLimit
      (s.run.loaded loads) = .ok (tree, n, initialTreeSize))
    (hon : OnWindow M w chain n tree)
    (hsize : initialTreeSize = reportedSize (commitmentsOf (chain.take n)).length)
    (hsame : client.blocks.view = connection.view) (hnonempty : connection.view ≠ [])
    (hconnection : forall first last, connection.fails first last = false)
    (hbase : w.base < max n connection.view.length) :
    exists count t, Run (WindowStep config M engine w chain) s
        (.start client (some connection) loads :: (List.replicate count .receive ++ [.serve]))
        t ∧
      ServesFrom (max n connection.view.length - 1) t := by
  let started : ServingRun σ :=
    { run := s.run.start config client (some connection) loads, livePir := none }
  have hstep : WindowStep config M engine w chain s (.start client (some connection) loads)
      started := ⟨⟨.start hdown, rfl⟩, hover⟩
  rcases start_awaits config hchain hstart hon hsize (hover.left connection rfl)
    hsame hnonempty hconnection with ⟨queue, hstage, hawaits⟩
  rcases run_receive (s := started) config engine hw hchain hstage rfl hawaits with
    ⟨synced, hrun, hready, _, hsynced⟩
  rcases step_serve config hengine hchain hready hbase hsynced with
    ⟨t, hserve, hserves, _⟩
  exact ⟨queue.length, t, (hrun.snoc hserve).cons hstep, hserves⟩

/-!
## A restart
-/

theorem run_restart (hengine : engine.Accepts scenario) (hw : w.Sound M chain)
    (hchain : HonestChain U M chain) (hinvariant : WindowInvariant M engine w chain s)
    {saved : CommitmentTreeDb} (hsaved : s.run.saved = some saved) {client : LwdClient}
    {connection : Connection} (hview : connection.view.IsPrefix chain)
    (hnonempty : connection.view ≠ []) (hsame : client.blocks.view = connection.view)
    (hconnection : forall first last, connection.fails first last = false) :
    exists count t, Run (WindowStep config M engine w chain) s
        (.restart :: .start client (some connection) true ::
          (List.replicate count .receive ++ [.serve])) t ∧
      ServesFrom (max (saved.latestHeight.getD 0) connection.view.tipHeight) t := by
  rcases hinvariant.saved saved hsaved with ⟨n, hbase, hon⟩
  have hlatest := hon.latestHeight_eq hchain.blocks hbase
  have htip := (hchain.of_prefix hnonempty hview).blocks.tipHeight_succ
  let down : ServingRun σ := { run := { s.run with stage := .down }, livePir := none }
  have hrestart : WindowStep config M engine w chain s .restart down :=
    ⟨⟨.restart, rfl⟩, trivial⟩
  have hloaded : down.run.loaded true = some saved := hsaved
  have hfrom : startingTree client client.blocks.view.tipHeight config.windowShardLimit
      (down.run.loaded true) =
        .ok (saved, n, reportedSize (commitmentsOf (chain.take n)).length) := by
    rw [hloaded]
    exact hon.startingTree_eq hchain hbase _ _ _
  have hover : OverWindow config M w chain down.run (.start client (some connection) true) := by
    refine ⟨?_, ?_⟩
    · intro served hserved
      cases hserved
      exact hview
    · intro hnone
      rw [hloaded] at hnone
      cases hnone
  rcases run_start hengine hw hchain rfl hover hfrom hon rfl hsame hnonempty hconnection
      (Nat.lt_of_lt_of_le hbase (Nat.le_max_left _ _)) with ⟨count, t, hrun, hserves⟩
  refine ⟨count, t, hrun.cons hrestart, ?_⟩
  rw [hlatest]
  change ServesFrom (max (n - 1) connection.view.tipHeight) t
  have hheight : max (n - 1) connection.view.tipHeight =
      max n connection.view.length - 1 := by lia
  rw [hheight]
  exact hserves

/-- After whatever run over the chain, restarts included, a restart with a working
connection comes to serve the newest block of the snapshot or of lightwalletd, whichever is
newer. -/
theorem restart_serves {start : ServingRun σ} (hengine : engine.Accepts scenario)
    (hw : w.Sound M chain) (hchain : HonestChain U M chain) (hstart : StartsOn M w chain start)
    (hreached : Later (WindowStep config M engine w chain) start s)
    {saved : CommitmentTreeDb} (hsaved : s.run.saved = some saved) {client : LwdClient}
    {connection : Connection} (hview : connection.view.IsPrefix chain)
    (hnonempty : connection.view ≠ []) (hsame : client.blocks.view = connection.view)
    (hconnection : forall first last, connection.fails first last = false) :
    exists count t, Run (WindowStep config M engine w chain) s
        (.restart :: .start client (some connection) true ::
          (List.replicate count .receive ++ [.serve])) t ∧
      ServesFrom (max (saved.latestHeight.getD 0) connection.view.tipHeight) t :=
  run_restart hengine hw hchain ((hstart.invariant engine).later hengine hw hchain hreached)
    hsaved hview hnonempty hsame hconnection

/-!
## A poll
-/

theorem run_work {task : FollowState} {pir : PirState σ} (hengine : engine.Accepts scenario)
    (hw : w.Sound M chain) (hchain : HonestChain U M chain)
    (hstage : s.run.stage = .following task queue) (hlive : s.livePir = some pir)
    (hshows : pir.Shows M engine w chain n) (h : Awaits M w chain n stop s.run.tree queue) :
    exists t, Run (SteadyStep config M engine w chain) s (List.replicate queue.length .work) t ∧
      ServesFrom (stop - 1) t := by
  induction queue generalizing s n pir with
  | nil =>
      have hanchor := hshows.anchorHeight
      rw [h.stop_eq] at hanchor
      exact ⟨s, Run.nil s, task, [], pir, hstage, hlive, Nat.le_of_eq hanchor.symm⟩
  | cons event rest ih =>
      rcases h.handle hengine hw hchain hshows.base_lt with
        ⟨tree, newer, hhandle, hnewer, hawaits⟩
      have hworked : (s.run.work config M engine task event rest).tree = tree ∧
          (s.run.work config M engine task event rest).stage = .following task rest :=
        ServerRun.work_of_ok hhandle
      let worked : ServingRun σ :=
        { run := s.run.work config M engine task event rest, livePir := some newer }
      have hpublished : s.livePirAfter M engine .work = some newer :=
        ServingRun.livePirAfter_work hstage hhandle
      have hstep : SteadyStep config M engine w chain s .work worked := by
        refine ⟨⟨⟨.work hstage, hpublished.symm⟩, trivial⟩, ?_⟩
        intro hfalse
        cases hfalse
      have hnext : Awaits M w chain (n + 1) stop worked.run.tree rest := by
        rw [hworked.left]
        exact hawaits
      rcases ih (s := worked) hworked.right rfl hnewer hnext with ⟨t, hrun, hserves⟩
      exact ⟨t, hrun.cons hstep, hserves⟩

/-- A serving process that polls comes to serve what lightwalletd has, and goes on serving
what it served. -/
theorem poll_serves {start : ServingRun σ} (hengine : engine.Accepts scenario)
    (hw : w.Sound M chain) (hchain : HonestChain U M chain) (hstart : StartsOn M w chain start)
    (hreached : Later (WindowStep config M engine w chain) start s)
    (hserves : ServesFrom height s) {view : ChainView} (hview : view.IsPrefix chain) :
    exists count t, Run (SteadyStep config M engine w chain) s
        (.poll view :: List.replicate count .work) t ∧
      ServesFrom (max height (view.length - 1)) t := by
  have hinvariant := (hstart.invariant engine).later hengine hw hchain hreached
  rcases hserves with ⟨task, queue, pir, hstage, hpir, hle⟩
  have hon := hinvariant.stage
  rw [hstage] at hon
  cases hon with
  | @following _ _ n stop found hsome hshows hawaits htask =>
      rw [hpir] at hsome
      cases hsome
      rcases hawaits.poll hchain hview hshows.base_lt htask with
        ⟨polled, hlength, hpolled, _⟩
      let next : ServingRun σ :=
        { run := { s.run with
            stage := .following (followPoll task view).1 (queue ++ (followPoll task view).2) }
          livePir := s.livePir }
      have hstep : SteadyStep config M engine w chain s (.poll view) next := by
        refine ⟨⟨⟨.poll hstage, rfl⟩, hview⟩, ?_⟩
        intro hfalse
        cases hfalse
      rcases run_work (s := next) hengine hw hchain rfl hpir hshows hpolled with
        ⟨t, hrun, hcaught⟩
      refine ⟨_, t, hrun.cons hstep, hcaught.mono ?_⟩
      have hanchor := hshows.anchorHeight
      have hgrown := hpolled.le
      lia

end Recovery

/-!
## A server restarted over a snapshot
-/

theorem honestChain_orphaned : HonestChain sampleUniverse sampleHash chainOrphaned where
  blocks := honest_chainOrphaned
  commitments :=
    { sizes := by
        intro i block hblock
        rcases i with _ | _ | _ | i
        · cases hblock
          exact ⟨_, rfl, rfl⟩
        · cases hblock
          exact ⟨_, rfl, rfl⟩
        · cases hblock
          exact ⟨_, rfl, rfl⟩
        · cases hblock
      canonical := by
        intro commitment hmem
        have hzeros : commitment = ByteVec.zeros 32 := List.mem_singleton.mp hmem
        rw [hzeros]
        exact canonical_zeros }

/-- The window of a start that syncs from the first block. -/
def orphanedWindow : Window := Window.ofReports chainOrphaned [] l0MaxShards 2

/-- The window of a start without subtree roots holds a chain of few commitments. -/
theorem sound_firstWindow {view : ChainView} (hfew : (commitmentsOf view).length ≤ 1)
    (hfirst : commitmentsOf (view.take (minSyncHeight 2)) = []) :
    (Window.ofReports view [] l0MaxShards 2).Sound sampleHash view := by
  have hshort : (commitmentsOf view).length < shardLeaves := Nat.lt_of_le_of_lt hfew (by decide)
  apply sound_ofReports (List.prefix_refl view)
  · refine ⟨(Nat.div_eq_of_lt hshort).symm, ?_, ?_⟩
    · intro i shard hfalse
      cases hfalse
    · intro i shard hfalse
      cases hfalse
  · exact hfirst
  · exact Nat.le_trans hfew (Nat.le_add_left 1 _)

theorem sound_orphanedWindow : orphanedWindow.Sound sampleHash chainOrphaned :=
  sound_firstWindow (by decide) rfl

def orphanedTree : CommitmentTreeDb := appendBlocks CommitmentTreeDb.new [sampleFirst]

theorem onWindow_orphanedTree :
    OnWindow sampleHash orphanedWindow chainOrphaned 2 orphanedTree := by
  have hempty : OnWindow sampleHash orphanedWindow chainOrphaned 1 CommitmentTreeDb.new :=
    ⟨CommitmentTreeDb.treeInvariant_withOffset sampleHash 0 [], rfl, rfl, Nat.zero_le _,
      Nat.le_refl 1, by decide⟩
  exact hempty.append sound_orphanedWindow rfl

def orphanedConfig : ServerConfig := { snapshotInterval := 1, windowShardLimit := l0MaxShards }

def orphanedStart : ServingRun StubServerState :=
  { run :=
      { tree := CommitmentTreeDb.new
        saved := some orphanedTree
        blocksSinceSnapshot := 0
        stage := .down }
    livePir := none }

theorem startsOn_orphanedStart :
    StartsOn sampleHash orphanedWindow chainOrphaned orphanedStart where
  stage := rfl
  saved := by
    intro tree htree
    cases htree
    exact ⟨2, Nat.lt_succ_self 1, onWindow_orphanedTree⟩

def orphanedConnection (view : ChainView) : Connection :=
  { view := view, fails := fun _ _ => false }

def orphanedClient (view : ChainView) : LwdClient :=
  { blocks := orphanedConnection view, subtreeRoots := some [] }

abbrev OrphanedStep :
    ServingRun StubServerState -> RunInput -> ServingRun StubServerState -> Prop :=
  WindowStep orphanedConfig sampleHash stubPirEngine.toPirEngine orphanedWindow chainOrphaned

abbrev OrphanedSteady :
    ServingRun StubServerState -> RunInput -> ServingRun StubServerState -> Prop :=
  SteadyStep orphanedConfig sampleHash stubPirEngine.toPirEngine orphanedWindow chainOrphaned

/-- The snapshot has block 1, and the server comes to serve block 2. -/
theorem restart_serves_orphaned :
    exists count t,
      Run OrphanedStep orphanedStart
        (.restart :: .start (orphanedClient chainOrphaned)
            (some (orphanedConnection chainOrphaned)) true ::
          (List.replicate count .receive ++ [.serve])) t ∧ ServesFrom 2 t :=
  restart_serves accepts_stubPirEngine sound_orphanedWindow honestChain_orphaned
    startsOn_orphanedStart (Later.refl _) rfl (List.prefix_refl _) (List.cons_ne_nil _ _) rfl
    (fun _ _ => rfl)

theorem later_serves {view : ChainView} (hview : view.IsPrefix chainOrphaned)
    (hnonempty : view ≠ []) :
    exists s, Later OrphanedStep orphanedStart s ∧ ServesFrom (max 1 view.tipHeight) s := by
  have hsame : (orphanedClient view).blocks.view = (orphanedConnection view).view := rfl
  rcases run_restart accepts_stubPirEngine sound_orphanedWindow honestChain_orphaned
      (startsOn_orphanedStart.invariant _) rfl hview hnonempty hsame (fun _ _ => rfl) with
    ⟨count, s, hrun, hserves⟩
  exact ⟨s, ⟨_, hrun⟩, hserves⟩

/-- When it polls block 2, the server comes to serve it. -/
theorem poll_serves_orphaned :
    exists s count t, ServesFrom 1 s ∧
      Run OrphanedSteady s (.poll chainOrphaned :: List.replicate count .work) t ∧
      ServesFrom 2 t := by
  have hbefore : chainBefore.IsPrefix chainOrphaned := ⟨[sampleOrphan], rfl⟩
  rcases later_serves hbefore (List.cons_ne_nil _ _) with ⟨s, hreached, hserves⟩
  rcases poll_serves accepts_stubPirEngine sound_orphanedWindow honestChain_orphaned
      startsOn_orphanedStart hreached hserves (List.prefix_refl chainOrphaned) with
    ⟨count, t, hrun, hserved⟩
  exact ⟨s, count, t, hserves, hrun, hserved⟩

end Witness
end SpendabilityPir
