import SpendabilityPir.Witness.WitnessLife

/-!
# Crashes of the witness server

Whatever ends the process, what the next one serves shows the chain, and a kill loses at
most an interval of blocks.  A start after a crash comes to serve again.
-/

namespace SpendabilityPir
namespace Witness

open Foundation Shared

section Crashes

variable {σ : Type} {config : ServerConfig} {M : MerkleHashOrchard} {mode : Arithmetic}
variable {xxh64 : List UInt8 -> Nat -> UInt64} {engine : PirEngine σ} {chain : ChainView}
variable {U : BlockUniverse} {s : WitnessLife σ} {inputs : List LifeInput}

/-- However often the server is restarted, killed or cut off from power, what a process
publishes shows the chain on a window of it, and what the data directory holds is no
snapshot or that of such a tree. -/
theorem crashes_show_chain (hengine : engine.Accepts scenario) (hchain : HonestChain U M chain)
    (hshort : chain.length ≤ 2 ^ 31)
    (hrun : Run (WitnessLife.StepOver config M mode xxh64 engine chain) WitnessLife.init
      inputs s) :
    (forall pir, s.serving.running = true -> s.serving.livePir = some pir ->
      exists w n, w.Sound M chain ∧ pir.Shows M engine w chain n) ∧
    (loadSnapshot mode xxh64 s.files.fs = .error (.error .io) ∨
      exists w n tree, w.Sound M chain ∧ w.base < n ∧ OnWindow M w chain n tree ∧
        loadSnapshot mode xxh64 s.files.fs = .ok tree) := by
  rcases WitnessLife.lifeInvariant_run hengine hchain hshort hrun with ⟨w, a, h⟩
  constructor
  · intro pir hrunning hpir
    rcases h.window.shows hrunning hpir with ⟨n, hshows⟩
    refine ⟨w, n, h.sound ?_, hshows⟩
    intro hdown
    rw [ServingRun.running, hdown] at hrunning
    cases hrunning
  · exact loadSnapshot_of_offers mode hchain hshort h.stands h.offers

/-- When a following server is killed, the tree that a restart loads is on the window of
what was published, and at most an interval of blocks behind it. -/
theorem kill_loses_blocks (hengine : engine.Accepts scenario) (hchain : HonestChain U M chain)
    (hshort : chain.length ≤ 2 ^ 31)
    (hrun : Run (WitnessLife.StepOver config M mode xxh64 engine chain) WitnessLife.init
      inputs s) {task : FollowState} {queue : List WitnessChainEvent}
    (hfollow : s.serving.run.stage = .following task queue) :
    exists w m n saved pir, w.Sound M chain ∧ s.serving.livePir = some pir ∧
      pir.Shows M engine w chain n ∧ loadSnapshot mode xxh64 s.files.fs = .ok saved ∧
      OnWindow M w chain m saved ∧ m ≤ n ∧ n ≤ m + max config.snapshotInterval 1 := by
  rcases WitnessLife.lifeInvariant_run hengine hchain hshort hrun with ⟨w, a, h⟩
  have hw := h.sound (by simp [hfollow])
  have hstage := h.window.stage
  rw [hfollow] at hstage
  cases hstage with
  | @following _ _ held stop pir hlive hshows hawaits _ =>
      rcases h.following task queue hfollow with
        ⟨n, hon, m, ⟨_, saved, hsaved, hcurrent⟩, hle, hbehind⟩
      have hsame : held = n := hawaits.tree.unique hon
      have hread : loadSnapshot mode xxh64 s.files.fs = .ok saved :=
        hsaved.loadSnapshot_eq hw hchain hshort (h.stands.current.trans hcurrent)
      have hlag := h.lag_le hfollow
      exact ⟨w, m, held, saved, pir, hw, hlive, hshows, hread, hsaved, by lia, by lia⟩

/-!
## A start after a crash
-/

def snapshotHeight (mode : Arithmetic) (xxh64 : List UInt8 -> Nat -> UInt64)
    (fs : FileSystem String) : Nat :=
  ((loadSnapshot mode xxh64 fs).toOption.bind CommitmentTreeDb.latestHeight).getD 0

def ProcessStep (config : ServerConfig) (M : MerkleHashOrchard) (mode : Arithmetic)
    (xxh64 : List UInt8 -> Nat -> UInt64) (engine : PirEngine σ) (chain : ChainView)
    (s : WitnessLife σ) (input : LifeInput) (s' : WitnessLife σ) : Prop :=
  WitnessLife.StepOver config M mode xxh64 engine chain s input s' ∧
    ((exists label, input = .file label) ∨ exists run, input = .server run)

theorem later_saved (config : ServerConfig) (M : MerkleHashOrchard) (mode : Arithmetic)
    (xxh64 : List UInt8 -> Nat -> UInt64) (engine : PirEngine σ) (chain : ChainView)
    (hdue : s.due ≠ none) (hidle : s.files.stage = .idle)
    (hrecord : s.serving.run.tree.blocks ≠ []) :
    exists fs, Later (ProcessStep config M mode xxh64 engine chain) s
      { s with files := { fs := fs, stage := .idle }, due := none } := by
  have hstarted : Later (ProcessStep config M mode xxh64 engine chain) s _ := (Later.refl s).next
    ⟨⟨.startSave hdue (.start hidle), hrecord⟩, Or.inl ⟨_, rfl⟩⟩
  have hwritten := hstarted.next
    (show ProcessStep config M mode xxh64 engine chain _
        (.file (.write (s.serving.run.tree.toSnapshot xxh64).length)) _ by
      exact ⟨⟨.write (.write rfl), trivial⟩, Or.inl ⟨_, rfl⟩⟩)
  have hsynced := hwritten.next
    ⟨⟨.sync (.sync (congrArg (ReplaceStage.writing _) List.drop_length)), trivial⟩,
      Or.inl ⟨_, rfl⟩⟩
  exact ⟨_, hsynced.next ⟨⟨.rename (.rename rfl), trivial⟩, Or.inl ⟨_, rfl⟩⟩⟩

variable {w : Window} {n stop : Nat}

theorem later_received (config : ServerConfig) (mode : Arithmetic)
    (xxh64 : List UInt8 -> Nat -> UInt64) (engine : PirEngine σ)
    {queue : List WitnessChainEvent} (hw : w.Sound M chain)
    (hchain : HonestChain U M chain) (hstage : s.serving.run.stage = .syncing queue)
    (hdue : queue = [] -> s.due = some .synced)
    (h : Awaits M w chain n stop s.serving.run.tree queue) :
    exists t, Later (ProcessStep config M mode xxh64 engine chain) s t ∧
      t.serving.run.stage = .syncing [] ∧ t.due = some .synced ∧ t.files = s.files ∧
      OnWindow M w chain stop t.serving.run.tree := by
  induction queue generalizing s n with
  | nil =>
      have hstop := h.stop_eq
      rw [← hstop]
      exact ⟨s, Later.refl s, hstage, hdue rfl, rfl, h.tree⟩
  | cons event rest ih =>
      rcases h.append hw hchain "initial sync" with
        ⟨height, hash, prevHash, commitments, priorTreeSize, tree, heq, happend, hawaits⟩
      have hreceived : (s.serving.run.receive event rest).tree = tree ∧
          (s.serving.run.receive event rest).stage = .syncing rest := by
        rw [heq, ServerRun.receive, happend]
        exact ⟨rfl, rfl⟩
      let next : ServingRun σ :=
        { run := s.serving.run.receive event rest, livePir := s.serving.livePir }
      let received : WitnessLife σ :=
        { s with serving := next, due := s.dueAfter config .receive next }
      have hstep : ProcessStep config M mode xxh64 engine chain s (.server .receive) received :=
        ⟨⟨.server trivial ⟨.receive hstage, rfl⟩, trivial⟩, Or.inr ⟨_, rfl⟩⟩
      have hcomplete : rest = [] -> received.due = some .synced := by
        intro hnil
        have hsyncing : next.run.stage = .syncing [] := hnil ▸ hreceived.right
        change s.dueAfter config .receive next = some .synced
        simp [WitnessLife.dueAfter, hsyncing]
      have hnext : Awaits M w chain (n + 1) stop received.serving.run.tree rest := by
        change Awaits M w chain (n + 1) stop (s.serving.run.receive event rest).tree rest
        rw [hreceived.left]
        exact hawaits
      rcases ih (s := received) hreceived.right hcomplete hnext with ⟨t, hlater, hsynced⟩
      exact ⟨t, ((Later.refl s).next hstep).trans hlater, hsynced⟩

theorem later_serving (config : ServerConfig) (mode : Arithmetic)
    (xxh64 : List UInt8 -> Nat -> UInt64) (hengine : engine.Accepts scenario)
    (hchain : HonestChain U M chain)
    (hstage : s.serving.run.stage = .syncing []) (hdue : s.due = some .synced)
    (hidle : s.files.stage = .idle) (hbase : w.base < n)
    (h : OnWindow M w chain n s.serving.run.tree) :
    exists t, Later (ProcessStep config M mode xxh64 engine chain) s t ∧
      ServesFrom (n - 1) t.serving ∧ t.due = none := by
  have hrecord : s.serving.run.tree.blocks ≠ [] := by
    intro hnil
    exact Nat.ne_of_gt hbase (h.blocks_eq_nil_iff.mp hnil)
  rcases later_saved config M mode xxh64 engine chain (by simp [hdue]) hidle hrecord with
    ⟨fs, hsaved⟩
  rcases step_serve config hengine hchain hstage hbase h with
    ⟨next, ⟨hserve, _⟩, hserves, hon⟩
  let saved : WitnessLife σ := { s with files := { fs := fs, stage := .idle }, due := none }
  let served : WitnessLife σ :=
    { saved with serving := next, due := saved.dueAfter config .serve next }
  have hstep : ProcessStep config M mode xxh64 engine chain saved (.server .serve) served :=
    ⟨⟨.server rfl hserve, trivial⟩, Or.inr ⟨_, rfl⟩⟩
  have hpublished : served.due ≠ none := by
    rcases hserves with ⟨task, queue, _, hfollow, _⟩
    change saved.dueAfter config .serve next ≠ none
    simp [WitnessLife.dueAfter, hfollow]
  have hbuilt : next.run.tree.blocks ≠ [] := by
    intro hnil
    exact Nat.ne_of_gt hbase (hon.blocks_eq_nil_iff.mp hnil)
  rcases later_saved (s := served) config M mode xxh64 engine chain hpublished rfl hbuilt with
    ⟨fs', hagain⟩
  exact ⟨_, (hsaved.next hstep).trans hagain, hserves, rfl⟩

/-- A start over a tree of a window comes to serve the newest block of the tree or of the
chain it is given, and saves it. -/
theorem later_started (mode : Arithmetic) (fs : FileSystem String)
    (hengine : engine.Accepts scenario) (hw : w.Sound M chain)
    (hchain : HonestChain U M chain) {client : LwdClient}
    {connection : Connection} {saved : Option CommitmentTreeDb} {tree : CommitmentTreeDb}
    {initialTreeSize : Option UInt32}
    (hloads : (WitnessLife.crashed fs : WitnessLife σ).Loads mode xxh64 true saved)
    (hover : (WitnessLife.crashed fs : WitnessLife σ).OverChain config M mode xxh64 chain
      (.start client (some connection) true))
    (hstart : startingTree client client.blocks.view.tipHeight config.windowShardLimit saved =
      .ok (tree, n, initialTreeSize))
    (hon : OnWindow M w chain n tree)
    (hsize : initialTreeSize = reportedSize (commitmentsOf (chain.take n)).length)
    (hsame : client.blocks.view = connection.view) (hnonempty : connection.view ≠ [])
    (hconnection : forall first last, connection.fails first last = false)
    (hbase : w.base < max n connection.view.length) :
    exists started t,
      WitnessLife.StepOver config M mode xxh64 engine chain (WitnessLife.crashed fs)
        (.start client (some connection) true) started ∧
      Later (ProcessStep config M mode xxh64 engine chain) started t ∧
      ServesFrom (max n connection.view.length - 1) t.serving ∧ t.due = none := by
  let down : WitnessLife σ := WitnessLife.crashed fs
  let next : ServingRun σ :=
    { run := (down.reload saved).run.start config client (some connection) true
      livePir := none }
  let started : WitnessLife σ :=
    { down with
      serving := next
      due := down.dueAfter config (.start client (some connection) true) next }
  have hstep : WitnessLife.StepOver config M mode xxh64 engine chain down
      (.start client (some connection) true) started := ⟨.start hloads ⟨.start rfl, rfl⟩, hover⟩
  have hfrom : startingTree client client.blocks.view.tipHeight config.windowShardLimit
      ((down.reload saved).run.loaded true) = .ok (tree, n, initialTreeSize) := hstart
  rcases start_awaits config hchain hfrom hon hsize (hover.left connection rfl) hsame hnonempty
    hconnection with ⟨queue, hstage, hawaits⟩
  have hdue : queue = [] -> started.due = some .synced := by
    intro hnil
    have hsyncing : next.run.stage = .syncing [] := hnil ▸ hstage
    change down.dueAfter config (.start client (some connection) true) next = some .synced
    simp [WitnessLife.dueAfter, hsyncing]
  rcases later_received (s := started) config mode xxh64 engine hw hchain hstage hdue hawaits
    with
    ⟨synced, hreceived, hready, hsaveDue, hfiles, hsynced⟩
  have hidle : synced.files.stage = .idle := by
    rw [hfiles]
    rfl
  rcases later_serving config mode xxh64 hengine hchain hready hsaveDue hidle hbase hsynced with
    ⟨t, hlater, hserves, hnone⟩
  exact ⟨started, t, hstep, hreceived.trans hlater, hserves, hnone⟩

theorem later_recovered (mode : Arithmetic) (hengine : engine.Accepts scenario)
    (hchain : HonestChain U M chain)
    (hshort : chain.length ≤ 2 ^ 31) {a : AtomicFile}
    (h : WitnessLife.LifeInvariant M xxh64 engine chain config.snapshotInterval w s a)
    {client : LwdClient} {connection : Connection} {subtreeRoots : List SubtreeRoot}
    (hview : connection.view.IsPrefix chain) (hnonempty : connection.view ≠ [])
    (hblocks : client.blocks = connection)
    (hconnection : forall first last, connection.fails first last = false)
    (hroots : client.subtreeRoots = some subtreeRoots)
    (hfresh : loadSnapshot mode xxh64 s.files.fs = .error (.error .io) ->
      exists w, w.Sound M chain ∧ ReportsWindow M w chain client config.windowShardLimit ∧
        w.base < connection.view.length) :
    exists down started t,
      WitnessLife.StepOver config M mode xxh64 engine chain s .kill down ∧
      WitnessLife.StepOver config M mode xxh64 engine chain down
        (.start client (some connection) true) started ∧
      Later (ProcessStep config M mode xxh64 engine chain) started t ∧
      ServesFrom (max (snapshotHeight mode xxh64 s.files.fs) connection.view.tipHeight)
        t.serving ∧ t.due = none := by
  have htip := (hchain.of_prefix hnonempty hview).blocks.tipHeight_succ
  have hsame : client.blocks.view = connection.view := congrArg Connection.view hblocks
  have hserved : forall served, some connection = some served -> served.view.IsPrefix chain := by
    intro served heq
    cases heq
    exact hview
  have hkill : WitnessLife.StepOver config M mode xxh64 engine chain s .kill
      (WitnessLife.crashed s.files.fs) := ⟨.kill, trivial⟩
  rcases loadSnapshot_of_offers mode hchain hshort h.stands h.offers with
    hmissing | ⟨found, n, tree, hw, hbase, hon, hload⟩
  · rcases hfresh hmissing with ⟨found, hw, hreports, hbase⟩
    rcases prepareTree_isOk hchain hreports hroots
      (fun first last => hblocks ▸ hconnection first last) with
      ⟨tree, n, initialTreeSize, hprepared⟩
    rcases prepareTree_onWindow hchain hreports hprepared with ⟨hon, hsize⟩
    rcases later_started mode s.files.fs hengine hw hchain
      (.invalid hmissing) ⟨hserved, fun _ => ⟨found, hw, hreports⟩⟩ hprepared hon hsize hsame
      hnonempty hconnection (Nat.lt_of_lt_of_le hbase (Nat.le_max_right _ _)) with
      ⟨started, t, hstart, hlater, hserves, hdue⟩
    refine ⟨_, started, t, hkill, hstart, hlater, hserves.mono ?_, hdue⟩
    have hnone : snapshotHeight mode xxh64 s.files.fs = 0 := by
      rw [snapshotHeight, hmissing]
      rfl
    lia
  · have hover : (WitnessLife.crashed s.files.fs : WitnessLife σ).OverChain config M mode xxh64
        chain (.start client (some connection) true) := by
      refine ⟨hserved, ?_⟩
      intro hfalse
      cases hfalse with
      | invalid herror =>
          change loadSnapshot mode xxh64 s.files.fs = _ at herror
          rw [hload] at herror
          cases herror
    rcases later_started mode s.files.fs hengine hw hchain (.snapshot hload) hover
      (hon.startingTree_eq hchain hbase _ _ _) hon rfl hsame hnonempty hconnection
      (Nat.lt_of_lt_of_le hbase (Nat.le_max_left _ _)) with
      ⟨started, t, hstart, hlater, hserves, hdue⟩
    refine ⟨_, started, t, hkill, hstart, hlater, hserves.mono ?_, hdue⟩
    have hheight : snapshotHeight mode xxh64 s.files.fs = n - 1 := by
      rw [snapshotHeight, hload]
      change (tree.latestHeight).getD 0 = n - 1
      rw [hon.latestHeight_eq hchain.blocks hbase]
      rfl
    lia

/-- After whatever run, with crashes at any point of it, the process is killed and the next
one comes to serve the newest block of the snapshot or of lightwalletd, whichever is newer,
and saves it. -/
theorem crash_recovers (hengine : engine.Accepts scenario) (hchain : HonestChain U M chain)
    (hshort : chain.length ≤ 2 ^ 31)
    (hrun : Run (WitnessLife.StepOver config M mode xxh64 engine chain) WitnessLife.init
      inputs s)
    {client : LwdClient} {connection : Connection} {subtreeRoots : List SubtreeRoot}
    (hview : connection.view.IsPrefix chain) (hnonempty : connection.view ≠ [])
    (hblocks : client.blocks = connection)
    (hconnection : forall first last, connection.fails first last = false)
    (hroots : client.subtreeRoots = some subtreeRoots)
    (hfresh : loadSnapshot mode xxh64 s.files.fs = .error (.error .io) ->
      exists w, w.Sound M chain ∧ ReportsWindow M w chain client config.windowShardLimit ∧
        w.base < connection.view.length) :
    exists down started t,
      WitnessLife.StepOver config M mode xxh64 engine chain s .kill down ∧
      WitnessLife.StepOver config M mode xxh64 engine chain down
        (.start client (some connection) true) started ∧
      Later (ProcessStep config M mode xxh64 engine chain) started t ∧
      ServesFrom (max (snapshotHeight mode xxh64 s.files.fs) connection.view.tipHeight)
        t.serving ∧ t.due = none := by
  rcases WitnessLife.lifeInvariant_run hengine hchain hshort hrun with ⟨w, a, h⟩
  exact later_recovered mode hengine hchain hshort h hview hnonempty hblocks hconnection hroots
    hfresh

end Crashes

/-!
## Two starts
-/

abbrev OrphanedLifeStep : WitnessLife StubServerState -> LifeInput ->
    WitnessLife StubServerState -> Prop :=
  WitnessLife.StepOver orphanedConfig sampleHash .checked (fun _ _ => 0)
    stubPirEngine.toPirEngine chainOrphaned

theorem reportsWindow_of_few {view : ChainView} (hview : view.IsPrefix chainOrphaned)
    (hnonempty : view ≠ []) (hcount : (commitmentsOf view).length < shardLeaves)
    (hwindow : orphanedWindow = Window.ofReports chainOrphaned [] l0MaxShards view.tipHeight)
    (hactivation : commitmentsOf (chainOrphaned.take (minSyncHeight view.tipHeight)) = []) :
    ReportsWindow sampleHash orphanedWindow chainOrphaned (orphanedClient view)
      orphanedConfig.windowShardLimit where
  view := hview
  nonempty := hnonempty
  reports := by
    intro subtreeRoots hroots
    cases hroots
    refine ⟨⟨(Nat.div_eq_of_lt hcount).symm, ?_, ?_⟩, hwindow⟩
    · intro i shard hfalse
      cases hfalse
    · intro i shard hfalse
      cases hfalse
  activation := hactivation

theorem reportsWindow_before :
    ReportsWindow sampleHash orphanedWindow chainOrphaned (orphanedClient chainBefore)
      orphanedConfig.windowShardLimit :=
  reportsWindow_of_few ⟨[sampleOrphan], rfl⟩ (List.cons_ne_nil _ _) (by decide) rfl rfl

theorem reportsWindow_orphaned :
    ReportsWindow sampleHash orphanedWindow chainOrphaned (orphanedClient chainOrphaned)
      orphanedConfig.windowShardLimit :=
  reportsWindow_of_few (List.prefix_refl _) (List.cons_ne_nil _ _) (by decide) rfl rfl

/-- A process that is killed, and the next one, which comes to serve the newest block. -/
structure Restarted (view : ChainView) (s t : WitnessLife StubServerState) : Prop where
  killed : exists down started, OrphanedLifeStep s .kill down ∧
    OrphanedLifeStep down
      (.start (orphanedClient view) (some (orphanedConnection view)) true) started ∧
    Later (ProcessStep orphanedConfig sampleHash .checked (fun _ _ => 0)
      stubPirEngine.toPirEngine chainOrphaned) started t
  serves : ServesFrom view.tipHeight t.serving

theorem Restarted.later {view : ChainView} {s t : WitnessLife StubServerState}
    (h : Restarted view s t) : Later OrphanedLifeStep s t := by
  rcases h.killed with ⟨down, started, hkill, hstart, hlater⟩
  have hstarted := ((Later.refl s).next hkill).next hstart
  exact hstarted.trans (hlater.mono (fun _ _ _ hstep => hstep.left))

theorem exists_restartedOver {s : WitnessLife StubServerState}
    (hreached : Later OrphanedLifeStep WitnessLife.init s) {view : ChainView}
    (hreports : ReportsWindow sampleHash orphanedWindow chainOrphaned (orphanedClient view)
      orphanedConfig.windowShardLimit) (hbase : orphanedWindow.base < view.length) :
    exists t, Restarted view s t := by
  rcases hreached with ⟨inputs, hrun⟩
  rcases WitnessLife.lifeInvariant_run accepts_stubPirEngine honestChain_orphaned (by decide)
    hrun with ⟨w, a, h⟩
  rcases later_recovered .checked accepts_stubPirEngine honestChain_orphaned
    (by decide) h hreports.view hreports.nonempty rfl (fun _ _ => rfl) rfl
    (fun _ => ⟨orphanedWindow, sound_orphanedWindow, hreports, hbase⟩) with
    ⟨down, started, t, hkill, hstart, hlater, hserves, _⟩
  exact ⟨t, ⟨down, started, hkill, hstart, hlater⟩, hserves.mono (Nat.le_max_right _ _)⟩

theorem exists_orphanedLife :
    exists first second inputs, Restarted chainBefore WitnessLife.init first ∧
      Restarted chainOrphaned first second ∧
      Run OrphanedLifeStep WitnessLife.init inputs second := by
  rcases exists_restartedOver (Later.refl WitnessLife.init) reportsWindow_before (by decide) with
    ⟨first, hfirst⟩
  rcases exists_restartedOver hfirst.later reportsWindow_orphaned (by decide) with
    ⟨second, hsecond⟩
  rcases hfirst.later.trans hsecond.later with ⟨inputs, hrun⟩
  exact ⟨first, second, inputs, hfirst, hsecond, hrun⟩

/-- What the second process publishes shows the chain. -/
theorem crashes_show_chain_orphaned :
    exists (first second : WitnessLife StubServerState) (pir : PirState StubServerState)
        (w : Window) (n : Nat),
      Restarted chainBefore WitnessLife.init first ∧ Restarted chainOrphaned first second ∧
      second.serving.livePir = some pir ∧ 2 ≤ pir.metadata.anchorHeight ∧
      w.Sound sampleHash chainOrphaned ∧
      pir.Shows sampleHash stubPirEngine.toPirEngine w chainOrphaned n := by
  rcases exists_orphanedLife with ⟨first, second, inputs, hfirst, hsecond, hrun⟩
  have hrunning := hsecond.serves.running
  rcases hsecond.serves with ⟨_, _, pir, _, hpir, hanchor⟩
  rcases (crashes_show_chain accepts_stubPirEngine honestChain_orphaned (by decide) hrun).left
    pir hrunning hpir with ⟨w, n, hw, hshows⟩
  exact ⟨first, second, pir, w, n, hfirst, hsecond, hpir, hanchor, hw, hshows⟩

/-- Killed when it serves block 2, the second process loses at most one block. -/
theorem kill_loses_blocks_orphaned :
    exists (first second : WitnessLife StubServerState) (w : Window) (m n : Nat)
        (saved : CommitmentTreeDb),
      Restarted chainBefore WitnessLife.init first ∧ Restarted chainOrphaned first second ∧
      loadSnapshot .checked (fun _ _ => 0) second.files.fs = .ok saved ∧
      OnWindow sampleHash w chainOrphaned m saved ∧ m ≤ n ∧ n ≤ m + 1 := by
  rcases exists_orphanedLife with ⟨first, second, inputs, hfirst, hsecond, hrun⟩
  rcases hsecond.serves with ⟨_, _, _, hfollow, _, _⟩
  rcases kill_loses_blocks accepts_stubPirEngine honestChain_orphaned (by decide) hrun hfollow
    with ⟨w, m, n, saved, _, _, _, _, hload, hsaved, hle, hbehind⟩
  exact ⟨first, second, w, m, n, saved, hfirst, hsecond, hload, hsaved, hle, hbehind⟩

/-- Killed when it serves block 1, the server is started again and comes to serve block 2. -/
theorem crash_recovers_orphaned :
    exists first down started t, Restarted chainBefore WitnessLife.init first ∧
      OrphanedLifeStep first .kill down ∧
      OrphanedLifeStep down (.start (orphanedClient chainOrphaned)
        (some (orphanedConnection chainOrphaned)) true) started ∧
      Later (ProcessStep orphanedConfig sampleHash .checked (fun _ _ => 0)
        stubPirEngine.toPirEngine chainOrphaned) started t ∧
      ServesFrom 2 t.serving := by
  rcases exists_restartedOver (Later.refl WitnessLife.init) reportsWindow_before (by decide) with
    ⟨first, hfirst⟩
  rcases hfirst.later with ⟨inputs, hrun⟩
  have hfresh : loadSnapshot .checked (fun _ _ => 0) first.files.fs = .error (.error .io) ->
      exists w, w.Sound sampleHash chainOrphaned ∧
        ReportsWindow sampleHash w chainOrphaned (orphanedClient chainOrphaned)
          orphanedConfig.windowShardLimit ∧ w.base < chainOrphaned.length :=
    fun _ => ⟨orphanedWindow, sound_orphanedWindow, reportsWindow_orphaned, by decide⟩
  rcases crash_recovers accepts_stubPirEngine honestChain_orphaned (by decide) hrun
    (List.prefix_refl chainOrphaned) (List.cons_ne_nil _ _) rfl (fun _ _ => rfl) rfl
    hfresh with ⟨down, started, t, hkill, hstart, hlater, hserves, _⟩
  exact ⟨first, down, started, t, hfirst, hkill, hstart, hlater,
    hserves.mono (Nat.le_max_right _ _)⟩

end Witness
end SpendabilityPir
