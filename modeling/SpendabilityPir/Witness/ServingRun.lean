import SpendabilityPir.Foundation.ConcurrentReads
import SpendabilityPir.Witness.PublishedWitness
import SpendabilityPir.Witness.ServerRun

/-!
# What a witness server serves over its runs

The state of a run with what the running process has published.  Over restarts, resumed
syncs and polls of one growing chain, what is published shows the chain through the newest
block of the tree, on a window that stays the same.
-/

namespace SpendabilityPir
namespace Witness

open Foundation Shared

/-- A run of the server and what the process has published. -/
structure ServingRun (σ : Type) where
  run : ServerRun
  livePir : Option (PirState σ)

namespace ServingRun

variable {σ : Type} (config : ServerConfig) (M : MerkleHashOrchard) (engine : PirEngine σ)

def published (s : ServerRun) : RunInput -> Option (PirState σ)
  | .serve =>
      match rebuildPir M engine s.tree scenario (s.tree.latestHeight.getD 0) with
      | .ok (_, pir) => some pir
      | .error _ => none
  | .work =>
      match s.stage with
      | .following _ (event :: _) =>
          match handleEvent M engine s.tree event with
          | .ok (_, pir) => some pir
          | .error _ => none
      | _ => none
  | _ => none

def livePirAfter (s : ServingRun σ) (input : RunInput) : Option (PirState σ) :=
  match input with
  | .start _ _ _ => none
  | .restart => none
  | _ => (published M engine s.run input).or s.livePir

def Step (s : ServingRun σ) (input : RunInput) (s' : ServingRun σ) : Prop :=
  ServerRun.Step config M engine s.run input s'.run ∧ s'.livePir = s.livePirAfter M engine input

def running (s : ServingRun σ) : Bool :=
  match s.run.stage with
  | .down => false
  | .stopped _ => false
  | _ => true

end ServingRun

/-!
## Steps over one chain
-/

/-- What lightwalletd answers is part of the chain and gives the window, and the server
follows from a block record. -/
def OverWindow (config : ServerConfig) (M : MerkleHashOrchard) (w : Window)
    (chain : ChainView) (s : ServerRun) : RunInput -> Prop
  | .start client connection loads =>
      (forall served, connection = some served -> served.view.IsPrefix chain) ∧
      (s.loaded loads = none -> ReportsWindow M w chain client config.windowShardLimit)
  | .serve => s.tree.blocks ≠ []
  | .poll view => view.IsPrefix chain
  | _ => True

structure WindowStep {σ : Type} (config : ServerConfig) (M : MerkleHashOrchard)
    (engine : PirEngine σ) (w : Window) (chain : ChainView) (s : ServingRun σ)
    (input : RunInput) (s' : ServingRun σ) : Prop where
  step : s.Step config M engine input s'
  window : OverWindow config M w chain s.run input

/-- The tree of a window, and the events of the next blocks. -/
structure Awaits (M : MerkleHashOrchard) (w : Window) (chain : ChainView) (n stop : Nat)
    (tree : CommitmentTreeDb) (queue : List WitnessChainEvent) : Prop where
  tree : OnWindow M w chain n tree
  le : n ≤ stop
  stop_le : stop ≤ chain.length
  queue : queue = announce (commitmentsOf (chain.take n)).length ((chain.take stop).drop n)

/-- What the tree, the published state and the task of each stage are. -/
inductive StageOn {σ : Type} (M : MerkleHashOrchard) (engine : PirEngine σ) (w : Window)
    (chain : ChainView) (tree : CommitmentTreeDb) (livePir : Option (PirState σ)) :
    RunStage -> Prop where
  | down : StageOn M engine w chain tree livePir .down
  | stopped (failure : Failure ServerError) :
      StageOn M engine w chain tree livePir (.stopped failure)
  | syncing {queue : List WitnessChainEvent} {n stop : Nat} :
      livePir = none -> Awaits M w chain n stop tree queue ->
      StageOn M engine w chain tree livePir (.syncing queue)
  | following {task : FollowState} {queue : List WitnessChainEvent} {n stop : Nat}
      {pir : PirState σ} :
      livePir = some pir -> pir.Shows M engine w chain n ->
      Awaits M w chain n stop tree queue -> AtReportedTip task (chain.take stop) ->
      StageOn M engine w chain tree livePir (.following task queue)

/-- The snapshot is on the window with a record, and the stage is on it. -/
structure WindowInvariant {σ : Type} (M : MerkleHashOrchard) (engine : PirEngine σ)
    (w : Window) (chain : ChainView) (s : ServingRun σ) : Prop where
  saved : forall tree, s.run.saved = some tree ->
    exists n, w.base < n ∧ OnWindow M w chain n tree
  stage : StageOn M engine w chain s.run.tree s.livePir s.run.stage

section Steps

variable {σ : Type} {config : ServerConfig} {M : MerkleHashOrchard} {engine : PirEngine σ}
variable {w : Window} {chain : ChainView} {U : BlockUniverse} {n stop : Nat}
variable {tree : CommitmentTreeDb} {queue : List WitnessChainEvent}

/-!
## Queued blocks
-/

theorem emitBlocks_eq_announce {front blocks : ChainView}
    (h : HonestCommitments M (front ++ blocks)) :
    emitBlocks newBlockEvent (reportedSize (commitmentsOf front).length) blocks =
      announce (commitmentsOf front).length blocks := by
  induction blocks generalizing front with
  | nil => rfl
  | cons block rest ih =>
      have hsplit : (front ++ [block]) ++ rest = front ++ block :: rest := by
        rw [List.append_assoc]
        rfl
      have hfront : HonestCommitments M (front ++ [block]) := h.of_prefix ⟨rest, hsplit⟩
      have hrest := ih (hsplit.symm ▸ h)
      rw [commitmentsOf_append, List.length_append, commitmentsOf_singleton] at hrest
      rw [emitBlocks, announce, hfront.orchardTreeSize_concat, commitmentsOf_append,
        List.length_append, commitmentsOf_singleton, hrest]

theorem OnWindow.awaits (h : OnWindow M w chain n tree) (hchain : HonestChain U M chain)
    (hle : n ≤ stop) (hstop : stop ≤ chain.length) :
    Awaits M w chain n stop tree (emitBlocks newBlockEvent
      (reportedSize (commitmentsOf (chain.take n)).length) ((chain.take stop).drop n)) := by
  refine ⟨h, hle, hstop, emitBlocks_eq_announce (M := M) ?_⟩
  rw [take_append_drop_take chain hle]
  exact hchain.commitments.of_prefix (List.take_prefix _ _)

theorem OnWindow.awaits_nil (h : OnWindow M w chain n tree) : Awaits M w chain n n tree [] := by
  refine ⟨h, Nat.le_refl n, h.le, ?_⟩
  rw [List.drop_of_length_le (Nat.le_of_eq h.length_take)]
  rfl

theorem awaits_sync (hchain : HonestChain U M chain) (h : OnWindow M w chain n tree)
    {connection : Connection} (hview : connection.view.IsPrefix chain) (tipHeight : Nat) :
    exists stop, Awaits M w chain n stop tree (sync connection n tipHeight
      (reportedSize (commitmentsOf (chain.take n)).length)) := by
  have hnumbered := hchain.blocks.heights.of_prefix hview
  rcases fetchBatches_eq hnumbered n tipHeight with ⟨last, hle, _, hfetched⟩
  have hbefore : (connection.view.take last).IsPrefix chain :=
    (List.take_prefix _ _).trans hview
  by_cases hshort : (connection.view.take last).length ≤ n
  · refine ⟨n, ?_⟩
    rw [sync, hfetched, List.drop_of_length_le hshort]
    exact h.awaits_nil
  · have hawaits := h.awaits hchain (Nat.le_of_not_le hshort) hbefore.length_le
    rw [← List.prefix_iff_eq_take.mp hbefore] at hawaits
    refine ⟨(connection.view.take last).length, ?_⟩
    rw [sync, hfetched]
    exact hawaits

/-- The oldest event is that of the next block. -/
theorem Awaits.next {event : WitnessChainEvent}
    (h : Awaits M w chain n stop tree (event :: queue)) :
    exists block, chain[n]? = some block ∧ n < stop ∧
      event = newBlockEvent (reportedSize (commitmentsOf (chain.take n)).length) block ∧
      queue = announce (commitmentsOf (chain.take (n + 1))).length
        ((chain.take stop).drop (n + 1)) := by
  have hqueue := h.queue
  have hlength : (chain.take stop).length = stop := by
    rw [List.length_take]
    exact Nat.min_eq_left h.stop_le
  have hlt : n < stop := by
    by_contra hge
    rw [List.drop_of_length_le (by rw [hlength]; exact Nat.le_of_not_lt hge)] at hqueue
    cases hqueue
  have hin : n < (chain.take stop).length := by
    rw [hlength]
    exact hlt
  have hblock : chain[n]? = some (chain.take stop)[n] := by
    rw [← List.getElem?_take_of_lt hlt]
    exact List.getElem?_eq_getElem hin
  rw [List.drop_eq_getElem_cons hin, announce] at hqueue
  cases hqueue
  refine ⟨(chain.take stop)[n], hblock, hlt, rfl, ?_⟩
  rw [take_succ_eq hblock, commitmentsOf_append, List.length_append, commitmentsOf_singleton]

theorem Awaits.append {event : WitnessChainEvent}
    (h : Awaits M w chain n stop tree (event :: queue)) (hw : w.Sound M chain)
    (hchain : HonestChain U M chain) (context : String) :
    exists height hash prevHash commitments priorTreeSize tree',
      event = .newBlock height hash prevHash commitments priorTreeSize ∧
      appendValidated context tree height hash commitments priorTreeSize = .ok tree' ∧
      Awaits M w chain (n + 1) stop tree' queue := by
  rcases h.next with ⟨block, hblock, hlt, heq, hqueue⟩
  have htake := take_succ_eq hblock
  have hfront : HonestCommitments M (chain.take n ++ [block]) := by
    rw [← htake]
    exact hchain.commitments.of_prefix (List.take_prefix _ _)
  exact ⟨_, _, _, _, _, _, heq, appendValidated_of_holds h.tree.holds hfront context,
    h.tree.append hw hblock, hlt, h.stop_le, hqueue⟩

theorem Awaits.stop_eq (h : Awaits M w chain n stop tree []) : n = stop := by
  have hqueue := h.queue
  cases hdrop : (chain.take stop).drop n with
  | nil =>
      have hle := List.drop_eq_nil_iff.mp hdrop
      rw [List.length_take, Nat.min_eq_left h.stop_le] at hle
      exact Nat.le_antisymm h.le hle
  | cons block rest =>
      rw [hdrop, announce] at hqueue
      cases hqueue

theorem Awaits.announced (h : Awaits M w chain n stop tree queue) (hbase : w.base < n) :
    Announced tree queue w.base (chain.take stop) n where
  tracks := by
    rw [List.take_take, Nat.min_eq_left h.le]
    exact h.tree.tracks hbase
  le := by
    rw [List.length_take, Nat.min_eq_left h.stop_le]
    exact h.le
  queue := by
    rw [List.take_take, Nat.min_eq_left h.le]
    exact h.queue

/-!
## The stages
-/

theorem startingTree_onWindow {client : LwdClient} {limit : Nat}
    {loaded : Option CommitmentTreeDb} {initialTreeSize : Option UInt32}
    (hchain : HonestChain U M chain)
    (hloaded : forall saved, loaded = some saved ->
      exists n, w.base < n ∧ OnWindow M w chain n saved)
    (hfresh : loaded = none -> ReportsWindow M w chain client limit)
    (h : startingTree client client.blocks.view.tipHeight limit loaded =
      .ok (tree, n, initialTreeSize)) :
    OnWindow M w chain n tree ∧
      initialTreeSize = reportedSize (commitmentsOf (chain.take n)).length := by
  cases loaded with
  | none => exact prepareTree_onWindow hchain (hfresh rfl) h
  | some saved =>
      rcases hloaded saved rfl with ⟨m, hbase, hon⟩
      have hlatest := hon.latestHeight_eq hchain.blocks hbase
      rw [startingTree, hlatest] at h
      cases h
      have hm : m - 1 + 1 = m := Nat.sub_add_cancel (Nat.zero_lt_of_lt hbase)
      change OnWindow M w chain (m - 1 + 1) tree ∧
        _ = reportedSize (commitmentsOf (chain.take (m - 1 + 1))).length
      rw [hm]
      refine ⟨hon, ?_⟩
      rw [knownTreeSize, hon.treeSize_eq, reportedSize]

theorem windowInvariant_start {s s' : ServingRun σ} {client : LwdClient}
    {connection : Option Connection} {loads : Bool} (hchain : HonestChain U M chain)
    (h : WindowInvariant M engine w chain s)
    (hover : OverWindow config M w chain s.run (.start client connection loads))
    (hrun : s'.run = s.run.start config client connection loads) (hlive : s'.livePir = none) :
    WindowInvariant M engine w chain s' := by
  rcases hover with ⟨hconnection, hfresh⟩
  have hloaded : forall saved, s.run.loaded loads = some saved ->
      exists n, w.base < n ∧ OnWindow M w chain n saved := by
    intro saved hsaved
    unfold ServerRun.loaded at hsaved
    split at hsaved
    · exact h.saved saved hsaved
    · cases hsaved
  unfold ServerRun.start at hrun
  dsimp only at hrun
  split at hrun
  · refine ⟨?_, ?_⟩
    · rw [hrun]
      exact h.saved
    · rw [hrun]
      exact .stopped _
  · next tree n initialTreeSize hstart =>
      rcases startingTree_onWindow hchain hloaded hfresh hstart with ⟨hon, hsize⟩
      split at hrun
      · split at hrun
        · refine ⟨?_, ?_⟩
          · rw [hrun]
            exact h.saved
          · rw [hrun]
            exact .stopped _
        · next served =>
            rcases awaits_sync hchain hon (hconnection served rfl)
              client.blocks.view.tipHeight with ⟨stop, hawaits⟩
            rw [← hsize] at hawaits
            refine ⟨?_, ?_⟩
            · rw [hrun]
              exact h.saved
            · rw [hrun]
              exact .syncing hlive hawaits
      · refine ⟨?_, ?_⟩
        · rw [hrun]
          exact h.saved
        · rw [hrun]
          exact .syncing hlive hon.awaits_nil

theorem windowInvariant_serve {s s' : ServingRun σ} (hengine : engine.Accepts scenario)
    (hchain : HonestChain U M chain) (h : WindowInvariant M engine w chain s)
    (hstage : s.run.stage = .syncing []) (hrecord : s.run.tree.blocks ≠ [])
    (hrun : s'.run = s.run.serve M engine)
    (hlive : s'.livePir = (ServingRun.published M engine s.run .serve).or s.livePir) :
    WindowInvariant M engine w chain s' := by
  have hon := h.stage
  rw [hstage] at hon
  cases hon with
  | @syncing _ n stop hnone hawaits =>
      have hbase : w.base < n := by
        have hne := fun heq => hrecord (hawaits.tree.blocks_eq_nil_iff.mpr heq)
        have hle := hawaits.tree.base_le
        lia
      rcases rebuildPir_of_onWindow hengine hchain hawaits.tree hbase with
        ⟨tree', pir, hrebuild, hon', hshows⟩
      rw [ServerRun.serve_of_ok hrebuild] at hrun
      have hsome : s'.livePir = some pir := by
        rw [hlive, ServingRun.published, hrebuild]
        rfl
      have hnonempty : chain.take n ≠ [] := by
        apply List.ne_nil_of_length_pos
        rw [hawaits.tree.length_take]
        exact Nat.zero_lt_of_lt hbase
      have hfront := hchain.of_prefix hnonempty (List.take_prefix n chain)
      refine ⟨?_, ?_⟩
      · intro saved hsaved
        rw [hrun] at hsaved
        cases hsaved
        exact ⟨n, hbase, hon'⟩
      · rw [hrun]
        exact .following hsome hshows hon'.awaits_nil
          (atReportedTip_start hfront (hon'.tracks hbase))

/-- A poll of the chain queues its next blocks. -/
theorem Awaits.poll {task : FollowState} {view : ChainView} (hchain : HonestChain U M chain)
    (hview : view.IsPrefix chain) (hbase : w.base < n)
    (h : Awaits M w chain n stop tree queue) (htask : AtReportedTip task (chain.take stop)) :
    exists polled, view.length ≤ polled ∧
      Awaits M w chain n polled tree (queue ++ (followPoll task view).2) ∧
      AtReportedTip (followPoll task view).1 (chain.take polled) := by
  have hheight : task.currentHeight + 1 = stop := by
    have hlength := htask.tip.length
    rw [List.length_take, Nat.min_eq_left h.stop_le] at hlength
    exact hlength.symm
  have hnew : task.newBlocks view = view.drop stop := by
    cases view with
    | nil =>
        rw [List.drop_nil]
        exact if_pos (Nat.zero_le _)
    | cons block rest =>
        rw [FollowState.newBlocks_eq (hchain.of_prefix (List.cons_ne_nil _ _) hview).blocks,
          hheight]
  by_cases hshort : view.length ≤ stop
  · rw [List.drop_of_length_le hshort] at hnew
    rw [followPoll, FollowState.followPoll, hnew, FollowState.followBlocks, List.append_nil]
    exact ⟨stop, hshort, h, htask⟩
  · have hlong : stop ≤ view.length := Nat.le_of_not_le hshort
    have hsplit : chain.take stop ++ view.drop stop = view := by
      rw [← take_eq_of_isPrefix hview hlong, List.take_append_drop]
    have hnonempty : view ≠ [] := by
      intro hnil
      rw [hnil] at hshort
      exact hshort (Nat.zero_le _)
    have hfull : HonestChain U M (chain.take stop ++ view.drop stop) := by
      rw [hsplit]
      exact hchain.of_prefix hnonempty hview
    rcases announced_followBlocks htask hfull (h.announced hbase) with ⟨htask', hannounced⟩
    rw [hsplit, ← hnew] at htask' hannounced
    have hview' : view = chain.take view.length := List.prefix_iff_eq_take.mp hview
    have hle : n ≤ view.length := Nat.le_trans h.le hlong
    have hqueue := hannounced.queue
    rw [take_eq_of_isPrefix hview hle, congrArg (List.drop n) hview'] at hqueue
    exact ⟨view.length, Nat.le_refl _, ⟨h.tree, hle, hview.length_le, hqueue⟩,
      hview' ▸ htask'⟩

theorem StageOn.poll {task : FollowState} {livePir : Option (PirState σ)} {view : ChainView}
    (hchain : HonestChain U M chain) (hview : view.IsPrefix chain)
    (h : StageOn M engine w chain tree livePir (.following task queue)) :
    StageOn M engine w chain tree livePir
      (.following (followPoll task view).1 (queue ++ (followPoll task view).2)) := by
  cases h with
  | following hlive hshows hawaits htask =>
      rcases hawaits.poll hchain hview hshows.base_lt htask with ⟨_, _, hpolled, htask'⟩
      exact .following hlive hshows hpolled htask'

theorem Awaits.handle {event : WitnessChainEvent} (hengine : engine.Accepts scenario)
    (hw : w.Sound M chain) (hchain : HonestChain U M chain) (hbase : w.base < n)
    (h : Awaits M w chain n stop tree (event :: queue)) :
    exists tree' pir, handleEvent M engine tree event = .ok (tree', pir) ∧
      pir.Shows M engine w chain (n + 1) ∧ Awaits M w chain (n + 1) stop tree' queue := by
  rcases h.append hw hchain "follow mode" with
    ⟨height, hash, prevHash, commitments, priorTreeSize, appended, rfl, happend, hawaits⟩
  rcases rebuildPir_of_onWindow hengine hchain hawaits.tree (Nat.lt_succ_of_lt hbase) with
    ⟨tree', pir, hrebuild, hon, hshows⟩
  refine ⟨tree', pir, ?_, hshows, hon, hawaits.le, hawaits.stop_le, hawaits.queue⟩
  change (appendValidated "follow mode" tree _ _ _ _ >>= _) = _
  rw [happend, ok_bind]
  exact hrebuild

theorem ServingRun.livePirAfter_work {s : ServingRun σ} {task : FollowState}
    {event : WitnessChainEvent} {rest : List WitnessChainEvent} {tree' : CommitmentTreeDb}
    {pir : PirState σ} (hstage : s.run.stage = .following task (event :: rest))
    (hhandle : handleEvent M engine s.run.tree event = .ok (tree', pir)) :
    s.livePirAfter M engine .work = some pir := by
  change (ServingRun.published M engine s.run .work).or s.livePir = some pir
  rw [ServingRun.published, hstage]
  dsimp only
  rw [hhandle]
  rfl

theorem windowInvariant_work {s s' : ServingRun σ} {task : FollowState}
    {event : WitnessChainEvent} (hengine : engine.Accepts scenario) (hw : w.Sound M chain)
    (hchain : HonestChain U M chain) (h : WindowInvariant M engine w chain s)
    (hstage : s.run.stage = .following task (event :: queue))
    (hrun : s'.run = s.run.work config M engine task event queue)
    (hlive : s'.livePir = s.livePirAfter M engine .work) :
    WindowInvariant M engine w chain s' := by
  have hon := h.stage
  rw [hstage] at hon
  cases hon with
  | @following _ _ n stop pir hsome hshows hawaits htask =>
      rcases hawaits.handle hengine hw hchain hshows.base_lt with
        ⟨tree', pir', hhandle, hshows', hawaits'⟩
      have hsome' := hlive.trans (ServingRun.livePirAfter_work hstage hhandle)
      have hworked : s'.run.tree = tree' ∧ s'.run.stage = .following task queue := by
        rw [hrun]
        exact ServerRun.work_of_ok hhandle
      rcases hworked with ⟨htree, hfollowing⟩
      refine ⟨?_, ?_⟩
      · intro saved hsaved
        rw [hrun, ServerRun.work, hhandle] at hsaved
        dsimp only at hsaved
        split at hsaved
        · cases hsaved
          exact ⟨n + 1, Nat.lt_succ_of_lt hshows.base_lt, hawaits'.tree⟩
        · exact h.saved saved hsaved
      · rw [htree, hfollowing]
        exact .following hsome' hshows' hawaits' htask

theorem windowInvariant_step {s s' : ServingRun σ} {input : RunInput}
    (hengine : engine.Accepts scenario) (hw : w.Sound M chain) (hchain : HonestChain U M chain)
    (h : WindowInvariant M engine w chain s)
    (hstep : WindowStep config M engine w chain s input s') :
    WindowInvariant M engine w chain s' := by
  rcases hstep with ⟨⟨hrun, hlive⟩, hover⟩
  generalize hafter : s'.run = run' at hrun
  cases hrun with
  | start _ => exact windowInvariant_start hchain h hover hafter hlive
  | @receive event rest hstage =>
      have hon := h.stage
      rw [hstage] at hon
      cases hon with
      | @syncing _ n stop hnone hawaits =>
          rcases hawaits.append hw hchain "initial sync" with
            ⟨height, hash, prevHash, commitments, priorTreeSize, tree', rfl, happend, hawaits'⟩
          simp only [ServerRun.receive, happend] at hafter
          refine ⟨?_, ?_⟩
          · rw [hafter]
            exact h.saved
          · rw [hafter]
            exact .syncing (hlive.trans hnone) hawaits'
  | serve hstage =>
      exact windowInvariant_serve hengine hchain h hstage hover hafter hlive
  | @poll view task queue hstage =>
      have hon := h.stage
      rw [hstage] at hon
      refine ⟨?_, ?_⟩
      · rw [hafter]
        exact h.saved
      · have hsame : s'.livePir = s.livePir := hlive
        rw [hafter, hsame]
        exact hon.poll hchain hover
  | work hstage => exact windowInvariant_work hengine hw hchain h hstage hafter hlive
  | restart =>
      refine ⟨?_, ?_⟩
      · rw [hafter]
        exact h.saved
      · rw [hafter]
        exact .down

/-- A process starts over a saved tree that is on the window. -/
structure StartsOn (M : MerkleHashOrchard) (w : Window) (chain : ChainView)
    (start : ServingRun σ) : Prop where
  stage : start.run.stage = .down
  saved : forall tree, start.run.saved = some tree ->
    exists n, w.base < n ∧ OnWindow M w chain n tree

theorem StartsOn.invariant {start : ServingRun σ} (h : StartsOn M w chain start)
    (engine : PirEngine σ) : WindowInvariant M engine w chain start := by
  refine ⟨h.saved, ?_⟩
  rw [h.stage]
  exact .down

theorem WindowInvariant.later {s t : ServingRun σ} (h : WindowInvariant M engine w chain s)
    (hengine : engine.Accepts scenario) (hw : w.Sound M chain) (hchain : HonestChain U M chain)
    (hlater : Later (WindowStep config M engine w chain) s t) :
    WindowInvariant M engine w chain t :=
  hlater.invariant (fun _ _ _ hkept hstep => windowInvariant_step hengine hw hchain hkept hstep) h

theorem WindowInvariant.shows {s : ServingRun σ} (h : WindowInvariant M engine w chain s)
    (hrunning : s.running = true) {pir : PirState σ} (hpir : s.livePir = some pir) :
    exists n, pir.Shows M engine w chain n := by
  have hon := h.stage
  generalize hstage : s.run.stage = stage at hon
  cases hon with
  | down =>
      rw [ServingRun.running, hstage] at hrunning
      cases hrunning
  | stopped failure =>
      rw [ServingRun.running, hstage] at hrunning
      cases hrunning
  | syncing hnone _ =>
      rw [hnone] at hpir
      cases hpir
  | following hsome hshows _ _ =>
      rw [hsome] at hpir
      cases hpir
      exact ⟨_, hshows⟩

/-!
## A process that keeps running
-/

def SteadyStep (config : ServerConfig) (M : MerkleHashOrchard) (engine : PirEngine σ)
    (w : Window) (chain : ChainView) (s : ServingRun σ) (input : RunInput)
    (s' : ServingRun σ) : Prop :=
  WindowStep config M engine w chain s input s' ∧ input ≠ .restart

/-- The server follows and has published an anchor at least as high. -/
def ServesFrom (height : Nat) (s : ServingRun σ) : Prop :=
  exists task queue pir, s.run.stage = .following task queue ∧ s.livePir = some pir ∧
    height ≤ pir.metadata.anchorHeight

theorem ServesFrom.running {height : Nat} {s : ServingRun σ} (h : ServesFrom height s) :
    s.running = true := by
  rcases h with ⟨task, queue, _, hstage, _⟩
  rw [ServingRun.running, hstage]

theorem ServesFrom.mono {low height : Nat} {s : ServingRun σ} (h : ServesFrom height s)
    (hle : low ≤ height) : ServesFrom low s := by
  rcases h with ⟨task, queue, pir, hstage, hpir, hanchor⟩
  exact ⟨task, queue, pir, hstage, hpir, Nat.le_trans hle hanchor⟩

theorem servesFrom_step {s s' : ServingRun σ} {input : RunInput} {height : Nat}
    (hengine : engine.Accepts scenario) (hw : w.Sound M chain) (hchain : HonestChain U M chain)
    (h : WindowInvariant M engine w chain s) (hserves : ServesFrom height s)
    (hstep : SteadyStep config M engine w chain s input s') : ServesFrom height s' := by
  rcases hserves with ⟨task, queue, pir, hstage, hpir, hle⟩
  rcases hstep with ⟨⟨⟨hrun, hlive⟩, _⟩, hsteady⟩
  generalize hafter : s'.run = run' at hrun
  cases hrun with
  | start hdown =>
      rw [hstage] at hdown
      cases hdown
  | receive hother =>
      rw [hstage] at hother
      cases hother
  | serve hother =>
      rw [hstage] at hother
      cases hother
  | poll _ => exact ⟨_, _, pir, congrArg ServerRun.stage hafter, hlive.trans hpir, hle⟩
  | @work task' event rest hother =>
      have hon := h.stage
      rw [hother] at hon
      cases hon with
      | @following _ _ n stop _ hsome hshows hawaits htask =>
          rw [hpir] at hsome
          cases hsome
          rcases hawaits.handle hengine hw hchain hshows.base_lt with
            ⟨tree', pir', hhandle, hshows', _⟩
          have hsome' := hlive.trans (ServingRun.livePirAfter_work hother hhandle)
          have hfollowing : s'.run.stage = .following task' rest := by
            rw [hafter]
            exact (ServerRun.work_of_ok hhandle).right
          refine ⟨_, _, pir', hfollowing, hsome', ?_⟩
          rw [hshows'.anchorHeight]
          rw [hshows.anchorHeight] at hle
          lia
  | restart => exact absurd rfl hsteady

theorem later_of_steady {s t : ServingRun σ}
    (h : Later (SteadyStep config M engine w chain) s t) :
    Later (WindowStep config M engine w chain) s t :=
  h.mono (fun _ _ _ hstep => hstep.left)

theorem servesFrom_later {s t : ServingRun σ} {height : Nat}
    (hengine : engine.Accepts scenario) (hw : w.Sound M chain) (hchain : HonestChain U M chain)
    (h : WindowInvariant M engine w chain s) (hserves : ServesFrom height s)
    (hlater : Later (SteadyStep config M engine w chain) s t) : ServesFrom height t :=
  (hlater.invariant (P := fun s => WindowInvariant M engine w chain s ∧ ServesFrom height s)
    (fun _ _ _ hkept hstep =>
      ⟨windowInvariant_step hengine hw hchain hkept.left hstep.left,
        servesFrom_step hengine hw hchain hkept.left hkept.right hstep⟩) ⟨h, hserves⟩).right

end Steps

end Witness
end SpendabilityPir
