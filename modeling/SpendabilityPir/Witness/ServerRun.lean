import SpendabilityPir.Foundation.Transition
import SpendabilityPir.Witness.WitnessStartup

/-!
# Runs of the witness server, event by event

A server starts from its snapshot or from a prepared tree, receives the events of one
sync, publishes, and follows.  It saves its tree when the sync is complete and after some
number of followed blocks; whatever stops it, the next start loads what was saved last.
-/

namespace SpendabilityPir
namespace Witness

open Foundation Shared

structure ServerConfig where
  windowShardLimit : Nat
  snapshotInterval : Nat

/-- What the server is busy with: nothing, a sync, or following; or why it stopped. -/
inductive RunStage where
  | down
  | syncing (queue : List WitnessChainEvent)
  | following (task : FollowState) (queue : List WitnessChainEvent)
  | stopped (failure : Failure ServerError)

/-- The tree in memory, the tree in the snapshot file, and the followed blocks since. -/
structure ServerRun where
  tree : CommitmentTreeDb
  saved : Option CommitmentTreeDb
  blocksSinceSnapshot : Nat
  stage : RunStage

/-- What happens next; a start may find that its snapshot does not load. -/
inductive RunInput where
  | start (client : LwdClient) (connection : Option Connection) (loads : Bool)
  | receive
  | serve
  | poll (view : ChainView)
  | work
  | restart

namespace ServerRun

def loaded (s : ServerRun) (loads : Bool) : Option CommitmentTreeDb :=
  if loads then s.saved else none

def start (config : ServerConfig) (s : ServerRun) (client : LwdClient)
    (connection : Option Connection) (loads : Bool) : ServerRun :=
  let tipHeight := client.blocks.view.tipHeight
  match startingTree client tipHeight config.windowShardLimit (s.loaded loads) with
  | .error failure => { s with stage := .stopped failure }
  | .ok (tree, forwardStart, initialTreeSize) =>
      if forwardStart ≤ tipHeight then
        match connection with
        | none => { s with stage := .stopped (.error .ingest) }
        | some connection =>
            { s with
              tree := tree
              stage := .syncing (sync connection forwardStart tipHeight initialTreeSize) }
      else { s with tree := tree, stage := .syncing [] }

/-- One turn of the receiving loop of `syncRange`. -/
def receive (s : ServerRun) (event : WitnessChainEvent) (rest : List WitnessChainEvent) :
    ServerRun :=
  match event with
  | .newBlock height hash _ commitments priorTreeSize =>
      match appendValidated "initial sync" s.tree height hash commitments priorTreeSize with
      | .error failure => { s with stage := .stopped failure }
      | .ok tree => { s with tree := tree, stage := .syncing rest }
  | .reorg _ => { s with stage := .syncing rest }

/-- Save, publish, save again with the cache, and start the follow task. -/
def serve {σ : Type} (M : MerkleHashOrchard) (engine : PirEngine σ) (s : ServerRun) :
    ServerRun :=
  match rebuildPir M engine s.tree scenario (s.tree.latestHeight.getD 0) with
  | .error failure => { s with saved := some s.tree, stage := .stopped failure }
  | .ok (tree, _) =>
      { tree := tree
        saved := some tree
        blocksSinceSnapshot := 0
        stage := .following (WitnessServer.followStart tree) [] }

/-- The blocks since the last snapshot, with the one an event brings. -/
def countBlock (blocks : Nat) : WitnessChainEvent -> Nat
  | .newBlock .. => blocks + 1
  | .reorg _ => blocks

/-- One turn of the event loop, and the periodic snapshot. -/
def work {σ : Type} (config : ServerConfig) (M : MerkleHashOrchard) (engine : PirEngine σ)
    (s : ServerRun) (task : FollowState) (event : WitnessChainEvent)
    (rest : List WitnessChainEvent) : ServerRun :=
  match handleEvent M engine s.tree event with
  | .error failure => { s with stage := .stopped failure }
  | .ok (tree, _) =>
      let blocks := countBlock s.blocksSinceSnapshot event
      if blocks ≥ config.snapshotInterval then
        { tree := tree
          saved := some tree
          blocksSinceSnapshot := 0
          stage := .following task rest }
      else
        { tree := tree
          saved := s.saved
          blocksSinceSnapshot := blocks
          stage := .following task rest }

theorem serve_of_ok {σ : Type} {M : MerkleHashOrchard} {engine : PirEngine σ}
    {s : ServerRun} {tree : CommitmentTreeDb} {pir : PirState σ}
    (h : rebuildPir M engine s.tree scenario (s.tree.latestHeight.getD 0) = .ok (tree, pir)) :
    s.serve M engine =
      { tree := tree
        saved := some tree
        blocksSinceSnapshot := 0
        stage := .following (WitnessServer.followStart tree) [] } := by
  simp only [serve, h]

theorem work_of_ok {σ : Type} {config : ServerConfig} {M : MerkleHashOrchard}
    {engine : PirEngine σ} {s : ServerRun} {task : FollowState} {event : WitnessChainEvent}
    {rest : List WitnessChainEvent} {tree : CommitmentTreeDb} {pir : PirState σ}
    (h : handleEvent M engine s.tree event = .ok (tree, pir)) :
    (s.work config M engine task event rest).tree = tree ∧
      (s.work config M engine task event rest).stage = .following task rest := by
  simp only [work, h]
  split <;> exact ⟨rfl, rfl⟩

/-- What a step does in each stage. -/
inductive Step {σ : Type} (config : ServerConfig) (M : MerkleHashOrchard)
    (engine : PirEngine σ) (s : ServerRun) : RunInput -> ServerRun -> Prop where
  | start {client : LwdClient} {connection : Option Connection} {loads : Bool} :
      s.stage = .down ->
      Step config M engine s (.start client connection loads)
        (s.start config client connection loads)
  | receive {event : WitnessChainEvent} {rest : List WitnessChainEvent} :
      s.stage = .syncing (event :: rest) ->
      Step config M engine s .receive (s.receive event rest)
  | serve : s.stage = .syncing [] -> Step config M engine s .serve (s.serve M engine)
  | poll {view : ChainView} {task : FollowState} {queue : List WitnessChainEvent} :
      s.stage = .following task queue ->
      Step config M engine s (.poll view)
        { s with
          stage := .following (followPoll task view).1 (queue ++ (followPoll task view).2) }
  | work {task : FollowState} {event : WitnessChainEvent} {rest : List WitnessChainEvent} :
      s.stage = .following task (event :: rest) ->
      Step config M engine s .work (s.work config M engine task event rest)
  | restart : Step config M engine s .restart { s with stage := .down }

/-!
## One sync, event by event
-/

section Sync

variable {σ : Type} (config : ServerConfig) (M : MerkleHashOrchard) (engine : PirEngine σ)

theorem receive_cases (s : ServerRun) (event : WitnessChainEvent)
    (rest : List WitnessChainEvent) :
    (exists failure, s.receive event rest = { s with stage := .stopped failure } ∧
      appendEvents s.tree (event :: rest) = .error failure) ∨
    exists tree, s.receive event rest = { s with tree := tree, stage := .syncing rest } ∧
      appendEvents s.tree (event :: rest) = appendEvents tree rest := by
  cases event with
  | newBlock height hash prevHash commitments priorTreeSize =>
      cases happend : appendValidated "initial sync" s.tree height hash commitments
          priorTreeSize with
      | error failure =>
          left
          refine ⟨failure, ?_, ?_⟩
          · simp only [receive, happend]
          · rw [appendEvents, happend]
            rfl
      | ok tree =>
          right
          refine ⟨tree, ?_, ?_⟩
          · simp only [receive, happend]
          · rw [appendEvents, happend, ok_bind]
  | reorg rollbackTo => exact Or.inr ⟨s.tree, rfl, rfl⟩

theorem run_receive_ok {queue : List WitnessChainEvent} {s : ServerRun}
    {tree : CommitmentTreeDb} (hstage : s.stage = .syncing queue)
    (h : appendEvents s.tree queue = .ok tree) :
    exists count, Run (Step config M engine) s (List.replicate count .receive)
      { s with tree := tree, stage := .syncing [] } := by
  induction queue generalizing s with
  | nil =>
      cases h
      rw [← hstage]
      exact ⟨0, Run.nil s⟩
  | cons event rest ih =>
      have hstep : Step config M engine s .receive (s.receive event rest) :=
        Step.receive hstage
      rcases receive_cases s event rest with ⟨failure, _, herror⟩ | ⟨mid, hreceive, hrest⟩
      · rw [herror] at h
        cases h
      · rw [hrest] at h
        rw [hreceive] at hstep
        let next : ServerRun := { s with tree := mid, stage := .syncing rest }
        have hnext : next.stage = .syncing rest := rfl
        rcases ih hnext h with ⟨count, hrun⟩
        refine ⟨count + 1, ?_⟩
        rw [List.replicate_succ]
        exact hrun.cons hstep

theorem run_receive_error {queue : List WitnessChainEvent} {s : ServerRun}
    {failure : Failure ServerError} (hstage : s.stage = .syncing queue)
    (h : appendEvents s.tree queue = .error failure) :
    exists count tree, Run (Step config M engine) s (List.replicate count .receive)
      { s with tree := tree, stage := .stopped failure } := by
  induction queue generalizing s with
  | nil => cases h
  | cons event rest ih =>
      have hstep : Step config M engine s .receive (s.receive event rest) :=
        Step.receive hstage
      rcases receive_cases s event rest with ⟨found, hreceive, herror⟩ | ⟨mid, hreceive, hrest⟩
      · rw [herror] at h
        cases h
        rw [hreceive] at hstep
        exact ⟨1, s.tree, (Run.nil _).cons hstep⟩
      · rw [hrest] at h
        rw [hreceive] at hstep
        let next : ServerRun := { s with tree := mid, stage := .syncing rest }
        have hnext : next.stage = .syncing rest := rfl
        rcases ih hnext h with ⟨count, tree, hrun⟩
        refine ⟨count + 1, tree, ?_⟩
        rw [List.replicate_succ]
        exact hrun.cons hstep

end Sync
end ServerRun
end Witness
end SpendabilityPir
