import SpendabilityPir.Witness.ServerRecovery
import SpendabilityPir.Witness.SnapshotIo

/-!
# The witness server across crashes

The server loads the snapshot file when it starts, and saves the tree when the sync is
complete, again with its cache when it is published, and after some number of followed
blocks.  It may die at any point of this.  Each process continues on a window of the
chain, and the file is never far behind the tree that is served.
-/

namespace SpendabilityPir
namespace Witness

open Foundation Shared

/-- The saves that the main task waits for. -/
inductive SavePoint where
  | synced
  | published
  | periodic
deriving DecidableEq

/-- The server, its data directory and the save that is due. -/
structure WitnessLife (σ : Type) where
  serving : ServingRun σ
  files : Replacing String
  due : Option SavePoint

/-- What happens next.  The process dies when it is killed, when a save fails and when a
load panics. -/
inductive LifeInput where
  | start (client : LwdClient) (connection : Option Connection) (readable : Bool)
  | server (input : RunInput)
  | file (label : ReplaceLabel)
  | kill
  | powerLoss

namespace WitnessLife

variable {σ : Type}

def crashed (fs : FileSystem String) : WitnessLife σ :=
  { serving :=
      { run :=
          { tree := CommitmentTreeDb.new
            saved := none
            blocksSinceSnapshot := 0
            stage := .down }
        livePir := none }
    files := { fs := fs, stage := .idle }
    due := none }

/-- A server that has not been started yet, with an empty data directory. -/
def init : WitnessLife σ := crashed FileSystem.empty

/-- What a start finds; every error counts as no snapshot. -/
inductive Loads (mode : Arithmetic) (xxh64 : List UInt8 -> Nat -> UInt64)
    (s : WitnessLife σ) : Bool -> Option CommitmentTreeDb -> Prop where
  | snapshot {tree : CommitmentTreeDb} :
      loadSnapshot mode xxh64 s.files.fs = .ok tree -> Loads mode xxh64 s true (some tree)
  | invalid {e : SnapshotIoError} :
      loadSnapshot mode xxh64 s.files.fs = .error (.error e) -> Loads mode xxh64 s true none
  | unreadable : Loads mode xxh64 s false none

def reload (s : WitnessLife σ) (saved : Option CommitmentTreeDb) : ServingRun σ :=
  { s.serving with run := { s.serving.run with saved := saved } }

/-- The main task waits for its saves; the follow task starts after the second one. -/
def Admits (s : WitnessLife σ) : RunInput -> Prop
  | .start _ _ _ => False
  | .receive => True
  | .serve => s.due = none
  | .poll _ => s.due ≠ some .published
  | .work => s.due = none
  | .restart => False

def reachesInterval (config : ServerConfig) (run : ServerRun) : Bool :=
  match run.stage with
  | .following _ (event :: _) =>
      decide (ServerRun.countBlock run.blocksSinceSnapshot event ≥ config.snapshotInterval)
  | _ => false

def dueAfter (config : ServerConfig) (s : WitnessLife σ) (input : RunInput)
    (serving : ServingRun σ) : Option SavePoint :=
  match input, serving.run.stage with
  | .start _ _ _, .syncing [] => some .synced
  | .receive, .syncing [] => some .synced
  | .serve, .following _ _ => some .published
  | .poll _, _ => s.due
  | .work, .following _ _ =>
      if reachesInterval config s.serving.run then some .periodic else none
  | _, _ => none

/-- One step of `run` or of its surroundings. -/
inductive LifeStep (config : ServerConfig) (M : MerkleHashOrchard) (mode : Arithmetic)
    (xxh64 : List UInt8 -> Nat -> UInt64) (engine : PirEngine σ) (s : WitnessLife σ) :
    LifeInput -> WitnessLife σ -> Prop where
  | start {client : LwdClient} {connection : Option Connection} {readable : Bool}
      {saved : Option CommitmentTreeDb} {next : ServingRun σ} :
      s.Loads mode xxh64 readable saved ->
      (s.reload saved).Step config M engine (.start client connection true) next ->
      LifeStep config M mode xxh64 engine s (.start client connection readable)
        { s with
          serving := next
          due := s.dueAfter config (.start client connection true) next }
  | server {input : RunInput} {next : ServingRun σ} :
      s.Admits input -> s.serving.Step config M engine input next ->
      LifeStep config M mode xxh64 engine s (.server input)
        { s with serving := next, due := s.dueAfter config input next }
  | startSave {files : Replacing String} :
      s.due ≠ none ->
      SaveStep s.files (.start (s.serving.run.tree.toSnapshot xxh64)) files ->
      LifeStep config M mode xxh64 engine s
        (.file (.start (s.serving.run.tree.toSnapshot xxh64))) { s with files := files }
  | write {count : Nat} {files : Replacing String} :
      SaveStep s.files (.write count) files ->
      LifeStep config M mode xxh64 engine s (.file (.write count)) { s with files := files }
  | sync {files : Replacing String} :
      SaveStep s.files .sync files ->
      LifeStep config M mode xxh64 engine s (.file .sync) { s with files := files }
  | rename {files : Replacing String} :
      SaveStep s.files .rename files ->
      LifeStep config M mode xxh64 engine s (.file .rename)
        { s with files := files, due := none }
  | kill : LifeStep config M mode xxh64 engine s .kill (crashed s.files.fs)
  | powerLoss {fs : FileSystem String} :
      s.files.fs.PowerLoss fs ->
      LifeStep config M mode xxh64 engine s .powerLoss (crashed fs)

/-- What lightwalletd answers is part of the chain, and gives a window of it when there is
no snapshot; a tree is saved with a record. -/
def OverChain (config : ServerConfig) (M : MerkleHashOrchard) (mode : Arithmetic)
    (xxh64 : List UInt8 -> Nat -> UInt64) (chain : ChainView) (s : WitnessLife σ) :
    LifeInput -> Prop
  | .start client connection readable =>
      (forall served, connection = some served -> served.view.IsPrefix chain) ∧
      (s.Loads mode xxh64 readable none ->
        exists w, w.Sound M chain ∧ ReportsWindow M w chain client config.windowShardLimit)
  | .server (.poll view) => view.IsPrefix chain
  | .file (.start _) => s.serving.run.tree.blocks ≠ []
  | _ => True

def StepOver (config : ServerConfig) (M : MerkleHashOrchard) (mode : Arithmetic)
    (xxh64 : List UInt8 -> Nat -> UInt64) (engine : PirEngine σ) (chain : ChainView)
    (s : WitnessLife σ) (input : LifeInput) (s' : WitnessLife σ) : Prop :=
  LifeStep config M mode xxh64 engine s input s' ∧
    s.OverChain config M mode xxh64 chain input

/-!
## The invariant
-/

section Invariant

variable (M : MerkleHashOrchard) (xxh64 : List UInt8 -> Nat -> UInt64)
variable (engine : PirEngine σ) (chain : ChainView) (interval : Nat) (w : Window)

/-- The file is the snapshot of a tree of the window, with a record. -/
structure HoldsSnapshot (a : AtomicFile) (m : Nat) : Prop where
  base_lt : w.base < m
  tree : exists saved, OnWindow M w chain m saved ∧
    a.current = some (saved.toSnapshot xxh64)

/-- The file is at most some number of blocks behind. -/
structure Behind (a : AtomicFile) (n lag : Nat) : Prop where
  snapshot : exists m, HoldsSnapshot M xxh64 chain w a m ∧ m ≤ n ∧ n ≤ m + lag

def lag (s : WitnessLife σ) : Nat :=
  if s.due = some .periodic then max interval 1 else s.serving.run.blocksSinceSnapshot

/-- The process is on a window, the data directory only ever has snapshots of trees of such
windows, and the file is at most an interval of blocks behind the tree in memory. -/
structure LifeInvariant (s : WitnessLife σ) (a : AtomicFile) : Prop where
  sound : s.serving.run.stage ≠ .down -> w.Sound M chain
  window : WindowInvariant M engine w chain s.serving
  stands : StandsFor snapshotTmpFilename snapshotFilename s.files a
  offers : a.Offers (SavedTree M xxh64 chain)
  saving : s.files.stage ≠ .idle ->
    s.due ≠ none ∧ s.serving.run.tree.blocks ≠ [] ∧
      a.pending = some (s.serving.run.tree.toSnapshot xxh64)
  awaited : s.due ≠ none -> s.serving.run.stage = .syncing [] ∨
    exists task queue, s.serving.run.stage = .following task queue
  synced : s.serving.run.stage = .syncing [] -> s.due = none ->
    exists n, HoldsSnapshot M xxh64 chain w a n ∧ OnWindow M w chain n s.serving.run.tree
  following : forall task queue, s.serving.run.stage = .following task queue ->
    exists n, OnWindow M w chain n s.serving.run.tree ∧
      Behind M xxh64 chain w a n (s.lag interval)
  bounded : forall task queue, s.serving.run.stage = .following task queue ->
    s.serving.run.blocksSinceSnapshot < max interval 1

end Invariant

/-!
## Steps of the server
-/

section Steps

variable {M : MerkleHashOrchard} {mode : Arithmetic} {xxh64 : List UInt8 -> Nat -> UInt64}
variable {engine : PirEngine σ} {chain : ChainView} {config : ServerConfig} {w : Window}
variable {U : BlockUniverse} {interval : Nat} {s : WitnessLife σ} {a : AtomicFile}

theorem LifeInvariant.files_idle (h : LifeInvariant M xxh64 engine chain interval w s a)
    (hdue : s.due = none) : s.files.stage = .idle := by
  by_contra hbusy
  exact (h.saving hbusy).left hdue

theorem LifeInvariant.lag_le (h : LifeInvariant M xxh64 engine chain interval w s a)
    {task : FollowState} {queue : List WitnessChainEvent}
    (hfollow : s.serving.run.stage = .following task queue) :
    s.lag interval ≤ max interval 1 := by
  unfold lag
  split
  · exact Nat.le_refl _
  · exact Nat.le_of_lt (h.bounded task queue hfollow)

theorem LifeInvariant.due_eq_none (h : LifeInvariant M xxh64 engine chain interval w s a)
    (hsyncing : s.serving.run.stage ≠ .syncing [])
    (hfollowing : forall task queue, s.serving.run.stage ≠ .following task queue) :
    s.due = none := by
  by_contra hdue
  rcases h.awaited hdue with hsynced | ⟨task, queue, hfollow⟩
  · exact hsyncing hsynced
  · exact hfollowing task queue hfollow

theorem lifeInvariant_syncing {w' : Window} {next : ServingRun σ} {due : Option SavePoint}
    (h : LifeInvariant M xxh64 engine chain interval w s a) (hdue : s.due = none)
    (hw : w'.Sound M chain) (hwindow : WindowInvariant M engine w' chain next)
    (hstage : forall task queue, next.run.stage ≠ .following task queue)
    (hcomplete : next.run.stage = .syncing [] -> due = some .synced)
    (hother : next.run.stage ≠ .syncing [] -> due = none) :
    LifeInvariant M xxh64 engine chain interval w'
      { s with serving := next, due := due } a where
  sound _ := hw
  window := hwindow
  stands := h.stands
  offers := h.offers
  saving hbusy := absurd (h.files_idle hdue) hbusy
  awaited hsome := by
    left
    by_contra hincomplete
    exact hsome (hother hincomplete)
  synced hsynced hnone := by
    change due = none at hnone
    rw [hcomplete hsynced] at hnone
    cases hnone
  following task queue hfollow := absurd hfollow (hstage task queue)
  bounded task queue hfollow := absurd hfollow (hstage task queue)

theorem step_start {run next : ServerRun} {client : LwdClient}
    {connection : Option Connection} {loads : Bool}
    (h : ServerRun.Step config M engine run (.start client connection loads) next) :
    run.stage = .down ∧ next = run.start config client connection loads := by
  cases h with
  | start hdown => exact ⟨hdown, rfl⟩

theorem not_following_start (run : ServerRun) {client : LwdClient}
    {connection : Option Connection} {loads : Bool} (task : FollowState)
    (queue : List WitnessChainEvent) :
    (run.start config client connection loads).stage ≠ .following task queue := by
  unfold ServerRun.start
  dsimp only
  split
  · simp
  · split
    · split <;> simp
    · simp

theorem lifeInvariant_start {client : LwdClient} {connection : Option Connection}
    {readable : Bool} {saved : Option CommitmentTreeDb} {next : ServingRun σ}
    (hengine : engine.Accepts scenario) (hchain : HonestChain U M chain)
    (hshort : chain.length ≤ 2 ^ 31)
    (h : LifeInvariant M xxh64 engine chain interval w s a)
    (hloads : s.Loads mode xxh64 readable saved)
    (hstep : (s.reload saved).Step config M engine (.start client connection true) next)
    (hover : s.OverChain config M mode xxh64 chain (.start client connection readable)) :
    exists w', LifeInvariant M xxh64 engine chain interval w'
      { s with
        serving := next
        due := s.dueAfter config (.start client connection true) next } a := by
  rcases step_start hstep.left with ⟨hdown, hnext⟩
  change s.serving.run.stage = .down at hdown
  have hdue : s.due = none := by
    apply h.due_eq_none
    · simp [hdown]
    · simp [hdown]
  have hwindow : exists w', w'.Sound M chain ∧
      (forall tree, saved = some tree -> exists n, w'.base < n ∧ OnWindow M w' chain n tree) ∧
      (saved = none -> ReportsWindow M w' chain client config.windowShardLimit) := by
    cases hloads with
    | snapshot hload =>
        rcases loadSnapshot_of_offers mode hchain hshort h.stands h.offers with
          hmissing | ⟨w', n, tree, hw, hbase, hon, hfound⟩
        · rw [hmissing] at hload
          cases hload
        · rw [hfound] at hload
          cases hload
          refine ⟨w', hw, ?_, ?_⟩
          · intro tree htree
            cases htree
            exact ⟨n, hbase, hon⟩
          · intro hfalse
            cases hfalse
    | invalid hload =>
        rcases hover.right (.invalid hload) with ⟨w', hw, hreports⟩
        exact ⟨w', hw, fun _ hfalse => (nomatch hfalse), fun _ => hreports⟩
    | unreadable =>
        rcases hover.right .unreadable with ⟨w', hw, hreports⟩
        exact ⟨w', hw, fun _ hfalse => (nomatch hfalse), fun _ => hreports⟩
  rcases hwindow with ⟨w', hw, hsaved, hfresh⟩
  have hbefore : WindowInvariant M engine w' chain (s.reload saved) := by
    refine ⟨hsaved, ?_⟩
    change StageOn M engine w' chain _ _ s.serving.run.stage
    rw [hdown]
    exact .down
  have hafter := windowInvariant_step hengine hw hchain hbefore
    ⟨hstep, hover.left, hfresh⟩
  have hstage : forall task queue, next.run.stage ≠ .following task queue := by
    rw [hnext]
    exact not_following_start _
  exact ⟨w', lifeInvariant_syncing h hdue hw hafter hstage
    (fun hcomplete => by simp [dueAfter, hcomplete])
    (fun hother => by
      unfold dueAfter
      split <;> simp_all)⟩

theorem lifeInvariant_receive {next : ServingRun σ} (hengine : engine.Accepts scenario)
    (hchain : HonestChain U M chain)
    (h : LifeInvariant M xxh64 engine chain interval w s a)
    {event : WitnessChainEvent} {rest : List WitnessChainEvent}
    (hstage : s.serving.run.stage = .syncing (event :: rest))
    (hnext : next.run = s.serving.run.receive event rest)
    (hstep : s.serving.Step config M engine .receive next) :
    LifeInvariant M xxh64 engine chain interval w
      { s with serving := next, due := s.dueAfter config .receive next } a := by
  have hw := h.sound (by simp [hstage])
  have hdue : s.due = none := by
    apply h.due_eq_none
    · simp [hstage]
    · simp [hstage]
  have hafter := windowInvariant_step hengine hw hchain h.window ⟨hstep, trivial⟩
  have hother : forall task queue, next.run.stage ≠ .following task queue := by
    intro task queue hfollow
    rw [hnext] at hfollow
    rcases ServerRun.receive_cases s.serving.run event rest with
      ⟨failure, hreceive, _⟩ | ⟨tree, hreceive, _⟩
    · simp [hreceive] at hfollow
    · simp [hreceive] at hfollow
  exact lifeInvariant_syncing h hdue hw hafter hother
    (fun hcomplete => by simp [dueAfter, hcomplete])
    (fun hincomplete => by
      unfold dueAfter
      split <;> simp_all)

theorem lifeInvariant_serve {next : ServingRun σ} (hengine : engine.Accepts scenario)
    (hchain : HonestChain U M chain)
    (h : LifeInvariant M xxh64 engine chain interval w s a)
    (hstage : s.serving.run.stage = .syncing []) (hdue : s.due = none)
    (hnext : next.run = s.serving.run.serve M engine)
    (hstep : s.serving.Step config M engine .serve next) :
    LifeInvariant M xxh64 engine chain interval w
      { s with serving := next, due := s.dueAfter config .serve next } a := by
  have hw := h.sound (by simp [hstage])
  rcases h.synced hstage hdue with ⟨n, hsaved, hon⟩
  have hrecord : s.serving.run.tree.blocks ≠ [] := by
    intro hnil
    exact Nat.ne_of_gt hsaved.base_lt (hon.blocks_eq_nil_iff.mp hnil)
  have hafter := windowInvariant_step hengine hw hchain h.window ⟨hstep, hrecord⟩
  rcases rebuildPir_of_onWindow hengine hchain hon hsaved.base_lt with
    ⟨tree, pir, hrebuild, hon', _⟩
  rw [ServerRun.serve_of_ok hrebuild] at hnext
  have hfollow : next.run.stage = .following (WitnessServer.followStart tree) [] := by
    rw [hnext]
  have hpublished : s.dueAfter config .serve next = some .published := by
    simp [dueAfter, hfollow]
  rw [hpublished]
  have hpos : 0 < max interval 1 := Nat.lt_of_lt_of_le Nat.one_pos (Nat.le_max_right _ _)
  constructor
  · exact fun _ => hw
  · exact hafter
  · exact h.stands
  · exact h.offers
  · exact fun hbusy => absurd (h.files_idle hdue) hbusy
  · exact fun _ => Or.inr ⟨_, _, hfollow⟩
  · intro hsynced
    rw [hfollow] at hsynced
    cases hsynced
  · intro _ _ _
    refine ⟨n, ?_, n, hsaved, Nat.le_refl n, Nat.le_add_right _ _⟩
    change OnWindow M w chain n next.run.tree
    rw [hnext]
    exact hon'
  · intro _ _ _
    change next.run.blocksSinceSnapshot < max interval 1
    rw [hnext]
    exact hpos

theorem lifeInvariant_poll {next : ServingRun σ} {view : ChainView}
    (hengine : engine.Accepts scenario) (hchain : HonestChain U M chain)
    (h : LifeInvariant M xxh64 engine chain interval w s a)
    {task : FollowState} {queue : List WitnessChainEvent}
    (hstage : s.serving.run.stage = .following task queue)
    {task' : FollowState} {queue' : List WitnessChainEvent}
    (hnext : next.run = { s.serving.run with stage := .following task' queue' })
    (hview : view.IsPrefix chain)
    (hstep : s.serving.Step config M engine (.poll view) next) :
    LifeInvariant M xxh64 engine chain interval w
      { s with serving := next, due := s.dueAfter config (.poll view) next } a := by
  have hw := h.sound (by simp [hstage])
  have hsame : s.dueAfter config (.poll view) next = s.due := rfl
  have htree : next.run.tree = s.serving.run.tree := by rw [hnext]
  have hcount : next.run.blocksSinceSnapshot = s.serving.run.blocksSinceSnapshot := by
    rw [hnext]
  rw [hsame]
  constructor
  · exact fun _ => hw
  · exact windowInvariant_step hengine hw hchain h.window ⟨hstep, hview⟩
  · exact h.stands
  · exact h.offers
  · change s.files.stage ≠ .idle -> _ ∧ next.run.tree.blocks ≠ [] ∧
      a.pending = some (next.run.tree.toSnapshot xxh64)
    rw [htree]
    exact h.saving
  · intro _
    right
    exact ⟨task', queue', by rw [hnext]⟩
  · intro hsynced
    change next.run.stage = .syncing [] at hsynced
    rw [hnext] at hsynced
    cases hsynced
  · intro _ _ _
    rcases h.following task queue hstage with ⟨n, hon, hbehind⟩
    refine ⟨n, ?_, ?_⟩
    · change OnWindow M w chain n next.run.tree
      rw [htree]
      exact hon
    · have hlag : lag interval { s with serving := next, due := s.due } = s.lag interval := by
        simp only [lag, hcount]
      rw [hlag]
      exact hbehind
  · intro _ _ _
    change next.run.blocksSinceSnapshot < max interval 1
    rw [hcount]
    exact h.bounded task queue hstage

theorem blocksSinceSnapshot_work (config : ServerConfig) {run : ServerRun}
    (task : FollowState) {event : WitnessChainEvent} (rest : List WitnessChainEvent)
    {tree : CommitmentTreeDb} {pir : PirState σ}
    (h : handleEvent M engine run.tree event = .ok (tree, pir)) :
    (run.work config M engine task event rest).blocksSinceSnapshot =
      if ServerRun.countBlock run.blocksSinceSnapshot event ≥ config.snapshotInterval then 0
      else ServerRun.countBlock run.blocksSinceSnapshot event := by
  simp only [ServerRun.work, h]
  split
  · rfl
  · rfl

theorem lifeInvariant_work {next : ServingRun σ} (hengine : engine.Accepts scenario)
    (hchain : HonestChain U M chain)
    (h : LifeInvariant M xxh64 engine chain config.snapshotInterval w s a)
    {task : FollowState} {event : WitnessChainEvent} {rest : List WitnessChainEvent}
    (hstage : s.serving.run.stage = .following task (event :: rest)) (hdue : s.due = none)
    (hnext : next.run = s.serving.run.work config M engine task event rest)
    (hstep : s.serving.Step config M engine .work next) :
    LifeInvariant M xxh64 engine chain config.snapshotInterval w
      { s with serving := next, due := s.dueAfter config .work next } a := by
  have hw := h.sound (by simp [hstage])
  have hafter := windowInvariant_step hengine hw hchain h.window ⟨hstep, trivial⟩
  rcases h.following task _ hstage with ⟨n, hon, m, hsaved, hle, hbehind⟩
  have hlt := h.bounded task _ hstage
  have hstart := h.window.stage
  rw [hstage] at hstart
  cases hstart with
  | @following _ _ held stop pir hlive hshows hawaits htask =>
      have hsame : held = n := hawaits.tree.unique hon
      rw [hsame] at hawaits hshows
      rcases hawaits.handle hengine hw hchain hshows.base_lt with
        ⟨tree', pir', hhandle, _, hawaits'⟩
      have hworked : next.run.tree = tree' ∧ next.run.stage = .following task rest := by
        rw [hnext]
        exact ServerRun.work_of_ok hhandle
      rcases hworked with ⟨htree, hfollow⟩
      have hblocks := blocksSinceSnapshot_work config task rest hhandle
      rcases hawaits.next with ⟨block, _, _, hevent, _⟩
      have hcount : ServerRun.countBlock s.serving.run.blocksSinceSnapshot event =
          s.serving.run.blocksSinceSnapshot + 1 := by
        rw [hevent]
        rfl
      rw [← hnext, hcount] at hblocks
      have hbehind' : n ≤ m + s.serving.run.blocksSinceSnapshot := by
        simp only [lag, hdue] at hbehind
        exact hbehind
      have hdueAfter : s.dueAfter config .work next =
          if s.serving.run.blocksSinceSnapshot + 1 ≥ config.snapshotInterval then
            some .periodic
          else none := by
        simp [dueAfter, hfollow, reachesInterval, hstage, hcount]
      rw [hdueAfter]
      constructor
      · exact fun _ => hw
      · exact hafter
      · exact h.stands
      · exact h.offers
      · exact fun hbusy => absurd (h.files_idle hdue) hbusy
      · exact fun _ => Or.inr ⟨task, rest, hfollow⟩
      · intro hsynced
        change next.run.stage = .syncing [] at hsynced
        rw [hfollow] at hsynced
        cases hsynced
      · intro _ _ _
        refine ⟨n + 1, ?_, m, hsaved, Nat.le_succ_of_le hle, ?_⟩
        · change OnWindow M w chain (n + 1) next.run.tree
          rw [htree]
          exact hawaits'.tree
        · simp only [lag, hblocks]
          split <;> simp <;> lia
      · intro _ _ _
        change next.run.blocksSinceSnapshot < max config.snapshotInterval 1
        rw [hblocks]
        split <;> lia

/-!
## Steps of a save
-/

theorem lifeInvariant_file {b : AtomicFile} {files : Replacing String}
    (h : LifeInvariant M xxh64 engine chain interval w s a)
    (hstands : StandsFor snapshotTmpFilename snapshotFilename files b)
    (hoffers : b.Offers (SavedTree M xxh64 chain)) (hcurrent : b.current = a.current)
    (hsaving : files.stage ≠ .idle ->
      s.due ≠ none ∧ s.serving.run.tree.blocks ≠ [] ∧
        b.pending = some (s.serving.run.tree.toSnapshot xxh64)) :
    LifeInvariant M xxh64 engine chain interval w { s with files := files } b where
  sound := h.sound
  window := h.window
  stands := hstands
  offers := hoffers
  saving := hsaving
  awaited := h.awaited
  synced hsynced hdue := by
    rcases h.synced hsynced hdue with ⟨n, ⟨hbase, saved, hsaved, hdata⟩, hon⟩
    exact ⟨n, ⟨hbase, saved, hsaved, hcurrent.trans hdata⟩, hon⟩
  following task queue hfollow := by
    rcases h.following task queue hfollow with
      ⟨n, hon, m, ⟨hbase, saved, hsaved, hdata⟩, hbehind⟩
    exact ⟨n, hon, m, ⟨hbase, saved, hsaved, hcurrent.trans hdata⟩, hbehind⟩
  bounded := h.bounded

theorem LifeInvariant.tree_onWindow (h : LifeInvariant M xxh64 engine chain interval w s a)
    (hdue : s.due ≠ none) (hrecord : s.serving.run.tree.blocks ≠ []) :
    exists n, w.base < n ∧ OnWindow M w chain n s.serving.run.tree := by
  have hbase : forall n, OnWindow M w chain n s.serving.run.tree -> w.base < n := by
    intro n hon
    have hne := fun heq => hrecord (hon.blocks_eq_nil_iff.mpr heq)
    have hle := hon.base_le
    lia
  rcases h.awaited hdue with hsynced | ⟨task, queue, hfollow⟩
  · have hon := h.window.stage
    rw [hsynced] at hon
    cases hon with
    | syncing _ hawaits => exact ⟨_, hbase _ hawaits.tree, hawaits.tree⟩
  · rcases h.following task queue hfollow with ⟨n, hon, _⟩
    exact ⟨n, hbase n hon, hon⟩

theorem lifeInvariant_rename {b : AtomicFile} {files : Replacing String}
    (h : LifeInvariant M xxh64 engine chain interval w s a)
    (hstands : StandsFor snapshotTmpFilename snapshotFilename files b)
    (hoffers : b.Offers (SavedTree M xxh64 chain)) (hbusy : s.files.stage ≠ .idle)
    (hidle : files.stage = .idle) {payload : List UInt8}
    (hpending : a.pending = some payload) (hcurrent : b.current = some payload) :
    LifeInvariant M xxh64 engine chain interval w
      { s with files := files, due := none } b := by
  rcases h.saving hbusy with ⟨hdue, hrecord, hsnapshot⟩
  rcases h.tree_onWindow hdue hrecord with ⟨n, hbase, hon⟩
  have hholds : HoldsSnapshot M xxh64 chain w b n :=
    ⟨hbase, _, hon, hcurrent.trans (hpending.symm.trans hsnapshot)⟩
  constructor
  · exact h.sound
  · exact h.window
  · exact hstands
  · exact hoffers
  · exact fun hbusy => absurd hidle hbusy
  · exact fun hfalse => absurd rfl hfalse
  · exact fun _ _ => ⟨n, hholds, hon⟩
  · intro _ _ _
    exact ⟨n, hon, n, hholds, Nat.le_refl n, Nat.le_add_right _ _⟩
  · exact h.bounded

/-!
## Whole lives
-/

theorem lifeInvariant_crashed {fs : FileSystem String} {b : AtomicFile}
    (hstands : StandsFor snapshotTmpFilename snapshotFilename { fs := fs, stage := .idle } b)
    (hoffers : b.Offers (SavedTree M xxh64 chain)) :
    LifeInvariant M xxh64 engine chain interval w (crashed fs : WitnessLife σ) b where
  sound hdown := absurd rfl hdown
  window := ⟨fun _ hfalse => (nomatch hfalse), .down⟩
  stands := hstands
  offers := hoffers
  saving hbusy := absurd rfl hbusy
  awaited hdue := absurd rfl hdue
  synced hfalse := (nomatch hfalse)
  following _ _ hfalse := (nomatch hfalse)
  bounded _ _ hfalse := (nomatch hfalse)

theorem lifeInvariant_server {input : RunInput} {next : ServingRun σ}
    (hengine : engine.Accepts scenario) (hchain : HonestChain U M chain)
    (h : LifeInvariant M xxh64 engine chain config.snapshotInterval w s a)
    (hadmits : s.Admits input) (hstep : s.serving.Step config M engine input next)
    (hover : s.OverChain config M mode xxh64 chain (.server input)) :
    LifeInvariant M xxh64 engine chain config.snapshotInterval w
      { s with serving := next, due := s.dueAfter config input next } a := by
  have hrun := hstep.left
  generalize hnext : next.run = run at hrun
  cases hrun with
  | start _ => exact hadmits.elim
  | receive hstage => exact lifeInvariant_receive hengine hchain h hstage hnext hstep
  | serve hstage => exact lifeInvariant_serve hengine hchain h hstage hadmits hnext hstep
  | poll hstage => exact lifeInvariant_poll hengine hchain h hstage hnext hover hstep
  | work hstage => exact lifeInvariant_work hengine hchain h hstage hadmits hnext hstep
  | restart => exact hadmits.elim

theorem lifeInvariant_step {s' : WitnessLife σ} {input : LifeInput}
    (hengine : engine.Accepts scenario) (hchain : HonestChain U M chain)
    (hshort : chain.length ≤ 2 ^ 31)
    (h : LifeInvariant M xxh64 engine chain config.snapshotInterval w s a)
    (hstep : StepOver config M mode xxh64 engine chain s input s') :
    exists w' b, LifeInvariant M xxh64 engine chain config.snapshotInterval w' s' b := by
  rcases hstep with ⟨hstep, hover⟩
  cases hstep with
  | start hloads hstart =>
      rcases lifeInvariant_start hengine hchain hshort h hloads hstart hover with ⟨w', h'⟩
      exact ⟨w', a, h'⟩
  | server hadmits hserver =>
      exact ⟨w, a, lifeInvariant_server hengine hchain h hadmits hserver hover⟩
  | startSave hdue hsave =>
      rcases h.tree_onWindow hdue hover with ⟨n, hbase, hon⟩
      have hw : w.Sound M chain := by
        apply h.sound
        intro hdown
        rcases h.awaited hdue with hsynced | ⟨task, queue, hfollow⟩
        · rw [hdown] at hsynced
          cases hsynced
        · rw [hdown] at hfollow
          cases hfollow
      rcases standsFor_step snapshotFilenames_ne h.stands hsave with ⟨b, hb, hstands⟩
      cases hb
      have hoffers := h.offers.start ⟨w, n, _, hw, hbase, hon, rfl⟩
      exact ⟨w, _, lifeInvariant_file h hstands hoffers rfl (fun _ => ⟨hdue, hover, rfl⟩)⟩
  | write hsave =>
      rcases standsFor_step snapshotFilenames_ne h.stands hsave with ⟨b, hb, hstands⟩
      cases hb
      cases hsave with
      | write hstage =>
          refine ⟨w, a, lifeInvariant_file h hstands h.offers rfl (fun _ => h.saving ?_)⟩
          simp [hstage]
  | sync hsave =>
      rcases standsFor_step snapshotFilenames_ne h.stands hsave with ⟨b, hb, hstands⟩
      cases hb
      cases hsave with
      | sync hstage =>
          refine ⟨w, a, lifeInvariant_file h hstands h.offers rfl (fun _ => h.saving ?_)⟩
          simp [hstage]
  | rename hsave =>
      rcases standsFor_step snapshotFilenames_ne h.stands hsave with ⟨b, hb, hstands⟩
      cases hb with
      | rename hpending =>
          have hoffers := h.offers.rename hpending
          cases hsave with
          | rename hstage =>
              have hbusy : s.files.stage ≠ .idle := by simp [hstage]
              exact ⟨w, _, lifeInvariant_rename h hstands hoffers hbusy rfl hpending rfl⟩
  | kill =>
      exact ⟨w, _, lifeInvariant_crashed h.stands.giveUp h.offers.giveUp⟩
  | powerLoss hloss =>
      rcases h.stands.powerLoss hloss with ⟨hmem, hstands⟩
      exact ⟨w, _, lifeInvariant_crashed hstands (h.offers.powerLoss hmem)⟩

/-- In every life over the chain, some window and some version history of the snapshot
file explain the state. -/
theorem lifeInvariant_run {inputs : List LifeInput} (hengine : engine.Accepts scenario)
    (hchain : HonestChain U M chain) (hshort : chain.length ≤ 2 ^ 31)
    (hrun : Run (StepOver config M mode xxh64 engine chain) init inputs s) :
    exists w a, LifeInvariant M xxh64 engine chain config.snapshotInterval w s a := by
  apply hrun.invariant (fun _ _ _ hkept hstep => ?_)
  · exact ⟨{ leafOffset := 0, roots := [], base := 0 }, _,
      lifeInvariant_crashed (standsFor_empty _ _) (AtomicFile.offers_missing _)⟩
  · rcases hkept with ⟨w, a, h⟩
    exact lifeInvariant_step hengine hchain hshort h hstep

end Steps

end WitnessLife
end Witness
end SpendabilityPir
