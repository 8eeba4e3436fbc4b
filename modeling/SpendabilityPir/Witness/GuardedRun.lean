import SpendabilityPir.Witness.SizeGuard

/-!
# Runs under the tree-size guard

In every run that hands trees over with the reported size, the guard refuses the block
after a tree of a wrong size and refuses no other.  A hand-over does not check it: the size
of a wrong tree becomes the expected one, and the next block is appended.
-/

namespace SpendabilityPir
namespace Witness

open Foundation Shared

/-!
## The run
-/

/-- The next step of this kind appends a block of some height. -/
inductive Handles : RunStage -> RunInput -> String -> Nat -> Prop where
  | receive {height : Nat} {hash prevHash : ByteVec 32} {commitments : List Hash}
      {priorTreeSize : Option UInt32} {rest : List WitnessChainEvent} :
      Handles (.syncing (.newBlock height hash prevHash commitments priorTreeSize :: rest))
        .receive "initial sync" height
  | work {task : FollowState} {height : Nat} {hash prevHash : ByteVec 32}
      {commitments : List Hash} {priorTreeSize : Option UInt32}
      {rest : List WitnessChainEvent} :
      Handles
        (.following task (.newBlock height hash prevHash commitments priorTreeSize :: rest))
        .work "follow mode" height

theorem Handles.input {stage : RunStage} {input : RunInput} {context : String}
    {height : Nat} (h : Handles stage input context height) :
    input = .receive ∨ input = .work := by
  cases h with
  | receive => exact Or.inl rfl
  | work => exact Or.inr rfl

section Guard

variable {σ : Type} (config : ServerConfig) (M : MerkleHashOrchard) (engine : PirEngine σ)
  (chain : ChainView)

/-- What the guard promises in a state: a tree of another size than its newest block
reports takes no further block, and the server stops at the next one; and it stops so for
no other reason. -/
structure GuardHolds (s : ServerRun) : Prop where
  refuses : forall input s' block size context height, SizeDiffers chain s.tree block size ->
    ServerRun.Step config M engine s input s' -> Handles s.stage input context height ->
    s' = { s with
      stage := .stopped (.error (.treeSizeMismatch context height size.toNat
        s.tree.treeSize)) }
  keeps : forall input s' block size, SizeDiffers chain s.tree block size ->
    ServerRun.Step config M engine s input s' -> s.stage ≠ .down ->
    s'.tree.blocks = s.tree.blocks ∧ s'.tree.leaves = s.tree.leaves
  accurate : forall input s' context height expected actual,
    ServerRun.Step config M engine s input s' ->
    s'.stage = .stopped (.error (.treeSizeMismatch context height expected actual)) ->
    Handles s.stage input context height ∧
      exists block size, SizeDiffers chain s.tree block size ∧ expected = size.toNat ∧
        actual = s.tree.treeSize

/-- What lightwalletd answers is part of one chain, and no more shards than the number it is
asked for. -/
def ServesPart : RunInput -> Prop
  | .start client connection _ =>
      PartOf chain client.blocks.view ∧
      (forall roots, client.subtreeRoots = some roots -> roots.length ≤ 65535) ∧
      forall served, connection = some served -> PartOf chain served.view
  | .poll view => PartOf chain view
  | _ => True

/-- Where the tree's own size is handed over as the expected one, it is the reported one:
at a start, and where following begins. -/
def HandsOver (s : ServerRun) : RunInput -> Prop
  | .start client _ loads =>
      SeedAgrees chain client config.windowShardLimit (s.loaded loads)
  | .serve => Agrees chain s.tree
  | _ => True

/-- A step of a server whose lightwalletd serves the chain and whose trees are handed over
with the reported size. -/
def HandedStep (s : ServerRun) (input : RunInput) (s' : ServerRun) : Prop :=
  ServesPart chain input ∧ HandsOver config chain s input ∧
    ServerRun.Step config M engine s input s'

/-- The events a server still has are queued above the newest block of its tree. -/
inductive StageHolds (tree : CommitmentTreeDb) : RunStage -> Prop where
  | down : StageHolds tree .down
  | stopped (failure : Failure ServerError) : StageHolds tree (.stopped failure)
  | syncing {queue : List WitnessChainEvent} {newest last : Option CompactBlock} :
      NewestBlock chain tree newest -> Queued chain tree.treeSize newest queue last ->
      StageHolds tree (.syncing queue)
  | following {task : FollowState} {queue : List WitnessChainEvent}
      {newest last : Option CompactBlock} :
      NewestBlock chain tree newest -> Queued chain tree.treeSize newest queue last ->
      TaskAt chain tree.treeSize task last -> StageHolds tree (.following task queue)

/-- The newest records of trees are of blocks of the chain. -/
def OnChain (tree : CommitmentTreeDb) : Prop :=
  exists newest, NewestBlock chain tree newest

structure GuardInvariant (s : ServerRun) : Prop where
  saved : forall tree, s.saved = some tree -> OnChain chain tree
  stage : StageHolds chain s.tree s.stage

variable {config M engine chain}

theorem newestBlock_rollbackTo {tree : CommitmentTreeDb}
    (hnewest : NewestBlock chain tree none) (targetHeight : Nat) :
    NewestBlock chain (tree.rollbackTo targetHeight) none ∧
      (tree.rollbackTo targetHeight).treeSize = tree.treeSize ∧
      (tree.rollbackTo targetHeight).leaves = tree.leaves := by
  have hpopped : CommitmentTreeDb.popAbove targetHeight tree.blocks.reverse 0 = ([], 0) := by
    rw [hnewest.left]
    rfl
  have hleaves : (tree.rollbackTo targetHeight).leaves = tree.leaves := by
    rw [CommitmentTreeDb.rollbackTo, hpopped]
    exact List.take_length
  have hsize : (tree.rollbackTo targetHeight).treeSize = tree.treeSize := by
    rw [CommitmentTreeDb.treeSize, hleaves]
    rfl
  refine ⟨⟨?_, hsize ▸ hnewest.right⟩, hsize, hleaves⟩
  rw [CommitmentTreeDb.rollbackTo, hpopped]
  rfl

/-- The server has not stopped over the size of a tree. -/
def Unmismatched (stage : RunStage) : Prop :=
  forall context height expected actual,
    stage ≠ .stopped (.error (.treeSizeMismatch context height expected actual))

variable (chain) in
/-- What handling an event does to a server: the block is refused over the size of the
tree, or the tree has the reported size, or a tree without records stays as it is. -/
inductive Handled (s : ServerRun) (context : String) : WitnessChainEvent -> ServerRun -> Prop
    where
  | refused {height : Nat} {hash prevHash : ByteVec 32} {commitments : List Hash}
      {priorTreeSize : Option UInt32} {block : CompactBlock} {size : UInt32} :
      SizeDiffers chain s.tree block size ->
      Handled s context (.newBlock height hash prevHash commitments priorTreeSize)
        { s with
          stage := .stopped (.error (.treeSizeMismatch context height size.toNat
            s.tree.treeSize)) }
  | appended {event : WitnessChainEvent} {s' : ServerRun} : Agrees chain s.tree ->
      Unmismatched s'.stage -> Handled s context event s'
  | rolledBack {rollbackTo : Nat} {s' : ServerRun} : NewestBlock chain s.tree none ->
      Unmismatched s'.stage -> Handled s context (.reorg rollbackTo) s'

theorem rebuildPir_unmismatched {tree : CommitmentTreeDb} {anchorHeight : Nat}
    {failure : Failure ServerError}
    (h : rebuildPir M engine tree scenario anchorHeight = .error failure) :
    Unmismatched (.stopped failure) := by
  intro context height expected actual heq
  cases heq
  unfold rebuildPir at h
  split at h
  · cases h
  · split at h <;> cases h

theorem startingTree_unmismatched {client : LwdClient} {tipHeight limit : Nat}
    {loaded : Option CommitmentTreeDb} {failure : Failure ServerError}
    (h : startingTree client tipHeight limit loaded = .error failure) :
    Unmismatched (.stopped failure) := by
  intro context height expected actual heq
  cases heq
  cases loaded with
  | some saved => cases h
  | none =>
      unfold startingTree prepareTree at h
      dsimp only at h
      repeat' split at h
      all_goals cases h

/-- A queued event is a block above the newest one, or a rollback of nothing. -/
theorem Queued.head {size : Nat} {newest last : Option CompactBlock}
    {event : WitnessChainEvent} {rest : List WitnessChainEvent}
    (h : Queued chain size newest (event :: rest) last) :
    (exists block priorTreeSize, event = newBlockEvent priorTreeSize block ∧ block ∈ chain ∧
      Expected size newest priorTreeSize ∧ Queued chain size (some block) rest last) ∨
    exists rollbackTo, event = .reorg rollbackTo ∧ newest = none ∧
      Queued chain size none rest last := by
  generalize hqueue : event :: rest = queue at h
  cases h with
  | nil => cases hqueue
  | block hblock hexpected hrest =>
      cases hqueue
      exact Or.inl ⟨_, _, rfl, hblock, hexpected, hrest⟩
  | reorg hrest =>
      cases hqueue
      exact Or.inr ⟨_, rfl, rfl, hrest⟩

theorem receive_handled (hnumbered : Numbered ChainView.heightOf 0 chain) {s : ServerRun}
    {event : WitnessChainEvent} {rest : List WitnessChainEvent}
    {newest last : Option CompactBlock} (hnewest : NewestBlock chain s.tree newest)
    (hqueued : Queued chain s.tree.treeSize newest (event :: rest) last) :
    Handled chain s "initial sync" event (s.receive event rest) ∧
      StageHolds chain (s.receive event rest).tree (s.receive event rest).stage ∧
      (s.receive event rest).saved = s.saved := by
  rcases hqueued.head with ⟨block, priorTreeSize, rfl, hblock, hexpected, hrest⟩ |
    ⟨rollbackTo, rfl, rfl, hrest⟩
  · rcases appendValidated_cases hnumbered hnewest hexpected "initial sync"
      block.height.toNat (toHashArray block.hash) (extractCommitments block) with
      ⟨other, size, hdiffers, happend⟩ | ⟨hagrees, happend⟩
    · have hreceive : s.receive (newBlockEvent priorTreeSize block) rest = { s with
          stage := .stopped (.error (.treeSizeMismatch "initial sync" block.height.toNat
            size.toNat s.tree.treeSize)) } := by
        simp only [ServerRun.receive, newBlockEvent, happend]
      rw [hreceive]
      exact ⟨.refused hdiffers, .stopped _, rfl⟩
    · have hreceive : s.receive (newBlockEvent priorTreeSize block) rest = { s with
          tree := s.tree.appendCommitments block.height.toNat (toHashArray block.hash)
            (extractCommitments block)
          stage := .syncing rest } := by
        simp only [ServerRun.receive, newBlockEvent, happend]
      rw [hreceive]
      refine ⟨.appended hagrees ?_, ?_, rfl⟩
      · intro _ _ _ _ hstopped
        cases hstopped
      · exact .syncing (newestBlock_append hblock _ _) (hrest.resize _)
  · refine ⟨.rolledBack hnewest ?_, .syncing hnewest hrest, rfl⟩
    intro _ _ _ _ hstopped
    cases hstopped

variable (config M engine) in
theorem work_of_applyEvent {s : ServerRun} {task : FollowState} {event : WitnessChainEvent}
    {rest : List WitnessChainEvent} {tree : CommitmentTreeDb}
    (happly : applyEvent s.tree event = .ok tree) {newest last : Option CompactBlock}
    (hnewest : NewestBlock chain tree newest)
    (hqueued : Queued chain tree.treeSize newest rest last)
    (htask : TaskAt chain tree.treeSize task last) :
    let s' := s.work config M engine task event rest
    Unmismatched s'.stage ∧ StageHolds chain s'.tree s'.stage ∧
      (s'.saved = s.saved ∨ s'.saved = some s'.tree ∧ OnChain chain s'.tree) := by
  have hhandle : handleEvent M engine s.tree event =
      rebuildPir M engine tree scenario (tree.latestHeight.getD 0) := by
    rw [handleEvent, happly, ok_bind]
  cases hrebuild : rebuildPir M engine tree scenario (tree.latestHeight.getD 0) with
  | error failure =>
      have hwork : s.work config M engine task event rest =
          { s with stage := .stopped failure } := by
        simp only [ServerRun.work, hhandle, hrebuild]
      dsimp only
      rw [hwork]
      exact ⟨rebuildPir_unmismatched hrebuild, .stopped failure, Or.inl rfl⟩
  | ok published =>
      rcases published with ⟨tree', pir⟩
      have hcache := rebuildPir_cache_only hrebuild
      have hblocks : tree'.blocks = tree.blocks := by rw [hcache]
      have hsize : tree'.treeSize = tree.treeSize := by
        rw [hcache]
        rfl
      have hnewest' := hnewest.congr hblocks hsize
      rw [← hsize] at hqueued htask
      have hrun : StageHolds chain tree' (.following task rest) :=
        .following hnewest' hqueued htask
      have hunmismatched : Unmismatched (.following task rest) := by
        intro _ _ _ _ hstopped
        cases hstopped
      dsimp only
      simp only [ServerRun.work, hhandle, hrebuild]
      split
      · exact ⟨hunmismatched, hrun, Or.inr ⟨rfl, newest, hnewest'⟩⟩
      · exact ⟨hunmismatched, hrun, Or.inl rfl⟩

variable (config M engine) in
theorem work_handled (hnumbered : Numbered ChainView.heightOf 0 chain) {s : ServerRun}
    {task : FollowState} {event : WitnessChainEvent} {rest : List WitnessChainEvent}
    {newest last : Option CompactBlock} (hnewest : NewestBlock chain s.tree newest)
    (hqueued : Queued chain s.tree.treeSize newest (event :: rest) last)
    (htask : TaskAt chain s.tree.treeSize task last) :
    let s' := s.work config M engine task event rest
    Handled chain s "follow mode" event s' ∧
      StageHolds chain s'.tree s'.stage ∧
      (s'.saved = s.saved ∨ s'.saved = some s'.tree ∧ OnChain chain s'.tree) := by
  rcases hqueued.head with ⟨block, priorTreeSize, rfl, hblock, hexpected, hrest⟩ |
    ⟨rollbackTo, rfl, rfl, hrest⟩
  · rcases appendValidated_cases hnumbered hnewest hexpected "follow mode"
      block.height.toNat (toHashArray block.hash) (extractCommitments block) with
      ⟨other, size, hdiffers, happend⟩ | ⟨hagrees, happend⟩
    · have hwork : s.work config M engine task (newBlockEvent priorTreeSize block) rest =
          { s with
            stage := .stopped (.error (.treeSizeMismatch "follow mode" block.height.toNat
              size.toNat s.tree.treeSize)) } := by
        simp only [ServerRun.work, handleEvent, applyEvent, newBlockEvent, happend]
        rfl
      dsimp only
      rw [hwork]
      exact ⟨.refused hdiffers, .stopped _, Or.inl rfl⟩
    · rcases hrest.last_isSome with ⟨newest', rfl⟩
      have happly : applyEvent s.tree (newBlockEvent priorTreeSize block) = .ok _ := happend
      have hturn := work_of_applyEvent config M engine happly (newestBlock_append hblock _ _)
        (hrest.resize _) htask
      exact ⟨.appended hagrees hturn.left, hturn.right⟩
  · rcases newestBlock_rollbackTo hnewest rollbackTo with ⟨hnewest', hsize, _⟩
    rw [← hsize] at hrest htask
    have happly : applyEvent s.tree (.reorg rollbackTo) = .ok _ := rfl
    have hturn := work_of_applyEvent config M engine happly hnewest' hrest htask
    exact ⟨.rolledBack hnewest hturn.left, hturn.right⟩

theorem Handled.of_differs (hnumbered : Numbered ChainView.heightOf 0 chain)
    {s s' : ServerRun} {context : String} {event : WitnessChainEvent}
    (h : Handled chain s context event s') {block : CompactBlock}
    {size : UInt32} (hdiffers : SizeDiffers chain s.tree block size) :
    exists height hash prevHash commitments priorTreeSize,
      event = .newBlock height hash prevHash commitments priorTreeSize ∧
      s' = { s with
        stage := .stopped (.error (.treeSizeMismatch context height size.toNat
          s.tree.treeSize)) } := by
  cases h with
  | refused hother =>
      cases hother.newest.unique hnumbered hdiffers.newest
      have hsize := hother.reports.symm.trans hdiffers.reports
      cases hsize
      exact ⟨_, _, _, _, _, rfl, rfl⟩
  | appended hagrees _ => exact absurd hdiffers (hagrees _ _)
  | rolledBack hnone _ => cases hnone.unique hnumbered hdiffers.newest

theorem Handled.of_mismatch {s s' : ServerRun} {context context' : String}
    {event : WitnessChainEvent} (h : Handled chain s context event s')
    {height expected actual : Nat}
    (hstage : s'.stage = .stopped (.error (.treeSizeMismatch context' height expected actual))) :
    context' = context ∧
      (exists hash prevHash commitments priorTreeSize,
        event = .newBlock height hash prevHash commitments priorTreeSize) ∧
      exists block size, SizeDiffers chain s.tree block size ∧ expected = size.toNat ∧
        actual = s.tree.treeSize := by
  cases h with
  | refused hdiffers =>
      cases hstage
      exact ⟨rfl, ⟨_, _, _, _, rfl⟩, _, _, hdiffers, rfl, rfl⟩
  | appended _ hunmismatched => exact absurd hstage (hunmismatched _ _ _ _)
  | rolledBack _ hunmismatched => exact absurd hstage (hunmismatched _ _ _ _)

theorem start_unmismatched {s : ServerRun} {client : LwdClient}
    {connection : Option Connection} {loads : Bool} :
    Unmismatched (s.start config client connection loads).stage := by
  intro context height expected actual hstage
  unfold ServerRun.start at hstage
  dsimp only at hstage
  split at hstage
  · next failure hstart => exact startingTree_unmismatched hstart _ _ _ _ hstage
  · split at hstage
    · split at hstage <;> cases hstage
    · cases hstage

theorem serve_unmismatched {s : ServerRun} : Unmismatched (s.serve M engine).stage := by
  intro context height expected actual hstage
  unfold ServerRun.serve at hstage
  split at hstage
  · next failure hrebuild => exact rebuildPir_unmismatched hrebuild _ _ _ _ hstage
  · cases hstage

theorem serve_tree (s : ServerRun) :
    (s.serve M engine).tree.blocks = s.tree.blocks ∧
      (s.serve M engine).tree.leaves = s.tree.leaves := by
  unfold ServerRun.serve
  split
  · exact ⟨rfl, rfl⟩
  · next tree pir hrebuild =>
      have hcache := rebuildPir_cache_only hrebuild
      dsimp only
      rw [hcache]
      exact ⟨rfl, rfl⟩

theorem guardHolds_of_stageHolds (hnumbered : Numbered ChainView.heightOf 0 chain)
    {s : ServerRun} (hinv : StageHolds chain s.tree s.stage) :
    GuardHolds config M engine chain s := by
  have hreceive : forall event rest, s.stage = .syncing (event :: rest) ->
      Handled chain s "initial sync" event (s.receive event rest) := by
    intro event rest hstage
    rw [hstage] at hinv
    cases hinv with
    | syncing hnewest hqueued => exact (receive_handled hnumbered hnewest hqueued).left
  have hwork : forall task event rest, s.stage = .following task (event :: rest) ->
      Handled chain s "follow mode" event
        (s.work config M engine task event rest) := by
    intro task event rest hstage
    rw [hstage] at hinv
    cases hinv with
    | following hnewest hqueued htask =>
        exact (work_handled config M engine hnumbered hnewest hqueued htask).left
  refine ⟨?_, ?_, ?_⟩
  · intro input s' block size context height hdiffers hstep hhandles
    cases hstep with
    | receive hstage =>
        rcases (hreceive _ _ hstage).of_differs hnumbered hdiffers with
          ⟨_, _, _, _, _, rfl, heq⟩
        rw [hstage] at hhandles
        cases hhandles
        exact heq
    | work hstage =>
        rcases (hwork _ _ _ hstage).of_differs hnumbered hdiffers with
          ⟨_, _, _, _, _, rfl, heq⟩
        rw [hstage] at hhandles
        cases hhandles
        exact heq
    | start | serve | poll | restart => rcases hhandles.input with heq | heq <;> cases heq
  · intro input s' block size hdiffers hstep hup
    cases hstep with
    | start hdown => exact absurd hdown hup
    | receive hstage =>
        rcases (hreceive _ _ hstage).of_differs hnumbered hdiffers with ⟨_, _, _, _, _, _, heq⟩
        rw [heq]
        exact ⟨rfl, rfl⟩
    | serve => exact serve_tree s
    | work hstage =>
        rcases (hwork _ _ _ hstage).of_differs hnumbered hdiffers with ⟨_, _, _, _, _, _, heq⟩
        rw [heq]
        exact ⟨rfl, rfl⟩
    | poll | restart => exact ⟨rfl, rfl⟩
  · intro input s' context height expected actual hstep hstopped
    cases hstep with
    | start => exact absurd hstopped (start_unmismatched _ _ _ _)
    | receive hstage =>
        rcases (hreceive _ _ hstage).of_mismatch hstopped with
          ⟨rfl, ⟨_, _, _, _, rfl⟩, hdiffers⟩
        rw [hstage]
        exact ⟨.receive, hdiffers⟩
    | serve => exact absurd hstopped (serve_unmismatched _ _ _ _)
    | work hstage =>
        rcases (hwork _ _ _ hstage).of_mismatch hstopped with
          ⟨rfl, ⟨_, _, _, _, rfl⟩, hdiffers⟩
        rw [hstage]
        exact ⟨.work, hdiffers⟩
    | poll | restart => cases hstopped

theorem saved_start (s : ServerRun) (client : LwdClient) (connection : Option Connection)
    (loads : Bool) : (s.start config client connection loads).saved = s.saved := by
  unfold ServerRun.start
  dsimp only
  repeat' split
  all_goals rfl

section Invariant

variable {U : BlockUniverse} (hchain : HonestView U chain)
  (hreports : forall block, block ∈ chain -> exists size, block.orchardTreeSize = some size)
  {s : ServerRun} (hinv : GuardInvariant chain s)

include hinv in
theorem GuardInvariant.loaded {loads : Bool} {tree : CommitmentTreeDb}
    (htree : s.loaded loads = some tree) : OnChain chain tree := by
  unfold ServerRun.loaded at htree
  split at htree
  · exact hinv.saved tree htree
  · cases htree

include hchain hreports hinv

theorem guardInvariant_start {client : LwdClient} {connection : Option Connection}
    {loads : Bool} (hserves : ServesPart chain (.start client connection loads))
    (hhands : HandsOver config chain s (.start client connection loads)) :
    GuardInvariant chain (s.start config client connection loads) := by
  rcases hserves with ⟨⟨_, hview⟩, hroots, hconnection⟩
  refine ⟨saved_start s client connection loads ▸ hinv.saved, ?_⟩
  unfold ServerRun.start
  dsimp only
  split
  · exact .stopped _
  · next tree forwardStart initialTreeSize hstart =>
      rcases startingTree_newest hreports hview hroots (fun _ => hinv.loaded) hhands hstart
        with ⟨newest, hnewest, hexpected⟩
      split
      · cases connection with
        | none => exact .stopped _
        | some served =>
            have hserved := (hconnection served rfl).right
            have hmem : forall block, block ∈ fetchBatches served forwardStart
                client.blocks.view.tipHeight -> block ∈ chain := by
              intro block hblock
              exact hserved.mem
                (mem_of_mem_fetchBatches (hchain.heights.of_prefix hserved) hblock)
            rcases queued_emitBlocks hmem hexpected with ⟨last, hqueued⟩
            exact .syncing hnewest hqueued
      · exact .syncing hnewest (.nil _)

theorem guardInvariant_serve (hstage : s.stage = .syncing [])
    (hagrees : Agrees chain s.tree) : GuardInvariant chain (s.serve M engine) := by
  have hstageHolds := hinv.stage
  rw [hstage] at hstageHolds
  cases hstageHolds with
  | @syncing _ newest _ hnewest _ =>
      unfold ServerRun.serve
      split
      · refine ⟨?_, .stopped _⟩
        intro tree htree
        cases htree
        exact ⟨newest, hnewest⟩
      · next tree pir hrebuild =>
          have hcache := rebuildPir_cache_only hrebuild
          have hsize : tree.treeSize = s.tree.treeSize := by
            rw [hcache]
            rfl
          have hblocks : tree.blocks = s.tree.blocks := by rw [hcache]
          have hnewest' := hnewest.congr hblocks hsize
          have hagrees' : Agrees chain tree := by
            intro block size hdiffers
            exact hagrees block size
              ⟨hdiffers.newest.congr hblocks.symm hsize.symm, hdiffers.reports,
                hsize ▸ hdiffers.differs⟩
          have htask := taskAt_followStart hchain.heights hnewest'
            (expected_treeSize hreports hnewest' hagrees').right
          refine ⟨?_, .following hnewest' (.nil _) htask⟩
          intro saved hsaved
          cases hsaved
          exact ⟨newest, hnewest'⟩

/-- A step that hands trees over with the reported size keeps the queue in order. -/
theorem guardInvariant_step {s' : ServerRun} {input : RunInput}
    (hstep : HandedStep config M engine chain s input s') : GuardInvariant chain s' := by
  rcases hstep with ⟨hserves, hhands, hstep⟩
  have hstageHolds := hinv.stage
  cases hstep with
  | start hdown => exact guardInvariant_start hchain hreports hinv hserves hhands
  | receive hstage =>
      rw [hstage] at hstageHolds
      cases hstageHolds with
      | syncing hnewest hqueued =>
          rcases receive_handled hchain.heights hnewest hqueued with ⟨_, hholds, hsaved⟩
          exact ⟨hsaved ▸ hinv.saved, hholds⟩
  | serve hstage => exact guardInvariant_serve hchain hreports hinv hstage hhands
  | poll hstage =>
      rw [hstage] at hstageHolds
      cases hstageHolds with
      | following hnewest hqueued htask =>
          rcases queued_followPoll (hchain.of_prefix hserves.left hserves.right)
            hserves.right htask with ⟨last, hpolled, htask'⟩
          exact ⟨hinv.saved, .following hnewest (hqueued.append hpolled) htask'⟩
  | work hstage =>
      rw [hstage] at hstageHolds
      cases hstageHolds with
      | following hnewest hqueued htask =>
          rcases work_handled config M engine hchain.heights hnewest hqueued htask with
            ⟨_, hholds, hsaved⟩
          refine ⟨?_, hholds⟩
          intro tree htree
          rcases hsaved with hsame | ⟨hnew, honChain⟩
          · exact hinv.saved tree (hsame ▸ htree)
          · rw [hnew] at htree
            cases htree
            exact honChain
  | restart => exact ⟨hinv.saved, .down⟩

end Invariant

/-- In every run that hands trees over with the size their newest block reports, the guard
has no blind spot and no false alarm. -/
theorem guardHolds_of_handed {U : BlockUniverse} (hchain : HonestView U chain)
    (hreports : forall block, block ∈ chain -> exists size,
      block.orchardTreeSize = some size)
    {s s' : ServerRun} {inputs : List RunInput} (hdown : s.stage = .down)
    (hsaved : forall tree, s.saved = some tree -> OnChain chain tree)
    (hrun : Run (HandedStep config M engine chain) s inputs s') :
    GuardHolds config M engine chain s' := by
  have hstart : GuardInvariant chain s := ⟨hsaved, hdown.symm ▸ .down⟩
  have hinv : GuardInvariant chain s' := hrun.invariant
    (fun _ _ _ hinv hstep => guardInvariant_step hchain hreports hinv hstep) hstart
  exact guardHolds_of_stageHolds hchain.heights hinv.stage

end Guard

/-!
## A skipped commitment

The second action of block 1 has a commitment of 31 bytes, which the parser skips.
-/

def guardedFirst : CompactBlock := sampleBlock 0 1 0 [sampleAction 7] 1

def skippedBlock : CompactBlock :=
  sampleBlock 1 2 1 [sampleAction 7, { sampleAction 7 with cmx := List.replicate 31 0 }] 3

def guardedNext : CompactBlock := sampleBlock 2 3 2 [sampleAction 8] 4

def guardedChain : ChainView := [guardedFirst, skippedBlock, guardedNext]

def guardedUniverse : BlockUniverse :=
  BlockUniverse.ofList guardedChain (by decide) (by decide)

theorem honest_guardedChain : HonestView guardedUniverse guardedChain :=
  honestView_of_list (List.cons_ne_nil _ _) (fun _ hblock => hblock) rfl (by decide)

theorem reports_guardedChain {block : CompactBlock} (h : block ∈ guardedChain) :
    exists size, block.orchardTreeSize = some size := by
  simp only [guardedChain, List.mem_cons, List.not_mem_nil, or_false] at h
  rcases h with rfl | rfl | rfl <;> exact ⟨_, rfl⟩

/-- The tree of block 0, as a server saved it. -/
def guardedSaved : CommitmentTreeDb := appendBlocks CommitmentTreeDb.new [guardedFirst]

/-- The tree of blocks 0 and 1 lacks the skipped leaf. -/
def skippedTree : CommitmentTreeDb := appendBlocks guardedSaved [skippedBlock]

theorem newestBlock_guardedSaved : NewestBlock guardedChain guardedSaved (some guardedFirst) :=
  newestBlock_append List.mem_cons_self _ _

theorem sizeDiffers_skippedTree : SizeDiffers guardedChain skippedTree skippedBlock 3 where
  newest := newestBlock_append (List.mem_cons_of_mem _ List.mem_cons_self) _ _
  reports := rfl
  differs := by decide

def guardedDown : ServerRun :=
  { tree := CommitmentTreeDb.new
    saved := some guardedSaved
    blocksSinceSnapshot := 0
    stage := .down }

def guardedConfig : ServerConfig := { windowShardLimit := 1, snapshotInterval := 100 }

/-- A connection that serves the first blocks of the chain. -/
def guardedConnection (blocks : Nat) : Connection :=
  { view := guardedChain.take blocks, fails := fun _ _ => false }

def guardedInput (blocks : Nat) : RunInput :=
  .start { blocks := guardedConnection blocks, subtreeRoots := none }
    (some (guardedConnection blocks)) true

theorem servesPart_guardedInput {blocks : Nat} (hpos : 0 < blocks) :
    ServesPart guardedChain (guardedInput blocks) := by
  have hpart : PartOf guardedChain (guardedChain.take blocks) := by
    refine ⟨?_, List.take_prefix _ _⟩
    intro hnil
    rcases List.take_eq_nil_iff.mp hnil with hzero | hfalse
    · lia
    · cases hfalse
  refine ⟨hpart, ?_, ?_⟩
  · intro roots hroots
    cases hroots
  · intro served hserved
    cases hserved
    exact hpart

theorem start_guardedDown {blocks tipHeight : Nat} (hpos : 1 ≤ tipHeight)
    (htip : (guardedConnection blocks).view.tipHeight = tipHeight) :
    guardedDown.start guardedConfig
        { blocks := guardedConnection blocks, subtreeRoots := none }
        (some (guardedConnection blocks)) true =
      { guardedDown with
        tree := guardedSaved
        stage := .syncing (emitBlocks newBlockEvent (some 1)
          (((guardedChain.take blocks).take (tipHeight + 1)).drop 1)) } := by
  have hnumbered := honest_guardedChain.heights.of_prefix (List.take_prefix blocks _)
  have hfetch : fetchBatches (guardedConnection blocks) 1 tipHeight =
      ((guardedChain.take blocks).take (tipHeight + 1)).drop 1 :=
    fetchBatches_complete hnumbered (fun _ _ => rfl) (by lia)
  have hloaded : guardedDown.loaded true = some guardedSaved := rfl
  unfold ServerRun.start
  dsimp only
  rw [hloaded, htip]
  change (if 1 ≤ tipHeight then _ else _) = _
  rw [if_pos hpos]
  have hsync : sync (guardedConnection blocks) 1 tipHeight (some 1) =
      emitBlocks newBlockEvent (some 1)
        (((guardedChain.take blocks).take (tipHeight + 1)).drop 1) := by
    rw [sync, hfetch]
  exact congrArg (fun queue => { guardedDown with
    tree := guardedSaved
    stage := .syncing queue }) hsync

/-- The start that syncs blocks 1 and 2 stops at block 2. -/
theorem guardHolds_of_handed_skipped :
    exists (engine : PirEngine Unit) (s : ServerRun),
      Run (HandedStep guardedConfig sampleHash engine guardedChain) guardedDown
        [guardedInput 3, .receive] s ∧
      SizeDiffers guardedChain s.tree skippedBlock 3 ∧
      Handles s.stage .receive "initial sync" 2 ∧
      GuardHolds guardedConfig sampleHash engine guardedChain s := by
  let engine : PirEngine Unit := { setup := fun _ _ => some () }
  let rest := emitBlocks newBlockEvent (some 3) [guardedNext]
  let started : ServerRun := { guardedDown with
    tree := guardedSaved
    stage := .syncing (newBlockEvent (some 1) skippedBlock :: rest) }
  let appended : ServerRun := { guardedDown with
    tree := skippedTree
    stage := .syncing rest }
  have hagrees : Agrees guardedChain guardedSaved := by
    intro block size hdiffers
    cases newestBlock_guardedSaved.unique honest_guardedChain.heights hdiffers.newest
    cases hdiffers.reports
    exact absurd rfl hdiffers.differs
  have hstart : HandedStep guardedConfig sampleHash engine guardedChain guardedDown
      (guardedInput 3) started := by
    have heq : guardedDown.start guardedConfig
        { blocks := guardedConnection 3, subtreeRoots := none }
        (some (guardedConnection 3)) true = started := start_guardedDown (Nat.le_succ 1) rfl
    refine ⟨servesPart_guardedInput (Nat.succ_pos 2), hagrees, ?_⟩
    rw [← heq]
    exact .start rfl
  have hreceive : HandedStep guardedConfig sampleHash engine guardedChain started .receive
      appended := by
    have heq : started.receive (newBlockEvent (some 1) skippedBlock) rest = appended := rfl
    refine ⟨trivial, trivial, ?_⟩
    rw [← heq]
    exact .receive rfl
  have hrun := ((Run.nil appended).cons hreceive).cons hstart
  refine ⟨engine, appended, hrun, sizeDiffers_skippedTree, .receive, ?_⟩
  refine guardHolds_of_handed honest_guardedChain (fun _ hblock => reports_guardedChain hblock)
    rfl ?_ hrun
  intro tree htree
  cases htree
  exact ⟨_, newestBlock_guardedSaved⟩

section Skipped

variable {engine : PirEngine Unit} {pir : PirState Unit} {tree : CommitmentTreeDb}

def followingSkipped (tree : CommitmentTreeDb) : ServerRun :=
  { tree := tree
    saved := some tree
    blocksSinceSnapshot := 0
    stage := .following (followPoll (WitnessServer.followStart tree) guardedChain).1
      [newBlockEvent (some 2) guardedNext] }

theorem run_skipped
    (hrebuild : rebuildPir sampleHash engine skippedTree scenario 1 = .ok (tree, pir))
    (hpoll : (followPoll (WitnessServer.followStart tree) guardedChain).2 =
      [newBlockEvent (some 2) guardedNext]) :
    Run (ServerRun.Step guardedConfig sampleHash engine) guardedDown
      [guardedInput 2, .receive, .serve, .poll guardedChain] (followingSkipped tree) := by
  let started : ServerRun := { guardedDown with
    tree := guardedSaved
    stage := .syncing [newBlockEvent (some 1) skippedBlock] }
  let synced : ServerRun := { guardedDown with tree := skippedTree, stage := .syncing [] }
  let serving : ServerRun :=
    { tree := tree
      saved := some tree
      blocksSinceSnapshot := 0
      stage := .following (WitnessServer.followStart tree) [] }
  have hstart : guardedDown.start guardedConfig
      { blocks := guardedConnection 2, subtreeRoots := none }
      (some (guardedConnection 2)) true = started := start_guardedDown (Nat.le_refl 1) rfl
  have hreceive : started.receive (newBlockEvent (some 1) skippedBlock) [] = synced := rfl
  have hserve : synced.serve sampleHash engine = serving := ServerRun.serve_of_ok hrebuild
  have hstep₁ : ServerRun.Step guardedConfig sampleHash engine guardedDown (guardedInput 2)
      (guardedDown.start guardedConfig _ _ _) := .start rfl
  have hstep₂ : ServerRun.Step guardedConfig sampleHash engine started .receive
      (started.receive (newBlockEvent (some 1) skippedBlock) []) := .receive rfl
  have hstep₃ : ServerRun.Step guardedConfig sampleHash engine synced .serve
      (synced.serve sampleHash engine) := .serve rfl
  have hstep₄ : ServerRun.Step guardedConfig sampleHash engine serving (.poll guardedChain)
      { serving with
        stage := .following (followPoll (WitnessServer.followStart tree) guardedChain).1
          ([] ++ (followPoll (WitnessServer.followStart tree) guardedChain).2) } := .poll rfl
  rw [hstart] at hstep₁
  rw [hreceive] at hstep₂
  rw [hserve] at hstep₃
  rw [hpoll] at hstep₄
  exact (((Run.nil (followingSkipped tree)).cons hstep₄).cons hstep₃ |>.cons hstep₂).cons
    hstep₁

end Skipped

theorem treeInvariant_skippedTree :
    CommitmentTreeDb.TreeInvariant sampleHash 0 [] skippedTree :=
  treeInvariant_appendBlock rfl (treeInvariant_appendBlock rfl
    (CommitmentTreeDb.treeInvariant_withOffset sampleHash 0 []) guardedFirst) skippedBlock

/-- The start that syncs block 1 only begins to follow with a tree of the wrong size, and
appends block 2 to it. -/
theorem not_guardHolds_skipped :
    HonestView guardedUniverse guardedChain ∧
    (forall block, block ∈ guardedChain -> exists size, block.orchardTreeSize = some size) ∧
    (forall tree, guardedDown.saved = some tree -> OnChain guardedChain tree) ∧
    exists (engine : PirEngine Unit) (s s' : ServerRun),
      (forall input, input ∈ [guardedInput 2, .receive, .serve, .poll guardedChain] ->
        ServesPart guardedChain input) ∧
      Run (ServerRun.Step guardedConfig sampleHash engine) guardedDown
        [guardedInput 2, .receive, .serve, .poll guardedChain] s ∧
      SizeDiffers guardedChain s.tree skippedBlock 3 ∧
      Handles s.stage .work "follow mode" 2 ∧
      ServerRun.Step guardedConfig sampleHash engine s .work s' ∧
      s'.tree.latestHeight = some 2 ∧
      ¬ GuardHolds guardedConfig sampleHash engine guardedChain s := by
  let engine : PirEngine Unit := { setup := fun _ _ => some () }
  have haccepts : engine.Accepts scenario := fun _ _ => ⟨(), rfl⟩
  have hcanonical : forall leaf, leaf ∈ List.replicate 3 (ByteVec.zeros 32) ->
      Canonical sampleHash leaf := by
    intro leaf hleaf
    rw [List.eq_of_mem_replicate hleaf]
    exact canonical_zeros
  rcases rebuildPir_of_canonical haccepts treeInvariant_skippedTree
    (fun leaf hleaf => hcanonical leaf (List.mem_cons_of_mem _ hleaf)) 1 with
    ⟨cache, pir, hrebuild, hinv⟩
  let published : CommitmentTreeDb := { skippedTree with ssRootCache := cache }
  let grown : CommitmentTreeDb := appendBlocks published [guardedNext]
  rcases rebuildPir_of_canonical haccepts
    (treeInvariant_appendBlock rfl hinv guardedNext : CommitmentTreeDb.TreeInvariant
      sampleHash 0 [] grown) hcanonical 2 with ⟨cache', pir', hrebuild', _⟩
  have hrun := @run_skipped engine pir published hrebuild rfl
  have hhandle : handleEvent sampleHash engine published
      (newBlockEvent (some 2) guardedNext) =
        .ok ({ grown with ssRootCache := cache' }, pir') := by
    have happly : applyEvent published (newBlockEvent (some 2) guardedNext) = .ok grown := rfl
    have hlatest : grown.latestHeight.getD 0 = 2 := rfl
    rw [handleEvent, happly, ok_bind, hlatest]
    exact hrebuild'
  rcases @ServerRun.work_of_ok _ guardedConfig _ _ (followingSkipped published)
    (followPoll (WitnessServer.followStart published) guardedChain).1 _ [] _ _ hhandle with
    ⟨htree, hstage⟩
  have hstep : ServerRun.Step guardedConfig sampleHash engine (followingSkipped published)
      .work _ := .work rfl
  have hdiffers : SizeDiffers guardedChain published skippedBlock 3 :=
    ⟨sizeDiffers_skippedTree.newest.congr rfl rfl, rfl, sizeDiffers_skippedTree.differs⟩
  refine ⟨honest_guardedChain, fun _ hblock => reports_guardedChain hblock, ?_, engine,
    followingSkipped published, _, ?_, hrun, hdiffers, .work, hstep, ?_, ?_⟩
  · intro tree htree
    cases htree
    exact ⟨_, newestBlock_guardedSaved⟩
  · intro input hinput
    simp only [List.mem_cons, List.not_mem_nil, or_false] at hinput
    rcases hinput with rfl | rfl | rfl | rfl
    · exact servesPart_guardedInput (Nat.succ_pos 1)
    · trivial
    · trivial
    · exact ⟨List.cons_ne_nil _ _, List.prefix_rfl⟩
  · rw [htree]
    rfl
  · intro hguard
    have hrefused := hguard.refuses .work _ _ _ _ _ hdiffers hstep .work
    rw [hrefused] at hstage
    cases hstage

end Witness
end SpendabilityPir
