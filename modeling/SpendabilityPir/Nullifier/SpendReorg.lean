import SpendabilityPir.Nullifier.SpendFollow

/-!
# Reorganizations in the nullifier server

As long as no served chain replaces a block the server has ingested, the table answers
for exactly the served chain.  Orphaned blocks are reported with a zero hash, so a
reorganization removes nothing.
-/

namespace SpendabilityPir
namespace Nullifier

open Foundation Shared

section Following

variable {σ : Type} (config : ServerConfig) (engine : PirEngine σ)

/-- The follow task and the event loop of a serving server. -/
def spendFollowing : FollowingServer (SpendServer σ) :=
  { followState := SpendServer.followState
    poll := fun s view => s.step config engine (.poll view)
    work := fun s => s.step config engine .handle }

end Following

/-- The served chain still has the tracker's tip, and its new blocks have no zero
nullifier. -/
def KeepsTip {σ : Type} (s : SpendServer σ) (st : FollowState) (view : ChainView) :
    Prop :=
  (JustStarted s.hashtable st ∨ st.Continues view) ∧
  forall block, block ∈ st.newBlocks view -> NonzeroNullifiers block

/-- The server starts to follow with a table that agrees with the served chain. -/
structure AgreesWithServed {σ : Type} (U : BlockUniverse) (w : Watched (SpendServer σ)) :
    Prop where
  stage : w.server.stage =
    .follow (some (SpendServer.followStart w.server.hashtable)) []
  honest : HonestView U w.served
  ingested : w.ingested = w.served.take (w.server.hashtable.latestHeight.getD 0 + 1)
  mirrors : exists lo, w.server.hashtable.Mirrors w.served
    (Set.Ico lo (w.server.hashtable.latestHeight.getD 0 + 1))

/-- When the queue is drained, the table holds a nullifier exactly if a block of the chain
between the table's earliest and latest height has it. -/
def AnswersFor {σ : Type} (s : SpendServer σ) (chain : ChainView) : Prop :=
  forall task, s.stage = .follow task [] ->
    forall nf, nf ≠ ByteVec.zeros 32 ->
      (s.hashtable.contains nf = true ↔
        exists e l height block, s.hashtable.earliestHeight = some e ∧
          s.hashtable.latestHeight = some l ∧ e ≤ height ∧ height ≤ l ∧
          chain[height]? = some block ∧ nf ∈ extractNullifiers block)

variable {σ : Type} {U : BlockUniverse}

theorem followInvariant_start {w : Watched (SpendServer σ)} (h : AgreesWithServed U w) :
    FollowInvariant U w.server w.ingested := by
  intro task queue hstage
  rw [h.stage] at hstage
  cases hstage
  rcases h.mirrors with ⟨lo, hmirrors⟩
  generalize hlatest : w.server.hashtable.latestHeight.getD 0 = latest at hmirrors
  have hingested : w.ingested = w.served.take (latest + 1) := by
    rw [h.ingested, hlatest]
  have hpos : 0 < w.served.length := List.length_pos_iff.mpr h.honest.nonempty
  have hlt : latest < w.served.length := by
    cases hfind : w.server.hashtable.latestHeight with
    | none =>
        rw [hfind] at hlatest
        rw [← hlatest]
        exact hpos
    | some l =>
        rw [hfind] at hlatest
        rcases hmirrors.chain_getElem? (hmirrors.latestHeight_spec hfind).1 with
          ⟨block, hblock⟩
        rw [← hlatest]
        exact (List.getElem?_eq_some_iff.mp hblock).1
  have hlength : w.ingested.length = latest + 1 := by
    rw [hingested, List.length_take]
    lia
  have hnonempty : w.ingested ≠ [] := by
    apply List.ne_nil_of_length_pos
    lia
  have hbelow : forall height, height < latest + 1 ->
      w.ingested[height]? = w.served[height]? := by
    intro height hheight
    rw [hingested, List.getElem?_take_of_lt hheight]
  refine ⟨?_, ⟨lo, latest + 1, ?_⟩, ?_⟩
  · apply h.honest.of_prefix hnonempty
    rw [hingested]
    exact List.take_prefix _ _
  · refine ⟨hmirrors.congr (fun height hheight => hbelow height hheight.2),
      Nat.succ_pos _, Nat.le_of_eq hlength.symm, ?_, ?_⟩
    · rw [List.drop_of_length_le (Nat.le_of_eq hlength)]
      exact List.Forall₂.nil
    · rw [List.drop_of_length_le (Nat.le_of_eq hlength)]
      intro block hfalse
      cases hfalse
  · intro st hst
    cases hst
    cases hfind : w.server.hashtable.latestHeight with
    | none =>
        right
        refine ⟨⟨rfl, hfind⟩, ?_⟩
        rw [hlength, ← hlatest, hfind]
        rfl
    | some l =>
        left
        have hl : l = latest := by
          rw [hfind] at hlatest
          exact hlatest
        rw [← hl] at hmirrors
        rw [hingested, ← hl]
        exact atTip_followStart hmirrors hfind

theorem step_poll_eq {config : ServerConfig} {engine : PirEngine σ}
    {s s' : SpendServer σ} {view : ChainView} {st : FollowState}
    (hfollow : s.followState = some st)
    (h : s.step config engine (.poll view) = some s') :
    exists queue, s.stage = .follow (some st) queue ∧
      s' = { s with
        stage := Stage.follow (some (followPoll st view).1)
          (queue ++ (followPoll st view).2) } := by
  cases SpendServer.moves_of_step h with
  | @poll _ st' queue hstage =>
      rw [SpendServer.followState, hstage] at hfollow
      cases hfollow
      exact ⟨queue, hstage, rfl⟩

theorem step_handle_eq {config : ServerConfig} {engine : PirEngine σ}
    {s s' : SpendServer σ} (h : s.step config engine .handle = some s') :
    exists task event rest, s.stage = .follow task (event :: rest) ∧
      s' = s.handle engine task event rest := by
  cases SpendServer.moves_of_step h with
  | @handle task event rest hstage => exact ⟨task, event, rest, hstage, rfl⟩

theorem followInvariant_handle {engine : PirEngine σ} {s : SpendServer σ}
    {chain : ChainView} {task : Option FollowState} {event : ChainEvent}
    {rest : List ChainEvent} (h : FollowInvariant U s chain)
    (hstage : s.stage = .follow task (event :: rest)) :
    FollowInvariant U (s.handle engine task event rest) chain := by
  rcases h _ _ hstage with ⟨hchain, hannounced, hposition⟩
  rcases hannounced with ⟨lo, next, hannounced⟩
  unfold SpendServer.handle
  cases hhandle : handleEvent engine s.hashtable event with
  | error e =>
      intro task' queue' hfalse
      cases hfalse
  | ok handled =>
      rcases announced_handleEvent hchain hannounced hhandle with ⟨lo', hannounced', _⟩
      intro task' queue' hstage'
      cases hstage'
      refine ⟨hchain, ⟨lo', next + 1, hannounced'⟩, ?_⟩
      intro st hst
      exact Or.inl (atTip_of_queued hannounced (hposition st hst))

theorem followInvariant_idle {s : SpendServer σ} {chain view : ChainView}
    {st : FollowState} {queue : List ChainEvent} (h : FollowInvariant U s chain)
    (hstage : s.stage = .follow (some st) queue) (hview : HonestView U view)
    (hidle : view.tipHeight ≤ st.currentHeight) (hcond : KeepsTip s st view) :
    FollowInvariant U s view := by
  rcases h _ _ hstage with ⟨hchain, hannounced, hposition⟩
  have hlength := hview.tipHeight_succ
  have hsame : st.AtTip chain -> st.Continues view -> FollowInvariant U s view := by
    intro htip hcontinues
    have htake := htip.take_eq hchain hview hcontinues
    rw [List.take_of_length_le (by lia)] at htake
    rw [htake]
    exact h
  have hempty : JustStarted s.hashtable st -> chain.length = 1 ->
      FollowInvariant U s view := by
    intro hstart hone task queue' hstage'
    have hzero : st.currentHeight = 0 := by
      rw [hstart.1, followStart_of_none hstart.2]
      rfl
    have hview1 : view.length = 1 := by lia
    rw [hstage] at hstage'
    cases hstage'
    rcases hannounced with ⟨lo, next, hannounced⟩
    have hpos := hannounced.pos
    have hqueue := hannounced.queue
    rw [List.drop_of_length_le (by lia)] at hqueue
    rw [List.forall₂_nil_right_iff.mp hqueue]
    refine ⟨hview, ⟨1, 1, ?_⟩, ?_⟩
    · refine ⟨mirrors_of_latestHeight_none hannounced.mirrors hstart.2 1, Nat.one_pos,
        Nat.le_of_eq hview1.symm, ?_, ?_⟩
      · rw [List.drop_of_length_le (Nat.le_of_eq hview1)]
        exact List.Forall₂.nil
      · rw [List.drop_of_length_le (Nat.le_of_eq hview1)]
        intro block hfalse
        cases hfalse
    · intro st' hst'
      cases hst'
      exact Or.inr ⟨hstart, hview1⟩
  rcases hposition st rfl with htip | hjust
  · rcases hcond.1 with hstart | hcontinues
    · apply hempty hstart
      rw [htip.length, hstart.1, followStart_of_none hstart.2]
      rfl
    · exact hsame htip hcontinues
  · exact hempty hjust.1 hjust.2

/-- In every run whose polls keep the tip, the invariant holds for a part of the chain
that is served. -/
theorem followInvariant_run {config : ServerConfig} {engine : PirEngine σ}
    {w w' : Watched (SpendServer σ)} {events : List WatchedEvent}
    (hstart : AgreesWithServed U w)
    (hrun : Run (StepUnder (spendFollowing config engine) (HonestView U) KeepsTip)
      w events w') :
    exists chain, FollowInvariant U w'.server chain ∧ chain.IsPrefix w'.served := by
  apply watched_invariant (P := fun s served _ => exists chain,
    FollowInvariant U s chain ∧ chain.IsPrefix served) _ _ _ hrun
  · refine ⟨w.ingested, followInvariant_start hstart, ?_⟩
    rw [hstart.ingested]
    exact List.take_prefix _ _
  · intro s served _ st view s' hinv hfollow hview hidle hcond hpoll
    rcases hinv with ⟨chain, hinv, _⟩
    have hstep : s.step config engine (.poll view) = some s' := hpoll
    rcases step_poll_eq hfollow hstep with ⟨queue, hstage, hs'⟩
    refine ⟨view, ?_, List.prefix_rfl⟩
    rw [hs', followPoll_idle hidle, List.append_nil, ← hstage]
    exact followInvariant_idle hinv hstage hview hidle hcond
  · intro s served _ st view s' hinv hfollow hview hnew hcond hpoll
    rcases hinv with ⟨chain, hinv, _⟩
    have hstep : s.step config engine (.poll view) = some s' := hpoll
    rcases step_poll_eq hfollow hstep with ⟨queue, hstage, hs'⟩
    rcases followInvariant_poll hinv hstage hview hnew hcond.1 hcond.2 with
      ⟨htip, hannounced⟩
    refine ⟨view, ?_, List.prefix_rfl⟩
    rw [hs']
    intro task' queue' hstage'
    cases hstage'
    refine ⟨hview, hannounced, ?_⟩
    intro st' hst'
    cases hst'
    exact Or.inl htip
  · intro s served _ s' hinv hwork
    rcases hinv with ⟨chain, hinv, hserved⟩
    have hstep : s.step config engine .handle = some s' := hwork
    rcases step_handle_eq hstep with ⟨task, event, rest, hstage, hs'⟩
    refine ⟨chain, ?_, hserved⟩
    rw [hs']
    exact followInvariant_handle hinv hstage

theorem contains_iff_of_mirrors {hashtable : HashTableDb} {chain : ChainView}
    {lo next : Nat} (h : hashtable.Mirrors chain (Set.Ico lo next)) {nf : ByteVec 32}
    (hnf : nf ≠ ByteVec.zeros 32) :
    hashtable.contains nf = true ↔
      exists e l height block, hashtable.earliestHeight = some e ∧
        hashtable.latestHeight = some l ∧ e ≤ height ∧ height ≤ l ∧
        chain[height]? = some block ∧ nf ∈ extractNullifiers block := by
  rw [HashTableDb.contains_iff, h.entry_iff hnf]
  constructor
  · intro hmember
    rcases hmember with ⟨height, block, hheight, hblock, hnullifier⟩
    cases he : hashtable.earliestHeight with
    | none =>
        rw [h.earliestHeight_none he] at hheight
        cases hheight
    | some e =>
        cases hl : hashtable.latestHeight with
        | none =>
            rw [h.latestHeight_none hl] at hheight
            cases hheight
        | some l =>
            exact ⟨e, l, height, block, rfl, rfl,
              (h.earliestHeight_spec he).2 height hheight,
              (h.latestHeight_spec hl).2 height hheight, hblock, hnullifier⟩
  · intro hmember
    rcases hmember with ⟨e, l, height, block, he, hl, hle, hge, hblock, hnullifier⟩
    have hlo := (h.earliestHeight_spec he).1.1
    have hhi := (h.latestHeight_spec hl).1.2
    exact ⟨height, block, ⟨by lia, by lia⟩, hblock, hnullifier⟩

/-- In every run in which each poll keeps the ingested tip, a drained table answers for
exactly the chain currently served. -/
theorem contains_iff_served {config : ServerConfig} {engine : PirEngine σ}
    {w w' : Watched (SpendServer σ)} {events : List WatchedEvent}
    (hstart : AgreesWithServed U w)
    (hrun : Run (StepUnder (spendFollowing config engine) (HonestView U) KeepsTip)
      w events w') : AnswersFor w'.server w'.served := by
  intro task hstage nf hnf
  rcases followInvariant_run hstart hrun with ⟨chain, hinv, hserved⟩
  rcases hinv task [] hstage with ⟨hchain, hannounced, _⟩
  rcases hannounced with ⟨lo, next, hannounced⟩
  have hmirrors : w'.server.hashtable.Mirrors w'.served (Set.Ico lo next) := by
    apply hannounced.mirrors.congr
    intro height hheight
    have hlt : height < chain.length := Nat.lt_of_lt_of_le hheight.2 hannounced.le
    rw [List.getElem?_eq_getElem hlt]
    exact getElem?_of_isPrefix hserved (List.getElem?_eq_getElem hlt)
  exact contains_iff_of_mirrors hmirrors hnf

/-!
## Orphans
-/

theorem rollbackOrphaned_of_zero {hashtable : HashTableDb} {orphaned : List OrphanedBlock}
    (hsame : exists result,
      hashtable.rollbackBlock (ByteVec.zeros 32) = some (hashtable, result))
    (horphaned : forall block, block ∈ orphaned -> block.hash = ByteVec.zeros 32) :
    rollbackOrphaned hashtable orphaned = some hashtable := by
  rcases hsame with ⟨result, hrollback⟩
  induction orphaned with
  | nil => rfl
  | cons block rest ih =>
      rw [rollbackOrphaned, horphaned block List.mem_cons_self, hrollback]
      exact ih (fun b hb => horphaned b (List.mem_cons_of_mem block hb))

theorem rollbackOrphaned_orphanedBlocks {hashtable : HashTableDb} {chain : ChainView}
    {heights : Set Nat} (h : hashtable.Mirrors chain heights)
    (hnonzero : forall block, block ∈ chain -> toHashArray block.hash ≠ ByteVec.zeros 32)
    (rollbackTo currentHeight : Nat) :
    rollbackOrphaned hashtable (orphanedBlocks rollbackTo currentHeight).reverse =
      some hashtable := by
  rcases h with ⟨live, hrep, hlive⟩
  have hdead : ¬ live.ContainsHash (ByteVec.zeros 32) := by
    intro hcontains
    rcases hcontains with ⟨height, block, hfind, hhash⟩
    rcases hlive.blocks height block hfind with ⟨served, hserved, hservedHash, _⟩
    apply hnonzero served (List.mem_of_getElem? hserved)
    rw [← hservedHash, hhash]
  rcases HashTableDb.represents_rollbackBlock hrep (ByteVec.zeros 32) with
    ⟨db', result, hrollback, _, _, hsame⟩
  rw [hsame hdead] at hrollback
  apply rollbackOrphaned_of_zero ⟨result, hrollback⟩
  intro block hblock
  rcases List.mem_map.mp (List.mem_reverse.mp hblock) with ⟨height, _, heq⟩
  rw [← heq]

/-!
## A reorganization by one block
-/

def acceptingEngine : PirEngine Unit :=
  { setup := fun _ _ => some () }

def sampleConfig : ServerConfig := { targetSize := targetSize }

/-- The table after block 1, then after the block that becomes an orphan, and then after
block 3. -/
def tableBefore : HashTableDb :=
  (HashTableDb.new.insertBlock 1 (toHashArray sampleFirst.hash) []).1

def tableOrphaned : HashTableDb :=
  (tableBefore.insertBlock 2 (toHashArray sampleOrphan.hash)
    (extractNullifiersWithMeta sampleOrphan none).1).1

def tableAfter : HashTableDb :=
  (tableOrphaned.insertBlock 3 (toHashArray sampleNext.hash) []).1

/-- The server with a table, its follow task and a drained queue. -/
def drained (hashtable : HashTableDb) (task : FollowState) : SpendServer Unit :=
  { hashtable := hashtable
    livePir := some { engineState := (), metadata := metadataOf hashtable }
    stage := Stage.follow (some task) [] }

def watchedBefore : Watched (SpendServer Unit) :=
  { server := drained tableBefore (SpendServer.followStart tableBefore)
    served := chainBefore
    ingested := chainBefore }

theorem mirrors_tableBefore : tableBefore.Mirrors chainBefore (Set.Ico 1 2) := by
  have hinsert : HashTableDb.new.insertBlock 1 (toHashArray sampleFirst.hash) [] =
      (tableBefore, .ok ()) := rfl
  have hmirrors := HashTableDb.mirrors_insertBlock honest_chainBefore
    (HashTableDb.mirrors_new chainBefore) rfl (Set.notMem_empty 1) (by decide) rfl hinsert
  have hset : insert 1 (∅ : Set Nat) = Set.Ico 1 2 := by
    ext height
    simp only [Set.mem_insert_iff, Set.mem_empty_iff_false, or_false, Set.mem_Ico]
    lia
  rw [← hset]
  exact hmirrors

theorem agrees_watchedBefore : AgreesWithServed sampleUniverse watchedBefore where
  stage := rfl
  honest := honest_chainBefore
  ingested := rfl
  mirrors := ⟨1, mirrors_tableBefore⟩

def taskOrphaned : FollowState :=
  ((SpendServer.followStart tableBefore).advance sampleOrphan).1

theorem followPoll_chainOrphaned :
    followPoll (SpendServer.followStart tableBefore) chainOrphaned =
      (taskOrphaned, [newBlockEvent none sampleOrphan]) := rfl

theorem followPoll_chainAfter :
    followPoll taskOrphaned chainAfter =
      ((taskOrphaned.advance sampleNext).1,
        followEvents taskOrphaned (.reorg 0) sampleNext) := rfl

theorem applyEvent_sampleOrphan :
    applyEvent tableBefore (newBlockEvent none sampleOrphan) = .ok tableOrphaned := by
  change Outcome.ofPanics tableOrphaned.evictToTarget = _
  rw [HashTableDb.evictToTarget_of_le (Nat.le_of_ble_eq_true rfl)]
  rfl

theorem applyEvent_sampleReorg :
    applyEvent tableOrphaned
      (.reorg (orphanedBlocks 0 2)
        [{ height := 3
           hash := toHashArray sampleNext.hash
           prevHash := toHashArray sampleNext.prevHash
           nullifiers := [] }]) = .ok tableAfter := by
  change Outcome.ofPanics tableAfter.evictToTarget = _
  rw [HashTableDb.evictToTarget_of_le (Nat.le_of_ble_eq_true rfl)]
  rfl

theorem steps_of_event {hashtable hashtable' : HashTableDb} {task task' : FollowState}
    {event : ChainEvent} {view served ingested : ChainView}
    (hview : HonestView sampleUniverse view)
    (hreplaces : ReplacesFewerThan task.tracker.chain.length served view)
    (hnew : task.currentHeight < view.tipHeight)
    (hpoll : followPoll task view = (task', [event]))
    (happly : applyEvent hashtable event = .ok hashtable') :
    exists mid,
      WatchedStep (spendFollowing sampleConfig acceptingEngine)
        (HonestView sampleUniverse)
        { server := drained hashtable task, served := served, ingested := ingested }
        (.poll view) mid ∧
      WatchedStep (spendFollowing sampleConfig acceptingEngine)
        (HonestView sampleUniverse) mid .work
        { server := drained hashtable' task', served := view, ingested := view } := by
  have hstep : WatchedStep (spendFollowing sampleConfig acceptingEngine)
      (HonestView sampleUniverse)
      { server := drained hashtable task, served := served, ingested := ingested }
      (.poll view)
      { server := {
          drained hashtable task with
          stage := Stage.follow (some (followPoll task view).1)
            ([] ++ (followPoll task view).2) }
        served := view
        ingested := if view.tipHeight ≤ task.currentHeight then ingested else view } :=
    WatchedStep.poll rfl hview hreplaces rfl
  rw [if_neg (Nat.not_le_of_lt hnew), hpoll] at hstep
  refine ⟨_, hstep, WatchedStep.work ?_⟩
  exact congrArg some (SpendServer.handle_of_apply happly rfl (some task') [])

theorem steps_orphaned :
    exists mid,
      WatchedStep (spendFollowing sampleConfig acceptingEngine)
        (HonestView sampleUniverse) watchedBefore (.poll chainOrphaned) mid ∧
      WatchedStep (spendFollowing sampleConfig acceptingEngine)
        (HonestView sampleUniverse) mid .work
        { server := drained tableOrphaned taskOrphaned
          served := chainOrphaned
          ingested := chainOrphaned } :=
  steps_of_event honest_chainOrphaned ⟨0, Nat.one_pos, by decide⟩ (by decide)
    followPoll_chainOrphaned applyEvent_sampleOrphan

theorem steps_reorg :
    exists mid,
      WatchedStep (spendFollowing sampleConfig acceptingEngine)
        (HonestView sampleUniverse)
        { server := drained tableOrphaned taskOrphaned
          served := chainOrphaned
          ingested := chainOrphaned } (.poll chainAfter) mid ∧
      WatchedStep (spendFollowing sampleConfig acceptingEngine)
        (HonestView sampleUniverse) mid .work
        { server := drained tableAfter (taskOrphaned.advance sampleNext).1
          served := chainAfter
          ingested := chainAfter } :=
  steps_of_event honest_chainAfter ⟨1, by decide, by decide⟩ (by decide)
    followPoll_chainAfter applyEvent_sampleReorg

/-- Once block 2 is handled, the table answers for the chain with block 2. -/
theorem contains_iff_served_orphaned :
    AnswersFor (drained tableOrphaned taskOrphaned) chainOrphaned := by
  rcases steps_orphaned with ⟨mid, hpoll, hwork⟩
  refine contains_iff_served agrees_watchedBefore
    (((Run.nil _).snoc ⟨hpoll, ?_⟩).snoc ⟨hwork, ?_⟩)
  · intro view st hfalse
    cases hfalse
  · intro view st hview hst
    cases hview
    cases hst
    exact ⟨Or.inr ⟨sampleFirst, rfl, rfl⟩, by decide⟩

/-- In the reorganization, the orphan's nullifier stays in the table. -/
theorem orphaned_nullifier_remains :
    ¬ forall (U : BlockUniverse) (config : ServerConfig) (engine : PirEngine Unit)
        (w w' : Watched (SpendServer Unit)) (events : List WatchedEvent),
        AgreesWithServed U w ->
        Run (WatchedStep (spendFollowing config engine) (HonestView U)) w events w' ->
        AnswersFor w'.server w'.served := by
  intro hall
  rcases steps_orphaned with ⟨mid, hpoll, hwork⟩
  rcases steps_reorg with ⟨mid', hpoll', hwork'⟩
  have hanswers := hall sampleUniverse sampleConfig acceptingEngine watchedBefore _ _
    agrees_watchedBefore
    (((((Run.nil _).snoc hpoll).snoc hwork).snoc hpoll').snoc hwork')
  have hiff := hanswers _ rfl (ByteVec.ofBytes 32 (List.replicate 32 7)) (by decide)
  have hcontains :
      tableAfter.contains (ByteVec.ofBytes 32 (List.replicate 32 7)) = true := by
    decide
  rcases hiff.mp hcontains with ⟨_, _, height, block, _, _, _, _, hblock, hmember⟩
  have hnone : forall b, b ∈ chainAfter ->
      ByteVec.ofBytes 32 (List.replicate 32 7) ∉ extractNullifiers b := by
    decide
  exact hnone block (List.mem_of_getElem? hblock) hmember

end Nullifier
end SpendabilityPir
