import SpendabilityPir.Nullifier.PublishedAnswers
import SpendabilityPir.Shared.HttpExchange

/-!
# The nullifier server over HTTP

The main task stores what it publishes and then the phase; handlers load either one at
moments of their own.  A server that says it is serving has something to serve, and what
it serves gets newer.
-/

namespace SpendabilityPir
namespace Nullifier

open Foundation Shared

/-!
## Routes
-/

structure HealthResponse where
  phase : ServerPhase
  height : Option Nat
  nullifierCount : Nat
  numBlocks : Nat
deriving DecidableEq

section Routes

variable {σ ε : Type}

def healthResponse (phase : ServerPhase) : Option (PirState σ) -> HealthResponse
  | some pir =>
      { phase := phase
        height := some pir.metadata.latestHeight
        nullifierCount := pir.metadata.numNullifiers
        numBlocks := pir.metadata.numBuckets }
  | none => { phase := phase, height := none, nullifierCount := 0, numBlocks := 0 }

def SpendServer.running (server : SpendServer σ) : Bool :=
  match server.stage with
  | .stopped => false
  | _ => true

def health : Reader (AppState (SpendServer σ)) (Response HealthResponse) :=
  .load (fun s => .load (fun t => .done (whileRunning t.server.running
    (.ok (healthResponse s.phase t.server.livePir)))))

def metadata (s : AppState (SpendServer σ)) : Response SpendabilityMetadata :=
  whileRunning s.server.running (answerLive s.server.livePir (fun pir => .ok pir.metadata))

def params (s : AppState (SpendServer σ)) : Response YpirScenario :=
  whileRunning s.server.running (.ok scenario)

def query (engine : QueryEngine σ ε) (body : List UInt8) (s : AppState (SpendServer σ)) :
    Response (List UInt8) :=
  whileRunning s.server.running
    (answerLive s.server.livePir (fun pir => answerQuery engine pir.engineState body))

end Routes

/-!
## The main task
-/

section App

variable {σ : Type}

def initApp : AppState (SpendServer σ) :=
  { server := SpendServer.init, phase := .syncing 0 0 }

inductive AppInput where
  | server (input : ServerInput)
  | progress (currentHeight targetHeight : Nat)
  | announce

def IsFollowing (server : SpendServer σ) : Prop :=
  exists task queue, server.stage = .follow task queue

inductive SyncsRange : Stage -> Nat -> Nat -> Prop where
  | forward {start tipHeight floor : Nat} {fromSnapshot : Bool} :
      SyncsRange (.forward start tipHeight floor fromSnapshot) start tipHeight
  | backfill {floor backfillEnd : Nat} :
      SyncsRange (.backfill floor backfillEnd) (SpendServer.backfillStart floor backfillEnd)
        backfillEnd

def phaseAfter (input : ServerInput) (server : SpendServer σ) (phase : ServerPhase) :
    ServerPhase :=
  match input, server.stage with
  | .connect _ _, .forward start tipHeight _ _ => .syncing start tipHeight
  | _, _ => phase

/-- The main task follows once it has announced that it serves. -/
inductive AppStep (config : ServerConfig) (engine : PirEngine σ)
    (s : AppState (SpendServer σ)) : AppInput -> AppState (SpendServer σ) -> Prop where
  | server {input : ServerInput} {server : SpendServer σ} :
      (IsFollowing s.server -> s.phase = .serving) ->
      s.server.step config engine input = some server ->
      AppStep config engine s (.server input)
        { server := server, phase := phaseAfter input server s.phase }
  | progress {fromHeight toHeight currentHeight : Nat} :
      SyncsRange s.server.stage fromHeight toHeight -> fromHeight ≤ currentHeight ->
      currentHeight ≤ toHeight -> currentHeight % 1000 = 0 ->
      AppStep config engine s (.progress currentHeight toHeight)
        { s with phase := .syncing currentHeight toHeight }
  | announce :
      IsFollowing s.server ->
      AppStep config engine s .announce { s with phase := .serving }

def AppStepOver (config : ServerConfig) (engine : PirEngine σ) (chain : ChainView)
    (s : AppState (SpendServer σ)) (input : AppInput) (s' : AppState (SpendServer σ)) : Prop :=
  AppStep config engine s input s' ∧
    forall i, input = .server i -> ServedFrom chain i ∧ LeavesNoGap s.server i

/-!
## The newest block of a table
-/

def SmallBlocks (chain : ChainView) : Prop :=
  forall block, block ∈ chain -> (extractNullifiers block).length ≤ targetSize

theorem HashTableDb.Mirrors.evict_keepsNewest {U : BlockUniverse}
    {hashtable hashtable' : HashTableDb} {chain : ChainView} {lo next : Nat}
    (hchain : HonestView U chain) (hsmall : SmallBlocks chain)
    (hmirrors : hashtable.Mirrors chain (Set.Ico lo (next + 1))) (hle : lo ≤ next)
    (hlt : next < chain.length) (hevict : hashtable.evictToTarget = some hashtable') :
    exists k, k ≤ next ∧ hashtable'.Mirrors chain (Set.Ico k (next + 1)) ∧
      hashtable'.latestHeight = some next := by
  rcases hmirrors.evictToTarget_spec hchain (by lia) (by lia) with
    ⟨evicted, k, hevict', hlo, hhi, hevicted, _, hdropped⟩
  rw [hevict] at hevict'
  cases hevict'
  have hk : k ≤ next := by
    rcases hdropped with hsame | ⟨last, hlt', hlast, hlarge⟩
    · rw [hsame]
      exact hle
    · by_contra hgt
      have hkeq : k = next + 1 := by lia
      rw [hkeq, Nat.add_sub_cancel] at hlast
      have htotal : nullifierTotal chain k (next + 1) = 0 := by
        rw [hkeq, nullifierTotal, List.drop_of_length_le (by simp)]
        rfl
      rw [htotal] at hlarge
      exact absurd (hsmall last (List.mem_of_getElem? hlast)) (Nat.not_le_of_lt hlarge)
  refine ⟨k, hk, hevicted, ?_⟩
  cases hl : hashtable'.latestHeight with
  | none =>
      have hempty := hevicted.latestHeight_none hl
      have hmem : next ∈ Set.Ico k (next + 1) := ⟨hk, Nat.lt_succ_self next⟩
      rw [hempty] at hmem
      cases hmem
  | some l =>
      have heq := hevicted.latestHeight_Ico hl
      rw [Nat.succ.inj heq]

theorem latestHeight_applyEvent {U : BlockUniverse} {hashtable hashtable' : HashTableDb}
    {chain : ChainView} {lo next : Nat} {block : CompactBlock} {event : ChainEvent}
    (hchain : HonestView U chain) (hsmall : SmallBlocks chain)
    (hmirrors : hashtable.Mirrors chain (Set.Ico lo next))
    (hblock : chain[next]? = some block) (hnonzero : NonzeroNullifiers block)
    (hannounces : Announces event block)
    (h : applyEvent hashtable event = .ok hashtable') :
    hashtable'.latestHeight = some next := by
  rcases applyEvent_eq_ok hannounces h with
    ⟨nullifiers, inserted, hnullifiers, hinsert, hevict⟩
  rw [hchain.height_eq hblock] at hinsert
  have hfresh : next ∉ Set.Ico lo next := by simp
  have hlt : next < chain.length := (List.getElem?_eq_some_iff.mp hblock).1
  have hinserted := HashTableDb.mirrors_insertBlock hchain hmirrors hblock hfresh hnonzero
    hnullifiers hinsert
  rw [insert_Ico_right] at hinserted
  rcases hinserted.evict_keepsNewest hchain hsmall (Nat.min_le_right _ _) hlt hevict with
    ⟨_, _, _, hlatest⟩
  exact hlatest

/-!
## What the handlers see
-/

section Invariant

variable {U : BlockUniverse} {config : ServerConfig} {engine : PirEngine σ}
variable {chain : ChainView}

/-- Nothing is published before the server follows, and from then on something is, no
newer than the table. -/
structure AppInvariant (U : BlockUniverse) (engine : PirEngine σ) (chain : ChainView)
    (s : AppState (SpendServer σ)) : Prop where
  coverage : CoverageInvariant U engine chain s.server
  built : BuiltFromChain engine chain s.server
  announced : s.phase = .serving -> exists pir, s.server.livePir = some pir
  unpublished : ¬ IsFollowing s.server -> s.server.stage ≠ .stopped -> s.server.livePir = none
  published : IsFollowing s.server -> exists pir, s.server.livePir = some pir ∧
    pir.metadata.latestHeight ≤ s.server.hashtable.latestHeight.getD 0

theorem not_isFollowing_of_stage {server : SpendServer σ} {stage : Stage}
    (hstage : server.stage = stage) (hother : forall task queue, stage ≠ .follow task queue) :
    ¬ IsFollowing server := by
  rintro ⟨task, queue, hfollow⟩
  exact hother task queue (hstage.symm.trans hfollow)

theorem AppInvariant.livePir_none {s : AppState (SpendServer σ)} {stage : Stage}
    (h : AppInvariant U engine chain s) (hstage : s.server.stage = stage)
    (hother : forall task queue, stage ≠ .follow task queue) (hrunning : stage ≠ .stopped) :
    s.server.livePir = none :=
  h.unpublished (not_isFollowing_of_stage hstage hother) (hstage ▸ hrunning)

theorem latestHeight_handle {server : SpendServer σ} {task : Option FollowState}
    {event : ChainEvent} {rest : List ChainEvent} {hashtable : HashTableDb}
    (hsmall : SmallBlocks chain) (h : CoverageInvariant U engine chain server)
    (hstage : server.stage = .follow task (event :: rest))
    (happly : applyEvent server.hashtable event = .ok hashtable) :
    server.hashtable.latestHeight.getD 0 ≤ hashtable.latestHeight.getD 0 := by
  rcases h.following with ⟨ingested, hbefore, hfollow⟩
  rcases hfollow _ _ hstage with ⟨hingested, ⟨lo, next, hannounced⟩, _⟩
  have hqueue := hannounced.queue
  have hlt : next < ingested.length := by
    have hlengths := hqueue.length_eq
    rw [List.length_cons, List.length_drop] at hlengths
    lia
  rw [List.drop_eq_getElem_cons hlt] at hqueue
  cases hqueue with
  | cons hannounces _ =>
      have hnonzero : NonzeroNullifiers ingested[next] :=
        hannounced.nonzero _ (by rw [List.drop_eq_getElem_cons hlt]; exact List.mem_cons_self)
      have hlatest := latestHeight_applyEvent hingested
        (fun block hblock => hsmall block (hbefore.subset hblock)) hannounced.mirrors
        (List.getElem?_eq_getElem hlt) hnonzero hannounces happly
      rw [hlatest]
      cases hl : server.hashtable.latestHeight with
      | none => exact Nat.zero_le next
      | some l =>
          have heq := hannounced.mirrors.latestHeight_Ico hl
          rw [heq]
          exact Nat.le_succ l

theorem livePir_newer {s : AppState (SpendServer σ)} {server : SpendServer σ}
    {input : ServerInput} {pir : PirState σ} (hsmall : SmallBlocks chain)
    (h : AppInvariant U engine chain s)
    (hstep : s.server.step config engine input = some server)
    (hpir : s.server.livePir = some pir) :
    exists newer, server.livePir = some newer ∧
      pir.metadata.latestHeight ≤ newer.metadata.latestHeight ∧
      (IsFollowing server ->
        newer.metadata.latestHeight ≤ server.hashtable.latestHeight.getD 0) := by
  have hnone : forall stage, s.server.stage = stage ->
      (forall task queue, stage ≠ .follow task queue) -> stage ≠ .stopped -> False := by
    intro stage hstage hother hrunning
    rw [h.livePir_none hstage hother hrunning] at hpir
    cases hpir
  have hsame : forall task queue, s.server.stage = .follow task queue ->
      pir.metadata.latestHeight ≤ s.server.hashtable.latestHeight.getD 0 := by
    intro task queue hstage
    rcases h.published ⟨task, queue, hstage⟩ with ⟨found, hfound, hle⟩
    rw [hpir] at hfound
    cases hfound
    exact hle
  cases SpendServer.moves_of_step hstep with
  | connect hstage => exact (hnone _ hstage (by simp) (by simp)).elim
  | forward hstage => exact (hnone _ hstage (by simp) (by simp)).elim
  | backfill hstage => exact (hnone _ hstage (by simp) (by simp)).elim
  | publish hstage => exact (hnone _ hstage (by simp) (by simp)).elim
  | poll hstage => exact ⟨pir, hpir, Nat.le_refl _, fun _ => hsame _ _ hstage⟩
  | requestFails hstage => exact ⟨pir, hpir, Nat.le_refl _, fun _ => hsame _ _ hstage⟩
  | handle hstage =>
      unfold SpendServer.handle
      split
      · exact ⟨pir, hpir, Nat.le_refl _, fun ⟨_, _, hfalse⟩ => by cases hfalse⟩
      · next hashtable newer hhandle =>
          rcases handleEvent_eq_ok hhandle with ⟨happly, hrebuild⟩
          have hnewer := SpendServer.latestHeight_rebuildPir hrebuild
          have hlatest := latestHeight_handle hsmall h.coverage hstage happly
          refine ⟨newer, rfl, ?_, fun _ => Nat.le_of_eq hnewer⟩
          rw [hnewer]
          exact Nat.le_trans (hsame _ _ hstage) hlatest

theorem phaseAfter_eq_serving {input : ServerInput} {server : SpendServer σ}
    {phase : ServerPhase} (h : phaseAfter input server phase = .serving) : phase = .serving := by
  unfold phaseAfter at h
  split at h
  · cases h
  · exact h

/-- A step of the server publishes something when it starts to follow, and only then. -/
theorem published_step {s : AppState (SpendServer σ)} {server : SpendServer σ}
    {input : ServerInput} (hsmall : SmallBlocks chain) (h : AppInvariant U engine chain s)
    (hstep : s.server.step config engine input = some server) :
    (¬ IsFollowing server -> server.stage ≠ .stopped -> server.livePir = none) ∧
    (IsFollowing server -> exists pir, server.livePir = some pir ∧
      pir.metadata.latestHeight ≤ server.hashtable.latestHeight.getD 0) := by
  have hnewer : IsFollowing s.server -> IsFollowing server -> exists pir,
      server.livePir = some pir ∧
      pir.metadata.latestHeight ≤ server.hashtable.latestHeight.getD 0 := by
    intro hbefore hafter
    rcases h.published hbefore with ⟨pir, hpir, _⟩
    rcases livePir_newer hsmall h hstep hpir with ⟨newer, hnewer, _, hle⟩
    exact ⟨newer, hnewer, hle hafter⟩
  cases SpendServer.moves_of_step hstep with
  | connect hstage =>
      refine ⟨fun _ _ => ?_, fun ⟨task, queue, hfalse⟩ => ?_⟩
      · have hkept := SpendServer.livePir_step hstep rfl
        rw [hkept]
        exact h.livePir_none hstage (by simp) (by simp)
      · exact absurd hfalse (SpendServer.not_follow_connect task queue)
  | forward hstage =>
      refine ⟨fun _ _ => ?_, fun ⟨task, queue, hfalse⟩ => ?_⟩
      · rw [SpendServer.livePir_syncStage]
        exact h.livePir_none hstage (by simp) (by simp)
      · exact absurd hfalse (SpendServer.not_follow_syncStage
          (fun _ => isPlain_afterForward _ _ _ _) task queue)
  | backfill hstage =>
      refine ⟨fun _ _ => ?_, fun ⟨task, queue, hfalse⟩ => ?_⟩
      · rw [SpendServer.livePir_syncStage]
        exact h.livePir_none hstage (by simp) (by simp)
      · exact absurd hfalse (SpendServer.not_follow_syncStage
          (fun _ => isPlain_afterBackfill _ _ _) task queue)
  | publish hstage =>
      unfold SpendServer.publish
      split
      · exact ⟨fun _ hrunning => absurd rfl hrunning, fun ⟨_, _, hfalse⟩ => by cases hfalse⟩
      · split
        · exact ⟨fun _ hrunning => absurd rfl hrunning, fun ⟨_, _, hfalse⟩ => by cases hfalse⟩
        · next pir hrebuild =>
            refine ⟨fun hnot => absurd ⟨_, _, rfl⟩ hnot, fun _ => ⟨pir, rfl, ?_⟩⟩
            exact Nat.le_of_eq (SpendServer.latestHeight_rebuildPir hrebuild)
  | poll hstage =>
      exact ⟨fun hnot => absurd ⟨_, _, rfl⟩ hnot, hnewer ⟨_, _, hstage⟩⟩
  | requestFails hstage =>
      exact ⟨fun hnot => absurd ⟨_, _, rfl⟩ hnot, hnewer ⟨_, _, hstage⟩⟩
  | @handle task event rest hstage =>
      refine ⟨?_, hnewer ⟨_, _, hstage⟩⟩
      unfold SpendServer.handle
      split
      · exact fun _ hrunning => absurd rfl hrunning
      · exact fun hnot _ => absurd ⟨_, _, rfl⟩ hnot

theorem appInvariant_step {s s' : AppState (SpendServer σ)} {input : AppInput}
    (hchain : CoverableChain U chain) (hsmall : SmallBlocks chain)
    (h : AppInvariant U engine chain s) (hstep : AppStepOver config engine chain s input s') :
    AppInvariant U engine chain s' := by
  rcases hstep with ⟨hstep, hover⟩
  cases hstep with
  | @server input server _ hserver =>
      rcases hover input rfl with ⟨hserved, hgap⟩
      have hcoverage := coverageInvariant_step hchain h.coverage ⟨hserver, hserved, hgap⟩
      rcases published_step hsmall h hserver with ⟨hunpublished, hpublished⟩
      refine ⟨hcoverage, builtFromChain_step h.built hcoverage.table hserver, ?_, hunpublished,
        hpublished⟩
      intro hphase
      rcases h.announced (phaseAfter_eq_serving hphase) with ⟨pir, hpir⟩
      rcases livePir_newer hsmall h hserver hpir with ⟨newer, hnewer, _⟩
      exact ⟨newer, hnewer⟩
  | progress _ _ _ _ =>
      exact ⟨h.coverage, h.built, fun hphase => (by cases hphase), h.unpublished, h.published⟩
  | announce hfollowing =>
      refine ⟨h.coverage, h.built, fun _ => ?_, h.unpublished, h.published⟩
      rcases h.published hfollowing with ⟨pir, hpir, _⟩
      exact ⟨pir, hpir⟩

theorem appInvariant_init : AppInvariant U engine chain initApp where
  coverage := coverageInvariant_init
  built := fun _ hfalse => by cases hfalse
  announced := fun hfalse => by cases hfalse
  unpublished := fun _ _ => rfl
  published := fun ⟨_, _, hfalse⟩ => by cases hfalse

theorem AppInvariant.later {s t : AppState (SpendServer σ)} (h : AppInvariant U engine chain s)
    (hchain : CoverableChain U chain) (hsmall : SmallBlocks chain)
    (hlater : Later (AppStepOver config engine chain) s t) : AppInvariant U engine chain t :=
  hlater.invariant (fun _ _ _ hkept hstep => appInvariant_step hchain hsmall hkept hstep) h

theorem appInvariant_later {s : AppState (SpendServer σ)} (hchain : CoverableChain U chain)
    (hsmall : SmallBlocks chain)
    (h : Later (AppStepOver config engine chain) initApp s) : AppInvariant U engine chain s :=
  appInvariant_init.later hchain hsmall h

theorem step_stopped {server : SpendServer σ} (h : server.stage = .stopped)
    (input : ServerInput) : server.step config engine input = none := by
  cases input <;> simp only [SpendServer.step, h]

theorem running_of_later {s t : AppState (SpendServer σ)}
    (hlater : Later (AppStepOver config engine chain) s t) (ht : t.server.running = true) :
    s.server.running = true := by
  by_contra hs
  have hstopped : s.server.stage = .stopped := by
    unfold SpendServer.running at hs
    split at hs
    · assumption
    · exact absurd rfl hs
  have hkept : t.server.stage = .stopped := by
    refine hlater.invariant (P := fun s => s.server.stage = .stopped) ?_ hstopped
    intro before input after hbefore hstep
    cases hstep.left with
    | server _ hserver =>
        rw [step_stopped hbefore] at hserver
        cases hserver
    | progress _ _ _ _ => exact hbefore
    | announce _ => exact hbefore
  rw [SpendServer.running, hkept] at ht
  cases ht

/-- Something at least as new as a height is published. -/
def ServesFrom (height : Nat) (s : AppState (SpendServer σ)) : Prop :=
  exists pir, s.server.livePir = some pir ∧ height ≤ pir.metadata.latestHeight

theorem servesFrom_step {s s' : AppState (SpendServer σ)} {input : AppInput} {height : Nat}
    (hsmall : SmallBlocks chain) (h : AppInvariant U engine chain s)
    (hserves : ServesFrom height s) (hstep : AppStepOver config engine chain s input s') :
    ServesFrom height s' := by
  rcases hserves with ⟨pir, hpir, hle⟩
  cases hstep.left with
  | server _ hserver =>
      rcases livePir_newer hsmall h hserver hpir with ⟨newer, hnewer, hlatest, _⟩
      exact ⟨newer, hnewer, Nat.le_trans hle hlatest⟩
  | progress _ _ _ _ => exact ⟨pir, hpir, hle⟩
  | announce _ => exact ⟨pir, hpir, hle⟩

theorem servesFrom_later {s t : AppState (SpendServer σ)} {height : Nat}
    (hchain : CoverableChain U chain) (hsmall : SmallBlocks chain)
    (h : AppInvariant U engine chain s) (hserves : ServesFrom height s)
    (hlater : Later (AppStepOver config engine chain) s t) : ServesFrom height t :=
  (hlater.invariant (P := fun s => AppInvariant U engine chain s ∧ ServesFrom height s)
    (fun _ _ _ hkept hstep => ⟨appInvariant_step hchain hsmall hkept.left hstep,
      servesFrom_step hsmall hkept.left hkept.right hstep⟩) ⟨h, hserves⟩).right

end Invariant

end App

end Nullifier
end SpendabilityPir
