import SpendabilityPir.Combined.CoverageSoundness
import SpendabilityPir.Nullifier.PublishedAnswers
import SpendabilityPir.Nullifier.SpendLife
import SpendabilityPir.Nullifier.TableRoundTrip

/-!
# Crashes of the nullifier server

Whatever ends the process, and whatever was being written when it ended, a restart finds
no snapshot or a good one, and what is published answers for the chain.  A snapshot found
after a kill is at most an interval of events old.
-/

namespace SpendabilityPir
namespace Combined

open Foundation Shared
open Nullifier (CoverableChain HashTableDb LifeConfig LifeInput SpendLife SpendServer)

section Crashes

variable {σ : Type} {U : BlockUniverse} {xxh64 : List UInt8 -> Nat -> UInt64}
variable {engine : PirEngine σ} {chain : ChainView} {config : LifeConfig}
variable {s : SpendLife σ} {inputs : List LifeInput}

/-- However often the server is restarted, killed, cut off from power or stopped by an I/O
error, what it publishes answers for exactly the heights it reports, and what the data
directory holds is no snapshot or the snapshot of an interval of the chain. -/
theorem restarts_answer_for_chain (hchain : CoverableChain U chain)
    (hrun : Run (SpendLife.StepOver config xxh64 engine chain) SpendLife.init inputs s) :
    (forall pir, s.server.livePir = some pir -> pir.Answers engine chain) ∧
    (Nullifier.loadSnapshot xxh64 s.files.fs = .error .io ∨
      exists hashtable, Nullifier.loadSnapshot xxh64 s.files.fs = .ok hashtable ∧
        hashtable.HoldsThroughLatest chain) := by
  rcases SpendLife.lifeInvariant_run hchain hrun with ⟨a, h⟩
  constructor
  · exact fun pir hpir => h.built.answers hchain hpir
  · rcases Nullifier.loadSnapshot_of_offers h.stands h.offers with hnone | ⟨db, hdb, hload⟩
    · exact Or.inl hnone
    · exact Or.inr ⟨db.recounted, hload, hdb.recounted⟩

end Crashes

/-!
## A life with a kill and a restart
-/

open Nullifier (sampleConfig tableBefore tableOrphaned taskOrphaned)

def sampleLife : LifeConfig :=
  { sampleConfig with snapshotInterval := 100 }

abbrev SampleLifeStep : SpendLife (List UInt8) -> LifeInput -> SpendLife (List UInt8) ->
    Prop :=
  SpendLife.StepOver sampleLife (fun _ _ => 0) keepingEngine chainOrphaned

def lifeOf (server : SpendServer (List UInt8)) (fs : FileSystem String) (saved : Bool)
    (count : Nat) : SpendLife (List UInt8) :=
  { server := server
    files := { fs := fs, stage := .idle }
    saved := saved
    blocksSinceSnapshot := count
    due := false }

theorem save_completes {s : SpendLife (List UInt8)} {inputs : List LifeInput}
    (hrun : Run SampleLifeStep SpendLife.init inputs s)
    (hdue : s.SaveDue) (hidle : s.files.stage = .idle)
    (hblocks : s.server.hashtable.blockIndex.size < 2 ^ 32) :
    exists inputs' fs, Run SampleLifeStep SpendLife.init inputs' (lifeOf s.server fs true 0) ∧
      inputs <+: inputs' ∧
      Nullifier.loadSnapshot (fun _ _ => 0) fs = .ok s.server.hashtable.recounted := by
  rcases SpendLife.lifeInvariant_run coverable_chainOrphaned hrun with ⟨a, h⟩
  have hcons := h.server.table.consistent
  rcases hcons.toSnapshot_isSome hblocks (fun _ _ => 0) with ⟨payload, hsnapshot⟩
  rcases exists_save hidle payload with
    ⟨first, written, synced, fs, hstart, hwrite, hsync, hrename⟩
  have hread := read_of_save Nullifier.snapshotFilenames_ne h.stands hstart
    (((Run.nil first).snoc hwrite).snoc hsync) (by simp) hrename
  have hstarted := hrun.snoc ⟨.startSave hdue hsnapshot hstart, trivial⟩
  have hwritten := hstarted.snoc ⟨.write hwrite, trivial⟩
  have hsynced := hwritten.snoc ⟨.sync hsync, trivial⟩
  have hrenamed : Run SampleLifeStep SpendLife.init _ (lifeOf s.server fs true 0) :=
    hsynced.snoc ⟨.rename hrename, trivial⟩
  refine ⟨_, fs, hrenamed, ?_, Nullifier.loadSnapshot_of_read hcons hsnapshot hread⟩
  simp [List.append_assoc]

theorem exists_sampleLife :
    exists fs inputs, Run SampleLifeStep SpendLife.init inputs
        (lifeOf (spendServing tableOrphaned taskOrphaned []) fs true 1) ∧
      Nullifier.loadSnapshot (fun _ _ => 0) fs = .ok tableBefore.recounted := by
  have hconnect : SampleLifeStep SpendLife.init (.server (.connect 1 none))
      (lifeOf spendForward FileSystem.empty false 0) :=
    ⟨.server (.connect false) sampleCoverage_connect.step, trivial⟩
  have hrange : SampleLifeStep (lifeOf spendForward FileSystem.empty false 0)
      (.server (.range (some connectionStart)))
      (lifeOf spendFilled FileSystem.empty false 0) :=
    ⟨.server .range sampleCoverage_range.step, sampleCoverage_range.served,
      sampleCoverage_range.noGap⟩
  have hsynced := ((Run.nil _).snoc hconnect).snoc hrange
  have hdue : (lifeOf spendFilled FileSystem.empty false 0).SaveDue := Or.inl ⟨rfl, rfl⟩
  have hblocks : tableBefore.blockIndex.size < 2 ^ 32 := by decide
  rcases save_completes hsynced hdue rfl hblocks with
    ⟨_, fs, hsaved, _, hload⟩
  have hpublish : SampleLifeStep (lifeOf spendFilled fs true 0) (.server .publish)
      (lifeOf (spendServing tableBefore (SpendServer.followStart tableBefore) []) fs true 0) :=
    ⟨.server (.publish rfl) sampleCoverage_publish.step, sampleCoverage_publish.served,
      sampleCoverage_publish.noGap⟩
  have hpoll : SampleLifeStep
      (lifeOf (spendServing tableBefore (SpendServer.followStart tableBefore) []) fs true 0)
      (.server (.poll chainOrphaned))
      (lifeOf (spendServing tableBefore taskOrphaned
        [Nullifier.newBlockEvent none sampleOrphan]) fs true 0) :=
    ⟨.server .poll sampleCoverage_poll.step, sampleCoverage_poll.served,
      sampleCoverage_poll.noGap⟩
  have hhandle : SampleLifeStep
      (lifeOf (spendServing tableBefore taskOrphaned
        [Nullifier.newBlockEvent none sampleOrphan]) fs true 0)
      (.server .handle) (lifeOf (spendServing tableOrphaned taskOrphaned []) fs true 1) :=
    ⟨.server (.handle rfl rfl) sampleCoverage_handle.step, sampleCoverage_handle.served,
      sampleCoverage_handle.noGap⟩
  exact ⟨fs, _, ((hsaved.snoc hpublish).snoc hpoll).snoc hhandle, hload⟩

/-- The table of block 1, loaded again, with block 2. -/
def tableResumed : HashTableDb :=
  (tableBefore.recounted.insertBlock 2 (toHashArray sampleOrphan.hash)
    (Nullifier.extractNullifiersWithMeta sampleOrphan none).1).1

def spendResuming : SpendServer (List UInt8) :=
  { hashtable := tableBefore.recounted, livePir := none, stage := .forward 2 2 1 true }

def spendResumed : SpendServer (List UInt8) :=
  { hashtable := tableResumed, livePir := none, stage := .synced }

def connectionOrphaned : Connection :=
  { view := chainOrphaned, fails := fun _ _ => false }

theorem sampleCoverage_resumed :
    SampleCoverage spendResuming (.range (some connectionOrphaned)) spendResumed where
  step := by
    have hsync : Nullifier.syncRange (some connectionOrphaned) 2 2 tableBefore.recounted none =
        .ok tableResumed := by
      rw [Nullifier.syncRange_of_serves honest_chainOrphaned.heights (fun _ _ => rfl)
        (Nat.le_refl 2)]
      rfl
    exact congrArg some (SpendServer.syncStage_of_ok hsync _)
  served := by
    intro c hc
    cases hc
    exact List.prefix_rfl
  noGap := fun _ _ _ _ hfalse => (nomatch hfalse)

def serverResumed : SpendServer (List UInt8) :=
  spendServing tableResumed (SpendServer.followStart tableResumed) []

/-- Killed after block 2, the server loads the snapshot of block 1, syncs block 2 again,
saves and publishes. -/
theorem exists_restartedLife :
    exists fs inputs, Run SampleLifeStep SpendLife.init inputs
        (lifeOf serverResumed fs true 0) ∧
      [.kill, .server (.connect 2 (some tableBefore.recounted))] <:+: inputs := by
  rcases exists_sampleLife with ⟨fs, inputs, hrun, hload⟩
  have hkill : SampleLifeStep (lifeOf (spendServing tableOrphaned taskOrphaned []) fs true 1)
      .kill (lifeOf SpendServer.init fs false 0) := ⟨.kill, trivial⟩
  have hloaded : (lifeOf SpendServer.init fs false 0).loaded (fun _ _ => 0) true =
      some tableBefore.recounted := by
    change (Nullifier.loadSnapshot (fun _ _ => 0) fs).toOption = _
    rw [hload]
    rfl
  have hadmits : (lifeOf SpendServer.init fs false 0).Admits (fun _ _ => 0)
      (.connect 2 (some tableBefore.recounted)) := by
    rw [← hloaded]
    exact .connect true
  have hconnect : SampleLifeStep (lifeOf SpendServer.init fs false 0)
      (.server (.connect 2 (some tableBefore.recounted))) (lifeOf spendResuming fs false 0) :=
    ⟨.server hadmits rfl, trivial⟩
  have hrange : SampleLifeStep (lifeOf spendResuming fs false 0)
      (.server (.range (some connectionOrphaned))) (lifeOf spendResumed fs false 0) :=
    ⟨.server .range sampleCoverage_resumed.step, sampleCoverage_resumed.served,
      sampleCoverage_resumed.noGap⟩
  have hstarted := ((hrun.snoc hkill).snoc hconnect).snoc hrange
  have hdue : (lifeOf spendResumed fs false 0).SaveDue := Or.inl ⟨rfl, rfl⟩
  have hblocks : tableResumed.blockIndex.size < 2 ^ 32 := by decide
  rcases save_completes hstarted hdue rfl hblocks with
    ⟨inputs', fs', hsaved, hfront, _⟩
  have hsize : spendResumed.hashtable.len ≤ Nullifier.targetSize := Nat.le_of_ble_eq_true rfl
  have hpublish : SampleLifeStep (lifeOf spendResumed fs' true 0) (.server .publish)
      (lifeOf serverResumed fs' true 0) :=
    ⟨.server (.publish rfl) (congrArg some (publish_keepingEngine hsize)), trivial,
      fun _ _ _ hfalse => (nomatch hfalse)⟩
  refine ⟨fs', _, hsaved.snoc hpublish, ?_⟩
  rcases hfront with ⟨later, rfl⟩
  exact ⟨inputs, .server (.range (some connectionOrphaned)) :: later ++ [.server .publish],
    by simp⟩

/-- After the restart the published state answers for the chain. -/
theorem restarts_answer_for_chain_restarted :
    exists fs inputs, Run SampleLifeStep SpendLife.init inputs
        (lifeOf serverResumed fs true 0) ∧
      [.kill, .server (.connect 2 (some tableBefore.recounted))] <:+: inputs ∧
      (pirOf tableResumed).Answers keepingEngine chainOrphaned := by
  rcases exists_restartedLife with ⟨fs, inputs, hrun, hrestart⟩
  exact ⟨fs, inputs, hrun, hrestart,
    (restarts_answer_for_chain coverable_chainOrphaned hrun).left _ rfl⟩

end Combined
end SpendabilityPir
