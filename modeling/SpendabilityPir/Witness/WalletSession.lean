import SpendabilityPir.Nullifier.HttpRequests
import SpendabilityPir.Witness.ServerRecovery

/-!
# A wallet's session with the witness server

A wallet connects, may refresh the broadcast, and asks for its witnesses one by one, while
the server appends blocks, publishes and restarts.  It combines rows of later trees with the
broadcast it has.
-/

namespace SpendabilityPir
namespace Witness

open Foundation Shared
open Nullifier (HttpResponse Exchange receive receive_eq_body receive_decode_eq_body)

/-!
## Routes
-/

section Routes

variable {σ ε : Type}

def broadcast (s : ServingRun σ) : Response BroadcastData :=
  whileRunning s.running (answerLive s.livePir (fun pir => .ok pir.broadcast))

def params (s : ServingRun σ) : Response YpirScenario :=
  whileRunning s.running (.ok scenario)

def query (engine : QueryEngine σ ε) (body : List UInt8) (s : ServingRun σ) :
    Response (List UInt8) :=
  whileRunning s.running
    (answerLive s.livePir (fun pir => answerQuery engine pir.engineState body))

end Routes

/-!
## Requests
-/

/-- The errors of a session: those of its requests, and those of the client's checks. -/
inductive WitnessSessionError where
  | http
  | serverUnavailable
  | client (error : WitnessClientError)

/-- A body, with failures as HTTP errors. -/
def json {α : Type} : HttpResponse α -> Outcome WitnessSessionError α
  | .body (some value) => .ok value
  | _ => .error (.error .http)

/-- The same, with its own error for a server that has nothing published. -/
def jsonIfAvailable {α : Type} : HttpResponse α -> Outcome WitnessSessionError α
  | .status 503 _ => .error (.error .serverUnavailable)
  | response => json response

def responseBytes : HttpResponse (List UInt8) -> Outcome WitnessSessionError (List UInt8)
  | .status 503 _ => .error (.error .serverUnavailable)
  | .status _ reason => .error (.error (.client (.queryFailed reason)))
  | response => json response

/-- A connected client, with the PIR client set up for its scenario. -/
structure WitnessClient (κ : Type) where
  scenario : YpirScenario
  broadcast : BroadcastData
  ypirClient : κ

section Client

variable {σ ε ρ : Type}

abbrev WitnessReader (σ α : Type) := Reader (ServingRun σ) (Outcome WitnessSessionError α)

def fetchParams (via : Transport) : WitnessReader σ YpirScenario :=
  .once (fun s => json (receive via (params s)))

def fetchBroadcast (via : Transport) : WitnessReader σ BroadcastData :=
  .once (fun s => jsonIfAvailable (receive via (broadcast s)))

/-- Fetch the scenario and then the broadcast, and set up the PIR client, which may
panic. -/
def connectTo (ypirClientFor : Nat -> Nat -> Option (PirClient ρ))
    (paramsVia broadcastVia : Transport) : WitnessReader σ (WitnessClient (PirClient ρ)) :=
  andThenOk (fetchParams paramsVia) (fun scenario =>
    andThenOk (fetchBroadcast broadcastVia) (fun broadcast =>
      .done (do
        let ypirClient <- Outcome.ofPanics
          (ypirClientFor scenario.numItems scenario.itemSizeBits)
        return { scenario := scenario, broadcast := broadcast, ypirClient := ypirClient })))

def refreshBroadcast (client : WitnessClient (PirClient ρ)) (via : Transport) :
    WitnessReader σ (WitnessClient (PirClient ρ)) :=
  andThenOk (fetchBroadcast via) (fun broadcast => .done (.ok { client with broadcast }))

/-- A client whose refresh fails keeps the broadcast it has. -/
def refreshAll (client : WitnessClient (PirClient ρ)) :
    List Transport -> Reader (ServingRun σ) (WitnessClient (PirClient ρ))
  | [] => .done client
  | via :: rest => (refreshBroadcast client via).andThen (fun
      | .error _ => refreshAll client rest
      | .ok refreshed => refreshAll refreshed rest)

variable (M : MerkleHashOrchard) (mode : Arithmetic) (engine : QueryEngine σ ε)

/-- Query a row and reconstruct the witness of a position from it. -/
def witnessFrom (client : WitnessClient (PirClient ρ)) (exchange : Exchange ρ)
    (position row : Nat) (s : ServingRun σ) : Outcome WitnessSessionError PirWitness := do
  let decodedRow <- responseBytes ((receive exchange.transport
    (query engine (client.ypirClient.generateQuery row exchange.seed) s)).decode
      (client.ypirClient.decodeResponse exchange.seed))
  Outcome.mapErr .client (reconstructWitness M mode position (decomposePosition position).1
    (decomposePosition position).2.1 (decomposePosition position).2.2 decodedRow
    client.broadcast)

/-- Query the row of a position that is in the window of the broadcast. -/
def getWitnessOver (client : WitnessClient (PirClient ρ)) (exchange : Exchange ρ)
    (position : Nat) : WitnessReader σ PirWitness :=
  match witnessRow mode client.broadcast position with
  | .error e => .done (Outcome.mapErr .client (.error e))
  | .ok row => .once (witnessFrom M mode engine client exchange position row)

def getWitnesses (client : WitnessClient (PirClient ρ)) (exchanges : Nat -> Exchange ρ)
    (positions : List Nat) :
    Reader (ServingRun σ) (BatchReport WitnessSessionError PirWitness) :=
  runBatch (fun i position => getWitnessOver M mode engine client (exchanges i) position)
    positions.length 0 positions

/-- How a session goes over the network. -/
structure SessionPlan (ρ : Type) where
  paramsVia : Transport
  broadcastVia : Transport
  refreshes : List Transport
  exchanges : Nat -> Exchange ρ

def witnessSession (ypirClientFor : Nat -> Nat -> Option (PirClient ρ)) (plan : SessionPlan ρ)
    (positions : List Nat) :
    WitnessReader σ (BroadcastData × BatchReport WitnessSessionError PirWitness) :=
  andThenOk (connectTo ypirClientFor plan.paramsVia plan.broadcastVia) (fun client =>
    (refreshAll client plan.refreshes).andThen (fun refreshed =>
      (getWitnesses M mode engine refreshed plan.exchanges positions).andThen (fun report =>
        .done (.ok (refreshed.broadcast, report)))))

end Client

/-!
## Bodies
-/

theorem json_eq_ok {α : Type} {response : HttpResponse α} {value : α}
    (h : json response = .ok value) : response = .body (some value) := by
  unfold json at h
  split at h
  · cases h
    rfl
  · cases h

theorem jsonIfAvailable_eq_ok {α : Type} {response : HttpResponse α} {value : α}
    (h : jsonIfAvailable response = .ok value) : response = .body (some value) := by
  unfold jsonIfAvailable at h
  split at h
  · cases h
  · exact json_eq_ok h

def PublishedDuring {σ β : Type} (step : ServingRun σ -> β -> ServingRun σ -> Prop)
    (s t : ServingRun σ) (pir : PirState σ) : Prop :=
  exists live, Later step s live ∧ Later step live t ∧ live.livePir = some pir

theorem PublishedDuring.widen {σ β : Type} {step : ServingRun σ -> β -> ServingRun σ -> Prop}
    {s s' t t' : ServingRun σ} {pir : PirState σ} (h : PublishedDuring step s t pir)
    (hbefore : Later step s' s) (hafter : Later step t t') : PublishedDuring step s' t' pir := by
  rcases h with ⟨live, hlive, hend, hpir⟩
  exact ⟨live, hbefore.trans hlive, hend.trans hafter, hpir⟩

section Reads

variable {σ ε ρ : Type} {M : MerkleHashOrchard} {mode : Arithmetic}
variable {engine : QueryEngine σ ε} {w : Window} {chain : ChainView} {U : BlockUniverse}
variable {s : ServingRun σ} {known pir : PirState σ} {m n : Nat}

theorem shows_anchor (h : pir.Shows M engine.toPirEngine w chain n) :
    pir.metadata.anchorHeight + 1 = n ∧ pir.broadcast.anchorHeight + 1 = n := by
  have hbase := h.base_lt
  rw [h.anchorHeight, h.broadcast_anchorHeight]
  lia

theorem broadcast_eq_ok {via : Transport} {found : BroadcastData}
    (h : jsonIfAvailable (receive via (broadcast s)) = .ok found) :
    s.running = true ∧ exists pir, s.livePir = some pir ∧ found = pir.broadcast := by
  rcases whileRunning_eq_ok (receive_eq_body (jsonIfAvailable_eq_ok h)) with
    ⟨hrunning, hfound⟩
  rcases answerLive_eq_ok hfound with ⟨pir, hpir, heq⟩
  exact ⟨hrunning, pir, hpir, (Response.ok.inj heq).symm⟩

theorem params_eq_ok {via : Transport} {found : YpirScenario}
    (h : json (receive via (params s)) = .ok found) : found = scenario :=
  (Response.ok.inj (whileRunning_eq_ok (receive_eq_body (json_eq_ok h))).right).symm

theorem response_of_shows {client : PirClient ρ} (hw : w.Sound M chain)
    (hchain : HonestChain U M chain) (hclient : client.Retrieves engine scenario)
    (hrunning : s.running = true)
    (hlive : s.livePir = some pir) (hpir : pir.Shows M engine.toPirEngine w chain m)
    {exchange : Exchange ρ} (hdelivered : exchange.transport = .delivered) {position : Nat}
    (hlo : w.leafOffset ≤ position)
    (hhi : position < (commitmentsOf (chain.take m)).length) :
    exists decodedRow,
      responseBytes ((receive exchange.transport
        (query engine (client.generateQuery (w.rowOf position) exchange.seed) s)).decode
          (client.decodeResponse exchange.seed)) = .ok decodedRow ∧
      decodedRow.take subshardRowBytes =
        protocolRow M (commitmentsOf (chain.take m)) position := by
  rcases hpir.answer hw hchain hclient hlo hhi exchange.seed with ⟨response, hresponse, hrow⟩
  refine ⟨client.decodeResponse exchange.seed response, ?_, hrow⟩
  simp only [query, hrunning, whileRunning, if_true, hlive, answerLive, answerQuery, hresponse,
    hdelivered, receive, HttpResponse.decode, Option.map_some, responseBytes, json]

/-- The client's decoding of the row of a server, as the protocol's row. -/
theorem reconstructWitness_of_row (hchain : HonestChain U M chain) (hw : w.Sound M chain)
    (hpir : pir.Shows M engine.toPirEngine w chain m) {decodedRow : List UInt8}
    {position : Nat} (hlo : w.leafOffset ≤ position)
    (hrow : decodedRow.take subshardRowBytes =
      protocolRow M (commitmentsOf (chain.take m)) position)
    (broadcast : BroadcastData) (shardIdx subshardIdx leafIdx : Nat) :
    reconstructWitness M mode position shardIdx subshardIdx leafIdx decodedRow broadcast =
      reconstructWitness M mode position shardIdx subshardIdx leafIdx
        (protocolRow M (commitmentsOf (chain.take m)) position) broadcast := by
  have hcanonical := (hpir.canonicalRow hw hchain hlo).left
  have hshort := congrArg List.length hrow
  rw [List.length_take] at hshort
  exact reconstructWitness_of_padded mode position _ _ _ broadcast (by lia) hrow

/-- A query that is delivered to a running server gives a witness, the protocol's one where
the sub-shard is the same as at the anchor of the broadcast. -/
theorem witnessFrom_of_shows {client : WitnessClient (PirClient ρ)} (hw : w.Sound M chain)
    (hchain : HonestChain U M chain) (hclient : client.ypirClient.Retrieves engine scenario)
    (hknown : known.Shows M engine.toPirEngine w chain n)
    (hbroadcast : client.broadcast = known.broadcast) (hrunning : s.running = true)
    (hlive : s.livePir = some pir) (hpir : pir.Shows M engine.toPirEngine w chain m)
    {exchange : Exchange ρ} (hdelivered : exchange.transport = .delivered) {position : Nat}
    (hlo : w.leafOffset ≤ position)
    (hknownHi : position < (commitmentsOf (chain.take n)).length)
    (hhi : position < (commitmentsOf (chain.take m)).length) :
    exists witness,
      witnessFrom M mode engine client exchange position (w.rowOf position) s = .ok witness ∧
      (SameSubshard chain position m n -> witness.anchorHeight = n - 1 ∧
        ExactWitness M (commitmentsOf (chain.take n)) position witness) := by
  rcases response_of_shows hw hchain hclient hrunning hlive hpir hdelivered hlo hhi with
    ⟨decodedRow, hresponse, hrow⟩
  rcases hknown.built with ⟨tree, _, _, hon, _, _⟩
  have hsize := hon.treeSize_le hchain
  rw [hon.treeSize_eq] at hsize
  have heq : forall witness, reconstructWitness M mode position (position / 2 ^ 16)
      (position / 2 ^ 8 % 256) (position % 256)
      (protocolRow M (commitmentsOf (chain.take m)) position) known.broadcast = .ok witness ->
      witnessFrom M mode engine client exchange position (w.rowOf position) s =
        .ok witness := by
    intro witness hwitness
    rw [witnessFrom, hresponse, ok_bind,
      decomposePosition_of_lt (Nat.lt_of_lt_of_le hknownHi hsize), hbroadcast]
    dsimp only
    rw [reconstructWitness_of_row hchain hw hpir hlo hrow, hwitness]
    rfl
  by_cases hsame : SameSubshard chain position m n
  · rcases hknown.reconstruct_exact hw hchain mode hlo hknownHi with
      ⟨witness, hwitness, hheight, hexact⟩
    rw [← protocolRow_congr hsame] at hwitness
    exact ⟨witness, heq witness hwitness, fun _ => ⟨hheight, hexact⟩⟩
  · rcases hknown.reconstruct hw hchain mode hlo hknownHi
      (hpir.canonicalRow hw hchain hlo) with ⟨witness, hwitness⟩
    exact ⟨witness, heq witness hwitness, fun hfalse => absurd hfalse hsame⟩

end Reads

/-!
## What a client knows
-/

section Sessions

variable {σ ε ρ : Type} {config : ServerConfig} {M : MerkleHashOrchard} {mode : Arithmetic}
variable {engine : QueryEngine σ ε} {w : Window} {chain : ChainView} {U : BlockUniverse}
variable {ypirClientFor : Nat -> Nat -> Option (PirClient ρ)}
variable {client : WitnessClient (PirClient ρ)} {s t : ServingRun σ}

/-- The broadcast of the client was published between two states and shows the blocks
through its anchor, and the PIR client is set up for the server's scenario. -/
structure WitnessClient.Knows {β : Type} (client : WitnessClient (PirClient ρ))
    (M : MerkleHashOrchard) (engine : PirEngine σ) (w : Window) (chain : ChainView)
    (ypirClientFor : Nat -> Nat -> Option (PirClient ρ))
    (step : ServingRun σ -> β -> ServingRun σ -> Prop) (s t : ServingRun σ) : Prop where
  ypirClient : ypirClientFor Witness.scenario.numItems Witness.scenario.itemSizeBits =
    some client.ypirClient
  broadcast : exists pir, PublishedDuring step s t pir ∧ client.broadcast = pir.broadcast ∧
    pir.Shows M engine w chain (client.broadcast.anchorHeight + 1)

theorem shows_of_fetched (hinvariant : WindowInvariant M engine.toPirEngine w chain s)
    {via : Transport} {found : BroadcastData}
    (h : jsonIfAvailable (receive via (broadcast s)) = .ok found) :
    exists pir, s.livePir = some pir ∧ found = pir.broadcast ∧
      pir.Shows M engine.toPirEngine w chain (found.anchorHeight + 1) := by
  rcases broadcast_eq_ok h with ⟨hrunning, pir, hpir, hfound⟩
  rcases hinvariant.shows hrunning hpir with ⟨n, hshows⟩
  refine ⟨pir, hpir, hfound, ?_⟩
  rw [hfound, (shows_anchor hshows).right]
  exact hshows

theorem knows_of_fetchBroadcast (hengine : engine.toPirEngine.Accepts scenario)
    (hw : w.Sound M chain) (hchain : HonestChain U M chain)
    (hinvariant : WindowInvariant M engine.toPirEngine w chain s) {via : Transport}
    {found : BroadcastData}
    (h : Observes (WindowStep config M engine.toPirEngine w chain) s (fetchBroadcast via) t
      (.ok found)) :
    exists pir, PublishedDuring (WindowStep config M engine.toPirEngine w chain) s t pir ∧
      found = pir.broadcast ∧
      pir.Shows M engine.toPirEngine w chain (found.anchorHeight + 1) := by
  rcases h.of_once with ⟨live, hbefore, hafter, heq⟩
  rcases shows_of_fetched (hinvariant.later hengine hw hchain hbefore) heq.symm with
    ⟨pir, hpir, hfound, hshows⟩
  exact ⟨pir, ⟨live, hbefore, hafter, hpir⟩, hfound, hshows⟩

theorem connectTo_eq_ok (hengine : engine.toPirEngine.Accepts scenario)
    (hw : w.Sound M chain) (hchain : HonestChain U M chain)
    (hinvariant : WindowInvariant M engine.toPirEngine w chain s)
    {paramsVia broadcastVia : Transport}
    (h : Observes (WindowStep config M engine.toPirEngine w chain) s
      (connectTo ypirClientFor paramsVia broadcastVia) t (.ok client)) :
    client.Knows M engine.toPirEngine w chain ypirClientFor
      (WindowStep config M engine.toPirEngine w chain) s t := by
  rcases observes_of_andThenOk h with ⟨fetched, mid, hparams, hrest⟩
  rcases observes_of_andThenOk hrest with ⟨found, mid', hbroadcast, hdone⟩
  rcases hparams.of_once with ⟨_, _, _, heq⟩
  have hfetched := params_eq_ok heq.symm
  rcases hdone.of_done with ⟨hclient, hend⟩
  rcases bind_eq_ok.mp hclient.symm with ⟨ypirClient, hset, hreturn⟩
  rw [hfetched] at hset
  cases hreturn
  rcases knows_of_fetchBroadcast hengine hw hchain
      (hinvariant.later hengine hw hchain hparams.end_later) hbroadcast with
    ⟨pir, hpublished, hfound, hshows⟩
  exact ⟨Outcome.ofPanics_eq_ok.mp hset,
    pir, hpublished.widen hparams.end_later hend, hfound, hshows⟩

theorem WitnessClient.Knows.widen {β : Type} {engine : PirEngine σ}
    {step : ServingRun σ -> β -> ServingRun σ -> Prop} {s' t' : ServingRun σ}
    (h : client.Knows M engine w chain ypirClientFor step s t) (hbefore : Later step s' s)
    (hafter : Later step t t') : client.Knows M engine w chain ypirClientFor step s' t' := by
  rcases h with ⟨hset, pir, hpublished, hrest⟩
  exact ⟨hset, pir, hpublished.widen hbefore hafter, hrest⟩

abbrev WitnessReply :=
  Outcome WitnessSessionError (BroadcastData × BatchReport WitnessSessionError PirWitness)

variable {q q' : Serving (ServingRun σ) WitnessReply}
variable {labels : List (ServingLabel (ServingRun σ) RunInput WitnessReply)}
variable {request : Request (ServingRun σ) WitnessReply} {id : Nat}
variable {plan : SessionPlan ρ} {positions : List Nat} {start : ServingRun σ}

/-- The server has published all blocks the client knows, and these go past a height. -/
structure Connected (M : MerkleHashOrchard) (engine : PirEngine σ) (w : Window)
    (chain : ChainView) (height : Nat) (client : WitnessClient (PirClient ρ))
    (s : ServingRun σ) : Prop where
  invariant : WindowInvariant M engine w chain s
  known : exists known, client.broadcast = known.broadcast ∧
    PirState.Shows known M engine w chain (client.broadcast.anchorHeight + 1)
  height_le : height ≤ client.broadcast.anchorHeight
  serves : ServesFrom client.broadcast.anchorHeight s

variable {height : Nat}

theorem Connected.later (h : Connected M engine.toPirEngine w chain height client s)
    (hengine : engine.toPirEngine.Accepts scenario) (hw : w.Sound M chain)
    (hchain : HonestChain U M chain)
    (hlater : Later (SteadyStep config M engine.toPirEngine w chain) s t) :
    Connected M engine.toPirEngine w chain height client t := by
  rcases h with ⟨hinvariant, hknown, hle, hserves⟩
  exact ⟨hinvariant.later hengine hw hchain (later_of_steady hlater), hknown, hle,
    servesFrom_later hengine hw hchain hinvariant hserves hlater⟩

theorem exists_broadcast (hinvariant : WindowInvariant M engine.toPirEngine w chain s)
    (hserves : ServesFrom height s) :
    exists pir, s.livePir = some pir ∧
      pir.Shows M engine.toPirEngine w chain (pir.broadcast.anchorHeight + 1) ∧
      height ≤ pir.broadcast.anchorHeight ∧ ServesFrom pir.broadcast.anchorHeight s := by
  have hrunning := hserves.running
  rcases hserves with ⟨task, queue, pir, hstage, hpir, hle⟩
  rcases hinvariant.shows hrunning hpir with ⟨n, hshows⟩
  have hanchor := (shows_anchor hshows).right
  have hheight : pir.broadcast.anchorHeight = pir.metadata.anchorHeight := by
    rw [hshows.broadcast_anchorHeight, hshows.anchorHeight]
  rw [← hanchor] at hshows
  exact ⟨pir, hpir, hshows, hheight.symm ▸ hle, task, queue, pir, hstage, hpir,
    Nat.le_of_eq hheight⟩

theorem connected_of_fetched (hinvariant : WindowInvariant M engine.toPirEngine w chain s)
    (hserves : ServesFrom height s) {via : Transport} {found : BroadcastData}
    (h : jsonIfAvailable (receive via (broadcast s)) = .ok found)
    (hbroadcast : client.broadcast = found) :
    Connected M engine.toPirEngine w chain height client s := by
  rcases broadcast_eq_ok h with ⟨_, pir, hpir, hfound⟩
  rcases exists_broadcast hinvariant hserves with ⟨live, hlive, hshows, hle, hserves'⟩
  rw [hpir] at hlive
  cases hlive
  rw [← hfound, ← hbroadcast] at hshows hle hserves'
  exact ⟨hinvariant, ⟨pir, hbroadcast.trans hfound, hshows⟩, hle, hserves'⟩

theorem connectTo_succeeds (hengine : engine.toPirEngine.Accepts scenario)
    (hw : w.Sound M chain) (hchain : HonestChain U M chain) {ypirClient : PirClient ρ}
    (hset : ypirClientFor scenario.numItems scenario.itemSizeBits = some ypirClient)
    (hinvariant : WindowInvariant M engine.toPirEngine w chain s)
    (hserves : ServesFrom height s)
    {result : Outcome WitnessSessionError (WitnessClient (PirClient ρ))}
    (h : Observes (SteadyStep config M engine.toPirEngine w chain) s
      (connectTo ypirClientFor .delivered .delivered) t result) :
    exists client, result = .ok client ∧ client.ypirClient = ypirClient ∧
      Connected M engine.toPirEngine w chain height client t := by
  have hkept : forall live, Later (SteadyStep config M engine.toPirEngine w chain) s live ->
      WindowInvariant M engine.toPirEngine w chain live ∧ ServesFrom height live :=
    fun live hlater => ⟨hinvariant.later hengine hw hchain (later_of_steady hlater),
      servesFrom_later hengine hw hchain hinvariant hserves hlater⟩
  rcases h.of_andThen with ⟨fetched, mid, hparams, hrest⟩
  rcases hparams.of_once with ⟨first, hfirst, hmid, hfetched⟩
  have hscenario : json (receive .delivered (params first)) = .ok scenario := by
    rw [params, whileRunning, if_pos (hkept first hfirst).right.running]
    rfl
  rw [hfetched, hscenario] at hrest
  rcases hrest.of_andThen with ⟨found, mid', hbroadcast, hdone⟩
  rcases hbroadcast.of_once with ⟨live, hlive, hmid', hfound⟩
  rcases hkept live (hparams.end_later.trans hlive) with ⟨hthere, hserving⟩
  rcases exists_broadcast hthere hserving with ⟨pir, hpir, _⟩
  have hbody : jsonIfAvailable (receive .delivered (broadcast live)) = .ok pir.broadcast := by
    rw [broadcast, whileRunning, if_pos hserving.running, hpir]
    rfl
  rw [hfound, hbody] at hdone
  rcases hdone.of_done with ⟨hresult, hend⟩
  rw [hset] at hresult
  refine ⟨{ scenario := scenario, broadcast := pir.broadcast, ypirClient := ypirClient },
    hresult, rfl, ?_⟩
  exact (connected_of_fetched hthere hserving hbody rfl).later hengine hw hchain
    (hmid'.trans hend)

theorem refreshBroadcast_connected (hengine : engine.toPirEngine.Accepts scenario)
    (hw : w.Sound M chain) (hchain : HonestChain U M chain)
    (hinvariant : WindowInvariant M engine.toPirEngine w chain s)
    (hserves : ServesFrom height s) {via : Transport}
    {refreshed : WitnessClient (PirClient ρ)}
    (h : Observes (SteadyStep config M engine.toPirEngine w chain) s
      (refreshBroadcast client via) t (.ok refreshed)) :
    refreshed.ypirClient = client.ypirClient ∧
      Connected M engine.toPirEngine w chain height refreshed t := by
  rcases observes_of_andThenOk h with ⟨found, mid, hbroadcast, hdone⟩
  rcases hdone.of_done with ⟨hrefreshed, hend⟩
  cases hrefreshed
  rcases hbroadcast.of_once with ⟨live, hlive, hmid, hfound⟩
  have hthere := hinvariant.later hengine hw hchain (later_of_steady hlive)
  have hserving := servesFrom_later hengine hw hchain hinvariant hserves hlive
  exact ⟨rfl, (connected_of_fetched hthere hserving hfound.symm rfl).later hengine hw hchain
    (hmid.trans hend)⟩

theorem refreshAll_connected (hengine : engine.toPirEngine.Accepts scenario)
    (hw : w.Sound M chain) (hchain : HonestChain U M chain)
    (hconnected : Connected M engine.toPirEngine w chain height client s)
    {refreshes : List Transport} {refreshed : WitnessClient (PirClient ρ)}
    (h : Observes (SteadyStep config M engine.toPirEngine w chain) s
      (refreshAll client refreshes) t refreshed) :
    refreshed.ypirClient = client.ypirClient ∧
      Connected M engine.toPirEngine w chain height refreshed t := by
  induction refreshes generalizing client s with
  | nil =>
      rcases h.of_done with ⟨hrefreshed, hend⟩
      rw [hrefreshed]
      exact ⟨rfl, hconnected.later hengine hw hchain hend⟩
  | cons via rest ih =>
      rcases h.of_andThen with ⟨first, mid, hfirst, hrest⟩
      cases first with
      | error e => exact ih (hconnected.later hengine hw hchain hfirst.end_later) hrest
      | ok found =>
          rcases refreshBroadcast_connected hengine hw hchain hconnected.invariant
            (hconnected.serves.mono hconnected.height_le) hfirst with ⟨hsame, hfound⟩
          rcases ih hfound hrest with ⟨hypir, hrefreshed⟩
          exact ⟨hypir.trans hsame, hrefreshed⟩

def InWindow (w : Window) (chain : ChainView) (height position : Nat) : Prop :=
  w.leafOffset ≤ position ∧ position < (commitmentsOf (chain.take (height + 1))).length

theorem getWitness_succeeds (hengine : engine.toPirEngine.Accepts scenario)
    (hw : w.Sound M chain) (hchain : HonestChain U M chain)
    (hclient : client.ypirClient.Retrieves engine scenario)
    (hconnected : Connected M engine.toPirEngine w chain height client s)
    {exchange : Exchange ρ} (hdelivered : exchange.transport = .delivered) {position : Nat}
    (hposition : InWindow w chain height position)
    {found : Outcome WitnessSessionError PirWitness}
    (h : Observes (SteadyStep config M engine.toPirEngine w chain) s
      (getWitnessOver M mode engine client exchange position) t found) :
    exists witness, found = .ok witness ∧
      (CommitmentTreeDb.subshardEnd position ≤
        (commitmentsOf (chain.take (client.broadcast.anchorHeight + 1))).length ->
          witness.anchorHeight = client.broadcast.anchorHeight ∧
          ExactWitness M (commitmentsOf (chain.take (client.broadcast.anchorHeight + 1)))
            position witness) := by
  rcases hconnected.known with ⟨known, hbroadcast, hknown⟩
  have hgrown : forall k, height < k -> position < (commitmentsOf (chain.take k)).length :=
    fun k hk => Nat.lt_of_lt_of_le hposition.right (commitmentsOf_take_isPrefix chain hk).length_le
  have hhi := hgrown _ (Nat.lt_succ_of_le hconnected.height_le)
  have hrow := hknown.witnessRow_eq hw hchain mode hposition.left hhi
  rw [← hbroadcast] at hrow
  rw [getWitnessOver, hrow] at h
  rcases h.of_once with ⟨live, hlive, _, heq⟩
  have hthere := hconnected.later hengine hw hchain hlive
  rcases exists_broadcast hthere.invariant hthere.serves with ⟨pir, hpir, hshows, hle, _⟩
  rcases witnessFrom_of_shows hw hchain hclient hknown hbroadcast hthere.serves.running hpir
      hshows hdelivered hposition.left hhi
      (hgrown _ (Nat.lt_succ_of_le (Nat.le_trans hconnected.height_le hle))) with
    ⟨witness, hwitness, hexact⟩
  exact ⟨witness, heq.trans hwitness,
    fun hfull => hexact (sameSubshard_of_full (Nat.succ_le_succ hle) hfull)⟩

/-- A witness of a sub-shard that was full at the anchor of the broadcast is exact. -/
def ExactIfFull (M : MerkleHashOrchard) (chain : ChainView) (broadcast : BroadcastData)
    (position : Nat) (witness : PirWitness) : Prop :=
  CommitmentTreeDb.subshardEnd position ≤
      (commitmentsOf (chain.take (broadcast.anchorHeight + 1))).length ->
    witness.anchorHeight = broadcast.anchorHeight ∧
      ExactWitness M (commitmentsOf (chain.take (broadcast.anchorHeight + 1))) position witness

theorem getWitnesses_succeeds (hengine : engine.toPirEngine.Accepts scenario)
    (hw : w.Sound M chain) (hchain : HonestChain U M chain)
    (hclient : client.ypirClient.Retrieves engine scenario)
    (hconnected : Connected M engine.toPirEngine w chain height client s)
    (hdelivered : forall i, (plan.exchanges i).transport = .delivered)
    (hpositions : forall position, position ∈ positions -> InWindow w chain height position)
    {report : BatchReport WitnessSessionError PirWitness}
    (h : Observes (SteadyStep config M engine.toPirEngine w chain) s
      (getWitnesses M mode engine client plan.exchanges positions) t report) :
    exists witnesses, report.results = .ok witnesses ∧
      report.progress = (List.range' 1 positions.length).map
        (fun n => (n, positions.length)) ∧
      List.Forall₂ (ExactIfFull M chain client.broadcast) positions witnesses := by
  have hkept : forall s t, Connected M engine.toPirEngine w chain height client s ->
      Later (SteadyStep config M engine.toPirEngine w chain) s t ->
      Connected M engine.toPirEngine w chain height client t :=
    fun _ _ hs hlater => hs.later hengine hw hchain hlater
  have hanswered : forall j position before after found, position ∈ positions ->
      Connected M engine.toPirEngine w chain height client before ->
      Observes (SteadyStep config M engine.toPirEngine w chain) before
        (getWitnessOver M mode engine client (plan.exchanges j) position) after found ->
      exists witness, found = .ok witness ∧
        ExactIfFull M chain client.broadcast position witness :=
    fun j position before after found hmem hbefore hasked =>
      getWitness_succeeds hengine hw hchain hclient hbefore (hdelivered j)
        (hpositions position hmem) hasked
  have hall := runBatch_of_ok hkept (fun j position before after found hmem hbefore hasked _ =>
    (hanswered j position before after found hmem hbefore hasked).imp
      (fun _ hfound => hfound.left)) hconnected h
  rcases hall with ⟨⟨witnesses, hresults⟩, hprogress⟩
  refine ⟨witnesses, hresults, hprogress, ?_⟩
  have hobserved := (List.forall₂_and_left _ _).mpr
    ⟨fun position hmem => hmem, observes_of_runBatch h hresults⟩
  refine hobserved.imp ?_
  rintro position witness ⟨hmem, i, before, after, hbefore, hasked, _⟩
  rcases hanswered i position before after _ hmem (hkept _ _ hconnected hbefore) hasked with
    ⟨found, hfound, hexact⟩
  cases hfound
  exact hexact

theorem witnessSession_succeeds {ypirClient : PirClient ρ} {reply : WitnessReply}
    (hengine : engine.toPirEngine.Accepts scenario) (hw : w.Sound M chain)
    (hchain : HonestChain U M chain)
    (hset : ypirClientFor scenario.numItems scenario.itemSizeBits = some ypirClient)
    (hclient : ypirClient.Retrieves engine scenario) (hparams : plan.paramsVia = .delivered)
    (hbroadcast : plan.broadcastVia = .delivered)
    (hdelivered : forall i, (plan.exchanges i).transport = .delivered)
    (hinvariant : WindowInvariant M engine.toPirEngine w chain s)
    (hserves : ServesFrom height s)
    (hpositions : forall position, position ∈ positions -> InWindow w chain height position)
    (h : Observes (SteadyStep config M engine.toPirEngine w chain) s
      (witnessSession M mode engine ypirClientFor plan positions) t reply) :
    exists broadcast report witnesses, reply = .ok (broadcast, report) ∧
      height ≤ broadcast.anchorHeight ∧ report.results = .ok witnesses ∧
      report.progress = (List.range' 1 positions.length).map
        (fun n => (n, positions.length)) ∧
      List.Forall₂ (ExactIfFull M chain broadcast) positions witnesses := by
  rw [witnessSession, hparams, hbroadcast] at h
  rcases h.of_andThen with ⟨connected, mid, hconnect, hrest⟩
  rcases connectTo_succeeds hengine hw hchain hset hinvariant hserves hconnect with
    ⟨client, hresult, hypir, hconnected⟩
  rw [hresult] at hrest
  rcases hrest.of_andThen with ⟨refreshed, mid', hrefresh, hbatch⟩
  rcases refreshAll_connected hengine hw hchain hconnected hrefresh with ⟨hsame, hready⟩
  rcases hbatch.of_andThen with ⟨report, ended, hgot, hdone⟩
  rcases hdone.of_done with ⟨hreplied, _⟩
  have hretrieves : refreshed.ypirClient.Retrieves engine scenario := by
    rw [hsame, hypir]
    exact hclient
  rcases getWitnesses_succeeds hengine hw hchain hretrieves hready hdelivered hpositions hgot
    with ⟨witnesses, hresults, hprogress, hexact⟩
  exact ⟨refreshed.broadcast, report, witnesses, hreplied, hready.height_le, hresults,
    hprogress, hexact⟩

/-- A session that arrives when the server serves some height, and ends before the process
does, succeeds whenever the network loses nothing but refreshes: the broadcast is at least
as new, and there is a witness for every position that was in the window. -/
theorem witness_session_succeeds {began : ServingRun σ} {ypirClient : PirClient ρ}
    {reply : WitnessReply} (hengine : engine.toPirEngine.Accepts scenario)
    (hw : w.Sound M chain) (hchain : HonestChain U M chain)
    (hset : ypirClientFor scenario.numItems scenario.itemSizeBits = some ypirClient)
    (hclient : ypirClient.Retrieves engine scenario) (hstart : StartsOn M w chain start)
    (hbegan : Later (WindowStep config M engine.toPirEngine w chain) start began)
    (hrun : Run (ServingStep (SteadyStep config M engine.toPirEngine w chain)) (quiet began)
      labels q)
    (hrequest : q.requests id = some request)
    (hasked : request.asked = witnessSession M mode engine ypirClientFor plan positions)
    (hparams : plan.paramsVia = .delivered) (hbroadcast : plan.broadcastVia = .delivered)
    (hdelivered : forall i, (plan.exchanges i).transport = .delivered)
    (hserves : ServesFrom height request.arrived)
    (hpositions : forall position, position ∈ positions -> InWindow w chain height position)
    (hreply : ServingStep (SteadyStep config M engine.toPirEngine w chain) q
      (.reply id reply) q') :
    exists broadcast report witnesses, reply = .ok (broadcast, report) ∧
      height ≤ broadcast.anchorHeight ∧ report.results = .ok witnesses ∧
      report.progress = (List.range' 1 positions.length).map
        (fun n => (n, positions.length)) ∧
      List.Forall₂ (ExactIfFull M chain broadcast) positions witnesses := by
  rcases observes_of_reply hrun hreply with ⟨found, hfound, hreached, hobserves⟩
  rw [hrequest] at hfound
  cases hfound
  rw [hasked] at hobserves
  have hinvariant := (hstart.invariant engine.toPirEngine).later hengine hw hchain
    (hbegan.trans (later_of_steady hreached))
  exact witnessSession_succeeds hengine hw hchain hset hclient hparams hbroadcast hdelivered
    hinvariant hserves hpositions hobserves

end Sessions

/-!
## A wallet of a server that restarted
-/

def samplePlan : SessionPlan Unit :=
  { paramsVia := .delivered
    broadcastVia := .delivered
    refreshes := [.lost, .delivered]
    exchanges := fun _ => { transport := .delivered, seed := () } }

def sampleWitnessSession :
    WitnessReader StubServerState (BroadcastData × BatchReport WitnessSessionError PirWitness) :=
  witnessSession sampleHash .wrapping stubPirEngine (fun _ _ => some plainClient) samplePlan [0]

theorem inWindow_sample {position : Nat} (h : position ∈ [0]) :
    InWindow orphanedWindow chainOrphaned 2 position := by
  rw [List.mem_singleton.mp h]
  exact ⟨Nat.zero_le 0, by decide⟩

theorem witness_session_succeeds_orphaned :
    exists began broadcast report witnesses,
      sampleWitnessSession.eval began = .ok (broadcast, report) ∧
      2 ≤ broadcast.anchorHeight ∧ report.results = .ok witnesses ∧
      report.progress = [(1, 1)] ∧
      List.Forall₂ (ExactIfFull sampleHash chainOrphaned broadcast) [0] witnesses := by
  rcases later_serves (List.prefix_refl chainOrphaned) (List.cons_ne_nil _ _) with
    ⟨began, hbegan, hserves⟩
  have hrefl : Later OrphanedSteady began began := Later.refl began
  rcases exists_asked hrefl sampleWitnessSession with
    ⟨_, q, _, request, hrun, _, hrequest, hasked, harrived, hreply⟩
  exact ⟨began, witness_session_succeeds accepts_stubPirEngine sound_orphanedWindow
    honestChain_orphaned rfl retrieves_stubPirEngine startsOn_orphanedStart hbegan hrun hrequest
    hasked rfl rfl (fun _ => rfl) (harrived ▸ hserves) (fun _ => inWindow_sample) hreply⟩

end Witness
end SpendabilityPir
