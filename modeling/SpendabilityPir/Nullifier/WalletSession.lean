import SpendabilityPir.Nullifier.HttpRequests
import SpendabilityPir.Nullifier.HttpServer
import SpendabilityPir.Nullifier.PirStub

/-!
# A wallet's session with the nullifier server

A wallet connects and checks its nullifiers one by one, while the server follows the
chain.  Each answer is right for something the server published while the wallet waited,
at least as new as the metadata the wallet connected with.
-/

namespace SpendabilityPir
namespace Nullifier

open Foundation Shared

/-!
## Requests
-/

section Client

variable {σ ε ρ : Type} (engine : QueryEngine σ ε)

abbrev SpendReader (σ : Type) (β : Type) := Reader (AppState (SpendServer σ)) β

/-- The metadata is what is published when it is fetched. -/
def connectTo (ypirClientFor : Nat -> Nat -> Option (PirClient ρ))
    (paramsVia metadataVia : Transport) :
    SpendReader σ (Outcome SpendClientError (SpendClient (PirClient ρ))) :=
  .once (fun s => SpendClient.connect ypirClientFor (receive paramsVia (params s))
    (receive metadataVia (metadata s)))

def isSpentOver (client : PirClient ρ) (exchange : Exchange ρ) (nf : ByteVec 32) :
    SpendReader σ (Outcome SpendClientError (Option SpendMetadata)) :=
  .once (fun s => SpendClient.isSpent (fun bucketIdx =>
    (receive exchange.transport
      (query engine (client.generateQuery bucketIdx.val exchange.seed) s)).decode
        (client.decodeResponse exchange.seed)) nf)

def checkNullifiers (client : PirClient ρ) (exchanges : Nat -> Exchange ρ)
    (nullifiers : List (ByteVec 32)) :
    SpendReader σ (BatchReport SpendClientError (Option SpendMetadata)) :=
  runBatch (fun i nf => isSpentOver engine client (exchanges i) nf) nullifiers.length 0
    nullifiers

def walletSession (ypirClientFor : Nat -> Nat -> Option (PirClient ρ))
    (paramsVia metadataVia : Transport) (exchanges : Nat -> Exchange ρ)
    (nullifiers : List (ByteVec 32)) :
    SpendReader σ (Outcome SpendClientError
      (SpendabilityMetadata × BatchReport SpendClientError (Option SpendMetadata))) :=
  (connectTo ypirClientFor paramsVia metadataVia).andThen (fun
    | .error e => .done (.error e)
    | .ok client => (checkNullifiers engine client.ypirClient exchanges nullifiers).andThen
        (fun report => .done (.ok (client.metadata, report))))

end Client

/-!
## One query
-/

/-- The answer for a nullifier is right for the blocks at the published heights. -/
structure ExactAnswer (metadata : SpendabilityMetadata) (chain : ChainView)
    (nf : ByteVec 32) (found : Option SpendMetadata) : Prop where
  spent_iff : found.isSome = true ↔ exists height, SpentAt metadata chain nf height
  height : forall spend, found = some spend -> exists height,
    SpentAt metadata chain nf height ∧ spend.spendHeight = UInt32.ofNat height

theorem SpendClient.isSpent_eq_ok {query : Fin numBuckets -> HttpResponse (List UInt8)}
    {nf : ByteVec 32} {found : Option SpendMetadata}
    (h : SpendClient.isSpent query nf = .ok found) :
    exists decoded, query (hashToBucket nf) = .body (some decoded) := by
  unfold SpendClient.isSpent at h
  split at h
  · cases h
  · split at h <;> cases h
  · cases h
  · next decoded hbody => exact ⟨decoded, hbody⟩

/-- The scan reads the row and not the padding past its end. -/
theorem scanBucketForNf_of_padded {decoded row : List UInt8} (hrow : row.length = bucketBytes)
    (h : decoded.take bucketBytes = row) (nf : ByteVec 32) :
    scanBucketForNf decoded nf = scanBucketForNf row nf := by
  have hwide : decoded.length ≥ bucketBytes := by
    have hlength := congrArg List.length h
    rw [List.length_take, hrow] at hlength
    lia
  have hself : row.take bucketBytes = row := List.take_of_length_le (Nat.le_of_eq hrow)
  rw [scanBucketForNf, if_pos hwide, scanBucketForNf, if_pos (Nat.le_of_eq hrow.symm), h, hself]

theorem length_rowFor {bytes : List UInt8} (h : bytes.length = dbBytes) (nf : ByteVec 32) :
    (rowFor bytes nf).length = bucketBytes := by
  have hrow := row_end_le h (hashToBucket nf).isLt
  rw [rowFor, slice, List.length_take, List.length_drop]
  exact Nat.min_eq_left (Nat.le_sub_of_add_le' hrow)

section Query

variable {σ ε ρ : Type} {engine : QueryEngine σ ε} {client : PirClient ρ}
variable {chain : ChainView} {s : AppState (SpendServer σ)} {pir : PirState σ}

theorem isSpent_of_live (hclient : client.Retrieves engine scenario)
    (hanswers : pir.Answers engine.toPirEngine chain) (hrunning : s.server.running = true)
    (hpir : s.server.livePir = some pir) {exchange : Exchange ρ}
    (hdelivered : exchange.transport = .delivered)
    (nf : ByteVec 32) :
    exists found, SpendClient.isSpent (fun bucketIdx =>
        (receive exchange.transport
          (query engine (client.generateQuery bucketIdx.val exchange.seed) s)).decode
            (client.decodeResponse exchange.seed)) nf = .ok found ∧
      (nf ≠ ByteVec.zeros 32 -> ExactAnswer pir.metadata chain nf found) := by
  rcases hanswers with ⟨bytes, hsetup, hexact⟩
  have hlength : bytes.length * 8 = scenario.numItems * scenario.itemSizeBits := by
    rw [hexact.length]
    rfl
  rcases hclient bytes pir.engineState (hashToBucket nf).val exchange.seed hlength hsetup
      (hashToBucket nf).isLt with ⟨response, hresponse, hrow⟩
  have hscan : scanBucketForNf (client.decodeResponse exchange.seed response) nf =
      scanBucketForNf (rowFor bytes nf) nf :=
    scanBucketForNf_of_padded (length_rowFor hexact.length nf) hrow nf
  refine ⟨scanBucketForNf (rowFor bytes nf) nf, ?_, ?_⟩
  · rw [← hscan]
    simp only [SpendClient.isSpent, query, hrunning, whileRunning, if_true, hpir, answerLive,
      answerQuery, hresponse, hdelivered, receive, HttpResponse.decode, Option.map_some]
  · intro hnf
    constructor
    · constructor
      · intro hsome
        rcases Option.isSome_iff_exists.mp hsome with ⟨found, hfound⟩
        rcases hexact.sound nf found hnf hfound with ⟨height, hspent, _⟩
        exact ⟨height, hspent⟩
      · rintro ⟨height, hspent⟩
        exact hexact.complete nf height hnf hspent
    · intro spend hspend
      exact hexact.sound nf spend hnf hspend

theorem delivered_of_isSpent {exchange : Exchange ρ} {nf : ByteVec 32}
    {found : Option SpendMetadata}
    (h : SpendClient.isSpent (fun bucketIdx =>
        (receive exchange.transport
          (query engine (client.generateQuery bucketIdx.val exchange.seed) s)).decode
            (client.decodeResponse exchange.seed)) nf = .ok found) :
    exchange.transport = .delivered ∧ s.server.running = true := by
  rcases SpendClient.isSpent_eq_ok h with ⟨decoded, hbody⟩
  rcases receive_decode_eq_body hbody with ⟨hdelivered, value, hquery, _⟩
  exact ⟨hdelivered, (whileRunning_eq_ok hquery).left⟩

end Query

/-!
## Sessions
-/

section Session

variable {σ ε ρ : Type} {U : BlockUniverse} {config : ServerConfig}
variable {engine : QueryEngine σ ε} {chain : ChainView}
variable {ypirClientFor : Nat -> Nat -> Option (PirClient ρ)}

theorem SpendClient.connect_fetched {κ : Type} {clientFor : Nat -> Nat -> Option κ}
    {params : HttpResponse YpirScenario} {metadata : HttpResponse SpendabilityMetadata}
    {client : SpendClient κ} (h : connect clientFor params metadata = .ok client) :
    params = .body (some client.scenario) ∧ metadata = .body (some client.metadata) ∧
      clientFor client.scenario.numItems client.scenario.itemSizeBits =
        some client.ypirClient := by
  rcases bind_eq_ok.mp h with ⟨fetched, hparams, hrest⟩
  split at hrest
  · cases hrest
  · rcases bind_eq_ok.mp hrest with ⟨found, hmetadata, hchecked⟩
    split at hchecked
    · cases hchecked
    · rcases bind_eq_ok.mp hchecked with ⟨ypirClient, hclient, hreturn⟩
      cases hreturn
      exact ⟨HttpResponse.json_eq_ok hparams, HttpResponse.json_eq_ok hmetadata,
        Outcome.ofPanics_eq_ok.mp hclient⟩

/-- A client that connected to a server has the metadata of something it published, and
was set up for the server's scenario. -/
theorem connectTo_eq_ok {s : AppState (SpendServer σ)} {paramsVia metadataVia : Transport}
    {client : SpendClient (PirClient ρ)}
    (h : SpendClient.connect ypirClientFor (receive paramsVia (params s))
      (receive metadataVia (metadata s)) = .ok client) :
    (exists pir, s.server.livePir = some pir ∧ client.metadata = pir.metadata) ∧
      ypirClientFor scenario.numItems scenario.itemSizeBits = some client.ypirClient := by
  rcases SpendClient.connect_fetched h with ⟨hparams, hmetadata, hclient⟩
  have hscenario := Response.ok.inj (whileRunning_eq_ok (receive_eq_body hparams)).right
  rcases answerLive_eq_ok (whileRunning_eq_ok (receive_eq_body hmetadata)).right with
    ⟨pir, hpir, hfound⟩
  rw [← hscenario] at hclient
  exact ⟨⟨pir, hpir, (Response.ok.inj hfound).symm⟩, hclient⟩

/-- An answer is exact for something published while the wallet waited for it, at least as
new as a height that was published before. -/
def AnsweredDuring (config : ServerConfig) (engine : QueryEngine σ ε) (chain : ChainView)
    (arrived now : AppState (SpendServer σ)) (height : Nat) (nf : ByteVec 32)
    (found : Option SpendMetadata) : Prop :=
  exists live pir, Later (AppStepOver config engine.toPirEngine chain) arrived live ∧
    Later (AppStepOver config engine.toPirEngine chain) live now ∧
    live.server.livePir = some pir ∧ height ≤ pir.metadata.latestHeight ∧
    (nf ≠ ByteVec.zeros 32 -> ExactAnswer pir.metadata chain nf found)

theorem answered_of_observes {client : PirClient ρ} {exchange : Exchange ρ}
    {s t : AppState (SpendServer σ)} {height : Nat} {nf : ByteVec 32}
    {found : Option SpendMetadata} (hchain : CoverableChain U chain)
    (hsmall : SmallBlocks chain) (hclient : client.Retrieves engine scenario)
    (hs : AppInvariant U engine.toPirEngine chain s) (hserves : ServesFrom height s)
    (h : Observes (AppStepOver config engine.toPirEngine chain) s
      (isSpentOver engine client exchange nf) t (.ok found)) :
    AnsweredDuring config engine chain s t height nf found := by
  rcases h.of_once with ⟨live, hbefore, hafter, heq⟩
  have hlive := hs.later hchain hsmall hbefore
  rcases servesFrom_later hchain hsmall hs hserves hbefore with ⟨pir, hpir, hlatest⟩
  rcases delivered_of_isSpent heq.symm with ⟨hdelivered, hrunning⟩
  rcases isSpent_of_live hclient (hlive.built.answers hchain hpir) hrunning hpir hdelivered
    nf with ⟨answer, hanswer, hexact⟩
  rw [hanswer] at heq
  cases heq
  exact ⟨live, pir, hbefore, hafter, hpir, hlatest, hexact⟩

/-!
## Sessions of many wallets
-/

/-- What the server and its wallets do, in any order. -/
inductive SpendReply where
  | health (response : Response HealthResponse)
  | session (result : Outcome SpendClientError
      (SpendabilityMetadata × BatchReport SpendClientError (Option SpendMetadata)))

def healthRequest : SpendReader σ SpendReply :=
  health.andThen (fun response => .done (.health response))

def sessionRequest (engine : QueryEngine σ ε)
    (ypirClientFor : Nat -> Nat -> Option (PirClient ρ)) (paramsVia metadataVia : Transport)
    (exchanges : Nat -> Exchange ρ) (nullifiers : List (ByteVec 32)) :
    SpendReader σ SpendReply :=
  (walletSession engine ypirClientFor paramsVia metadataVia exchanges nullifiers).andThen
    (fun result => .done (.session result))

abbrev SpendServing (config : ServerConfig) (engine : QueryEngine σ ε) (chain : ChainView) :
    Serving (AppState (SpendServer σ)) SpendReply ->
    ServingLabel (AppState (SpendServer σ)) AppInput SpendReply ->
    Serving (AppState (SpendServer σ)) SpendReply -> Prop :=
  ServingStep (AppStepOver config engine.toPirEngine chain)

variable {s s' : Serving (AppState (SpendServer σ)) SpendReply}
variable {labels : List (ServingLabel (AppState (SpendServer σ)) AppInput SpendReply)}
variable {request : Request (AppState (SpendServer σ)) SpendReply} {id : Nat}
variable {paramsVia metadataVia : Transport} {exchanges : Nat -> Exchange ρ}
variable {nullifiers : List (ByteVec 32)} {known : SpendabilityMetadata}

theorem observes_of_request {reader : SpendReader σ SpendReply} {reply : SpendReply}
    (hrun : Run (SpendServing config engine chain) (quiet initApp) labels s)
    (hrequest : s.requests id = some request) (hasked : request.asked = reader)
    (hreply : SpendServing config engine chain s (.reply id reply) s') :
    Later (AppStepOver config engine.toPirEngine chain) initApp request.arrived ∧
      Observes (AppStepOver config engine.toPirEngine chain) request.arrived reader s.shared
        reply := by
  rcases observes_of_reply hrun hreply with ⟨found, hfound, hreached, hobserves⟩
  rw [hrequest] at hfound
  cases hfound
  rw [hasked] at hobserves
  exact ⟨hreached, hobserves⟩

/-- Whatever wallets ask, whenever the server publishes in between and whatever the network
loses, a batch that succeeds has an answer for each nullifier, exact for something that
was published while the wallet waited and is at least as new as the metadata it connected
with. -/
theorem session_answers_exact {report : BatchReport SpendClientError (Option SpendMetadata)}
    {results : List (Option SpendMetadata)} (hchain : CoverableChain U chain)
    (hsmall : SmallBlocks chain)
    (hclient : forall client, ypirClientFor scenario.numItems scenario.itemSizeBits =
      some client -> client.Retrieves engine scenario)
    (hrun : Run (SpendServing config engine chain) (quiet initApp) labels s)
    (hrequest : s.requests id = some request)
    (hasked : request.asked =
      sessionRequest engine ypirClientFor paramsVia metadataVia exchanges nullifiers)
    (hreply : SpendServing config engine chain s
      (.reply id (.session (.ok (known, report)))) s')
    (hresults : report.results = .ok results) :
    List.Forall₂
      (AnsweredDuring config engine chain request.arrived s.shared known.latestHeight)
      nullifiers results := by
  rcases observes_of_request hrun hrequest hasked hreply with ⟨hreached, hobserves⟩
  have harrived := appInvariant_later hchain hsmall hreached
  rcases hobserves.of_andThen with ⟨result, ended, hsession, hdone⟩
  cases hdone with
  | done hend =>
      rcases hsession.of_andThen with ⟨connected, mid, hconnect, hrest⟩
      rcases hconnect.of_once with ⟨fetched, hbefore, hafter, heq⟩
      cases connected with
      | error e => cases hrest
      | ok client =>
          rcases hrest.of_andThen with ⟨found, checked, hcheck, hreport⟩
          cases hreport with
          | done hlast =>
              rcases connectTo_eq_ok heq.symm with ⟨⟨pir, hpir, hmetadata⟩, hset⟩
              have hmid : Later (AppStepOver config engine.toPirEngine chain)
                  request.arrived mid := hconnect.end_later
              have hfetched := appInvariant_later hchain hsmall (hreached.trans hbefore)
              have hserves : ServesFrom client.metadata.latestHeight mid :=
                servesFrom_later hchain hsmall hfetched
                  ⟨pir, hpir, Nat.le_of_eq (congrArg _ hmetadata)⟩ hafter
              refine (observes_of_runBatch hcheck hresults).imp ?_
              rintro nf answer ⟨j, started, answered, hstarted, hasked, hanswered⟩
              have hinvariant := appInvariant_later hchain hsmall
                (hreached.trans (hmid.trans hstarted))
              rcases answered_of_observes hchain hsmall (hclient _ hset) hinvariant
                  (servesFrom_later hchain hsmall (appInvariant_later hchain hsmall
                    (hreached.trans hmid)) hserves hstarted) hasked with
                ⟨live, found, hlive, hended, hrest⟩
              exact ⟨live, found, (hmid.trans hstarted).trans hlive,
                hended.trans (hanswered.trans (hlast.trans hend)), hrest⟩

/-- A server that says it is serving says the height and the count of something that was
published while it was asked, which answers for the chain; what is published from then on
is as new. -/
theorem serving_has_published {response : HealthResponse} (hchain : CoverableChain U chain)
    (hsmall : SmallBlocks chain)
    (hrun : Run (SpendServing config engine chain) (quiet initApp) labels s)
    (hrequest : s.requests id = some request) (hasked : request.asked = healthRequest)
    (hreply : SpendServing config engine chain s (.reply id (.health (.ok response))) s')
    (hserving : response.phase = .serving) :
    exists live pir, Later (AppStepOver config engine.toPirEngine chain) request.arrived live ∧
      Later (AppStepOver config engine.toPirEngine chain) live s.shared ∧
      live.server.livePir = some pir ∧ pir.Answers engine.toPirEngine chain ∧
      response.height = some pir.metadata.latestHeight ∧
      response.nullifierCount = pir.metadata.numNullifiers ∧
      forall t, Later (AppStepOver config engine.toPirEngine chain) live t ->
        ServesFrom pir.metadata.latestHeight t := by
  rcases observes_of_request hrun hrequest hasked hreply with ⟨hreached, hobserves⟩
  cases hobserves with
  | @load _ early _ _ _ hearly hrest =>
      cases hrest with
      | @load _ late _ _ _ hlate hdone =>
          rcases hdone.of_done with ⟨heq, hend⟩
          rcases whileRunning_eq_ok (SpendReply.health.inj heq).symm with ⟨_, hresponse⟩
          have hhealth := Response.ok.inj hresponse
          have hinvariant := appInvariant_later hchain hsmall (hreached.trans hearly)
          have hlatest := hinvariant.later hchain hsmall hlate
          have hphase : early.phase = .serving := by
            rw [← hserving, ← hhealth]
            cases late.server.livePir <;> rfl
          rcases hinvariant.announced hphase with ⟨pir, hpir⟩
          rcases servesFrom_later hchain hsmall hinvariant
              ⟨pir, hpir, Nat.le_refl _⟩ hlate with ⟨newer, hnewer, _⟩
          have hnamed : response = healthResponse early.phase (some newer) := by
            rw [← hhealth, hnewer]
          refine ⟨late, newer, hearly.trans hlate, hend, hnewer,
            hlatest.built.answers hchain hnewer, ?_, ?_, ?_⟩
          · rw [hnamed, healthResponse]
          · rw [hnamed, healthResponse]
          · intro t hafter
            exact servesFrom_later hchain hsmall hlatest ⟨newer, hnewer, Nat.le_refl _⟩ hafter

theorem connect_of_live {t : AppState (SpendServer σ)} {pir : PirState σ}
    {client : PirClient ρ} (hrunning : t.server.running = true)
    (hpir : t.server.livePir = some pir)
    (hclient : ypirClientFor scenario.numItems scenario.itemSizeBits = some client) :
    SpendClient.connect ypirClientFor (receive .delivered (params t))
        (receive .delivered (metadata t)) =
      .ok { scenario := scenario, metadata := pir.metadata, ypirClient := client } := by
  have hwide : ¬ scenario.itemSizeBits < minItemSizeBits := by decide
  have hfetched : receive .delivered (metadata t) = .body (some pir.metadata) := by
    rw [metadata, hrunning, hpir]
    rfl
  have hunavailable : ¬ (HttpResponse.body (some pir.metadata)).unavailable = true :=
    Bool.false_ne_true
  rw [SpendClient.connect, hfetched, params, hrunning, whileRunning, if_pos rfl, receive,
    HttpResponse.json, ok_bind, if_neg hunavailable, HttpResponse.json, ok_bind, if_neg hwide,
    hclient]
  rfl

theorem checkNullifiers_succeeds {client : PirClient ρ} {before after : AppState (SpendServer σ)}
    {report : BatchReport SpendClientError (Option SpendMetadata)}
    (hchain : CoverableChain U chain) (hsmall : SmallBlocks chain)
    (hclient : client.Retrieves engine scenario)
    (hdelivered : forall i, (exchanges i).transport = .delivered)
    (hinvariant : AppInvariant U engine.toPirEngine chain before)
    (hserves : ServesFrom 0 before) (hrunning : after.server.running = true)
    (h : Observes (AppStepOver config engine.toPirEngine chain) before
      (checkNullifiers engine client exchanges nullifiers) after report) :
    exists results, report.results = .ok results ∧ results.length = nullifiers.length ∧
      report.progress = (List.range' 1 nullifiers.length).map
        (fun n => (n, nullifiers.length)) := by
  have hkept : forall s t, AppInvariant U engine.toPirEngine chain s ∧ ServesFrom 0 s ->
      Later (AppStepOver config engine.toPirEngine chain) s t ->
      AppInvariant U engine.toPirEngine chain t ∧ ServesFrom 0 t := by
    rintro s t ⟨hs, hserves⟩ hlater
    exact ⟨hs.later hchain hsmall hlater, servesFrom_later hchain hsmall hs hserves hlater⟩
  have hanswered : forall j nf s t found, nf ∈ nullifiers ->
      AppInvariant U engine.toPirEngine chain s ∧ ServesFrom 0 s ->
      Observes (AppStepOver config engine.toPirEngine chain) s
        (isSpentOver engine client (exchanges j) nf) t found ->
      Later (AppStepOver config engine.toPirEngine chain) t after ->
      exists answer, found = .ok answer := by
    intro j nf s t found _ hs hasked hafter
    rcases hasked.of_once with ⟨live, hlive, hend, heq⟩
    rcases hkept s live hs hlive with ⟨hinv, pir, hpir, _⟩
    have halive := running_of_later (hend.trans hafter) hrunning
    rcases isSpent_of_live hclient (hinv.built.answers hchain hpir) halive hpir (hdelivered j)
      nf with ⟨answer, hanswer, _⟩
    exact ⟨answer, heq.trans hanswer⟩
  rcases runBatch_of_ok hkept hanswered ⟨hinvariant, hserves⟩ h with
    ⟨⟨results, hresults⟩, hprogress⟩
  exact ⟨results, hresults, (observes_of_runBatch h hresults).length_eq.symm, hprogress⟩

theorem walletSession_succeeds {client : PirClient ρ} {before after : AppState (SpendServer σ)}
    {result : Outcome SpendClientError
      (SpendabilityMetadata × BatchReport SpendClientError (Option SpendMetadata))}
    (hchain : CoverableChain U chain) (hsmall : SmallBlocks chain)
    (hset : ypirClientFor scenario.numItems scenario.itemSizeBits = some client)
    (hclient : client.Retrieves engine scenario)
    (hdelivered : forall i, (exchanges i).transport = .delivered)
    (hinvariant : AppInvariant U engine.toPirEngine chain before)
    (hserves : ServesFrom 0 before) (hrunning : after.server.running = true)
    (h : Observes (AppStepOver config engine.toPirEngine chain) before
      (walletSession engine ypirClientFor .delivered .delivered exchanges nullifiers) after
      result) :
    exists known report results, result = .ok (known, report) ∧
      report.results = .ok results ∧ results.length = nullifiers.length ∧
      report.progress = (List.range' 1 nullifiers.length).map
        (fun n => (n, nullifiers.length)) := by
  rcases h.of_andThen with ⟨connected, mid, hconnect, hrest⟩
  rcases hconnect.of_once with ⟨fetched, hbefore, hfetched, heq⟩
  rcases servesFrom_later hchain hsmall hinvariant hserves hbefore with ⟨pir, hpir, _⟩
  have halive := running_of_later (hfetched.trans hrest.end_later) hrunning
  rw [heq, connect_of_live halive hpir hset] at hrest
  rcases hrest.of_andThen with ⟨report, checked, hcheck, hreport⟩
  rcases hreport.of_done with ⟨hresult, hend⟩
  have hmid := hinvariant.later hchain hsmall hconnect.end_later
  have hserving := servesFrom_later hchain hsmall hinvariant hserves hconnect.end_later
  rcases checkNullifiers_succeeds hchain hsmall hclient hdelivered hmid hserving
    (running_of_later hend hrunning) hcheck with ⟨results, hresults, hlength, hprogress⟩
  exact ⟨_, report, results, hresult, hresults, hlength, hprogress⟩

/-- A session that starts when something is published and ends before the server stops, and
of which the network loses nothing, connects and answers for all its nullifiers. -/
theorem session_succeeds {client : PirClient ρ} {reply : SpendReply}
    (hchain : CoverableChain U chain) (hsmall : SmallBlocks chain)
    (hset : ypirClientFor scenario.numItems scenario.itemSizeBits = some client)
    (hclient : client.Retrieves engine scenario)
    (hdelivered : forall i, (exchanges i).transport = .delivered)
    (hrun : Run (SpendServing config engine chain) (quiet initApp) labels s)
    (hrequest : s.requests id = some request)
    (hasked : request.asked =
      sessionRequest engine ypirClientFor .delivered .delivered exchanges nullifiers)
    (hserves : ServesFrom 0 request.arrived) (hrunning : s.shared.server.running = true)
    (hreply : SpendServing config engine chain s (.reply id reply) s') :
    exists known report results, reply = .session (.ok (known, report)) ∧
      report.results = .ok results ∧ results.length = nullifiers.length ∧
      report.progress = (List.range' 1 nullifiers.length).map
        (fun n => (n, nullifiers.length)) := by
  rcases observes_of_request hrun hrequest hasked hreply with ⟨hreached, hobserves⟩
  rcases hobserves.of_andThen with ⟨result, ended, hsession, hdone⟩
  rcases hdone.of_done with ⟨hreplied, hend⟩
  rcases walletSession_succeeds hchain hsmall hset hclient hdelivered
      (appInvariant_later hchain hsmall hreached) hserves (running_of_later hend hrunning)
      hsession with ⟨known, report, results, heq, hresults, hlength, hprogress⟩
  exact ⟨known, report, results, hreplied.trans (congrArg SpendReply.session heq), hresults,
    hlength, hprogress⟩

end Session

/-!
## A wallet of a server that restarted
-/

theorem coverable_orphaned : CoverableChain sampleUniverse chainOrphaned where
  honest := honest_chainOrphaned
  nonzero := by decide
  genesis := by
    intro block hblock
    cases hblock
    rfl

theorem small_chainOrphaned : SmallBlocks chainOrphaned := by
  unfold SmallBlocks
  decide

theorem holds_tableBefore : tableBefore.HoldsThroughLatest chainOrphaned := by
  refine HashTableDb.holdsThroughLatest_iff.mpr ⟨1, 2, mirrors_tableBefore.congr ?_⟩
  intro height hheight
  change (chainBefore ++ [sampleOrphan])[height]? = _
  exact List.getElem?_append_left hheight.2

def spendSnapshot : SpendServer StubServerState :=
  { hashtable := tableBefore, livePir := none, stage := .synced }

def pirBefore : PirState StubServerState :=
  { engineState := { buckets := tableBefore.toPirBytes, numItems := numBuckets }
    metadata := metadataOf tableBefore }

def spendRestarted : SpendServer StubServerState :=
  { hashtable := tableBefore
    livePir := some pirBefore
    stage := .follow (some (SpendServer.followStart tableBefore)) [] }

def appServing : AppState (SpendServer StubServerState) :=
  { server := spendRestarted, phase := .serving }

theorem later_appServing :
    Later (AppStepOver sampleConfig stubPirEngine.toPirEngine chainOrphaned) initApp
      appServing := by
  have hconnect : AppStepOver sampleConfig stubPirEngine.toPirEngine chainOrphaned initApp
      (.server (.connect 1 (some tableBefore)))
      { server := spendSnapshot, phase := .syncing 0 0 } := by
    refine ⟨.server (fun ⟨_, _, hfalse⟩ => (by cases hfalse)) rfl, ?_⟩
    intro input hinput
    cases hinput
    exact ⟨fun _ heq => Option.some.inj heq ▸ holds_tableBefore,
      fun _ _ _ hfalse => by cases hfalse⟩
  have hsize : spendSnapshot.hashtable.len ≤ Nullifier.targetSize := by decide
  have hpublish : AppStepOver sampleConfig stubPirEngine.toPirEngine chainOrphaned
      { server := spendSnapshot, phase := .syncing 0 0 } (.server .publish)
      { server := spendRestarted, phase := .syncing 0 0 } := by
    refine ⟨.server (fun ⟨_, _, hfalse⟩ => (by cases hfalse))
      (congrArg some (SpendServer.publish_of_le hsize rfl)), ?_⟩
    intro input hinput
    cases hinput
    exact ⟨trivial, fun _ _ _ hfalse => by cases hfalse⟩
  have hannounce : AppStepOver sampleConfig stubPirEngine.toPirEngine chainOrphaned
      { server := spendRestarted, phase := .syncing 0 0 } .announce appServing :=
    ⟨.announce ⟨_, _, rfl⟩, fun _ hfalse => by cases hfalse⟩
  exact (((Later.refl initApp).next hconnect).next hpublish).next hannounce

theorem servesFrom_appServing : ServesFrom 0 appServing := ⟨pirBefore, rfl, Nat.zero_le _⟩

def sampleSession : SpendReader StubServerState SpendReply :=
  sessionRequest stubPirEngine (fun _ _ => some plainClient) .delivered .delivered
    (fun _ => { transport := .delivered, seed := () }) [toHashArray (List.replicate 32 7)]

def sampleHealth : HealthResponse := healthResponse .serving (some pirBefore)

/-- The restarted server says that it serves block 1, and does. -/
theorem serving_has_published_restarted :
    exists (s : Serving (AppState (SpendServer StubServerState)) SpendReply) (live : _)
        (pir : PirState StubServerState),
      live.server.livePir = some pir ∧
      Later (AppStepOver sampleConfig stubPirEngine.toPirEngine chainOrphaned) live s.shared ∧
      sampleHealth.height = some 1 ∧ pir.metadata.latestHeight = 1 ∧
      ServesFrom pir.metadata.latestHeight s.shared := by
  rcases exists_asked later_appServing healthRequest with
    ⟨_, s, _, request, hrun, _, hrequest, hasked, _, hreply⟩
  have hok : SpendServing sampleConfig stubPirEngine chainOrphaned s
      (.reply 0 (.health (.ok sampleHealth))) _ := hreply
  rcases serving_has_published coverable_orphaned small_chainOrphaned hrun hrequest hasked hok
    rfl with ⟨live, pir, _, hlater, hpir, _, hheight, _, hserves⟩
  exact ⟨s, live, pir, hpir, hlater, rfl, (Option.some.inj hheight).symm, hserves _ hlater⟩

/-- The wallet of the restarted server gets its answer. -/
theorem session_succeeds_restarted :
    exists known report results, sampleSession.eval appServing = .session (.ok (known, report)) ∧
      report.results = .ok results ∧ results.length = 1 ∧ report.progress = [(1, 1)] := by
  rcases exists_asked later_appServing sampleSession with
    ⟨_, s, _, request, hrun, hshared, hrequest, hasked, harrived, hreply⟩
  exact session_succeeds coverable_orphaned small_chainOrphaned rfl retrieves_stubPirEngine
    (fun _ => rfl) hrun hrequest hasked (harrived ▸ servesFrom_appServing)
    (by rw [hshared]; rfl) hreply

/-- The answer is exact for what the restarted server published. -/
theorem session_answers_exact_restarted :
    exists (s : Serving (AppState (SpendServer StubServerState)) SpendReply) (known : _)
        (results : List (Option SpendMetadata)),
      List.Forall₂ (AnsweredDuring sampleConfig stubPirEngine chainOrphaned appServing s.shared
        (known : SpendabilityMetadata).latestHeight) [toHashArray (List.replicate 32 7)]
        results := by
  rcases exists_asked later_appServing sampleSession with
    ⟨_, s, _, request, hrun, hshared, hrequest, hasked, harrived, hreply⟩
  generalize sampleSession.eval appServing = reply at hreply
  rcases observes_of_request hrun hrequest hasked hreply with ⟨hreached, hobserves⟩
  rcases hobserves.of_andThen with ⟨result, ended, hsession, hdone⟩
  rcases hdone.of_done with ⟨hreplied, hend⟩
  have hrunning : ended.server.running = true :=
    running_of_later hend (by rw [hshared]; rfl)
  rcases walletSession_succeeds coverable_orphaned small_chainOrphaned rfl
      retrieves_stubPirEngine (fun _ => rfl)
      (appInvariant_later coverable_orphaned small_chainOrphaned hreached)
      (harrived ▸ servesFrom_appServing) hrunning hsession with
    ⟨known, report, results, heq, hresults, _⟩
  rw [hreplied, heq] at hreply
  rw [← harrived]
  exact ⟨s, known, results, session_answers_exact coverable_orphaned small_chainOrphaned
    (fun client hset => Option.some.inj hset ▸ retrieves_stubPirEngine) hrun hrequest hasked
    hreply hresults⟩

end Nullifier
end SpendabilityPir
