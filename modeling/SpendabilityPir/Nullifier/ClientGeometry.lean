import SpendabilityPir.Nullifier.SpendClient
import SpendabilityPir.Nullifier.SpendServer

/-!
# The geometry a client accepts

On connecting, the client checks that a row is as wide as the PIR scheme needs, and not
that a bucket fits in it.  It scans a short row like a whole one, so a nullifier in a
slot past the end of the row is reported as not spent.
-/

namespace SpendabilityPir
namespace Nullifier

open Foundation Shared

inductive SpendClientError where
  | http
  | serverUnavailable
  | invalidParams (reason : String)
  | queryFailed (reason : String)
deriving DecidableEq

/-- What comes of an HTTP request: no response, an error status, or a body, which is
`none` when it cannot be read. -/
inductive HttpResponse (α : Type) where
  | unsent
  | status (code : Nat) (reason : String)
  | body (value : Option α)

namespace HttpResponse

variable {α : Type}

def unavailable : HttpResponse α -> Bool
  | .status code _ => decide (code = 503)
  | _ => false

/-- The body of a response whose failures are HTTP errors. -/
def json : HttpResponse α -> Outcome SpendClientError α
  | .body (some value) => .ok value
  | _ => .error (.error .http)

theorem json_eq_ok {response : HttpResponse α} {value : α}
    (h : response.json = .ok value) : response = .body (some value) := by
  unfold json at h
  split at h
  · cases h
    rfl
  · cases h

end HttpResponse

/-- A connected client, with the PIR client set up for its scenario. -/
structure SpendClient (κ : Type) where
  scenario : YpirScenario
  metadata : SpendabilityMetadata
  ypirClient : κ

def minItemSizeBits : Nat := 2048 * 14

namespace SpendClient

variable {κ : Type}

/-- Fetch the scenario and the metadata and set up the PIR client, which may panic. -/
def connect (ypirClientFor : Nat -> Nat -> Option κ) (params : HttpResponse YpirScenario)
    (metadata : HttpResponse SpendabilityMetadata) :
    Outcome SpendClientError (SpendClient κ) := do
  let scenario <- params.json
  if metadata.unavailable then
    .error (.error .serverUnavailable)
  else
    let metadata <- metadata.json
    if scenario.itemSizeBits < minItemSizeBits then
      .error (.error (.invalidParams ("item_size_bits " ++ toString scenario.itemSizeBits ++
        " below SimplePIR minimum 28672")))
    else
      let ypirClient <- Outcome.ofPanics
        (ypirClientFor scenario.numItems scenario.itemSizeBits)
      return { scenario := scenario, metadata := metadata, ypirClient := ypirClient }

/-- Query the row of the nullifier's bucket and scan it.  The query is the round trip
through the PIR client and the server, with the decoded row as its body. -/
def isSpent (query : Fin numBuckets -> HttpResponse (List UInt8)) (nf : ByteVec 32) :
    Outcome SpendClientError (Option SpendMetadata) :=
  match query (hashToBucket nf) with
  | .unsent => .error (.error .http)
  | .status code reason =>
      if code = 503 then .error (.error .serverUnavailable)
      else .error (.error (.queryFailed reason))
  | .body none => .error (.error .http)
  | .body (some decoded) => .ok (scanBucketForNf decoded nf)

theorem connect_eq_ok {ypirClientFor : Nat -> Nat -> Option κ}
    {params : HttpResponse YpirScenario} {metadata : HttpResponse SpendabilityMetadata}
    {client : SpendClient κ} (h : connect ypirClientFor params metadata = .ok client) :
    params = .body (some client.scenario) ∧
      minItemSizeBits ≤ client.scenario.itemSizeBits := by
  rcases bind_eq_ok.mp h with ⟨scenario, hscenario, hrest⟩
  split at hrest
  · cases hrest
  · rcases bind_eq_ok.mp hrest with ⟨fetched, _, hchecked⟩
    split at hchecked
    · cases hchecked
    · next hwide =>
        rcases bind_eq_ok.mp hchecked with ⟨ypirClient, hclient, hreturn⟩
        cases hreturn
        exact ⟨HttpResponse.json_eq_ok hscenario, Nat.le_of_not_lt hwide⟩

end SpendClient

/-!
## Rows of a scenario
-/

/-- The row an ideal PIR scheme decodes: as many bytes of the bucket as the scenario's
rows have, zero-padded when they have more. -/
def pirRow (scenario : YpirScenario) (bucket : Bucket) : List UInt8 :=
  (ByteVec.ofBytes (scenario.itemSizeBits / 8) (HashTableDb.bucketPirBytes bucket)).toList

/-- The queries of an ideal PIR scheme over a table. -/
def idealQuery (scenario : YpirScenario) (buckets : Fin numBuckets -> Bucket) :
    Fin numBuckets -> HttpResponse (List UInt8) :=
  fun b => .body (some (pirRow scenario (buckets b)))

theorem take_pirRow (scenario : YpirScenario) (bucket : Bucket) :
    (pirRow scenario bucket).take bucketBytes =
      (HashTableDb.bucketPirBytes bucket).take (scenario.itemSizeBits / 8) := by
  have hlength := HashTableDb.length_bucketPirBytes bucket
  change (((HashTableDb.bucketPirBytes bucket) ++ _).take _).take bucketBytes = _
  rw [List.take_take, List.take_append_of_le_length (by lia), ← hlength, List.take_eq_take_iff]
  lia

/-- The slots of a bucket that a row of the scenario holds whole. -/
def InRow (scenario : YpirScenario) (slot : Fin bucketCapacity) : Prop :=
  (slot.val + 1) * entryBytes ≤ scenario.itemSizeBits / 8

theorem mem_take_finRange_iff {scenario : YpirScenario} {slot : Fin bucketCapacity} :
    slot ∈ (List.finRange bucketCapacity).take (scenario.itemSizeBits / 8 / entryBytes) ↔
      InRow scenario slot := by
  have hrow : InRow scenario slot ↔ slot.val < scenario.itemSizeBits / 8 / entryBytes :=
    (Nat.le_div_iff_mul_le (by decide)).symm
  rw [hrow, List.mem_take_iff_getElem]
  constructor
  · rintro ⟨i, hi, rfl⟩
    rw [List.getElem_finRange]
    exact Nat.lt_of_lt_of_le hi (Nat.min_le_left _ _)
  · intro hlt
    refine ⟨slot.val, ?_, ?_⟩
    · rw [List.length_finRange]
      exact Nat.lt_min.mpr ⟨hlt, slot.isLt⟩
    · rw [List.getElem_finRange]
      rfl

/-- A nullifier is reported as spent, with the metadata of an entry that carries it. -/
def ReportsSpent (scenario : YpirScenario) (buckets : Fin numBuckets -> Bucket)
    (nf : ByteVec 32) : Prop :=
  exists slot, ((buckets (hashToBucket nf)).entries slot).nullifier = nf ∧
    SpendClient.isSpent (idealQuery scenario buckets) nf =
      .ok (some ((buckets (hashToBucket nf)).entries slot).metadata)

theorem isSpent_idealQuery (scenario : YpirScenario) (buckets : Fin numBuckets -> Bucket)
    (nf : ByteVec 32) :
    SpendClient.isSpent (idealQuery scenario buckets) nf =
      .ok ((((List.finRange bucketCapacity).take
        (scenario.itemSizeBits / 8 / entryBytes)).find?
          (fun i => decide (((buckets (hashToBucket nf)).entries i).nullifier = nf))).map
            (fun i => ((buckets (hashToBucket nf)).entries i).metadata)) := by
  have htake := take_pirRow scenario (buckets (hashToBucket nf))
  rw [SpendClient.isSpent, idealQuery]
  exact congrArg Except.ok (scanBucketForNf_of_take htake nf)

/-- A nullifier is reported as spent exactly when a slot that the row holds whole
carries it. -/
theorem reportsSpent_iff {scenario : YpirScenario} {buckets : Fin numBuckets -> Bucket}
    {nf : ByteVec 32} :
    ReportsSpent scenario buckets nf ↔
      exists slot, ((buckets (hashToBucket nf)).entries slot).nullifier = nf ∧
        InRow scenario slot := by
  rw [ReportsSpent, isSpent_idealQuery]
  constructor
  · rintro ⟨_, _, hspent⟩
    rcases Option.map_eq_some_iff.mp (Except.ok.inj hspent) with ⟨slot, hfind, _⟩
    have hcarries : ((buckets (hashToBucket nf)).entries slot).nullifier = nf := by
      simpa using List.find?_some hfind
    exact ⟨slot, hcarries, mem_take_finRange_iff.mp (List.mem_of_find?_eq_some hfind)⟩
  · rintro ⟨slot, hcarries, hrow⟩
    have hsome : (((List.finRange bucketCapacity).take
        (scenario.itemSizeBits / 8 / entryBytes)).find?
          (fun i => decide (((buckets (hashToBucket nf)).entries i).nullifier = nf))).isSome := by
      rw [List.find?_isSome]
      exact ⟨slot, mem_take_finRange_iff.mpr hrow, decide_eq_true hcarries⟩
    rcases Option.isSome_iff_exists.mp hsome with ⟨found, hfound⟩
    refine ⟨found, ?_, ?_⟩
    · simpa using List.find?_some hfound
    · rw [hfound]
      rfl

theorem inRow_of_wide {scenario : YpirScenario}
    (h : bucketBytes ≤ scenario.itemSizeBits / 8) (slot : Fin bucketCapacity) :
    InRow scenario slot := by
  have hslot : (slot.val + 1) * entryBytes ≤ bucketBytes :=
    Nat.mul_le_mul_right entryBytes slot.isLt
  exact Nat.le_trans hslot h

/-!
## A full bucket
-/

def Full (bucket : Bucket) : Prop :=
  forall slot, (bucket.entries slot).isEmpty = false

/-- The nullifier of a slot in a bucket of distinct ones, all in the first bucket. -/
def slotNullifier (slot : Fin bucketCapacity) : ByteVec 32 :=
  ByteVec.ofBytes 32 [0, 0, 0, 0, UInt8.ofNat (slot.val + 1)]

/-- A table whose buckets hold a different nullifier in each slot. -/
def filledBuckets : Fin numBuckets -> Bucket :=
  fun _ =>
    { entries := fun slot =>
        { nullifier := slotNullifier slot
          spendHeight := 7
          firstOutputPosition := 0
          actionCount := 1 }
      count := bucketCapacity }

theorem slotNullifier_injective : Function.Injective slotNullifier := by
  intro i j h
  have hbyte : UInt8.ofNat (i.val + 1) = UInt8.ofNat (j.val + 1) :=
    congrArg (fun nf : ByteVec 32 => nf.toList.getD 4 0) h
  have hnat := congrArg UInt8.toNat hbyte
  rw [UInt8.toNat_ofNat', UInt8.toNat_ofNat'] at hnat
  have hi : i.val < 112 := i.isLt
  have hj : j.val < 112 := j.isLt
  apply Fin.ext
  lia

theorem slotNullifier_ne_zero (slot : Fin bucketCapacity) :
    slotNullifier slot ≠ ByteVec.zeros 32 := by
  intro h
  have hbyte : UInt8.ofNat (slot.val + 1) = 0 :=
    congrArg (fun nf : ByteVec 32 => nf.toList.getD 4 0) h
  have hnat := congrArg UInt8.toNat hbyte
  rw [UInt8.toNat_ofNat'] at hnat
  change (slot.val + 1) % 256 = 0 at hnat
  have hslot : slot.val < 112 := slot.isLt
  lia

theorem full_filledBuckets (b : Fin numBuckets) : Full (filledBuckets b) :=
  fun slot => decide_eq_false (slotNullifier_ne_zero slot)

theorem isSpent_filledBuckets {scenario : YpirScenario} {slot : Fin bucketCapacity}
    (h : ¬ InRow scenario slot) :
    SpendClient.isSpent (idealQuery scenario filledBuckets) (slotNullifier slot) =
      .ok none := by
  rw [isSpent_idealQuery]
  have hnone : ((List.finRange bucketCapacity).take
      (scenario.itemSizeBits / 8 / entryBytes)).find? (fun i => decide
        (((filledBuckets (hashToBucket (slotNullifier slot))).entries i).nullifier =
          slotNullifier slot)) = none := by
    rw [List.find?_eq_none]
    intro other hother hsame
    have heq : other = slot := slotNullifier_injective (of_decide_eq_true hsame)
    rw [heq, mem_take_finRange_iff] at hother
    exact h hother
  rw [hnone]
  rfl

/-!
## What connecting guarantees
-/

/-- The client that connected to a scenario reports every nullifier of a full bucket as
spent exactly when the scenario's rows hold a whole bucket; otherwise it reports those
that a slot within the row carries, and no other. -/
theorem connected_reports_spent_iff {κ : Type} {ypirClientFor : Nat -> Nat -> Option κ}
    {scenario : YpirScenario} {metadata : HttpResponse SpendabilityMetadata}
    {client : SpendClient κ}
    (h : SpendClient.connect ypirClientFor (.body (some scenario)) metadata = .ok client) :
    ((forall (buckets : Fin numBuckets -> Bucket) (slot : Fin bucketCapacity)
        (nf : ByteVec 32), Full (buckets (hashToBucket nf)) ->
        ((buckets (hashToBucket nf)).entries slot).nullifier = nf ->
        ReportsSpent client.scenario buckets nf) ↔
      bucketBytes ≤ scenario.itemSizeBits / 8) ∧
    (forall (buckets : Fin numBuckets -> Bucket) (nf : ByteVec 32),
      ReportsSpent client.scenario buckets nf ↔
        exists slot : Fin bucketCapacity,
          ((buckets (hashToBucket nf)).entries slot).nullifier = nf ∧
          (slot.val + 1) * entryBytes ≤ scenario.itemSizeBits / 8) := by
  rcases SpendClient.connect_eq_ok h with ⟨hsent, _⟩
  cases hsent
  refine ⟨?_, fun buckets nf => reportsSpent_iff⟩
  constructor
  · intro hall
    -- the last slot of a bucket of distinct nullifiers has to be in the row
    let last : Fin bucketCapacity := ⟨111, by decide⟩
    by_contra hnarrow
    have hout : ¬ InRow client.scenario last := hnarrow
    have hfull := full_filledBuckets (hashToBucket (slotNullifier last))
    rcases hall filledBuckets last (slotNullifier last) hfull rfl with ⟨_, _, hspent⟩
    rw [isSpent_filledBuckets hout] at hspent
    cases hspent
  · intro hwide buckets slot nf _ hcarries
    exact reportsSpent_iff.mpr ⟨slot, hcarries, inRow_of_wide hwide slot⟩

def servedMetadata : SpendabilityMetadata :=
  { earliestHeight := 7
    latestHeight := 7
    numNullifiers := 112
    numBuckets := numBuckets
    phase := .serving }

/-- With the table's own geometry the last slot of a full bucket is found. -/
theorem connected_reports_spent_iff_tableGeometry :
    exists client : SpendClient Unit,
      SpendClient.connect (fun _ _ => some ())
        (.body (some { numItems := numBuckets, itemSizeBits := bucketBytes * 8 }))
        (.body (some servedMetadata)) = .ok client ∧
      ReportsSpent client.scenario filledBuckets (slotNullifier ⟨111, by decide⟩) := by
  have hconnect : SpendClient.connect (fun _ _ => some ())
      (.body (some { numItems := numBuckets, itemSizeBits := bucketBytes * 8 }))
      (.body (some servedMetadata)) =
        .ok { scenario := { numItems := numBuckets, itemSizeBits := bucketBytes * 8 }
              metadata := servedMetadata
              ypirClient := () } := rfl
  refine ⟨_, hconnect, ?_⟩
  exact (connected_reports_spent_iff hconnect).left.mpr (by decide) filledBuckets
    ⟨111, by decide⟩ _ (full_filledBuckets _) rfl

/-- A client that connected to rows of 28672 bits reports the nullifier in the last slot
of a full bucket as not spent. -/
theorem narrow_rows_hide_spent :
    exists client : SpendClient Unit,
      SpendClient.connect (fun _ _ => some ())
        (.body (some { numItems := numBuckets, itemSizeBits := 28672 }))
        (.body (some servedMetadata)) = .ok client ∧
      Full (filledBuckets (hashToBucket (slotNullifier ⟨111, by decide⟩))) ∧
      ((filledBuckets (hashToBucket (slotNullifier ⟨111, by decide⟩))).entries
        ⟨111, by decide⟩).nullifier = slotNullifier ⟨111, by decide⟩ ∧
      SpendClient.isSpent (idealQuery client.scenario filledBuckets)
        (slotNullifier ⟨111, by decide⟩) = .ok none := by
  refine ⟨{ scenario := { numItems := numBuckets, itemSizeBits := 28672 }
            metadata := servedMetadata
            ypirClient := () }, rfl, full_filledBuckets _, rfl, ?_⟩
  apply isSpent_filledBuckets
  rw [InRow]
  decide

end Nullifier
end SpendabilityPir
