import SpendabilityPir.Foundation.ConcurrentReads
import SpendabilityPir.Shared.PirProtocol

/-!
# Requests to a server

A handler loads what is published once and answers from it.  The network may lose a
request or cut its response short.  A wallet asks for the items of a batch one after the
other and stops at the first error.
-/

namespace SpendabilityPir
namespace Shared

open Foundation

/-- The state all handlers of a server share. -/
structure AppState (S : Type) where
  server : S
  phase : ServerPhase

/-- What a handler answers; a handler that panics drops the connection. -/
inductive Response (α : Type) where
  | ok (body : α)
  | failed (code : Nat) (reason : String)
  | dropped

def Response.serviceUnavailable {α : Type} : Response α := .failed 503 "Service Unavailable"

def Response.internalServerError {α : Type} : Response α :=
  .failed 500 "Internal Server Error"

/-- The response of a process, which has dropped its connections once it stopped. -/
def whileRunning {α : Type} (running : Bool) (response : Response α) : Response α :=
  if running then response else .dropped

theorem whileRunning_eq_ok {α : Type} {running : Bool} {response : Response α} {value : α}
    (h : whileRunning running response = .ok value) :
    running = true ∧ response = .ok value := by
  cases running with
  | true => exact ⟨rfl, h⟩
  | false => cases h

def answerLive {π α : Type} (livePir : Option π) (answer : π -> Response α) : Response α :=
  match livePir with
  | none => .serviceUnavailable
  | some pir => answer pir

theorem answerLive_eq_ok {π α : Type} {livePir : Option π} {answer : π -> Response α}
    {value : α} (h : answerLive livePir answer = .ok value) :
    exists pir, livePir = some pir ∧ answer pir = .ok value := by
  cases livePir with
  | none => cases h
  | some pir => exact ⟨pir, rfl, h⟩

/-- The `/query` handler on a published state. -/
def answerQuery {σ ε : Type} (engine : QueryEngine σ ε) (state : σ) (body : List UInt8) :
    Response (List UInt8) :=
  match engine.answerQuery state body with
  | .ok responseBytes => .ok responseBytes
  | .error (.error _) => .internalServerError
  | .error .panic => .dropped

/-- What becomes of a request on the way: it or its response is lost, or the body of the
response is cut short. -/
inductive Transport where
  | delivered
  | cut
  | lost
deriving DecidableEq

/-!
## Requests that may fail
-/

section Fallible

variable {τ ε α β γ : Type}

/-- Go on with the value of a reader that may fail. -/
def andThenOk (reader : Reader τ (Outcome ε α)) (f : α -> Reader τ (Outcome ε γ)) :
    Reader τ (Outcome ε γ) :=
  reader.andThen (fun
    | .error e => .done (.error e)
    | .ok value => f value)

theorem observes_of_andThenOk {step : τ -> β -> τ -> Prop} {s t : τ}
    {reader : Reader τ (Outcome ε α)} {f : α -> Reader τ (Outcome ε γ)} {found : γ}
    (h : Observes step s (andThenOk reader f) t (.ok found)) :
    exists value mid, Observes step s reader mid (.ok value) ∧
      Observes step mid (f value) t (.ok found) := by
  rcases h.of_andThen with ⟨first, mid, hfirst, hrest⟩
  cases first with
  | error e => cases hrest
  | ok value => exact ⟨value, mid, hfirst, hrest⟩

end Fallible

/-!
## Batches
-/

/-- The progress reported by a batch, as fractions, and its results. -/
structure BatchReport (ε α : Type) where
  progress : List (Nat × Nat)
  results : Outcome ε (List α)

section Batch

variable {τ ι ε α : Type} (ask : Nat -> ι -> Reader τ (Outcome ε α)) (total : Nat)

/-- Go on with the other items, unless this one failed. -/
def BatchReport.extend (i : Nat) (first : α) (later : BatchReport ε α) : BatchReport ε α :=
  { progress := (i + 1, total) :: later.progress
    results := later.results.map (fun results => first :: results) }

def runBatch : Nat -> List ι -> Reader τ (BatchReport ε α)
  | _, [] => .done { progress := [], results := .ok [] }
  | i, item :: rest =>
      (ask i item).andThen (fun
        | .error e => .done { progress := [], results := .error e }
        | .ok first =>
            (runBatch (i + 1) rest).andThen (fun later => .done (later.extend total i first)))

variable {ask total} {β : Type} {step : τ -> β -> τ -> Prop}

theorem BatchReport.extend_results {i : Nat} {first : α} {later : BatchReport ε α}
    {results : List α} (h : (later.extend total i first).results = .ok results) :
    exists rest, later.results = .ok rest ∧ results = first :: rest := by
  cases hlater : later.results with
  | error e =>
      rw [extend, hlater] at h
      cases h
  | ok rest =>
      rw [extend, hlater] at h
      cases h
      exact ⟨rest, rfl, rfl⟩

theorem observes_of_runBatch {items : List ι} {i : Nat} {s t : τ} {report : BatchReport ε α}
    {results : List α} (h : Observes step s (runBatch ask total i items) t report)
    (hresults : report.results = .ok results) :
    List.Forall₂ (fun item result => exists j mid mid', Later step s mid ∧
      Observes step mid (ask j item) mid' (.ok result) ∧ Later step mid' t) items results := by
  induction items generalizing i s t report results with
  | nil =>
      cases h
      cases hresults
      exact .nil
  | cons item rest ih =>
      rcases h.of_andThen with ⟨first, mid, hfirst, hrest⟩
      cases first with
      | error e =>
          cases hrest
          cases hresults
      | ok result =>
          rcases hrest.of_andThen with ⟨later, mid', hlater, hdone⟩
          cases hdone with
          | done hend =>
              rcases BatchReport.extend_results hresults with ⟨others, hothers, heq⟩
              rw [heq]
              refine .cons ⟨i, s, mid, Later.refl s, hfirst, hlater.end_later.trans hend⟩ ?_
              refine (ih hlater hothers).imp ?_
              rintro other found ⟨j, before, after, hbefore, hasked, hafter⟩
              exact ⟨j, before, after, hfirst.end_later.trans hbefore, hasked, hafter.trans hend⟩

theorem runBatch_of_ok {P : τ -> Prop} {items : List ι} {i : Nat} {s t : τ}
    {report : BatchReport ε α} (hkept : forall s t, P s -> Later step s t -> P t)
    (hok : forall j item mid mid' found, item ∈ items -> P mid ->
      Observes step mid (ask j item) mid' found -> Later step mid' t ->
      exists result, found = .ok result)
    (hs : P s) (h : Observes step s (runBatch ask total i items) t report) :
    (exists results, report.results = .ok results) ∧
      report.progress = (List.range' (i + 1) items.length).map (fun n => (n, total)) := by
  induction items generalizing i s t report with
  | nil =>
      cases h
      exact ⟨⟨[], rfl⟩, rfl⟩
  | cons item rest ih =>
      rcases h.of_andThen with ⟨first, mid, hfirst, hrest⟩
      rcases hok i item s mid first List.mem_cons_self hs hfirst hrest.end_later with
        ⟨result, heq⟩
      rw [heq] at hrest
      rcases hrest.of_andThen with ⟨later, mid', hlater, hdone⟩
      cases hdone with
      | done hend =>
          have hrestOk := fun j item before after found hmem hbefore hasked hafter =>
            hok j item before after found (List.mem_cons_of_mem _ hmem) hbefore hasked
              (Later.trans hafter hend)
          rcases ih hrestOk (hkept _ _ hs hfirst.end_later) hlater with
            ⟨⟨others, hothers⟩, hprogress⟩
          refine ⟨⟨result :: others, ?_⟩, ?_⟩
          · rw [BatchReport.extend, hothers]
            rfl
          · rw [BatchReport.extend, hprogress, List.length_cons, List.range'_succ, List.map_cons]

end Batch

end Shared
end SpendabilityPir
