import Mathlib.Logic.Function.Basic
import SpendabilityPir.Foundation.Transition

/-!
# Reading a state that changes

A writer takes steps while readers look at its state, each at moments of its own.  What a
reader returns is what it would have returned at some states that the writer went through
while it was reading, in that order.
-/

namespace SpendabilityPir
namespace Foundation

/-- A computation that looks at a state some number of times. -/
inductive Reader (σ β : Type _) where
  | done (result : β)
  | load (next : σ -> Reader σ β)

namespace Reader

variable {σ β γ : Type _}

def once (view : σ -> β) : Reader σ β := .load (fun s => .done (view s))

def andThen : Reader σ β -> (β -> Reader σ γ) -> Reader σ γ
  | .done result, f => f result
  | .load next, f => .load (fun s => (next s).andThen f)

def eval : Reader σ β -> σ -> β
  | .done result, _ => result
  | .load next, s => (next s).eval s

end Reader

/-!
## What a reader may observe
-/

section Observes

variable {σ α β γ : Type _}

def Later (step : σ -> α -> σ -> Prop) (s t : σ) : Prop := exists labels, Run step s labels t

variable {step : σ -> α -> σ -> Prop}

theorem Later.refl (s : σ) : Later step s s := ⟨[], Run.nil s⟩

theorem Later.next {s mid t : σ} {label : α} (h : Later step s mid)
    (hstep : step mid label t) : Later step s t := by
  rcases h with ⟨labels, hrun⟩
  exact ⟨labels ++ [label], hrun.snoc hstep⟩

theorem Later.trans {s mid t : σ} (hfirst : Later step s mid) (hsecond : Later step mid t) :
    Later step s t := by
  rcases hsecond with ⟨labels, hrun⟩
  induction hrun with
  | nil => exact hfirst
  | snoc _ hlast ih => exact ih.next hlast

/-- What holds of a state and is kept by the writer holds later on. -/
theorem Later.invariant {P : σ -> Prop} (hstep : forall s label t, P s -> step s label t -> P t)
    {s t : σ} (h : Later step s t) (hs : P s) : P t := by
  rcases h with ⟨labels, hrun⟩
  exact hrun.invariant hstep hs

theorem Later.mono {step' : σ -> α -> σ -> Prop}
    (hstep : forall s label t, step s label t -> step' s label t) {s t : σ}
    (h : Later step s t) : Later step' s t := by
  rcases h with ⟨labels, hrun⟩
  exact ⟨labels, hrun.mono hstep⟩

variable (step)

/-- A reader that starts in one state may return a result in another, having looked at
states the writer went through in between. -/
inductive Observes : σ -> Reader σ β -> σ -> β -> Prop where
  | done {s t : σ} {result : β} : Later step s t -> Observes s (.done result) t result
  | load {s mid t : σ} {next : σ -> Reader σ β} {result : β} :
      Later step s mid -> Observes mid (next mid) t result -> Observes s (.load next) t result

variable {step}

theorem Observes.later {s mid t : σ} {reader : Reader σ β} {result : β}
    (h : Observes step mid reader t result) (hlater : Later step s mid) :
    Observes step s reader t result := by
  cases h with
  | done hdone => exact .done (hlater.trans hdone)
  | load hload hrest => exact .load (hlater.trans hload) hrest

theorem Observes.end_later {s t : σ} {reader : Reader σ β} {result : β}
    (h : Observes step s reader t result) : Later step s t := by
  induction h with
  | done hdone => exact hdone
  | load hload _ ih => exact hload.trans ih

theorem Observes.of_done {s t : σ} {result found : β}
    (h : Observes step s (.done result) t found) : found = result ∧ Later step s t := by
  cases h with
  | done hdone => exact ⟨rfl, hdone⟩

theorem Observes.of_once {s t : σ} {view : σ -> β} {result : β}
    (h : Observes step s (Reader.once view) t result) :
    exists mid, Later step s mid ∧ Later step mid t ∧ result = view mid := by
  cases h with
  | @load _ mid _ _ _ hload hrest =>
      cases hrest with
      | done hdone => exact ⟨mid, hload, hdone, rfl⟩

theorem Observes.of_andThen {reader : Reader σ β} {f : β -> Reader σ γ} {s t : σ} {result : γ}
    (h : Observes step s (reader.andThen f) t result) :
    exists first mid, Observes step s reader mid first ∧ Observes step mid (f first) t result := by
  induction reader generalizing s with
  | done first => exact ⟨first, s, .done (Later.refl s), h⟩
  | load next ih =>
      cases h with
      | @load _ seen _ _ _ hload hrest =>
          rcases ih seen hrest with ⟨first, mid, hfirst, hsecond⟩
          exact ⟨first, mid, .load hload hfirst, hsecond⟩

end Observes

/-!
## Requests in flight
-/

section Serving

variable {σ α β : Type _}

/-- A request, with the state it arrived in, what it asked for, and what is left of it. -/
structure Request (σ β : Type _) where
  arrived : σ
  asked : Reader σ β
  rest : Reader σ β

/-- A writer's state and the requests in flight. -/
structure Serving (σ β : Type _) where
  shared : σ
  requests : Nat -> Option (Request σ β)

inductive ServingLabel (σ α β : Type _) where
  | write (label : α)
  | arrive (id : Nat) (reader : Reader σ β)
  | load (id : Nat)
  | reply (id : Nat) (result : β)

def Serving.setRequest (s : Serving σ β) (id : Nat) (request : Option (Request σ β)) :
    Serving σ β :=
  { s with requests := Function.update s.requests id request }

/-- The writer and the requests take steps in any order. -/
inductive ServingStep (step : σ -> α -> σ -> Prop) (s : Serving σ β) :
    ServingLabel σ α β -> Serving σ β -> Prop where
  | write {label : α} {shared : σ} :
      step s.shared label shared ->
      ServingStep step s (.write label) { s with shared := shared }
  | arrive {id : Nat} {reader : Reader σ β} :
      s.requests id = none ->
      ServingStep step s (.arrive id reader)
        (s.setRequest id (some { arrived := s.shared, asked := reader, rest := reader }))
  | load {id : Nat} {request : Request σ β} {next : σ -> Reader σ β} :
      s.requests id = some request -> request.rest = .load next ->
      ServingStep step s (.load id)
        (s.setRequest id (some { request with rest := next s.shared }))
  | reply {id : Nat} {request : Request σ β} {result : β} :
      s.requests id = some request -> request.rest = .done result ->
      ServingStep step s (.reply id result) (s.setRequest id none)

variable {step : σ -> α -> σ -> Prop}

/-- What is left of a request leads to nothing that the request could not observe. -/
structure RequestInvariant (step : σ -> α -> σ -> Prop) (start : σ) (shared : σ)
    (request : Request σ β) : Prop where
  reached : Later step start request.arrived
  later : Later step request.arrived shared
  observes : forall t result, Observes step shared request.rest t result ->
    Observes step request.arrived request.asked t result

structure ServingInvariant (step : σ -> α -> σ -> Prop) (start : σ) (s : Serving σ β) :
    Prop where
  shared : Later step start s.shared
  requests : forall id request, s.requests id = some request ->
    RequestInvariant step start s.shared request

theorem ServingInvariant.setRequest {start : σ} {s : Serving σ β}
    (h : ServingInvariant step start s) (id : Nat) {request : Option (Request σ β)}
    (hrequest : forall r, request = some r -> RequestInvariant step start s.shared r) :
    ServingInvariant step start (s.setRequest id request) where
  shared := h.shared
  requests := by
    intro other found hfound
    change Function.update s.requests id request other = some found at hfound
    rw [Function.update_apply] at hfound
    split at hfound
    · exact hrequest found hfound
    · exact h.requests other found hfound

theorem servingInvariant_step {start : σ} {s s' : Serving σ β} {label : ServingLabel σ α β}
    (h : ServingInvariant step start s) (hstep : ServingStep step s label s') :
    ServingInvariant step start s' := by
  cases hstep with
  | write hwrite =>
      refine ⟨h.shared.next hwrite, ?_⟩
      intro id request hrequest
      rcases h.requests id request hrequest with ⟨hreached, hlater, hobserves⟩
      refine ⟨hreached, hlater.next hwrite, ?_⟩
      intro t result hrest
      exact hobserves t result (hrest.later ((Later.refl _).next hwrite))
  | arrive _ =>
      apply h.setRequest
      intro request hrequest
      cases hrequest
      exact ⟨h.shared, Later.refl _, fun _ _ hrest => hrest⟩
  | load hrequest hload =>
      apply h.setRequest
      intro request heq
      cases heq
      rcases h.requests _ _ hrequest with ⟨hreached, hlater, hobserves⟩
      refine ⟨hreached, hlater, ?_⟩
      intro t result hrest
      apply hobserves
      rw [hload]
      exact .load (Later.refl _) hrest
  | reply _ _ =>
      apply h.setRequest
      intro request heq
      cases heq

def quiet (start : σ) : Serving σ β := { shared := start, requests := fun _ => none }

theorem servingInvariant_run {start : σ} {s : Serving σ β}
    {labels : List (ServingLabel σ α β)}
    (hrun : Run (ServingStep step) (quiet start) labels s) : ServingInvariant step start s :=
  hrun.invariant (fun _ _ _ h hstep => servingInvariant_step h hstep)
    ⟨Later.refl start, fun _ _ hrequest => by cases hrequest⟩

theorem observes_of_reply {start : σ} {s s' : Serving σ β}
    {labels : List (ServingLabel σ α β)} {id : Nat} {result : β}
    (hrun : Run (ServingStep step) (quiet start) labels s)
    (hreply : ServingStep step s (.reply id result) s') :
    exists request, s.requests id = some request ∧ Later step start request.arrived ∧
      Observes step request.arrived request.asked s.shared result := by
  cases hreply with
  | @reply _ request _ hrequest hdone =>
      rcases (servingInvariant_run hrun).requests id request hrequest with
        ⟨hreached, _, hobserves⟩
      refine ⟨request, hrequest, hreached, hobserves s.shared result ?_⟩
      rw [hdone]
      exact .done (Later.refl _)

theorem exists_reply {s : Serving σ β} {id : Nat} {request : Request σ β}
    (h : s.requests id = some request) :
    exists t t', Later (ServingStep step) s t ∧ t.shared = s.shared ∧
      t.requests id = some { request with rest := .done (request.rest.eval s.shared) } ∧
      ServingStep step t (.reply id (request.rest.eval s.shared)) t' := by
  rcases request with ⟨arrived, asked, rest⟩
  induction rest generalizing s with
  | done result => exact ⟨s, _, Later.refl s, rfl, h, .reply h rfl⟩
  | load next ih =>
      have hloaded : (s.setRequest id (some { arrived, asked, rest := next s.shared })).requests
          id = some { arrived, asked, rest := next s.shared } := Function.update_self _ _ _
      rcases ih s.shared hloaded with ⟨t, t', hlater, hshared, hrequest, hreply⟩
      have hload : ServingStep step s (.load id) _ := .load h rfl
      exact ⟨t, t', ((Later.refl s).next hload).trans hlater, hshared, hrequest, hreply⟩

theorem later_quiet {start s : σ} (h : Later step start s) :
    Later (ServingStep step) (quiet start : Serving σ β) (quiet s) := by
  rcases h with ⟨labels, hrun⟩
  induction hrun with
  | nil => exact Later.refl _
  | snoc _ hlast ih => exact ih.next (.write hlast)

theorem exists_asked {start s : σ} (h : Later step start s) (reader : Reader σ β) :
    exists labels t t' request, Run (ServingStep step) (quiet start) labels t ∧
      t.shared = s ∧ t.requests 0 = some request ∧ request.asked = reader ∧
      request.arrived = s ∧ ServingStep step t (.reply 0 (reader.eval s)) t' := by
  have harrive : ServingStep step (quiet s) (.arrive 0 reader)
      ((quiet s).setRequest 0 (some { arrived := s, asked := reader, rest := reader })) :=
    .arrive rfl
  have hrequest : ((quiet s).setRequest 0
      (some { arrived := s, asked := reader, rest := reader })).requests 0 =
        some { arrived := s, asked := reader, rest := reader } := by
    simp [Serving.setRequest]
  rcases exists_reply hrequest with ⟨t, t', hlater, hshared, hfound, hreply⟩
  rcases ((later_quiet h).next harrive).trans hlater with ⟨labels, hrun⟩
  exact ⟨labels, t, t', _, hrun, hshared, hfound, rfl, rfl, hreply⟩

end Serving

end Foundation
end SpendabilityPir
