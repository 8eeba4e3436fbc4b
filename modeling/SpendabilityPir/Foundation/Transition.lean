/-!
# Labelled transition systems

A system is its labelled step relation.  An invariant is proved on one step and
holds in every state a run reaches; a simulation is proved on one step and
relates every run to the run of an abstract system over the same labels.
-/

namespace SpendabilityPir
namespace Foundation

/-- The finite runs of a labelled step relation, with their labels in order. -/
inductive Run {σ α : Type _} (step : σ -> α -> σ -> Prop) :
    σ -> List α -> σ -> Prop where
  | nil (s : σ) : Run step s [] s
  | snoc {s mid t : σ} {labels : List α} {label : α} :
      Run step s labels mid -> step mid label t ->
      Run step s (labels ++ [label]) t

namespace Run

variable {σ τ α : Type _} {step : σ -> α -> σ -> Prop}

theorem cons {s mid t : σ} {label : α} {labels : List α} (hrun : Run step mid labels t)
    (hfirst : step s label mid) : Run step s (label :: labels) t := by
  induction hrun with
  | nil => exact (Run.nil s).snoc hfirst
  | snoc _ hlast ih => exact ih.snoc hlast

theorem mono {other : σ -> α -> σ -> Prop}
    (hstep : forall s label t, step s label t -> other s label t)
    {s t : σ} {labels : List α} (hrun : Run step s labels t) : Run other s labels t := by
  induction hrun with
  | nil => exact Run.nil s
  | snoc _ hlast ih => exact ih.snoc (hstep _ _ _ hlast)

theorem invariant {P : σ -> Prop}
    (hstep : forall s label t, P s -> step s label t -> P t)
    {s t : σ} {labels : List α} (hrun : Run step s labels t) (hs : P s) : P t := by
  induction hrun with
  | nil => exact hs
  | snoc _ hlast ih => exact hstep _ _ _ ih hlast

theorem invariant_of_forall {P : σ -> Prop} {C : α -> Prop}
    (hstep : forall s label t, P s -> C label -> step s label t -> P t)
    {s t : σ} {labels : List α} (hrun : Run step s labels t)
    (hlabels : forall label, label ∈ labels -> C label) (hs : P s) : P t := by
  induction hrun with
  | nil => exact hs
  | snoc _ hlast ih =>
      have hfront := ih (fun l hl => hlabels l (List.mem_append_left _ hl))
      have hlabel := hlabels _ (List.mem_append_right _ (List.mem_singleton.mpr rfl))
      exact hstep _ _ _ hfront hlabel hlast

theorem simulates {R : σ -> τ -> Prop} {abstractStep : τ -> α -> τ}
    (hstep : forall s a label t, R s a -> step s label t ->
      R t (abstractStep a label))
    {s t : σ} {labels : List α} (hrun : Run step s labels t) {a : τ} (hs : R s a) :
    R t (labels.foldl abstractStep a) := by
  induction hrun with
  | nil => exact hs
  | snoc _ hlast ih =>
      rw [List.foldl_append]
      exact hstep _ _ _ _ ih hlast

theorem refines {R : σ -> τ -> Prop} {abstractStep : τ -> α -> τ -> Prop}
    (hstep : forall s a label t, R s a -> step s label t ->
      exists b, abstractStep a label b ∧ R t b)
    {s t : σ} {labels : List α} (hrun : Run step s labels t) {a : τ} (hs : R s a) :
    exists b, Run abstractStep a labels b ∧ R t b := by
  induction hrun with
  | nil => exact ⟨a, Run.nil a, hs⟩
  | snoc _ hlast ih =>
      rcases ih with ⟨mid, hrun, hmid⟩
      rcases hstep _ _ _ _ hmid hlast with ⟨b, hb, hrel⟩
      exact ⟨b, hrun.snoc hb, hrel⟩

end Run
end Foundation
end SpendabilityPir
