import SpendabilityPir.Nullifier.ClientGeometry
import SpendabilityPir.Shared.HttpExchange

/-!
# What a wallet receives

The response of a server reaches the wallet whole, cut short or not at all.
-/

namespace SpendabilityPir
namespace Nullifier

open Foundation Shared

def receive {α : Type} : Transport -> Response α -> HttpResponse α
  | .lost, _ => .unsent
  | _, .failed code reason => .status code reason
  | _, .dropped => .unsent
  | .cut, .ok _ => .body none
  | .delivered, .ok value => .body (some value)

def HttpResponse.decode {α β : Type} (decode : α -> β) : HttpResponse α -> HttpResponse β
  | .unsent => .unsent
  | .status code reason => .status code reason
  | .body value => .body (value.map decode)

theorem receive_eq_body {α : Type} {transport : Transport} {response : Response α} {value : α}
    (h : receive transport response = .body (some value)) : response = .ok value := by
  cases transport with
  | lost => cases h
  | cut => cases response <;> cases h
  | delivered =>
      cases response with
      | ok found =>
          cases h
          rfl
      | failed code reason => cases h
      | dropped => cases h

theorem receive_decode_eq_body {α β : Type} {transport : Transport} {response : Response α}
    {decode : α -> β} {decoded : β}
    (h : (receive transport response).decode decode = .body (some decoded)) :
    transport = .delivered ∧ exists value, response = .ok value ∧ decoded = decode value := by
  cases transport with
  | lost => cases h
  | cut => cases response <;> cases h
  | delivered =>
      cases response with
      | ok value =>
          cases h
          exact ⟨rfl, value, rfl, rfl⟩
      | failed code reason => cases h
      | dropped => cases h

/-- What becomes of a query, and the randomness it is made with. -/
structure Exchange (ρ : Type) where
  transport : Transport
  seed : ρ

end Nullifier
end SpendabilityPir
