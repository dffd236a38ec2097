import Spatiad.Api
import Spatiad.NextOffers

/-! # The sweep of a session

Before an answer, and at every tick, a session has the due offers of its driver
expired and sends it the notices of these.  The engine is swept whether or not the
socket takes them; the rest of the handler depends on it.
-/

namespace Spatiad

open Foundation

variable {β : Type} [StorageBackend β] {host : Host}

/-- The socket refuses the notice of some due offer of the driver. -/
def ApiState.RefusesNotice (host : Host) (s : ApiState β) (socket : Socket) (driverId : Uuid) :
    Prop :=
  ∃ i < (s.dispatch.dueFor host driverId).length, socket.accepts (socket.attempts + i) = false

namespace Task

variable (t : Task β)

omit [StorageBackend β] in
theorem sendAll_api (payloads : List DriverOutbound) : (t.sendAll payloads).2.api = t.api := by
  induction payloads generalizing t with
  | nil => rfl
  | cons payload rest ih =>
      have api : (t.sendOutbound payload).2.api = t.api := rfl
      simp only [sendAll]
      generalize t.sendOutbound payload = result at api
      obtain ⟨_ | _, t'⟩ := result
      · exact api
      · exact (ih t').trans api

omit [StorageBackend β] in
theorem sendAll_refused (payloads : List DriverOutbound) :
    (t.sendAll payloads).1 = false ↔
      ∃ i < payloads.length, t.socket.accepts (t.socket.attempts + i) = false := by
  induction payloads generalizing t with
  | nil => simp [sendAll]
  | cons payload rest ih =>
      have accepts : (t.sendOutbound payload).2.socket.accepts = t.socket.accepts := rfl
      have attempts : (t.sendOutbound payload).2.socket.attempts = t.socket.attempts + 1 := rfl
      have first : (t.sendOutbound payload).1 = t.socket.accepts t.socket.attempts := rfl
      rw [List.length_cons, Nat.exists_lt_succ_left, Nat.add_zero, ← first]
      simp only [sendAll]
      generalize t.sendOutbound payload = result at accepts attempts
      obtain ⟨_ | _, t'⟩ := result
      · simp
      · have later : ∀ i, t.socket.attempts + (i + 1) = t'.socket.attempts + i := by
          intro i
          dsimp only at attempts
          omega
        dsimp only at accepts
        simp only [ih t', accepts, later, Bool.true_eq_false, false_or]

theorem notices_refused (others : Others host β) (sound : t.api.Sound host) (driverId : Uuid) :
    ((t.run others fun e => DispatchService.expirePendingOffersForDriver host e driverId).2.sendAll
        ((t.run others fun e => DispatchService.expirePendingOffersForDriver host e
          driverId).1.expired.map fun item => .offerExpired item.offerId)).1 = false ↔
      (t.lock others).api.RefusesNotice host t.socket driverId := by
  have locked : (t.lock others).api.Sound host := (others.evolves t.locks t.api).sound sound
  obtain ⟨reports, _⟩ := sweep_handOns locked.dispatch driverId
  simp only [sendAll_refused, List.length_map]
  change (∃ i < (DispatchService.expirePendingOffersForDriver host (t.lock others).api.dispatch
    driverId).2.expired.length, _) ↔ _
  rw [reports]
  rfl

theorem flushExpiredOffers_refused (others : Others host β) (sound : t.api.Sound host)
    (driverId : Uuid) :
    (t.flushExpiredOffers others driverId).1 = false ↔
      (t.lock others).api.RefusesNotice host t.socket driverId := by
  rw [← t.notices_refused others sound driverId]
  simp only [flushExpiredOffers]
  split
  · rename_i sent
    simp [sent]
  · rename_i failed
    simp [failed]

end Task

end Spatiad
