import Spatiad.Types
import Spatiad.Foundation.HashMap

/-! # Driver sessions

The sessions map of the API and the channels it feeds.  A session is known by its
number among all sessions opened so far; the sender of a channel is the number of
the session that receives from it.  A sender lives in the map and nowhere else.
-/

namespace Spatiad

open Foundation

inductive DriverOutbound where
  | offer (offerId jobId : Uuid) (pickup : Coordinates) (dropoff : Option Coordinates)
      (expiresAt : DateTime)
  | offerExpired (offerId : Uuid)
  | offerCancelled (offerId jobId : Uuid)
  | matched (offerId jobId : Uuid)
  deriving DecidableEq, Repr

/-- How far `handle_driver_session` has come. -/
inductive Stage where
  | running
  /-- Out of its loop, or refused by the replay, and not yet cleaned up. -/
  | leaving
  | ended
  deriving DecidableEq, Repr

structure Session where
  driverId : Uuid
  stage : Stage
  /-- What has been sent on its channel and not received. -/
  queue : List DriverOutbound
  deriving DecidableEq, Repr

/-- Put a message on a session's channel; a closed channel takes nothing. -/
def Session.enqueue (outbound : DriverOutbound) (session : Session) : Session :=
  if session.stage = .ended then session
  else { session with queue := session.queue ++ [outbound] }

@[simp] theorem Session.enqueue_driverId (outbound : DriverOutbound) (session : Session) :
    (session.enqueue outbound).driverId = session.driverId := by
  unfold enqueue
  split <;> rfl

@[simp] theorem Session.enqueue_stage (outbound : DriverOutbound) (session : Session) :
    (session.enqueue outbound).stage = session.stage := by
  unfold enqueue
  split <;> rfl

structure Sessions where
  senders : HashMap Uuid Nat
  opened : List Session
  deriving DecidableEq

namespace Sessions

def empty : Sessions := ⟨∅, []⟩

def update (s : Sessions) (n : Nat) (change : Session → Session) : Sessions :=
  { s with opened := s.opened.modify n change }

/-- A new session puts its sender in the map; a sender it replaces is dropped. -/
def register (s : Sessions) (driverId : Uuid) : Sessions where
  senders := s.senders.insert driverId s.opened.length
  opened := s.opened ++ [⟨driverId, .running, []⟩]

def leave (s : Sessions) (n : Nat) : Sessions :=
  s.update n fun session => { session with stage := .leaving }

/-- The end of a session: whatever the map holds for its driver is removed. -/
def cleanup (s : Sessions) (n : Nat) (driverId : Uuid) : Sessions :=
  { s with senders := s.senders.erase driverId }.update n
    fun session => { session with stage := .ended }

/-- Send on a driver's channel, if one is registered. -/
def send (s : Sessions) (driverId : Uuid) (outbound : DriverOutbound) : Sessions :=
  match s.senders.lookup driverId with
  | none => s
  | some n => s.update n (Session.enqueue outbound)

def receiver (s : Sessions) (driverId : Uuid) : Option Nat :=
  (s.senders.lookup driverId).filter fun n =>
    (s.opened[n]?).any fun session => session.stage != .ended

def receive (s : Sessions) (n : Nat) : Sessions :=
  s.update n fun session => { session with queue := session.queue.tail }

end Sessions

/-! ## Steps -/

inductive SessionEvent where
  | register (driverId : Uuid)
  /-- Its socket fails or closes, or a message on it is refused. -/
  | fail (n : Nat)
  /-- It finds its channel empty and without a sender. -/
  | closed (n : Nat)
  | cleanup (n : Nat)
  | send (driverId : Uuid) (outbound : DriverOutbound)
  | receive (n : Nat)
  deriving DecidableEq, Repr

inductive sessionStep : Sessions → SessionEvent → Sessions → Prop where
  | register {s driverId} : sessionStep s (.register driverId) (s.register driverId)
  | fail {s n session} (found : s.opened[n]? = some session) (running : session.stage = .running) :
      sessionStep s (.fail n) (s.leave n)
  | closed {s n session} (found : s.opened[n]? = some session)
      (running : session.stage = .running) (drained : session.queue = [])
      (dropped : s.senders.lookup session.driverId ≠ some n) :
      sessionStep s (.closed n) (s.leave n)
  | cleanup {s n session} (found : s.opened[n]? = some session)
      (leaving : session.stage = .leaving) :
      sessionStep s (.cleanup n) (s.cleanup n session.driverId)
  | send {s driverId outbound} :
      sessionStep s (.send driverId outbound) (s.send driverId outbound)
  | receive {s n session} (found : s.opened[n]? = some session)
      (running : session.stage = .running) (waiting : session.queue ≠ []) :
      sessionStep s (.receive n) (s.receive n)

/-! ## Senders and channels -/

namespace Sessions

variable {s s' : Sessions}

theorem getElem_update (s : Sessions) (m : Nat) (change : Session → Session) (n : Nat) :
    (s.update m change).opened[n]? =
      (s.opened[n]?).map fun session => if m = n then change session else session := by
  simp only [update, List.getElem?_modify]
  by_cases same : m = n <;> simp [same]

theorem send_cases (s : Sessions) (driverId : Uuid) (outbound : DriverOutbound) :
    s.send driverId outbound = s ∨
      ∃ m, s.send driverId outbound = s.update m (Session.enqueue outbound) := by
  unfold send
  cases s.senders.lookup driverId with
  | none => exact .inl rfl
  | some m => exact .inr ⟨m, rfl⟩

/-- Each registered sender feeds an open channel of a session of its driver. -/
def Wired (s : Sessions) : Prop :=
  ∀ driverId n, s.senders.lookup driverId = some n →
    ∃ session, s.opened[n]? = some session ∧ session.driverId = driverId ∧ session.stage ≠ .ended

theorem wired_empty : empty.Wired := by
  intro driverId n registered
  simp [empty] at registered

theorem Wired.receiver_eq (wired : s.Wired) (driverId : Uuid) :
    s.receiver driverId = s.senders.lookup driverId := by
  unfold receiver
  cases registered : s.senders.lookup driverId with
  | none => rfl
  | some n =>
      obtain ⟨session, found, _, open_⟩ := wired driverId n registered
      simp [Option.filter, found, open_]

theorem Wired.update (wired : s.Wired) (n : Nat) {change : Session → Session}
    (sameDriver : ∀ session, (change session).driverId = session.driverId)
    (openStays : ∀ session, s.opened[n]? = some session → session.stage ≠ .ended →
      (change session).stage ≠ .ended) : (s.update n change).Wired := by
  intro driverId m registered
  obtain ⟨session, found, ofDriver, isOpen⟩ := wired driverId m registered
  rw [getElem_update, found]
  by_cases here : n = m
  · subst here
    exact ⟨change session, by simp, (sameDriver session).trans ofDriver,
      openStays session found isOpen⟩
  · exact ⟨session, by simp [here], ofDriver, isOpen⟩

theorem Wired.send (wired : s.Wired) (driverId : Uuid) (outbound : DriverOutbound) :
    (s.send driverId outbound).Wired := by
  rcases s.send_cases driverId outbound with same | ⟨m, same⟩
  · rw [same]
    exact wired
  · rw [same]
    refine wired.update m (Session.enqueue_driverId outbound) fun session _ isOpen => ?_
    rw [Session.enqueue_stage]
    exact isOpen

/-- Whatever sessions do, senders stay wired: the one session that ends takes the
    sender of its driver with it. -/
theorem Wired.step {event : SessionEvent} (wired : s.Wired) (taken : sessionStep s event s') :
    s'.Wired := by
  cases taken with
  | @register driverId =>
      intro d n registered
      simp only [register, HashMap.lookup_insert_if] at registered ⊢
      split at registered
      · rename_i same
        obtain rfl := Option.some.inj registered
        exact ⟨⟨driverId, .running, []⟩, by simp, same.symm, by simp⟩
      · obtain ⟨session, found, ofDriver, isOpen⟩ := wired d n registered
        have old : n < s.opened.length := (List.getElem?_eq_some_iff.mp found).1
        exact ⟨session, by rw [List.getElem?_append_left old, found], ofDriver, isOpen⟩
  | fail | closed => exact wired.update _ (fun _ => rfl) fun _ _ _ => Stage.noConfusion
  | send => exact wired.send _ _
  | receive => exact wired.update _ (fun _ => rfl) fun _ _ isOpen => isOpen
  | @cleanup n own found leaving =>
      intro d m registered
      have stays : (s.senders.erase own.driverId).lookup d = some m := registered
      rw [HashMap.lookup_erase_if] at stays
      split at stays
      · cases stays
      · rename_i apart
        obtain ⟨session, there, ofDriver, isOpen⟩ := wired d m stays
        have other : n ≠ m := by
          rintro rfl
          obtain rfl := Option.some.inj (found.symm.trans there)
          exact apart ofDriver.symm
        refine ⟨session, ?_, ofDriver, isOpen⟩
        show ((s.update n _).opened[m]?) = some session
        rw [getElem_update, there]
        simp [other]

end Sessions

end Spatiad
