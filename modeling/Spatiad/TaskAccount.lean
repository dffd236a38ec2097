import Spatiad.Api
import Spatiad.NewOffers

/-! # The account of a task

A task that creates offers is followed from lock to lock.  The account kept of it
says which of the offers it created were looked up, and that each look-up that
found a registered session put the offer on its channel.
-/

namespace Spatiad

open Foundation

variable {β : Type} {host : Host}

/-! ## The property -/

def DriverOutbound.isOffer (offerId : Uuid) : DriverOutbound → Bool
  | .offer id .. => id == offerId
  | _ => false

/-- The offer is pending and unexpired, and session `n` is registered for the driver. -/
def ApiState.Shows (host : Host) (s : ApiState β) (offerId driverId : Uuid) (n : Nat) : Prop :=
  (∃ o ∈ s.dispatch.offers.lookup offerId,
      o.status = .pending ∧ host.clock s.dispatch.tick < o.expiresAt) ∧
    s.sessions.senders.lookup driverId = some n

namespace Task

variable (t : Task β)

def Created (offerId driverId : Uuid) : Prop :=
  ∃ operation ∈ t.sections, operation.1.offers.lookup offerId = none ∧
    ∃ o ∈ operation.2.offers.lookup offerId, o.driverId = driverId

def offersOn (n : Nat) (offerId : Uuid) : Nat :=
  t.enqueued.countP fun sent => sent.1 == n && sent.2.isOffer offerId

end Task

/-! ## The account of a task -/

/-- A task begun in `s₀` is under way, with these new offers still to be looked up. -/
structure Accounted (host : Host) (s₀ : ApiState β) (t : Task β) (waiting : List OfferRecord) :
    Prop where
  sound : t.api.Sound host
  kept : ∀ k, s₀.dispatch.offers.lookup k ≠ none → t.api.dispatch.offers.lookup k ≠ none
  counted : ∀ n k, t.offersOn n k =
    t.lookUps.countP fun lookUp => lookUp.offerId == k && lookUp.session == some (some n)
  distinct : (t.lookUps.map LookUp.offerId ++ waiting.map OfferRecord.offerId).Nodup
  used : ∀ k ∈ t.lookUps.map LookUp.offerId ++ waiting.map OfferRecord.offerId,
    t.api.dispatch.offers.lookup k ≠ none
  complete : ∀ k d, t.Created k d →
    k ∈ t.lookUps.map LookUp.offerId ∨ ∃ o ∈ waiting, o.offerId = k ∧ o.driverId = d
  created : ∀ o ∈ waiting, t.Created o.offerId o.driverId

namespace Accounted

variable {s₀ : ApiState β} {t : Task β} {waiting : List OfferRecord} {others : Others host β}

theorem start (sound : s₀.Sound host) (socket : Socket) :
    Accounted host s₀ (.start s₀ socket) [] where
  sound := sound
  kept _ present := present
  counted _ _ := rfl
  distinct := List.nodup_nil
  used := by simp [Task.start]
  complete := by
    rintro k d ⟨_, member, _⟩
    cases member
  created := by simp

theorem lock (accounted : Accounted host s₀ t waiting) :
    Accounted host s₀ (t.lock others) waiting := by
  have evolves := others.evolves t.locks t.api
  exact
    { sound := evolves.sound accounted.sound
      kept := fun k present => evolves.kept k (accounted.kept k present)
      counted := accounted.counted
      distinct := accounted.distinct
      used := fun k member => evolves.kept k (accounted.used k member)
      complete := accounted.complete
      created := accounted.created }

/-- What a task may do to its socket, its limiter or by drawing touches no account. -/
theorem sendFrame (accounted : Accounted host s₀ t waiting) (frame : Frame) :
    Accounted host s₀ (t.sendFrame frame).2 waiting :=
  ⟨accounted.sound, accounted.kept, accounted.counted, accounted.distinct, accounted.used,
    accounted.complete, accounted.created⟩

theorem sendAll (accounted : Accounted host s₀ t waiting) (payloads : List DriverOutbound) :
    Accounted host s₀ (t.sendAll payloads).2 waiting := by
  induction payloads generalizing t with
  | nil => exact accounted
  | cons payload rest ih =>
      have sent : Accounted host s₀ (t.sendOutbound payload).2 waiting :=
        accounted.sendFrame (.text payload)
      simp only [Task.sendAll]
      generalize t.sendOutbound payload = result at sent
      obtain ⟨_ | _, t'⟩ := result
      · exact sent
      · exact ih sent

theorem send (accounted : Accounted host s₀ t waiting) (driverId : Uuid)
    {outbound : DriverOutbound} (other : ∀ k, outbound.isOffer k = false) :
    Accounted host s₀ (t.send driverId outbound) waiting where
  sound := ⟨accounted.sound.dispatch, accounted.sound.sessions.send driverId outbound⟩
  kept := accounted.kept
  counted n k := by
    refine Eq.trans ?_ (accounted.counted n k)
    unfold Task.offersOn Task.send
    cases t.api.sessions.receiver driverId with
    | none => simp
    | some m => simp [other]
  distinct := accounted.distinct
  used := accounted.used
  complete := accounted.complete
  created := accounted.created

theorem run {α : Type} (accounted : Accounted host s₀ t waiting)
    (operation : DispatchService β → DispatchService β × α) (new : α → List OfferRecord)
    (keeps : ∀ e, Spatiad.Sound host e → Spatiad.Sound host (operation e).1)
    (creates : ∀ e, Spatiad.Sound host e → Creates host e (operation e).1 (new (operation e).2)) :
    Accounted host s₀ (t.run others operation).2 (waiting ++ new (t.run others operation).1) := by
  have locked : Accounted host s₀ (t.lock others) waiting := accounted.lock
  let e := (t.lock others).api.dispatch
  have made := creates e locked.sound.dispatch
  have stays : ∀ k, e.offers.lookup k ≠ none → (operation e).1.offers.lookup k ≠ none := by
    intro k present
    obtain ⟨o, found⟩ := Option.ne_none_iff_exists'.mp present
    obtain ⟨o', found', _⟩ := made.kept k o found
    rw [found']
    exact Option.some_ne_none o'
  have sections : ∀ k d, (t.run others operation).2.Created k d ↔
      t.Created k d ∨ e.offers.lookup k = none ∧
        ∃ o ∈ (operation e).1.offers.lookup k, o.driverId = d := by
    intro k d
    constructor
    · rintro ⟨taken, member, created⟩
      rcases List.mem_append.mp member with early | late
      · exact .inl ⟨taken, early, created⟩
      · obtain rfl := List.mem_singleton.mp late
        exact .inr created
    · rintro (⟨taken, member, created⟩ | created)
      · exact ⟨taken, List.mem_append_left _ member, created⟩
      · exact ⟨_, List.mem_append_right _ (List.mem_singleton_self _), created⟩
  have fresh : ∀ o ∈ new (operation e).2,
      o.offerId ∉ t.lookUps.map LookUp.offerId ++ waiting.map OfferRecord.offerId :=
    fun o member old => locked.used o.offerId old (made.fresh o member)
  refine ⟨⟨keeps e locked.sound.dispatch, locked.sound.sessions⟩, ?_, locked.counted, ?_, ?_, ?_, ?_⟩
  · exact fun k present => stays k (locked.kept k present)
  · show (t.lookUps.map LookUp.offerId ++
      (waiting ++ new (operation e).2).map OfferRecord.offerId).Nodup
    rw [List.map_append, ← List.append_assoc, List.nodup_append]
    refine ⟨locked.distinct, made.distinct, ?_⟩
    intro a old b late same
    obtain ⟨o, member, rfl⟩ := List.mem_map.mp late
    exact fresh o member (same ▸ old)
  · intro k member
    rw [List.map_append, ← List.append_assoc] at member
    rcases List.mem_append.mp member with old | late
    · exact stays k (locked.used k old)
    · obtain ⟨o, inNew, rfl⟩ := List.mem_map.mp late
      obtain ⟨o', found', _⟩ := made.stored o inNew
      show (operation e).1.offers.lookup o.offerId ≠ none
      rw [found']
      exact Option.some_ne_none o'
  · intro k d created
    rcases (sections k d).mp created with early | ⟨absent, o', found', ofDriver⟩
    · rcases locked.complete k d early with lookedUp | ⟨o, member, same, ofDriver⟩
      · exact .inl lookedUp
      · exact .inr ⟨o, List.mem_append_left _ member, same, ofDriver⟩
    · obtain ⟨o, member, rfl⟩ := made.complete k o' absent found'
      obtain ⟨o'', found'', sameDriver⟩ := made.stored o member
      obtain rfl := Option.some.inj (found'.symm.trans found'')
      exact .inr ⟨o, List.mem_append_right _ member, rfl, sameDriver.symm.trans ofDriver⟩
  · intro o member
    rw [sections]
    rcases List.mem_append.mp member with early | late
    · exact .inl (locked.created o early)
    · exact .inr ⟨made.fresh o late, made.stored o late⟩

/-- The first offer that waits is looked up, and what its look-up asks for is sent. -/
theorem lookUp {offer : OfferRecord} (accounted : Accounted host s₀ t (offer :: waiting))
    (session : Option (Option Nat)) (sent : List (Nat × DriverOutbound))
    (asked : ∀ n k, sent.countP (fun sent => sent.1 == n && sent.2.isOffer k) =
      [session].countP fun session => offer.offerId == k && session == some (some n)) :
    Accounted host s₀
      { t with
        lookUps := t.lookUps ++ [LookUp.mk offer.offerId session]
        enqueued := t.enqueued ++ sent } waiting := by
  have moved : (t.lookUps ++ [LookUp.mk offer.offerId session]).map LookUp.offerId ++
      waiting.map OfferRecord.offerId =
        t.lookUps.map LookUp.offerId ++ (offer :: waiting).map OfferRecord.offerId := by
    simp
  refine ⟨accounted.sound, accounted.kept, ?_, ?_, ?_, ?_, ?_⟩
  · intro n k
    simp only [Task.offersOn, List.countP_append, asked]
    rw [← accounted.counted]
    simp [Task.offersOn]
  · rw [moved]
    exact accounted.distinct
  · rw [moved]
    exact accounted.used
  · intro k d created
    rw [List.map_append]
    rcases accounted.complete k d created with seen | ⟨o, member, same, ofDriver⟩
    · exact .inl (List.mem_append_left _ seen)
    · rcases List.mem_cons.mp member with rfl | later
      · exact .inl (List.mem_append_right _ (by simp [same]))
      · exact .inr ⟨o, later, same, ofDriver⟩
  · exact fun o member => accounted.created o (List.mem_cons_of_mem _ member)

theorem notifyNewOffer {offer : OfferRecord} (accounted : Accounted host s₀ t (offer :: waiting)) :
    Accounted host s₀ (t.notifyNewOffer others offer) waiting := by
  have locked : Accounted host s₀ (t.lock others) (offer :: waiting) := accounted.lock
  unfold Task.notifyNewOffer
  simp only
  split
  · have missed := locked.lookUp none [] (by simp)
    simpa using missed
  · rename_i pending found
    have ofOffer : pending.offerId = offer.offerId := by
      simpa using List.find?_some found
    have again : Accounted host s₀ ((t.lock others).lock others) (offer :: waiting) := locked.lock
    let sessions := ((t.lock others).lock others).api.sessions
    have receiver : sessions.receiver offer.driverId = sessions.senders.lookup offer.driverId :=
      again.sound.sessions.receiver_eq offer.driverId
    have sent := again.lookUp (some (sessions.senders.lookup offer.driverId))
      ((sessions.receiver offer.driverId).map fun n => (n, pending.outbound)).toList (by
        intro n k
        rw [receiver]
        cases sessions.senders.lookup offer.driverId with
        | none => simp
        | some m =>
            simp [PendingDriverOffer.outbound, DriverOutbound.isOffer, ofOffer, and_comm,
              List.countP_cons])
    exact ⟨⟨sent.sound.dispatch, sent.sound.sessions.send _ _⟩, sent.kept, sent.counted,
      sent.distinct, sent.used, sent.complete, sent.created⟩

theorem notifyNewOffers {offers : List OfferRecord} (accounted : Accounted host s₀ t offers) :
    Accounted host s₀ (t.notifyNewOffers others offers) [] := by
  unfold Task.notifyNewOffers
  induction offers generalizing t with
  | nil => exact accounted
  | cons offer rest ih => exact ih accounted.notifyNewOffer

end Accounted

end Spatiad
