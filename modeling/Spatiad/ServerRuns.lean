import Spatiad.Server
import Spatiad.ExpirySweeps
import Spatiad.EventHistory

/-! # What the workers of a server uphold

Whatever any worker does next, the engine stays sound, offers only move forward, each
session keeps its driver, and every message that waits, on an agenda or on a channel, or
that was sent, is true of the engine and concerns the driver it is for.
-/

namespace Spatiad

open Foundation Foundation.Agendas

variable {β : Type} [StorageBackend β] {host : Host}

/-! ## Offers move forward -/

/-- What may become of an offer: its status leaves pending, or it is withdrawn. -/
structure OfferRecord.Becomes (o o' : OfferRecord) : Prop where
  driverId : o'.driverId = o.driverId
  jobId : o'.jobId = o.jobId
  expiresAt : o'.expiresAt = o.expiresAt
  status : o'.status = o.status ∨ o.status = .pending ∨ o'.status = .cancelled

namespace OfferRecord.Becomes

variable {o o' o'' : OfferRecord}

theorem refl (o : OfferRecord) : o.Becomes o := ⟨rfl, rfl, rfl, .inl rfl⟩

theorem trans (first : o.Becomes o') (second : o'.Becomes o'') : o.Becomes o'' where
  driverId := second.driverId.trans first.driverId
  jobId := second.jobId.trans first.jobId
  expiresAt := second.expiresAt.trans first.expiresAt
  status := by grind [first.status, second.status]

theorem pending (becomes : o.Becomes o') (now : o'.status = .pending) : o.status = .pending := by
  grind [becomes.status]

theorem cancelled (becomes : o.Becomes o') (before : o.status = .cancelled) :
    o'.status = .cancelled := by
  grind [becomes.status]

theorem closed (becomes : o.Becomes o') {status : OfferStatus} (final : status ≠ .pending)
    (before : o.status = status ∨ o.status = .cancelled) :
    o'.status = status ∨ o'.status = .cancelled := by
  grind [becomes.status]

end OfferRecord.Becomes

theorem becomes_issued {s₀ s : Ledger} {op : Op} {cmd : Command} (issued : Issues s₀ op s cmd)
    {k : Uuid} {o : OfferRecord} (found : s.offers.lookup k = some o) :
    ∃ o', (s.apply cmd).offers.lookup k = some o' ∧ o.Becomes o' := by
  have answered : ∀ {o'}, s.offers.lookup k = some o' → o'.status = .pending →
      o.status = .pending := by
    intro o' found' pending
    obtain rfl := Option.some.inj (found.symm.trans found')
    exact pending
  by_cases creates : ∃ offer, cmd = .createOffer offer
  · obtain ⟨offer, rfl⟩ := creates
    have other : k ≠ offer.offerId := by
      rintro rfl
      rw [issued.fresh.unused] at found
      cases found
    exact ⟨o, (Ledger.lookup_createOffer s offer k).trans ((if_neg other).trans found), .refl o⟩
  · have rewrites := Ledger.lookup_apply s (fun offer same => creates ⟨offer, same⟩) k
    rw [found, Option.map_some] at rewrites
    refine ⟨_, rewrites, rfl, rfl, rfl, ?_⟩
    have change := Ledger.rewritten s cmd k o
    generalize s.newStatus cmd k o = status at change
    cases change with
    | kept => exact .inl rfl
    | withdrawn => exact .inr (.inr rfl)
    | swept pending => exact .inr (.inl pending)
    | accepted =>
        cases issued with
        | accept selected pending => exact .inr (.inl (answered selected pending))
    | rejected =>
        cases issued with
        | reject selected pending => exact .inr (.inl (answered selected pending))
    | expired =>
        cases issued with
        | expire _ selected pending => exact .inr (.inl (answered selected pending))

/-! ## Engines move forward -/

/-- No reading of a clock so far was made past this tick: a view reads it once for each
    offer it looks at. -/
def Engine.horizon (e : Engine β) : Nat := e.tick + e.offers.keys.length

/-- From `e` to `e'` the engine stayed sound, and its offers and its ticks moved on. -/
structure GoesOn (host : Host) (e e' : Engine β) : Prop where
  sound : Sound host e'
  registered : e.toLedger.Registered → e'.toLedger.Registered
  tick : e.tick ≤ e'.tick
  offers : ∀ k o, e.offers.lookup k = some o → ∃ o', e'.offers.lookup k = some o' ∧ o.Becomes o'

namespace GoesOn

variable {e e' e'' : Engine β}

omit [StorageBackend β] in
theorem of_ledger (sound : Sound host e) (ledger : e'.toLedger = e.toLedger)
    (tick : e.tick ≤ e'.tick) : GoesOn host e e' where
  sound :=
    { keyed := ledger ▸ sound.keyed
      ids := by
        intro k o found
        rw [ledger] at found
        obtain ⟨n, early, same⟩ := sound.ids k o found
        exact ⟨n, Nat.lt_of_lt_of_le early tick, same⟩ }
  registered held := ledger ▸ held
  tick := tick
  offers k o found := ⟨o, by rw [ledger, found], .refl o⟩

omit [StorageBackend β] in
theorem refl (sound : Sound host e) : GoesOn host e e := of_ledger sound rfl (Nat.le_refl _)

omit [StorageBackend β] in
theorem trans (first : GoesOn host e e') (second : GoesOn host e' e'') :
    GoesOn host e e'' where
  sound := second.sound
  registered := second.registered ∘ first.registered
  tick := first.tick.trans second.tick
  offers k o found := by
    obtain ⟨o', found', becomes⟩ := first.offers k o found
    obtain ⟨o'', found'', becomes'⟩ := second.offers k o' found'
    exact ⟨o'', found'', becomes.trans becomes'⟩

omit [StorageBackend β] in
theorem drawn (sound : Sound host e) : GoesOn host e e.drawn :=
  of_ledger sound rfl (Nat.le_succ _)

theorem snapshot (sound : Sound host e) : GoesOn host e e.createSnapshot.1 := by
  obtain ⟨ledger, tick⟩ := e.createSnapshot_frame
  exact of_ledger sound ledger (Nat.le_of_eq tick.symm)

theorem perform (sound : Sound host e) (op : Op) :
    GoesOn host e (Spatiad.perform host e op).1 := by
  have taken := serviceStep_perform host e op
  obtain ⟨log, trace⟩ := sound.trace taken
  refine ⟨sound.step taken, fun held => ?_, ?_, fun k o found => ?_⟩
  · exact sound.step_invariant taken _ held fun _ _ _ held issued => registered_issued held issued
  · apply trace.rule (P := fun e' : Engine β => e.tick ≤ e'.tick) (Nat.le_refl _)
    case drawn => exact fun _ later => Nat.le_succ_of_le later
    case logged =>
      exact fun e' cmd _ _ later => later.trans (Engine.tick_appendAndApply host e' cmd)
  · apply sound.step_invariant taken fun s => ∃ o', s.offers.lookup k = some o' ∧ o.Becomes o'
    · exact ⟨o, found, .refl o⟩
    · rintro s cmd - ⟨o', found', becomes⟩ issued
      obtain ⟨o'', found'', becomes'⟩ := becomes_issued issued found'
      exact ⟨o'', found'', becomes.trans becomes'⟩

omit [StorageBackend β] in
theorem horizon (advances : GoesOn host e e') : e.horizon ≤ e'.horizon := by
  have kept : e.offers.keys ⊆ e'.offers.keys := by
    intro k member
    obtain ⟨o, found⟩ := Option.isSome_iff_exists.mp (AList.lookup_isSome.mpr member)
    obtain ⟨o', found', _⟩ := advances.offers k o found
    exact AList.lookup_isSome.mp (Option.isSome_iff_exists.mpr ⟨o', found'⟩)
  have size := (e.offers.keys_nodup.subperm kept).length_le
  have tick := advances.tick
  unfold Engine.horizon
  omega

end GoesOn

/-! ## Messages -/

/-- The message is true of the offers and will stay so, where `won` are those that were
    accepted once; but for a match, which goes to whoever answered, its offer is one of the
    driver's. -/
def Ledger.Warrants (s : Ledger) (won : Uuid → Prop) (driverId : Uuid) : DriverOutbound → Prop
  | .offer offerId jobId _ _ expiresAt =>
      ∃ o, s.offers.lookup offerId = some o ∧ o.driverId = driverId ∧ o.jobId = jobId ∧
        o.expiresAt = expiresAt
  | .offerExpired offerId =>
      ∃ o, s.offers.lookup offerId = some o ∧ o.driverId = driverId ∧
        (o.status = .expired ∨ o.status = .cancelled)
  | .offerCancelled offerId jobId =>
      ∃ o, s.offers.lookup offerId = some o ∧ o.driverId = driverId ∧ o.jobId = jobId ∧
        o.status = .cancelled
  | .matched offerId jobId =>
      won offerId ∧ ∃ o, s.offers.lookup offerId = some o ∧ o.jobId = jobId ∧
        (o.status = .accepted ∨ o.status = .cancelled)

def Ledger.OffersBecome (s s' : Ledger) : Prop :=
  ∀ k o, s.offers.lookup k = some o → ∃ o', s'.offers.lookup k = some o' ∧ o.Becomes o'

theorem Ledger.Warrants.stable {s s' : Ledger} {won won' : Uuid → Prop}
    (become : s.OffersBecome s') (kept : ∀ k, won k → won' k) {driverId : Uuid}
    {outbound : DriverOutbound} (warranted : s.Warrants won driverId outbound) :
    s'.Warrants won' driverId outbound := by
  cases outbound with
  | offer offerId =>
      obtain ⟨o, found, own, ofJob, expiry⟩ := warranted
      obtain ⟨o', found', becomes⟩ := become offerId o found
      exact ⟨o', found', becomes.driverId.trans own, becomes.jobId.trans ofJob,
        becomes.expiresAt.trans expiry⟩
  | offerExpired offerId =>
      obtain ⟨o, found, own, status⟩ := warranted
      obtain ⟨o', found', becomes⟩ := become offerId o found
      exact ⟨o', found', becomes.driverId.trans own,
        becomes.closed OfferStatus.noConfusion status⟩
  | offerCancelled offerId =>
      obtain ⟨o, found, own, ofJob, status⟩ := warranted
      obtain ⟨o', found', becomes⟩ := become offerId o found
      exact ⟨o', found', becomes.driverId.trans own, becomes.jobId.trans ofJob,
        becomes.cancelled status⟩
  | matched offerId =>
      obtain ⟨once, o, found, ofJob, status⟩ := warranted
      obtain ⟨o', found', becomes⟩ := become offerId o found
      exact ⟨kept offerId once, o', found', becomes.jobId.trans ofJob,
        becomes.closed OfferStatus.noConfusion status⟩

theorem Ledger.Warrants.imp {s : Ledger} {won won' : Uuid → Prop} (kept : ∀ k, won k → won' k)
    {driverId : Uuid} {outbound : DriverOutbound} (warranted : s.Warrants won driverId outbound) :
    s.Warrants won' driverId outbound :=
  warranted.stable (fun _ o found => ⟨o, found, .refl o⟩) kept

section views

variable {e : Engine β}

omit [StorageBackend β] in
theorem mem_pendingOffersForDriver (keyed : e.toLedger.Keyed) {driverId : Uuid}
    {pending : PendingDriverOffer} (member : pending ∈ e.pendingOffersForDriver host driverId) :
    ∃ o, e.offers.lookup pending.offerId = some o ∧ o.driverId = driverId ∧
      o.status = .pending ∧ pending.jobId = o.jobId ∧ pending.expiresAt = o.expiresAt := by
  unfold Engine.pendingOffersForDriver at member
  obtain ⟨⟨o, i⟩, indexed, shown⟩ := List.mem_filterMap.mp member
  obtain ⟨k, found⟩ := (HashMap.mem_iter (host.order_perm e.tick)).mp
    (List.fst_mem_of_mem_zipIdx indexed)
  simp only [Option.ite_none_right_eq_some, Bool.and_eq_true, beq_iff_eq, Option.map_eq_some_iff]
    at shown
  obtain ⟨⟨⟨own, isPending⟩, _⟩, _, _, rfl⟩ := shown
  exact ⟨o, keyed k o found ▸ found, own, isPending, rfl, rfl⟩

omit [StorageBackend β] in
theorem mem_cancelledOffersForJob (keyed : e.toLedger.Keyed) {jobId : Uuid}
    {item : CancelledDriverOffer} (member : item ∈ e.cancelledOffersForJob host jobId) :
    ∃ o, e.offers.lookup item.offerId = some o ∧ o.driverId = item.driverId ∧ o.jobId = jobId ∧
      o.status = .cancelled := by
  unfold Engine.cancelledOffersForJob at member
  obtain ⟨o, listed, rfl⟩ := List.mem_map.mp member
  obtain ⟨inMap, meets⟩ := List.mem_filter.mp listed
  obtain ⟨k, found⟩ := (HashMap.mem_iter (host.order_perm e.tick)).mp inMap
  simp only [Bool.and_eq_true, beq_iff_eq] at meets
  exact ⟨o, keyed k o found ▸ found, rfl, meets.1, meets.2⟩

omit [StorageBackend β] in
theorem PendingDriverOffer.warranted (keyed : e.toLedger.Keyed) {driverId : Uuid}
    {pending : PendingDriverOffer} (member : pending ∈ e.pendingOffersForDriver host driverId)
    (won : Uuid → Prop) : e.toLedger.Warrants won driverId pending.outbound := by
  obtain ⟨o, found, own, _, ofJob, expiry⟩ := mem_pendingOffersForDriver keyed member
  exact ⟨o, found, own, ofJob.symm, expiry.symm⟩

end views

/-! ## What holds of the shared state -/

namespace Hub

variable (s : Hub β)

def Speaks (n : Nat) (driverId : Uuid) : Prop :=
  ∃ session : Session, s.api.sessions.opened[n]? = some session ∧ session.driverId = driverId

def Warrants (driverId : Uuid) (outbound : DriverOutbound) : Prop :=
  s.api.dispatch.toLedger.Warrants (· ∈ s.won) driverId outbound

def Shows (n : Nat) (outbound : DriverOutbound) : Prop :=
  ∃ driverId, s.Speaks n driverId ∧ s.Warrants driverId outbound

structure Coherent (host : Host) (s : Hub β) : Prop where
  sound : s.api.Sound host
  registered : s.api.dispatch.toLedger.Registered
  queued : ∀ (n : Nat) (session : Session), s.api.sessions.opened[n]? = some session →
    ∀ outbound ∈ session.queue, s.Warrants session.driverId outbound
  sent : ∀ n outbound, (n, .text outbound) ∈ s.sent → s.Shows n outbound

/-- The state moved on from `s` to `s'`, and is coherent there. -/
structure Moves (host : Host) (s s' : Hub β) : Prop where
  coherent : Coherent host s'
  advances : GoesOn host s.api.dispatch s'.api.dispatch
  speaks : ∀ n driverId, s.Speaks n driverId → s'.Speaks n driverId
  won : s.won ⊆ s'.won

namespace Moves

variable {s : Hub β} {s' s'' : Hub β}

omit [StorageBackend β] in
theorem refl (coherent : Coherent host s) : Moves host s s :=
  ⟨coherent, .refl coherent.sound.dispatch, fun _ _ speaks => speaks, List.Subset.refl _⟩

omit [StorageBackend β] in
theorem trans (first : Moves host s s') (second : Moves host s' s'') : Moves host s s'' where
  coherent := second.coherent
  advances := first.advances.trans second.advances
  speaks n driverId speaks := second.speaks n driverId (first.speaks n driverId speaks)
  won := List.Subset.trans first.won second.won

omit [StorageBackend β] in
theorem warrants (moves : Moves host s s') {driverId : Uuid} {outbound : DriverOutbound}
    (warranted : s.Warrants driverId outbound) : s'.Warrants driverId outbound :=
  warranted.stable moves.advances.offers fun _ once => moves.won once

omit [StorageBackend β] in
theorem shows (moves : Moves host s s') {n : Nat} {outbound : DriverOutbound}
    (shown : s.Shows n outbound) : s'.Shows n outbound := by
  obtain ⟨driverId, speaks, warranted⟩ := shown
  exact ⟨driverId, moves.speaks n driverId speaks, moves.warrants warranted⟩

omit [StorageBackend β] in
theorem withDispatch (coherent : Coherent host s) {dispatch : DispatchService β}
    (advances : GoesOn host s.api.dispatch dispatch) :
    Moves host s (s.withDispatch dispatch) where
  coherent :=
    { sound := ⟨advances.sound, coherent.sound.sessions⟩
      registered := advances.registered coherent.registered
      queued := fun n session found outbound waits =>
        (coherent.queued n session found outbound waits).stable advances.offers fun _ once => once
      sent := by
        intro n outbound member
        obtain ⟨driverId, speaks, warranted⟩ := coherent.sent n outbound member
        exact ⟨driverId, speaks, warranted.stable advances.offers fun _ once => once⟩ }
  advances := advances
  speaks _ _ speaks := speaks
  won := List.Subset.refl _

omit [StorageBackend β] in
theorem of_noted (coherent : Coherent host s) (api : s'.api = s.api) (sent : s'.sent = s.sent)
    (won : s.won ⊆ s'.won) : Moves host s s' := by
  have warrants : ∀ driverId outbound, s.Warrants driverId outbound →
      s'.Warrants driverId outbound := by
    intro driverId outbound warranted
    unfold Warrants
    rw [api]
    exact warranted.imp fun _ once => won once
  have speaks : ∀ n driverId, s.Speaks n driverId → s'.Speaks n driverId := by
    intro n driverId spoke
    unfold Speaks
    rwa [api]
  have advances : GoesOn host s.api.dispatch s'.api.dispatch := by
    rw [api]
    exact .refl coherent.sound.dispatch
  refine ⟨⟨api ▸ coherent.sound, api ▸ coherent.registered, ?_, ?_⟩, advances, speaks, won⟩
  · intro n session found outbound waits
    rw [api] at found
    exact warrants _ _ (coherent.queued n session found outbound waits)
  · intro n outbound member
    rw [sent] at member
    obtain ⟨driverId, spoke, warranted⟩ := coherent.sent n outbound member
    exact ⟨driverId, speaks n driverId spoke, warrants driverId outbound warranted⟩

omit [StorageBackend β] in
theorem create (coherent : Coherent host s) (offers : List OfferRecord) :
    Moves host s (s.create offers) :=
  of_noted coherent rfl rfl (List.Subset.refl _)

omit [StorageBackend β] in
theorem win (coherent : Coherent host s) (matched : Option MatchResult) :
    Moves host s (s.win matched) :=
  of_noted coherent rfl rfl (List.subset_append_left _ _)

omit [StorageBackend β] in
theorem forget (coherent : Coherent host s) (offerIds : List Uuid) :
    Moves host s (s.forget offerIds) :=
  of_noted coherent rfl rfl (List.Subset.refl _)

omit [StorageBackend β] in
theorem withSessions (coherent : Coherent host s) {sessions : Sessions} (wired : sessions.Wired)
    (kept : ∀ (n : Nat) (session : Session), s.api.sessions.opened[n]? = some session →
      ∃ session', sessions.opened[n]? = some session' ∧ session'.driverId = session.driverId)
    (queued : ∀ (n : Nat) (session : Session), sessions.opened[n]? = some session →
      ∀ outbound ∈ session.queue, s.Warrants session.driverId outbound) :
    Moves host s (s.withSessions sessions) := by
  have speaks : ∀ n driverId, s.Speaks n driverId →
      (s.withSessions sessions).Speaks n driverId := by
    rintro n driverId ⟨session, found, rfl⟩
    exact kept n session found
  refine ⟨⟨⟨coherent.sound.dispatch, wired⟩, coherent.registered, queued, ?_⟩,
    .refl coherent.sound.dispatch, speaks, List.Subset.refl _⟩
  intro n outbound member
  obtain ⟨driverId, spoke, warranted⟩ := coherent.sent n outbound member
  exact ⟨driverId, speaks n driverId spoke, warranted⟩

omit [StorageBackend β] in
/-- One session is changed, which adds nothing to its channel that may not be there. -/
theorem update (coherent : Coherent host s) {sessions : Sessions} (wired : sessions.Wired) (n : Nat)
    (change : Session → Session)
    (opened : sessions.opened = (s.api.sessions.update n change).opened)
    (sameDriver : ∀ session, (change session).driverId = session.driverId)
    (queued : ∀ session, s.api.sessions.opened[n]? = some session →
      ∀ outbound ∈ (change session).queue, outbound ∈ session.queue ∨
        s.Warrants session.driverId outbound) :
    Moves host s (s.withSessions sessions) := by
  have lookup : ∀ m, sessions.opened[m]? = (s.api.sessions.opened[m]?).map fun session =>
      if n = m then change session else session := by
    intro m
    rw [opened, Sessions.getElem_update]
  apply withSessions coherent wired
  · intro m session found
    refine ⟨_, by rw [lookup, found, Option.map_some], ?_⟩
    split
    · exact sameDriver session
    · rfl
  · intro m session' found outbound waits
    rw [lookup, Option.map_eq_some_iff] at found
    obtain ⟨session, before, rfl⟩ := found
    by_cases here : n = m
    · subst here
      simp only [if_true, sameDriver] at waits ⊢
      cases queued session before outbound waits with
      | inl old => exact coherent.queued n session before outbound old
      | inr warranted => exact warranted
    · simp only [here, if_false] at waits ⊢
      exact coherent.queued m session before outbound waits

omit [StorageBackend β] in
theorem leave (coherent : Coherent host s) (n : Nat) :
    Moves host s (s.withSessions (s.api.sessions.leave n)) := by
  apply update coherent _ n _ rfl
  · exact fun _ => rfl
  · exact fun _ _ _ old => .inl old
  · exact coherent.sound.sessions.update n (fun _ => rfl) fun _ _ _ => Stage.noConfusion

omit [StorageBackend β] in
theorem send (coherent : Coherent host s) {driverId : Uuid} {outbound : DriverOutbound}
    (warranted : s.Warrants driverId outbound) :
    Moves host s (s.withSessions (s.api.sessions.send driverId outbound)) := by
  have wired := coherent.sound.sessions.send driverId outbound
  cases registered : s.api.sessions.senders.lookup driverId with
  | none =>
      have same : s.api.sessions.send driverId outbound = s.api.sessions := by
        simp [Sessions.send, registered]
      rw [same]
      exact .refl coherent
  | some n =>
      have same : s.api.sessions.send driverId outbound =
          s.api.sessions.update n (Session.enqueue outbound) := by
        simp [Sessions.send, registered]
      obtain ⟨own, found, ofDriver, _⟩ := coherent.sound.sessions driverId n registered
      apply update coherent wired n (Session.enqueue outbound) (congrArg Sessions.opened same)
      · exact Session.enqueue_driverId outbound
      · intro session here waiting member
        obtain rfl := Option.some.inj (here.symm.trans found)
        unfold Session.enqueue at member
        split at member
        · exact .inl member
        · cases List.mem_append.mp member with
          | inl old => exact .inl old
          | inr new =>
              obtain rfl := List.mem_singleton.mp new
              exact .inr (ofDriver ▸ warranted)

omit [StorageBackend β] in
theorem sendAll (coherent : Coherent host s) (messages : List (Uuid × DriverOutbound))
    (warranted : ∀ message ∈ messages, s.Warrants message.1 message.2) :
    Moves host s (s.withSessions (messages.foldl (fun sessions message =>
      sessions.send message.1 message.2) s.api.sessions)) := by
  induction messages generalizing s with
  | nil => exact .refl coherent
  | cons message rest ih =>
      have first := send coherent (warranted message List.mem_cons_self)
      exact first.trans (ih first.coherent fun other member =>
        warranted other (List.mem_cons_of_mem message member))

end Moves

end Hub

/-! ## What holds of every action -/

def Op.Creating : Op → Prop
  | .submitJob _ | .expirePendingOffersForDriver _ | .expirePendingOffersGlobal
  | .handleOfferResponse _ _ => True
  | _ => False

/-- What an action on the agenda of worker `i` relies on. -/
def Action.Ok (host : Host) (i : Worker) (s : Hub β) : Action → Prop
  | .sweep n driverId | .replay n driverId => i = .session n ∧ s.Speaks n driverId
  | .sendFrame n frame =>
      i = .session n ∧ ∀ outbound, frame = .text outbound → s.Shows n outbound
  | .lookUp offer =>
      ∃ o, s.api.dispatch.offers.lookup offer.offerId = some o ∧ o.driverId = offer.driverId
  | .send driverId outbound => s.Warrants driverId outbound
  | .answer n _ _ => i = .session n ∧ ∃ driverId, s.Speaks n driverId
  | .leave n => i = .session n
  | .sendAll messages => ∀ message ∈ messages, s.Warrants message.1 message.2
  | .run op => ¬ op.Creating
  | .submit payload => payload.validate host = .ok ()
  | .limit _ _ => ∃ k, i = .handler k
  | .lookUpCancelled _ | .webhook _ | .sweepAll | .snapshot => True

namespace Action

variable {s s' : Hub β} {i : Worker} {a : Action}

omit [StorageBackend β] in
theorem Ok.stable (moves : Hub.Moves host s s') (ok : a.Ok host i s) : a.Ok host i s' := by
  cases a with
  | sweep n driverId | replay n driverId => exact ⟨ok.1, moves.speaks n driverId ok.2⟩
  | sendFrame n frame => exact ⟨ok.1, fun outbound same => moves.shows (ok.2 outbound same)⟩
  | lookUp offer =>
      obtain ⟨o, found, own⟩ := ok
      obtain ⟨o', found', becomes⟩ := moves.advances.offers offer.offerId o found
      exact ⟨o', found', becomes.driverId.trans own⟩
  | answer n =>
      obtain ⟨own, driverId, speaks⟩ := ok
      exact ⟨own, driverId, moves.speaks n driverId speaks⟩
  | send => exact moves.warrants ok
  | sendAll => exact fun message member => moves.warrants (ok message member)
  | _ => exact ok

omit [StorageBackend β] in
theorem ok_notices {e e' : Engine β} {new : List OfferRecord} (created : Creates host e e' new)
    (now : s.api.dispatch = e') (member : a ∈ notices new) : a.Ok host i s := by
  obtain ⟨offer, listed, rfl⟩ := List.mem_map.mp member
  obtain ⟨o', found, own⟩ := created.stored offer listed
  exact ⟨o', now ▸ found, own⟩

theorem swept_expired {e : Engine β} (sound : Sound host e) (p : OfferRecord → Bool)
    {item : ExpiredOffer} (reported : item ∈ (sweepOver host p e).2.expired) :
    ∃ o, (sweepOver host p e).1.offers.lookup item.offerId = some { o with status := .expired } ∧
      o.driverId = item.driverId ∧ p o = true := by
  have sweep := sweepOver_exact sound p
  obtain ⟨k, o, due, rfl⟩ := (sweep.reported item).mp reported
  exact ⟨o, sweep.expired k o due, rfl, due.2.1⟩

theorem match_accepted {e e' : DispatchService β} {offerId : Uuid} {accepted : Bool}
    {update : OfferResponseUpdate} {result : MatchResult}
    (response : Response host e offerId accepted e' (.ok update))
    (matched : update.matched = some result) :
    ∃ o, e.offers.lookup result.offerId = some o ∧ o.driverId = result.driverId ∧
      o.jobId = result.jobId ∧ o.status = .pending ∧
      e'.offers.lookup result.offerId = some { o with status := .accepted } := by
  cases response with
  | rejected => cases matched
  | @accepted o _ found pending inTime state =>
      obtain rfl := Option.some.inj matched
      subst state
      let acceptance := Command.acceptOffer offerId (host.clock e.drawn.tick)
      have rewrites := @Ledger.lookup_apply e.toLedger acceptance
        (fun _ => Command.noConfusion) offerId
      refine ⟨o, found, rfl, rfl, pending, ?_⟩
      show (e.drawn.drawn.appendAndApply host acceptance).toLedger.offers.lookup offerId = _
      rw [Engine.appendAndApply_toLedger]
      refine rewrites.trans ?_
      rw [found, Option.map_some]
      simp [Ledger.newStatus, acceptance]

end Action

namespace Hub

/-- An action that is taken moves the state on, to one in which all it puts on the agenda
    may be taken. -/
def Taken (host : Host) (i : Worker) (s : Hub β) (result : Hub β × Option (List Action)) : Prop :=
  Moves host s result.1 ∧ ∀ more, result.2 = some more → ∀ a ∈ more, a.Ok host i result.1

variable {s : Hub β} {i : Worker}

omit [StorageBackend β] in
theorem taken_last {s' : Hub β} (moves : Moves host s s') : Taken host i s (s', some []) := by
  refine ⟨moves, ?_⟩
  rintro more ⟨⟩ a member
  cases member

omit [StorageBackend β] in
theorem taken_leave {s' : Hub β} (moves : Moves host s s') (n : Nat) :
    Taken host i s (s'.leave n) := by
  refine ⟨moves.trans (.leave moves.coherent n), ?_⟩
  rintro more ⟨⟩

section taken

variable (coherent : Coherent host s)

include coherent

theorem taken_sweep {n : Nat} {driverId : Uuid} (own : i = .session n)
    (speaks : s.Speaks n driverId) (ok : Bool) :
    Taken host i s ((Action.sweep n driverId).take host ok s) := by
  let e := s.api.dispatch
  let sweep := DispatchService.expirePendingOffersForDriver host e driverId
  have sound : Sound host e := coherent.sound.dispatch
  have moves : Moves host s (s.withDispatch sweep.1) :=
    .withDispatch coherent (.perform sound (.expirePendingOffersForDriver driverId))
  refine ⟨moves.trans (.create moves.coherent sweep.2.newOffers), ?_⟩
  rintro more ⟨⟩ a member
  cases List.mem_append.mp member with
  | inl notice =>
      obtain ⟨item, reported, rfl⟩ := List.mem_map.mp notice
      refine ⟨own, ?_⟩
      rintro outbound ⟨⟩
      obtain ⟨o, found, _, ofDriver⟩ := Action.swept_expired sound _ reported
      exact ⟨driverId, speaks, _, found, by simpa using ofDriver, .inl rfl⟩
  | inr new =>
      have created := @expirePendingOffersForDriver_creates β _ host e sound.ids driverId
      exact Action.ok_notices created rfl new

theorem taken_replay {n : Nat} {driverId : Uuid} (own : i = .session n)
    (speaks : s.Speaks n driverId) (ok : Bool) :
    Taken host i s ((Action.replay n driverId).take host ok s) := by
  refine ⟨.refl coherent, ?_⟩
  rintro more ⟨⟩ a member
  obtain ⟨pending, shown, rfl⟩ := List.mem_map.mp member
  refine ⟨own, ?_⟩
  rintro outbound ⟨⟩
  exact ⟨driverId, speaks, PendingDriverOffer.warranted coherent.sound.dispatch.keyed shown _⟩

theorem taken_sendFrame {n : Nat} {frame : Frame}
    (shows : ∀ outbound, frame = .text outbound → s.Shows n outbound) (ok : Bool) :
    Taken host i s ((Action.sendFrame n frame).take host ok s) := by
  unfold Action.take
  cases ok with
  | false => exact taken_leave (.refl coherent) n
  | true =>
      apply taken_last
      refine ⟨⟨coherent.sound, coherent.registered, coherent.queued, ?_⟩,
        .refl coherent.sound.dispatch, fun _ _ speaks => speaks, List.Subset.refl _⟩
      intro m outbound member
      cases List.mem_append.mp member with
      | inl old => exact coherent.sent m outbound old
      | inr new =>
          obtain ⟨rfl, same⟩ := Prod.mk.inj (List.mem_singleton.mp new)
          exact shows outbound same.symm

theorem taken_lookUp (offer : OfferRecord) (ok : Bool) :
    Taken host i s ((Action.lookUp offer).take host ok s) := by
  refine ⟨.refl coherent, ?_⟩
  rintro more ⟨⟩ a member
  obtain ⟨pending, found, rfl⟩ := Option.map_eq_some_iff.mp (Option.mem_toList.mp member)
  have view := List.mem_of_find?_eq_some found
  exact PendingDriverOffer.warranted coherent.sound.dispatch.keyed view (· ∈ s.won)

theorem taken_answer {n : Nat} (own : i = .session n) (speaks : ∃ driverId, s.Speaks n driverId)
    (offerId : Uuid) (accepted ok : Bool) :
    Taken host i s ((Action.answer n offerId accepted).take host ok s) := by
  let e := s.api.dispatch
  have sound : Sound host e := coherent.sound.dispatch
  have moves : Moves host s (s.withDispatch
      (DispatchService.handleOfferResponse host e offerId accepted).1) :=
    .withDispatch coherent (.perform sound (.handleOfferResponse offerId accepted))
  have created := @handleOfferResponse_creates β _ host e sound.ids offerId accepted
  have response := handleOfferResponse_response host e offerId accepted
  simp only [Action.take]
  generalize DispatchService.handleOfferResponse host s.api.dispatch offerId accepted = result
    at moves created response ⊢
  obtain ⟨e', reply⟩ := result
  cases reply with
  | error => exact taken_leave moves n
  | ok update =>
      have creates := moves.trans (.create moves.coherent update.newOffers)
      refine ⟨creates.trans (.win creates.coherent update.matched), ?_⟩
      rintro more ⟨⟩ a member
      cases List.mem_append.mp member with
      | inl new => exact Action.ok_notices created rfl new
      | inr told =>
          cases matched : update.matched with
          | none =>
              rw [matched] at told
              cases told
          | some result =>
              obtain ⟨o, _, _, ofJob, _, won⟩ := Action.match_accepted response matched
              rw [matched] at told
              simp only [Option.elim_some, announcement, List.mem_cons, List.not_mem_nil, or_false]
                at told
              rcases told with rfl | rfl | rfl
              · refine ⟨own, ?_⟩
                rintro outbound ⟨⟩
                obtain ⟨driverId, speaks⟩ := speaks
                have once : result.offerId ∈ s.won ++ [result.offerId] :=
                  List.mem_append_right _ (List.mem_singleton_self _)
                refine ⟨driverId, speaks, ?_, _, won, ofJob, .inl rfl⟩
                show result.offerId ∈ s.won ++ (update.matched.map MatchResult.offerId).toList
                rw [matched]
                exact once
              · trivial
              · trivial

theorem taken_lookUpCancelled (jobId : Uuid) (ok : Bool) :
    Taken host i s ((Action.lookUpCancelled jobId).take host ok s) := by
  simp only [Action.take]
  split
  · exact taken_last (.refl coherent)
  · refine ⟨.refl coherent, ?_⟩
    rintro more ⟨⟩ a member
    obtain rfl := List.mem_singleton.mp member
    intro message listed
    obtain ⟨item, cancelled, rfl⟩ := List.mem_map.mp listed
    exact mem_cancelledOffersForJob coherent.sound.dispatch.keyed cancelled

theorem taken_sweepAll (ok : Bool) : Taken host i s (Action.sweepAll.take host ok s) := by
  let e := s.api.dispatch
  let sweep := DispatchService.expirePendingOffersGlobal host e
  have sound : Sound host e := coherent.sound.dispatch
  have moves : Moves host s (s.withDispatch sweep.1) :=
    .withDispatch coherent (.perform sound .expirePendingOffersGlobal)
  have creates := moves.trans (.create moves.coherent sweep.2.newOffers)
  simp only [Action.take]
  split
  · exact taken_last creates
  · refine ⟨creates, ?_⟩
    rintro more ⟨⟩ a member
    cases List.mem_cons.mp member with
    | inl told =>
        subst told
        intro message listed
        obtain ⟨item, reported, rfl⟩ := List.mem_map.mp listed
        obtain ⟨o, found, own, _⟩ := Action.swept_expired sound _ reported
        exact ⟨_, found, own, .inl rfl⟩
    | inr new => exact Action.ok_notices (expirePendingOffersGlobal_creates sound.ids) rfl new

/-- Whatever action is taken, if what it relies on holds. -/
theorem taken {a : Action} (relies : a.Ok host i s) (ok : Bool) :
    Taken host i s (a.take host ok s) := by
  have sound : Sound host s.api.dispatch := coherent.sound.dispatch
  cases a with
  | sweep => exact taken_sweep coherent relies.1 relies.2 ok
  | replay => exact taken_replay coherent relies.1 relies.2 ok
  | sendFrame => exact taken_sendFrame coherent relies.2 ok
  | lookUp offer => exact taken_lookUp coherent offer ok
  | send => exact taken_last (.send coherent relies)
  | answer n offerId accepted => exact taken_answer coherent relies.1 relies.2 offerId accepted ok
  | lookUpCancelled jobId => exact taken_lookUpCancelled coherent jobId ok
  | sendAll messages => exact taken_last (.sendAll coherent messages relies)
  | webhook result =>
      simp only [Action.take]
      split
      · exact taken_last (.refl coherent)
      · refine ⟨.refl coherent, ?_⟩
        rintro more ⟨⟩ a member
        obtain rfl := List.mem_singleton.mp member
        exact id
  | run op => exact taken_last (.withDispatch coherent (.perform sound op))
  | limit headers endpoint =>
      have drawn : Moves host s (s.withDispatch s.api.dispatch.drawn) :=
        .withDispatch coherent (.drawn sound)
      have drawnSound := drawn.coherent.sound
      refine ⟨⟨⟨⟨drawnSound.dispatch, drawnSound.sessions⟩, drawn.coherent.registered,
        drawn.coherent.queued, drawn.coherent.sent⟩, drawn.advances, drawn.speaks, drawn.won⟩, ?_⟩
      intro more left a member
      simp only [Action.take] at left
      split at left
      · cases left
        cases member
      · cases left
  | submit payload =>
      let job := payload.job (host.clock s.api.dispatch.tick)
      have drawn : GoesOn host s.api.dispatch s.api.dispatch.drawn := .drawn sound
      have moves : Moves host s (s.withDispatch
          (DispatchService.submitJob host s.api.dispatch.drawn job).1) :=
        .withDispatch coherent (drawn.trans (.perform drawn.sound (.submitJob job)))
      have creates := moves.trans (.create moves.coherent (submitted
        (DispatchService.submitJob host s.api.dispatch.drawn job).2))
      exact taken_last (creates.trans (.forget creates.coherent _))
  | sweepAll => exact taken_sweepAll coherent ok
  | snapshot => exact taken_last (.withDispatch coherent (.snapshot sound))
  | leave n => exact taken_leave (.refl coherent) n

end taken

end Hub

/-! ## Agendas that begin -/

section begins

variable {s s' : Hub β} {i : Worker} {agenda : List Action}

omit [StorageBackend β] in
theorem Request.ok_agenda {request : Request} {n : Nat}
    (handler : request.driver = none → ∃ k, i = .handler k)
    (session : ∀ driverId, request.driver = some driverId → i = .session n ∧ s.Speaks n driverId)
    {a : Action} (member : a ∈ request.agenda host s.api n) : a.Ok host i s := by
  cases request with
  | upsertDriver headers payload =>
      simp only [agenda] at member
      split at member
      · cases member
      · split at member
        · cases member
        · rcases List.mem_pair.mp member with rfl | rfl
          · exact handler rfl
          · exact id
  | dispatchOffer headers payload =>
      simp only [agenda] at member
      split at member
      · cases member
      · split at member
        · cases member
        · rename_i valid
          rcases List.mem_pair.mp member with rfl | rfl
          · exact handler rfl
          · exact valid
  | cancelOffer | cancelJob =>
      simp only [agenda] at member
      split at member
      · cases member
      · rcases List.mem_pair.mp member with rfl | rfl
        · exact handler rfl
        · exact id
  | dispatchJobStatus | dispatchJobEvents =>
      simp only [agenda] at member
      split at member
      · cases member
      · obtain rfl := List.mem_singleton.mp member
        exact handler rfl
  | probe => cases member
  | flush driverId =>
      obtain rfl := List.mem_singleton.mp member
      exact session driverId rfl
  | expireGlobally =>
      obtain rfl := List.mem_singleton.mp member
      trivial
  | expireStaleDrivers =>
      obtain rfl := List.mem_singleton.mp member
      exact id
  | driverMessage driverId message =>
      obtain ⟨own, speaks⟩ := session driverId rfl
      cases message with
      | close =>
          obtain rfl := List.mem_singleton.mp member
          exact own
      | ping =>
          obtain rfl := List.mem_singleton.mp member
          exact ⟨own, fun outbound same => Frame.noConfusion same⟩
      | binary | pong => cases member
      | text inbound =>
          cases inbound with
          | none =>
              obtain rfl := List.mem_singleton.mp member
              exact own
          | some inbound =>
              cases inbound with
              | location =>
                  obtain rfl := List.mem_singleton.mp member
                  exact id
              | offerResponse =>
                  rcases List.mem_pair.mp member with rfl | rfl
                  · exact ⟨own, speaks⟩
                  · exact ⟨own, driverId, speaks⟩

omit [StorageBackend β] in
theorem Sessions.found_register {sessions : Sessions} {driverId : Uuid} {n : Nat}
    {session : Session} (found : (sessions.register driverId).opened[n]? = some session) :
    sessions.opened[n]? = some session ∨
      n = sessions.opened.length ∧ session = ⟨driverId, .running, []⟩ := by
  by_cases old : n < sessions.opened.length
  · exact .inl ((List.getElem?_append_left old).symm.trans found)
  · have there := (List.getElem?_eq_some_iff.mp found).1
    simp only [register, List.length_append, List.length_singleton] at there
    obtain rfl : n = sessions.opened.length := by omega
    have last : (sessions.register driverId).opened[sessions.opened.length]? =
        some ⟨driverId, .running, []⟩ := by
      simp [register]
    exact .inr ⟨rfl, Option.some.inj (found.symm.trans last)⟩

omit [StorageBackend β] in
theorem begins_ok (coherent : Hub.Coherent host s) (begun : begins host i s s' agenda) :
    Hub.Moves host s s' ∧ ∀ a ∈ agenda, a.Ok host i s' := by
  cases begun with
  | @request k _ request http =>
      refine ⟨.refl coherent, fun a member => Request.ok_agenda (fun _ => ⟨k, rfl⟩) ?_ member⟩
      intro driverId isMessage
      rw [http] at isMessage
      cases isMessage
  | snapshot =>
      refine ⟨.refl coherent, fun a member => ?_⟩
      obtain rfl := List.mem_singleton.mp member
      trivial
  | @opens _ driverId =>
      let sessions := s.api.sessions.register driverId
      have kept : ∀ (n : Nat) (session : Session), s.api.sessions.opened[n]? = some session →
          ∃ session', sessions.opened[n]? = some session' ∧
            session'.driverId = session.driverId := by
        intro n session found
        have old : n < s.api.sessions.opened.length := (List.getElem?_eq_some_iff.mp found).1
        exact ⟨session, (List.getElem?_append_left old).trans found, rfl⟩
      have moves : Hub.Moves host s (s.withSessions sessions) := by
        apply Hub.Moves.withSessions coherent (coherent.sound.sessions.step .register) kept
        intro n session found outbound waits
        cases Sessions.found_register found with
        | inl old => exact coherent.queued n session old outbound waits
        | inr new =>
            obtain ⟨_, rfl⟩ := new
            cases waits
      have speaks : (s.withSessions sessions).Speaks s.api.sessions.opened.length driverId :=
        ⟨⟨driverId, .running, []⟩, by simp [Hub.withSessions, sessions, Sessions.register], rfl⟩
      refine ⟨moves, fun a member => ?_⟩
      rcases List.mem_pair.mp member with rfl | rfl
      · exact ⟨rfl, speaks⟩
      · exact ⟨rfl, speaks⟩
  | @wakes n _ session request found running own =>
      refine ⟨.refl coherent, fun a member => Request.ok_agenda ?_ ?_ member⟩
      · intro http
        rw [http] at own
        cases own
      · intro driverId isMessage
        rw [own] at isMessage
        obtain rfl := Option.some.inj isMessage
        exact ⟨rfl, session, found, rfl⟩
  | @receives n _ session outbound rest found running waiting =>
      have warranted := coherent.queued n session found outbound (waiting ▸ List.mem_cons_self)
      have moves : Hub.Moves host s (s.withSessions (s.api.sessions.receive n)) := by
        apply Hub.Moves.update coherent _ n _ rfl
        · exact fun _ => rfl
        · exact fun session _ outbound left => .inl (List.mem_of_mem_tail left)
        · exact coherent.sound.sessions.update n (fun _ => rfl) fun _ _ open_ => open_
      refine ⟨moves, fun a member => ?_⟩
      obtain rfl := List.mem_singleton.mp member
      refine ⟨rfl, ?_⟩
      rintro _ ⟨⟩
      exact moves.shows ⟨session.driverId, ⟨session, found, rfl⟩, warranted⟩
  | @stops n _ event sessions taken ends =>
      have wired := coherent.sound.sessions.step taken
      refine ⟨?_, fun a member => by cases member⟩
      rcases ends with rfl | rfl | rfl
      · cases taken
        exact .leave coherent n
      · cases taken
        exact .leave coherent n
      · cases taken
        apply Hub.Moves.update coherent wired n _ rfl
        · exact fun _ => rfl
        · exact fun _ _ _ old => .inl old

end begins

/-! ## Servers -/

theorem server_upholds :
    (server host : Workers (Hub β) Worker Action).Upholds (Hub.Moves host) (Hub.Coherent host)
      fun i a s => a.Ok host i s where
  stable _ _ _ _ moves ok := ok.stable moves
  begins i s s' agenda coherent begun := by
    obtain ⟨moves, ok⟩ := begins_ok coherent begun
    exact ⟨moves, moves.coherent, ok⟩
  takes := by
    rintro i a rest s s' agenda coherent relies ⟨ok, taken⟩
    obtain ⟨moves, follows⟩ := Hub.taken coherent relies ok
    generalize a.take host ok s = result at taken moves follows
    obtain ⟨s₁, more⟩ := result
    cases more with
    | some more =>
        obtain ⟨rfl, rfl⟩ := Prod.mk.inj taken
        refine ⟨moves, moves.coherent, fun b member => ?_⟩
        cases List.mem_append.mp member with
        | inl new => exact .inr (follows more rfl b new)
        | inr left => exact .inl left
    | none =>
        obtain ⟨rfl, rfl⟩ := Prod.mk.inj taken
        have forgets := moves.trans (.forget moves.coherent (rest.filterMap Action.tells))
        exact ⟨forgets, forgets.coherent, fun b member => by cases member⟩

omit [StorageBackend β] in
theorem server_start {api : ApiState β} (sound : Sound host api.dispatch)
    (registered : api.dispatch.toLedger.Registered) :
    Workers.Upheld (Hub.Coherent host) (fun i a s => a.Ok host i s) (Server.start api) where
  shared :=
    { sound := ⟨sound, Sessions.wired_empty⟩
      registered := registered
      queued := by
        intro n session found
        cases found
      sent := by
        intro n outbound member
        cases member }
  agenda := by
    intro i a member
    cases member

/-! ## Offers that have won -/

theorem Hub.take_won {s : Hub β} (a : Action) (ok : Bool) {k : Uuid}
    (won : k ∈ (a.take host ok s).1.won) :
    k ∈ s.won ∨ ∃ o, (a.take host ok s).1.api.dispatch.offers.lookup k = some o ∧
      o.status = .accepted := by
  cases a with
  | answer n offerId accepted =>
      have response := handleOfferResponse_response host s.api.dispatch offerId accepted
      simp only [Action.take] at won ⊢
      generalize DispatchService.handleOfferResponse host s.api.dispatch offerId accepted = result
        at response won ⊢
      obtain ⟨e', _ | update⟩ := result
      · exact .inl won
      · refine (List.mem_append.mp won).imp_right fun new => ?_
        obtain ⟨result, matched, rfl⟩ := Option.map_eq_some_iff.mp (Option.mem_toList.mp new)
        obtain ⟨o, _, _, _, _, accepted⟩ := Action.match_accepted response matched
        exact ⟨_, accepted, rfl⟩
  | sendFrame => cases ok <;> exact .inl won
  | lookUpCancelled | webhook | sweepAll =>
      simp only [Action.take] at won
      split at won <;> exact .inl won
  | _ => exact .inl won

theorem step_won {p p' : Pool (Hub β) Worker Action} {i : Worker}
    (moved : (server host).step p i p') {k : Uuid} (won : k ∈ p'.shared.won) :
    k ∈ p.shared.won ∨ ∃ o, p'.shared.api.dispatch.offers.lookup k = some o ∧
      o.status = .accepted := by
  cases moved with
  | begins idle begun =>
      cases begun <;> exact .inl won
  | @takes a rest shared agenda next taken =>
      obtain ⟨ok, taken⟩ := taken
      have new := @Hub.take_won β _ host p.shared a ok k
      simp only [Pool.after_shared] at won ⊢
      generalize a.take host ok p.shared = result at taken new
      obtain ⟨s, _ | more⟩ := result <;> obtain ⟨rfl, rfl⟩ := Prod.mk.inj taken <;> exact new won

/-- In a state on the way of a run from `start` to `p` the offer was accepted. -/
def AcceptedOnTheWay (host : Host) (start : Pool (Hub β) Worker Action) (past : List Worker)
    (p : Pool (Hub β) Worker Action) (offerId : Uuid) : Prop :=
  ∃ earlier later q, past = earlier ++ later ∧ Run (server host).step anyStep start earlier q ∧
    Run (server host).step anyStep q later p ∧
    ∃ o, q.shared.api.dispatch.offers.lookup offerId = some o ∧ o.status = .accepted

theorem won_on_the_way {start p : Pool (Hub β) Worker Action} {past : List Worker}
    (none_ : start.shared.won = []) (run : Run (server host).step anyStep start past p) {k : Uuid}
    (won : k ∈ p.shared.won) : AcceptedOnTheWay host start past p k := by
  induction run with
  | start =>
      rw [none_] at won
      cases won
  | @next past p i p' run allowed moved ih =>
      cases step_won moved won with
      | inl before =>
          obtain ⟨earlier, later, q, rfl, toQ, fromQ, accepted⟩ := ih before
          exact ⟨earlier, later ++ [i], q, List.append_assoc .., toQ, fromQ.next trivial moved,
            accepted⟩
      | inr accepted =>
          exact ⟨past ++ [i], [], p', (List.append_nil _).symm, run.next trivial moved, .start,
            accepted⟩

/-- Whatever the workers of a server do and however they interleave, every message that a
    session was sent, or that waits on its channel, concerns an offer of its driver and is
    true of it, then and ever after: an expired or cancelled offer never opens again.  A
    match alone may be of an offer to another driver, answered on this session; that offer
    was accepted on the way. -/
theorem driver_messages_true (host : Host) (api : ApiState β) (sound : Sound host api.dispatch)
    (registered : api.dispatch.toLedger.Registered) (past : List Worker)
    (p : Pool (Hub β) Worker Action)
    (run : Run (server host).step anyStep (Server.start api) past p) (n : Nat)
    (outbound : DriverOutbound) :
    let accepted := AcceptedOnTheWay host (Server.start api) past p
    ((n, .text outbound) ∈ p.shared.sent →
      ∃ session : Session, p.shared.api.sessions.opened[n]? = some session ∧
        p.shared.api.dispatch.toLedger.Warrants accepted session.driverId outbound) ∧
    ∀ session : Session, p.shared.api.sessions.opened[n]? = some session →
      outbound ∈ session.queue →
        p.shared.api.dispatch.toLedger.Warrants accepted session.driverId outbound := by
  intro accepted
  have held := server_upholds.run (server_start sound registered) run
  have won : ∀ k, k ∈ p.shared.won → accepted k := fun k => won_on_the_way rfl run
  constructor
  · intro sent
    obtain ⟨_, ⟨session, found, rfl⟩, warranted⟩ := held.shared.sent n outbound sent
    exact ⟨session, found, warranted.imp won⟩
  · exact fun session found waits => (held.shared.queued n session found outbound waits).imp won

/-! ## Explicit runs -/

namespace Server

variable (host) (p : Pool (Hub β) Worker Action)

def next (i : Worker) (ok : Bool) : Pool (Hub β) Worker Action :=
  match p.agenda i with
  | [] => p
  | a :: rest =>
      let (shared, agenda) := proceed rest (a.take host ok p.shared)
      p.after i shared agenda

/-- The driver opens the first session of a server, and the session takes its actions. -/
def firstSession (api : ApiState β) (driverId : Uuid) (oks : List Bool) :
    Pool (Hub β) Worker Action :=
  let start := Server.start api
  let opened := start.after (.session 0)
    (start.shared.withSessions (start.shared.api.sessions.register driverId))
    [.sweep 0 driverId, .replay 0 driverId]
  oks.foldl (fun p ok => next host p (.session 0) ok) opened

variable {host} {p}

theorem next_run {start : Pool (Hub β) Worker Action} {past : List Worker}
    (run : Run (server host).step anyStep start past p) (i : Worker) (ok : Bool) :
    ∃ past, Run (server host).step anyStep start past (next host p i ok) := by
  unfold next
  cases agenda : p.agenda i with
  | nil => exact ⟨past, run⟩
  | cons a rest => exact ⟨_, run.next trivial (.takes agenda ⟨ok, rfl⟩)⟩

theorem firstSession_run (api : ApiState β) (driverId : Uuid) (oks : List Bool) :
    ∃ past, Run (server host).step anyStep (Server.start api) past
      (firstSession host api driverId oks) := by
  have opened : Run (server host).step anyStep (Server.start api) _ _ :=
    Run.start.next trivial (.begins rfl (@begins.opens β host (Server.start api).shared driverId))
  unfold firstSession
  apply List.foldlRecOn (motive := fun p => ∃ past, Run (server host).step anyStep _ past p) oks
  · exact ⟨_, opened⟩
  · rintro p ⟨past, run⟩ ok -
    exact next_run run (.session 0) ok

end Server

def offeredService : ApiState InMemoryBackend :=
  serviceAfter stillHost [comesOnline 100, .submitJob (jobAtOrigin 1)] []

theorem offeredService_ready :
    Sound stillHost offeredService.dispatch ∧ offeredService.dispatch.toLedger.Registered := by
  let ops := [comesOnline 100, .submitJob (jobAtOrigin 1)]
  have reached : Run (serviceStep stillHost) anyStep emptyService _
      (performAll stillHost emptyService ops).2 :=
    performAll_run ops (permitted_any emptyService [] ops) .start
  exact ⟨(sound_withStorage 8 InMemoryBackend.mk 0).run reached, registered_run reached⟩

/-- Driver 100 opens a session, is sent the offer, and accepts it. -/
def acceptedSession : Pool (Hub InMemoryBackend) Worker Action :=
  let p := Server.firstSession stillHost offeredService 100 [true, true, true]
  let p := p.after (.session 0) p.shared (Request.agenda stillHost p.shared.api 0
    (.driverMessage 100 (.text (some (.offerResponse 3 true)))))
  [true, true, true].foldl (fun p ok => Server.next stillHost p (.session 0) ok) p

theorem acceptedSession_run : ∃ past,
    Run (server stillHost).step anyStep (Server.start offeredService) past acceptedSession := by
  obtain ⟨past, run⟩ := @Server.firstSession_run _ _ stillHost offeredService 100 [true, true, true]
  have answers := run.next trivial (.begins (by decide +kernel)
    (@begins.wakes _ stillHost 0 _ ⟨100, .running, []⟩
      (.driverMessage 100 (.text (some (.offerResponse 3 true)))) (by decide +kernel) rfl rfl))
  unfold acceptedSession
  apply List.foldlRecOn (motive := fun p => ∃ past, Run (server stillHost).step anyStep _ past p)
  · exact ⟨_, answers⟩
  · rintro p ⟨past, run⟩ ok -
    exact Server.next_run run (.session 0) ok

/-- Its match is of an offer that was accepted on the way. -/
theorem matched_session_true :
    (0, .text (.matched 3 1)) ∈ acceptedSession.shared.sent ∧
      ∃ past, ∃ session : Session,
        acceptedSession.shared.api.sessions.opened[0]? = some session ∧
        acceptedSession.shared.api.dispatch.toLedger.Warrants
          (AcceptedOnTheWay stillHost (Server.start offeredService) past acceptedSession)
          session.driverId (.matched 3 1) := by
  have sent : (0, .text (.matched 3 1)) ∈ acceptedSession.shared.sent := by decide +kernel
  obtain ⟨sound, registered⟩ := offeredService_ready
  obtain ⟨past, run⟩ := acceptedSession_run
  exact ⟨sent, past, (driver_messages_true stillHost offeredService sound registered past
    acceptedSession run 0 (.matched 3 1)).1 sent⟩

end Spatiad
