import Spatiad.ServerRuns
import Spatiad.TaskAccount

/-! # Offers of a session

A session learns of its driver's offers in two ways: it looks all of them up when it
opens, and whoever creates one later puts it on the channel that is then registered.
Between the two no offer slips through, however the workers interleave.
-/

namespace Spatiad

open Foundation Foundation.Agendas

variable {β : Type} [StorageBackend β] {host : Host}

/-! ## The property -/

namespace Hub

variable (host : Host) (s : Hub β)

/-- An offer and a session: the offer is pending and unexpired, by any reading of the clock
    so far, and the session is running and registered for its driver. -/
def Owes (x : Uuid × Nat) : Prop :=
  ∃ (o : OfferRecord) (session : Session), s.api.dispatch.offers.lookup x.1 = some o ∧
    o.status = .pending ∧ host.clock s.api.dispatch.horizon < o.expiresAt ∧
    s.api.sessions.senders.lookup o.driverId = some x.2 ∧
    s.api.sessions.opened[x.2]? = some session ∧ session.stage = .running

/-- The offer was created when the session was already open. -/
def Late (x : Uuid × Nat) : Prop := ∃ m, (x.1, m) ∈ s.created ∧ x.2 < m

/-- The offer was sent to the session, or waits on its channel, or was created when the session
    was already open by one who does not tell of it. -/
def Told (x : Uuid × Nat) : Prop :=
  (∃ outbound : DriverOutbound, outbound.isOffer x.1 = true ∧ (x.2, .text outbound) ∈ s.sent) ∨
    (∃ (session : Session) (outbound : DriverOutbound),
      s.api.sessions.opened[x.2]? = some session ∧ outbound ∈ session.queue ∧
        outbound.isOffer x.1 = true) ∨
    x.1 ∈ s.untold ∧ s.Late x

end Hub

/-- The action is on the way to tell the session of the offer. -/
def Action.SeesTo (a : Action) (x : Uuid × Nat) : Prop :=
  a.tells = some x.1 ∨
    (∃ outbound : DriverOutbound,
      a = .sendFrame x.2 (.text outbound) ∧ outbound.isOffer x.1 = true) ∨
    ∃ driverId, a = .replay x.2 driverId

/-- What the account is kept of: an offer, a session, and whether the offer is a late one. -/
abbrev Debt := Uuid × Nat × Bool

def Hub.Due (host : Host) (x : Debt) (s : Hub β) : Prop :=
  s.Owes host (x.1, x.2.1) ∧ (x.2.2 = true ↔ s.Late (x.1, x.2.1))

def Hub.Paid (x : Debt) (s : Hub β) : Prop := s.Told (x.1, x.2.1)

/-- An offer that is not late is for the session itself to look up, whoever else tells of it. -/
def Action.Serves (a : Action) (x : Debt) : Prop :=
  (x.2.2 = true ∧ a.tells = some x.1) ∨
    (∃ outbound : DriverOutbound,
      a = .sendFrame x.2.1 (.text outbound) ∧ outbound.isOffer x.1 = true) ∨
    ∃ driverId, a = .replay x.2.1 driverId

/-! ## What actions leave alone -/

namespace Hub

/-- From `s` to `s'` no sender was registered, and nothing was taken off a channel or off the
    records. -/
structure Keeps (s s' : Hub β) : Prop where
  senders : ∀ driverId n, s'.api.sessions.senders.lookup driverId = some n →
    s.api.sessions.senders.lookup driverId = some n
  length : s'.api.sessions.opened.length = s.api.sessions.opened.length
  opened : ∀ (n : Nat) (session' : Session), s'.api.sessions.opened[n]? = some session' →
    ∃ session, s.api.sessions.opened[n]? = some session ∧ session.queue ⊆ session'.queue ∧
      (session'.stage = .running → session.stage = .running)
  sent : s.sent ⊆ s'.sent
  created : s.created ⊆ s'.created
  untold : s.untold ⊆ s'.untold

namespace Keeps

variable {s s' s'' : Hub β}

omit [StorageBackend β] in
theorem of_sessions (sessions : s'.api.sessions = s.api.sessions) (sent : s.sent ⊆ s'.sent)
    (created : s.created ⊆ s'.created) (untold : s.untold ⊆ s'.untold) : Keeps s s' where
  senders _ _ registered := sessions ▸ registered
  length := by rw [sessions]
  opened n session found := ⟨session, sessions ▸ found, List.Subset.refl _, id⟩
  sent := sent
  created := created
  untold := untold

omit [StorageBackend β] in
theorem refl (s : Hub β) : Keeps s s :=
  of_sessions rfl (List.Subset.refl _) (List.Subset.refl _) (List.Subset.refl _)

omit [StorageBackend β] in
theorem trans (first : Keeps s s') (second : Keeps s' s'') : Keeps s s'' where
  senders driverId n registered := first.senders driverId n (second.senders driverId n registered)
  length := second.length.trans first.length
  opened n session'' found := by
    obtain ⟨session', found', queue', running'⟩ := second.opened n session'' found
    obtain ⟨session, found, queue, running⟩ := first.opened n session' found'
    exact ⟨session, found, List.Subset.trans queue queue', running ∘ running'⟩
  sent := List.Subset.trans first.sent second.sent
  created := List.Subset.trans first.created second.created
  untold := List.Subset.trans first.untold second.untold

omit [StorageBackend β] in
theorem update {sessions : Sessions} (n : Nat) (change : Session → Session)
    (senders : ∀ driverId m, sessions.senders.lookup driverId = some m →
      s.api.sessions.senders.lookup driverId = some m)
    (opened : sessions.opened = (s.api.sessions.update n change).opened)
    (queue : ∀ session, session.queue ⊆ (change session).queue)
    (running : ∀ session, (change session).stage = .running → session.stage = .running) :
    Keeps s (s.withSessions sessions) where
  senders := senders
  length := by
    show sessions.opened.length = _
    rw [opened]
    exact List.length_modify ..
  opened m session' found := by
    have there : sessions.opened[m]? = some session' := found
    rw [opened, Sessions.getElem_update, Option.map_eq_some_iff] at there
    obtain ⟨session, before, rfl⟩ := there
    refine ⟨session, before, ?_⟩
    split
    · exact ⟨queue session, running session⟩
    · exact ⟨List.Subset.refl _, id⟩
  sent := List.Subset.refl _
  created := List.Subset.refl _
  untold := List.Subset.refl _

omit [StorageBackend β] in
theorem leave (s : Hub β) (n : Nat) : Keeps s (s.withSessions (s.api.sessions.leave n)) := by
  refine update n (fun session => { session with stage := .leaving })
    (fun _ _ registered => registered) rfl ?_ ?_
  · exact fun _ => List.Subset.refl _
  · exact fun _ => Stage.noConfusion

omit [StorageBackend β] in
theorem send (s : Hub β) (driverId : Uuid) (outbound : DriverOutbound) :
    Keeps s (s.withSessions (s.api.sessions.send driverId outbound)) := by
  rcases s.api.sessions.send_cases driverId outbound with same | ⟨m, same⟩
  · rw [same]
    exact refl s
  · rw [same]
    refine update m (Session.enqueue outbound) (fun _ _ registered => registered) rfl ?_ ?_
    · intro session
      unfold Session.enqueue
      split
      · exact List.Subset.refl _
      · exact List.subset_append_left _ _
    · intro session
      rw [Session.enqueue_stage]
      exact id

omit [StorageBackend β] in
theorem sendAll (s : Hub β) (messages : List (Uuid × DriverOutbound)) :
    Keeps s (s.withSessions (messages.foldl (fun sessions message =>
      sessions.send message.1 message.2) s.api.sessions)) := by
  induction messages generalizing s with
  | nil => exact refl s
  | cons message rest ih => exact (send s message.1 message.2).trans (ih _)

omit [StorageBackend β] in
theorem withDispatch (s : Hub β) (dispatch : DispatchService β) : Keeps s (s.withDispatch dispatch) :=
  of_sessions rfl (List.Subset.refl _) (List.Subset.refl _) (List.Subset.refl _)

omit [StorageBackend β] in
theorem create (s : Hub β) (offers : List OfferRecord) : Keeps s (s.create offers) :=
  of_sessions rfl (List.Subset.refl _) (List.subset_append_left _ _) (List.Subset.refl _)

omit [StorageBackend β] in
theorem win (s : Hub β) (matched : Option MatchResult) : Keeps s (s.win matched) :=
  of_sessions rfl (List.Subset.refl _) (List.Subset.refl _) (List.Subset.refl _)

omit [StorageBackend β] in
theorem forget (s : Hub β) (offerIds : List Uuid) : Keeps s (s.forget offerIds) :=
  of_sessions rfl (List.Subset.refl _) (List.Subset.refl _) (List.subset_append_left _ _)

theorem take (s : Hub β) (a : Action) (ok : Bool) : Keeps s (a.take host ok s).1 := by
  cases a with
  | run | snapshot => exact withDispatch s _
  | sweep => exact (withDispatch s _).trans (create _ _)
  | replay | lookUp => exact refl s
  | sendFrame n frame =>
      cases ok with
      | false => exact leave s n
      | true =>
          exact of_sessions rfl (List.subset_append_left _ _) (List.Subset.refl _)
            (List.Subset.refl _)
  | send driverId outbound => exact send s driverId outbound
  | sendAll messages => exact sendAll s messages
  | leave n => exact leave s n
  | answer n offerId accepted =>
      simp only [Action.take]
      split
      · exact (withDispatch s _).trans (leave _ n)
      · exact ((withDispatch s _).trans (create _ _)).trans (win _ _)
  | lookUpCancelled | webhook =>
      simp only [Action.take]
      split <;> exact refl s
  | limit =>
      exact of_sessions rfl (List.Subset.refl _) (List.Subset.refl _) (List.Subset.refl _)
  | submit => exact ((withDispatch s _).trans (create _ _)).trans (forget _ _)
  | sweepAll =>
      simp only [Action.take]
      split <;> exact (withDispatch s _).trans (create _ _)

end Keeps

variable {s s' : Hub β} {x : Uuid × Nat}

omit [StorageBackend β] in
theorem Late.kept (keeps : Keeps s s') (late : s.Late x) : s'.Late x := by
  obtain ⟨m, created, early⟩ := late
  exact ⟨m, keeps.created created, early⟩

omit [StorageBackend β] in
theorem Told.kept (keeps : Keeps s s') (owed : s'.Owes host x) (told : s.Told x) : s'.Told x := by
  rcases told with ⟨outbound, isOffer, sent⟩ | ⟨session, outbound, found, waits, isOffer⟩ |
    ⟨untold, late⟩
  · exact .inl ⟨outbound, isOffer, keeps.sent sent⟩
  · obtain ⟨_, session', _, _, _, _, found', _⟩ := owed
    obtain ⟨before, there, queue, _⟩ := keeps.opened x.2 session' found'
    obtain rfl := Option.some.inj (found.symm.trans there)
    exact .inr (.inl ⟨session', outbound, found', queue waits, isOffer⟩)
  · exact .inr (.inr ⟨keeps.untold untold, late.kept keeps⟩)

omit [StorageBackend β] in
theorem Owes.before (forward : Monotone host.clock) (moves : Moves host s s')
    (senders : ∀ driverId, s'.api.sessions.senders.lookup driverId = some x.2 →
      s.api.sessions.senders.lookup driverId = some x.2)
    (opened : ∀ session' : Session, s'.api.sessions.opened[x.2]? = some session' →
      ∃ session : Session, s.api.sessions.opened[x.2]? = some session ∧
        (session'.stage = .running → session.stage = .running))
    (owed : s'.Owes host x) {o : OfferRecord}
    (known : s.api.dispatch.offers.lookup x.1 = some o) : s.Owes host x := by
  obtain ⟨o', session', found', pending, unexpired, registered, there, running⟩ := owed
  obtain ⟨after, same, becomes⟩ := moves.advances.offers x.1 o known
  obtain rfl := Option.some.inj (found'.symm.trans same)
  obtain ⟨session, before, ran⟩ := opened session' there
  have earlier := forward moves.advances.horizon
  rw [becomes.expiresAt] at unexpired
  rw [becomes.driverId] at registered
  exact ⟨o, session, known, becomes.pending pending, earlier.trans_lt unexpired,
    senders o.driverId registered, before, ran running⟩

omit [StorageBackend β] in
theorem Owes.kept (forward : Monotone host.clock) (moves : Moves host s s') (keeps : Keeps s s')
    (owed : s'.Owes host x) {o : OfferRecord}
    (known : s.api.dispatch.offers.lookup x.1 = some o) : s.Owes host x := by
  apply Owes.before forward moves (fun driverId => keeps.senders driverId x.2) _ owed known
  intro session' found
  obtain ⟨session, before, _, ran⟩ := keeps.opened x.2 session' found
  exact ⟨session, before, ran⟩

end Hub

/-! ## Who sees to an offer -/

omit [StorageBackend β] in
theorem pending_shown {e : Engine β} (keyed : e.toLedger.Keyed) (registered : e.toLedger.Registered)
    (forward : Monotone host.clock) {k : Uuid} {o : OfferRecord}
    (found : e.offers.lookup k = some o) (pending : o.status = .pending)
    (unexpired : host.clock e.horizon < o.expiresAt) :
    ∃ shown ∈ e.pendingOffersForDriver host o.driverId, shown.offerId = k := by
  have arranged := host.order_perm e.tick
  have listed : o ∈ e.offers.iter (host.order e.tick) := (HashMap.mem_iter arranged).mpr ⟨k, found⟩
  obtain ⟨i, short, here⟩ := List.mem_iff_getElem.mp listed
  have size : (e.offers.iter (host.order e.tick)).length ≤ e.offers.keys.length :=
    (List.length_filterMap_le _ _).trans (Nat.le_of_eq (arranged e.offers.keys).length_eq)
  have early : e.tick + i ≤ e.horizon := by
    unfold Engine.horizon
    omega
  have inTime : host.clock (e.tick + i) < o.expiresAt := (forward early).trans_lt unexpired
  obtain ⟨job, known⟩ := registered k o found
  refine ⟨⟨o.offerId, o.jobId, job.pickup, job.dropoff, o.expiresAt⟩, ?_, keyed k o found⟩
  unfold Engine.pendingOffersForDriver
  refine List.mem_filterMap.mpr ⟨(o, i), ?_, by simp [pending, inTime, known]⟩
  exact List.mk_mem_zipIdx_iff_getElem?.mpr (List.getElem?_eq_some_iff.mpr ⟨short, here⟩)

section takes

variable {s : Hub β} {i : Worker} {a : Action} {k : Uuid} {n : Nat} {late : Bool}

omit [StorageBackend β] in
theorem PendingDriverOffer.outbound_isOffer (pending : PendingDriverOffer) :
    pending.outbound.isOffer pending.offerId = true := by
  simp [PendingDriverOffer.outbound, DriverOutbound.isOffer]

omit [StorageBackend β] in
theorem Hub.not_owes_leave (s : Hub β) (k : Uuid) (n : Nat) :
    ¬ (s.leave n).1.Owes host (k, n) := by
  rintro ⟨_, session', _, _, _, _, found', running⟩
  have there : (s.api.sessions.leave n).opened[n]? = some session' := found'
  rw [Sessions.leave, Sessions.getElem_update, Option.map_eq_some_iff] at there
  obtain ⟨session, _, rfl⟩ := there
  simp at running

omit [StorageBackend β] in
theorem Hub.told_send {driverId : Uuid} {outbound : DriverOutbound} {session : Session}
    (isOffer : outbound.isOffer k = true)
    (sender : s.api.sessions.senders.lookup driverId = some n)
    (opened : s.api.sessions.opened[n]? = some session) (running : session.stage = .running) :
    (s.withSessions (s.api.sessions.send driverId outbound)).Told (k, n) := by
  refine .inr (.inl ⟨session.enqueue outbound, outbound, ?_, ?_, isOffer⟩)
  · show (s.api.sessions.send driverId outbound).opened[n]? = _
    rw [Sessions.send, sender, Sessions.getElem_update, opened]
    simp
  · simp [Session.enqueue, running]

/-- What becomes of an action that was on the way to tell: it told, or it put on the agenda
    what will. -/
theorem seen_to (forward : Monotone host.clock) (coherent : Hub.Coherent host s)
    (relies : a.Ok host i s) (owed : s.Owes host (k, n)) (serves : a.Serves (k, n, late))
    (ok : Bool) (still : (a.take host ok s).1.Owes host (k, n)) :
    (a.take host ok s).1.Told (k, n) ∨
      ∃ more, (a.take host ok s).2 = some more ∧ ∃ b ∈ more, b.Serves (k, n, late) := by
  obtain ⟨o, session, found, pending, unexpired, sender, opened, running⟩ := owed
  have keyed := coherent.sound.dispatch.keyed
  obtain ⟨shown, view, ofOffer⟩ := pending_shown keyed coherent.registered forward found pending
    unexpired
  rcases serves with ⟨isLate, tells⟩ | ⟨outbound, rfl, isOffer⟩ | ⟨driverId, rfl⟩
  · cases a with
    | lookUp offer =>
        obtain rfl : offer.offerId = k := Option.some.inj tells
        obtain ⟨stored, there, own⟩ := relies
        obtain rfl := Option.some.inj (found.symm.trans there)
        rw [own] at view
        cases again : (s.api.dispatch.pendingOffersForDriver host offer.driverId).find?
            fun pending => pending.offerId == offer.offerId with
        | none =>
            have missed := List.find?_eq_none.mp again shown view
            simp [ofOffer] at missed
        | some first =>
            have same : first.offerId = offer.offerId := by
              simpa using List.find?_some again
            refine .inr ⟨_, rfl, .send offer.driverId first.outbound, ?_, .inl ⟨isLate, ?_⟩⟩
            · simp [again]
            · exact congrArg some same
    | send driverId outbound =>
        cases outbound with
        | offer offerId =>
            obtain rfl : offerId = k := Option.some.inj tells
            obtain ⟨stored, there, own, _⟩ := relies
            obtain rfl := Option.some.inj (found.symm.trans there)
            rw [own] at sender
            exact .inl (Hub.told_send (by simp [DriverOutbound.isOffer]) sender opened running)
        | _ => cases tells
    | _ => cases tells
  · cases ok with
    | true =>
        exact .inl (.inl ⟨outbound, isOffer, List.mem_append_right _ (List.mem_singleton_self _)⟩)
    | false => exact absurd still (s.not_owes_leave k n)
  · obtain ⟨_, ofSession, spoken, rfl⟩ := relies
    obtain ⟨wiredTo, there, ofDriver, _⟩ := coherent.sound.sessions o.driverId n sender
    obtain rfl := Option.some.inj (spoken.symm.trans there)
    rw [← ofDriver] at view
    refine .inr ⟨_, rfl, _, List.mem_map_of_mem view, .inr (.inl ⟨shown.outbound, rfl, ?_⟩)⟩
    exact ofOffer ▸ shown.outbound_isOffer

omit [StorageBackend β] in
/-- Whoever creates offers looks each of them up. -/
theorem told_of_created {e e' : Engine β} {new : List OfferRecord} (created : Creates host e e' new)
    (absent : e.offers.lookup k = none) (present : e'.offers.lookup k ≠ none) :
    ∃ b ∈ notices new, b.tells = some k := by
  obtain ⟨o', found⟩ := Option.ne_none_iff_exists'.mp present
  obtain ⟨o, member, same⟩ := created.complete k o' absent found
  exact ⟨.lookUp o, List.mem_map_of_mem member, congrArg some same⟩

omit [StorageBackend β] in
theorem noted_created {e e' : Engine β} {new : List OfferRecord} (created : Creates host e e' new)
    (absent : e.offers.lookup k = none) (present : e'.offers.lookup k ≠ none)
    {before : List (Uuid × Nat)} {m : Nat} : (k, m) ∈ before ++ new.map fun o => (o.offerId, m) := by
  obtain ⟨o', found⟩ := Option.ne_none_iff_exists'.mp present
  obtain ⟨o, member, rfl⟩ := created.complete k o' absent found
  exact List.mem_append_right _ (List.mem_map.mpr ⟨o, member, rfl⟩)

omit [StorageBackend β] in
theorem old_created {e e' : Engine β} {new : List OfferRecord} (created : Creates host e e' new)
    (known : e.offers.lookup k ≠ none) {before : List (Uuid × Nat)} {m now : Nat}
    (noted : (k, m) ∈ before ++ new.map fun o => (o.offerId, now)) : (k, m) ∈ before := by
  refine (List.mem_append.mp noted).resolve_right fun isNew => ?_
  obtain ⟨o, member, same⟩ := List.mem_map.mp isNew
  obtain ⟨rfl, _⟩ := Prod.mk.inj same
  exact known (created.fresh o member)

theorem perform_creates_nothing {e : DispatchService β} (sound : Sound host e) {op : Op}
    (other : ¬ op.Creating) (absent : e.offers.lookup k = none) :
    (perform host e op).1.offers.lookup k = none := by
  apply sound.step_invariant (serviceStep_perform host e op) (fun s => s.offers.lookup k = none)
    absent
  intro s cmd _ absent issued
  have noOffer : ∀ offer, cmd ≠ .createOffer offer := by
    rintro offer rfl
    have byOp : Issues e.toLedger op s (.createOffer offer) := issued
    cases byOp with
    | firstOffer => exact other trivial
    | nextOffer kind =>
        cases op with
        | expirePendingOffersForDriver | expirePendingOffersGlobal | handleOfferResponse =>
            exact other trivial
        | _ => exact kind
  rw [Ledger.lookup_apply s noOffer, absent]
  rfl

/-- An offer that an action creates is noted, and it is looked up next, or nobody tells of it. -/
theorem seen_to_new (coherent : Hub.Coherent host s) (relies : a.Ok host i s) (ok : Bool)
    (absent : s.api.dispatch.offers.lookup k = none)
    (present : (a.take host ok s).1.api.dispatch.offers.lookup k ≠ none) :
    (k, s.api.sessions.opened.length) ∈ (a.take host ok s).1.created ∧
      ((∃ more, (a.take host ok s).2 = some more ∧ ∃ b ∈ more, b.tells = some k) ∨
        k ∈ (a.take host ok s).1.untold) := by
  have sound : Sound host s.api.dispatch := coherent.sound.dispatch
  have unchanged : ∀ {s' : Hub β}, s'.api.dispatch.toLedger = s.api.dispatch.toLedger →
      s'.api.dispatch.offers.lookup k ≠ none → False := by
    intro s' same present
    rw [same] at present
    exact present absent
  cases a with
  | sweep n driverId =>
      have created := expirePendingOffersForDriver_creates sound.ids driverId
      obtain ⟨b, member, tells⟩ := told_of_created created absent present
      exact ⟨noted_created created absent present,
        .inl ⟨_, rfl, b, List.mem_append_right _ member, tells⟩⟩
  | answer n offerId accepted =>
      have created := handleOfferResponse_creates sound.ids offerId accepted
      simp only [Action.take] at present ⊢
      generalize DispatchService.handleOfferResponse host s.api.dispatch offerId accepted = result
        at created present ⊢
      obtain ⟨e', _ | update⟩ := result
      · obtain ⟨b, member, _⟩ := told_of_created created absent present
        cases member
      · obtain ⟨b, member, tells⟩ := told_of_created created absent present
        exact ⟨noted_created created absent present,
          .inl ⟨_, rfl, b, List.mem_append_left _ member, tells⟩⟩
  | sweepAll =>
      have created := expirePendingOffersGlobal_creates sound.ids
      simp only [Action.take] at present ⊢
      split at present
      · rename_i nothing
        simp only [Bool.and_eq_true, List.isEmpty_iff] at nothing
        obtain ⟨b, member, _⟩ := told_of_created created absent present
        rw [nothing.2] at member
        cases member
      · obtain ⟨b, member, tells⟩ := told_of_created created absent present
        rename_i something
        rw [if_neg something]
        exact ⟨noted_created created absent present,
          .inl ⟨_, rfl, b, List.mem_cons_of_mem _ member, tells⟩⟩
  | submit payload =>
      have created := submitJob_creates sound.drawn.ids
        (payload.job (host.clock s.api.dispatch.tick))
      obtain ⟨o', found⟩ := Option.ne_none_iff_exists'.mp present
      obtain ⟨o, member, rfl⟩ := created.complete k o' absent found
      exact ⟨noted_created created absent present,
        .inr (List.mem_append_right _ (List.mem_map_of_mem member))⟩
  | run op => exact absurd (perform_creates_nothing sound relies absent) present
  | snapshot => exact (unchanged s.api.dispatch.createSnapshot_frame.1 present).elim
  | replay | lookUp | send | sendAll | leave | limit => exact (unchanged rfl present).elim
  | sendFrame n frame =>
      cases ok with
      | true => exact (unchanged rfl present).elim
      | false => exact (unchanged rfl present).elim
  | lookUpCancelled | webhook =>
      simp only [Action.take] at present
      split at present
      · exact (unchanged rfl present).elim
      · exact (unchanged rfl present).elim

theorem created_before (coherent : Hub.Coherent host s) (ok : Bool) {m : Nat}
    (noted : (k, m) ∈ (a.take host ok s).1.created) (known : s.api.dispatch.offers.lookup k ≠ none) :
    (k, m) ∈ s.created := by
  have sound : Sound host s.api.dispatch := coherent.sound.dispatch
  cases a with
  | sweep n driverId =>
      exact old_created (expirePendingOffersForDriver_creates sound.ids driverId) known noted
  | answer n offerId accepted =>
      have created := handleOfferResponse_creates sound.ids offerId accepted
      simp only [Action.take] at noted
      generalize DispatchService.handleOfferResponse host s.api.dispatch offerId accepted = result
        at created noted
      obtain ⟨e', _ | update⟩ := result
      · exact noted
      · exact old_created created known noted
  | sweepAll =>
      have created := expirePendingOffersGlobal_creates sound.ids
      simp only [Action.take] at noted
      split at noted <;> exact old_created created known noted
  | submit payload =>
      have created := submitJob_creates sound.drawn.ids
        (payload.job (host.clock s.api.dispatch.tick))
      exact old_created created known noted
  | sendFrame => cases ok <;> exact noted
  | lookUpCancelled | webhook =>
      simp only [Action.take] at noted
      split at noted <;> exact noted
  | _ => exact noted

theorem late_take (coherent : Hub.Coherent host s) (ok : Bool)
    (known : s.api.dispatch.offers.lookup k ≠ none) :
    (a.take host ok s).1.Late (k, n) ↔ s.Late (k, n) :=
  ⟨fun ⟨m, noted, early⟩ => ⟨m, created_before coherent ok noted known, early⟩, .kept (.take s a ok)⟩

/-- An action after which the rest is given up ends its own session, if it is a session's. -/
theorem gives_up (relies : a.Ok host i s) (ok : Bool) (dropped : (a.take host ok s).2 = none) :
    (∃ k, i = .handler k) ∨ ∃ n, i = .session n ∧ ∀ k, ¬ (a.take host ok s).1.Owes host (k, n) := by
  cases a with
  | limit => exact .inl relies
  | leave n => exact .inr ⟨n, relies, fun k => s.not_owes_leave k n⟩
  | sendFrame n frame =>
      cases ok with
      | true => cases dropped
      | false => exact .inr ⟨n, relies.1, fun k => s.not_owes_leave k n⟩
  | answer n offerId accepted =>
      simp only [Action.take] at dropped ⊢
      split at dropped
      · rename_i dispatch _ _
        exact .inr ⟨n, relies.1, fun k => (s.withDispatch dispatch).not_owes_leave k n⟩
      · cases dropped
  | lookUpCancelled | webhook | sweepAll =>
      simp only [Action.take] at dropped
      split at dropped <;> cases dropped
  | _ => cases dropped

end takes

/-! ## No worker forgets -/

section remembers

variable {s s' : Hub β} {i : Worker} {a : Action} {rest agenda : List Action} {k : Uuid} {n : Nat}
  {late : Bool}

/-- What is given up with the rest of an agenda is told, or concerns a session that ends. -/
theorem given_up (relies : ∀ b ∈ a :: rest, b.Ok host i s) (ok : Bool)
    (dropped : (a.take host ok s).2 = none) {b : Action} (member : b ∈ rest)
    (serves : b.Serves (k, n, late))
    (due : Hub.Due host (k, n, late) ((a.take host ok s).1.forget (rest.filterMap Action.tells))) :
    ((a.take host ok s).1.forget (rest.filterMap Action.tells)).Told (k, n) := by
  obtain ⟨owed, lateness⟩ := due
  have ends := gives_up (relies a List.mem_cons_self) ok dropped
  have ofSession : i = .session n → False := by
    rintro rfl
    rcases ends with ⟨_, same⟩ | ⟨m, same, none⟩
    · cases same
    · cases same
      exact none k owed
  have own : b.Ok host i s := relies b (List.mem_cons_of_mem a member)
  rcases serves with ⟨isLate, tells⟩ | ⟨outbound, rfl, _⟩ | ⟨driverId, rfl⟩
  · refine .inr (.inr ⟨List.mem_append_right _ ?_, lateness.mp isLate⟩)
    exact List.mem_filterMap.mpr ⟨b, member, tells⟩
  · exact (ofSession own.1).elim
  · exact (ofSession own.1).elim

theorem remembers_takes (forward : Monotone host.clock) (coherent : Hub.Coherent host s)
    (relies : ∀ b ∈ a :: rest, b.Ok host i s) (ok : Bool)
    (taken : proceed rest (a.take host ok s) = (s', agenda)) (due : Hub.Due host (k, n, late) s') :
    s'.Told (k, n) ∨ (∃ b ∈ agenda, b.Serves (k, n, late)) ∨
      Hub.Due host (k, n, late) s ∧ ¬ s.Told (k, n) ∧ ∀ b ∈ a :: rest, ¬ b.Serves (k, n, late) := by
  have own := relies a List.mem_cons_self
  obtain ⟨moves, _⟩ := Hub.taken coherent own ok
  have keeps := @Hub.Keeps.take β _ host s a ok
  have fresh := seen_to_new (k := k) coherent own ok
  have sameLate := late_take (n := n) (k := k) (a := a) coherent ok
  have seen := fun owed (serves : a.Serves (k, n, late)) =>
    seen_to forward coherent own owed serves ok
  have dropped := fun gone {b : Action} member (serves : b.Serves (k, n, late)) =>
    given_up relies ok gone member serves
  generalize a.take host ok s = result at taken moves keeps fresh sameLate seen dropped
  obtain ⟨s₁, more⟩ := result
  -- nothing but the record of what nobody tells of is changed when the rest is given up
  have later : s₁.Owes host (k, n) ∧ Hub.Keeps s₁ s' ∧ (s'.Late (k, n) ↔ s₁.Late (k, n)) ∧
      ∀ m, more = some m → agenda = m ++ rest := by
    cases more with
    | some more =>
        obtain ⟨rfl, rfl⟩ := Prod.mk.inj taken
        exact ⟨due.1, .refl s₁, Iff.rfl, fun m same => by rw [Option.some.inj same]⟩
    | none =>
        obtain ⟨rfl, rfl⟩ := Prod.mk.inj taken
        exact ⟨due.1, .forget s₁ _, Iff.rfl, fun m same => by cases same⟩
  obtain ⟨owed₁, keeps₁, lateness, onAgenda⟩ := later
  cases known : s.api.dispatch.offers.lookup k with
  | none =>
      have present : s₁.api.dispatch.offers.lookup k ≠ none := by
        obtain ⟨o', _, found, _⟩ := owed₁
        rw [found]
        exact Option.some_ne_none o'
      obtain ⟨created, maker⟩ := fresh known present
      have isLate : s₁.Late (k, n) := by
        obtain ⟨_, session, _, _, _, _, opened, _⟩ := owed₁
        have early : n < s₁.api.sessions.opened.length := (List.getElem?_eq_some_iff.mp opened).1
        rw [keeps.length] at early
        exact ⟨_, created, early⟩
      rcases maker with ⟨m, same, b, member, tells⟩ | untold
      · have serves : b.Serves (k, n, late) := .inl ⟨due.2.mpr (lateness.mpr isLate), tells⟩
        exact .inr (.inl ⟨b, onAgenda m same ▸ List.mem_append_left _ member, serves⟩)
      · exact .inl (.inr (.inr ⟨keeps₁.untold untold, lateness.mpr isLate⟩))
  | some o =>
      have before : s.Owes host (k, n) := owed₁.kept forward moves keeps known
      have lateBefore : s₁.Late (k, n) ↔ s.Late (k, n) :=
        sameLate (by rw [known]; exact Option.some_ne_none o)
      by_cases told : s.Told (k, n)
      · exact .inl ((told.kept keeps owed₁).kept keeps₁ due.1)
      · by_cases serves : a.Serves (k, n, late)
        · rcases seen before serves owed₁ with now | ⟨m, same, b, member, next⟩
          · exact .inl (now.kept keeps₁ due.1)
          · exact .inr (.inl ⟨b, onAgenda m same ▸ List.mem_append_left _ member, next⟩)
        · by_cases left : ∃ b ∈ rest, b.Serves (k, n, late)
          · obtain ⟨b, member, next⟩ := left
            cases more with
            | some m =>
                exact .inr (.inl ⟨b, onAgenda m rfl ▸ List.mem_append_right _ member, next⟩)
            | none =>
                obtain ⟨rfl, rfl⟩ := Prod.mk.inj taken
                exact .inl (dropped rfl member next due)
          · refine .inr (.inr ⟨⟨before, due.2.trans (lateness.trans lateBefore)⟩, told,
              fun b member next => ?_⟩)
            cases List.mem_cons.mp member with
            | inl same => exact serves (same ▸ next)
            | inr inRest => exact left ⟨b, inRest, next⟩

omit [StorageBackend β] in
theorem stops_keeps {event : SessionEvent} {sessions : Sessions}
    (taken : sessionStep s.api.sessions event sessions)
    (ends : event = .fail n ∨ event = .closed n ∨ event = .cleanup n) :
    Hub.Keeps s (s.withSessions sessions) := by
  rcases ends with rfl | rfl | rfl
  · cases taken
    exact .leave s n
  · cases taken
    exact .leave s n
  · cases taken
    refine .update n (fun session => { session with stage := .ended }) ?_ rfl ?_ ?_
    · intro d m registered
      have left : (s.api.sessions.senders.erase _).lookup d = some m := registered
      rw [HashMap.lookup_erase_if] at left
      split at left
      · cases left
      · exact left
    · exact fun _ => List.Subset.refl _
    · exact fun _ => Stage.noConfusion

omit [StorageBackend β] in
theorem told_register (driverId : Uuid) (told : s.Told (k, n)) :
    (s.withSessions (s.api.sessions.register driverId)).Told (k, n) := by
  rcases told with sent | ⟨session, outbound, found, waits, isOffer⟩ | untold
  · exact .inl sent
  · refine .inr (.inl ⟨session, outbound, ?_, waits, isOffer⟩)
    exact (List.getElem?_append_left (List.getElem?_eq_some_iff.mp found).1).trans found
  · exact .inr (.inr untold)

omit [StorageBackend β] in
theorem told_receive {m : Nat} {session : Session} {outbound : DriverOutbound}
    {left : List DriverOutbound} (found : s.api.sessions.opened[m]? = some session)
    (waiting : session.queue = outbound :: left) (told : s.Told (k, n)) :
    (s.withSessions (s.api.sessions.receive m)).Told (k, n) ∨
      (Action.sendFrame m (.text outbound)).Serves (k, n, late) := by
  rcases told with sent | ⟨before, other, there, waits, isOffer⟩ | untold
  · exact .inl (.inl sent)
  · have after := Sessions.getElem_update s.api.sessions m
      (fun session => { session with queue := session.queue.tail }) n
    rw [there, Option.map_some] at after
    by_cases here : m = n
    · subst here
      obtain rfl := Option.some.inj (found.symm.trans there)
      rw [waiting] at waits
      cases List.mem_cons.mp waits with
      | inl first =>
          subst first
          exact .inr (.inr (.inl ⟨other, rfl, isOffer⟩))
      | inr later =>
          refine .inl (.inr (.inl ⟨_, other, after, ?_, isOffer⟩))
          simp only [if_true, waiting, List.tail_cons]
          exact later
    · refine .inl (.inr (.inl ⟨_, other, after, ?_, isOffer⟩))
      simp only [here, if_false]
      exact waits
  · exact .inl (.inr (.inr untold))

omit [StorageBackend β] in
theorem remembers_begins (forward : Monotone host.clock) (coherent : Hub.Coherent host s)
    (begun : begins host i s s' agenda) (due : Hub.Due host (k, n, late) s') :
    s'.Told (k, n) ∨ (∃ b ∈ agenda, b.Serves (k, n, late)) ∨
      Hub.Due host (k, n, late) s ∧ ¬ s.Told (k, n) := by
  obtain ⟨moves, _⟩ := begins_ok coherent begun
  obtain ⟨owed, lateness⟩ := due
  have sameLate : s'.Late (k, n) ↔ s.Late (k, n) := by
    cases begun <;> exact Iff.rfl
  -- what was owed and told before is to be told or served after
  have settle : s.Owes host (k, n) →
      (s.Told (k, n) → s'.Told (k, n) ∨ ∃ b ∈ agenda, b.Serves (k, n, late)) →
      s'.Told (k, n) ∨ (∃ b ∈ agenda, b.Serves (k, n, late)) ∨
        Hub.Due host (k, n, late) s ∧ ¬ s.Told (k, n) := by
    intro before stays
    by_cases told : s.Told (k, n)
    · exact (stays told).imp_right .inl
    · exact .inr (.inr ⟨⟨before, lateness.trans sameLate⟩, told⟩)
  obtain ⟨o, known⟩ : ∃ o, s'.api.dispatch.offers.lookup k = some o := by
    obtain ⟨o, _, found, _⟩ := owed
    exact ⟨o, found⟩
  cases begun with
  | request | snapshot | wakes => exact settle owed .inl
  | @opens _ driverId =>
      by_cases new : n = s.api.sessions.opened.length
      · subst new
        have later := List.mem_singleton_self (Action.replay s.api.sessions.opened.length driverId)
        exact .inr (.inl ⟨_, List.mem_cons_of_mem _ later, .inr (.inr ⟨driverId, rfl⟩)⟩)
      · refine settle (owed.before forward moves ?_ ?_ known) fun told =>
          .inl (told_register driverId told)
        · intro d registered
          have sender : (s.api.sessions.senders.insert driverId _).lookup d = some n := registered
          rw [HashMap.lookup_insert_if] at sender
          split at sender
          · exact absurd (Option.some.inj sender).symm new
          · exact sender
        · intro session found
          cases Sessions.found_register found with
          | inl old => exact ⟨session, old, id⟩
          | inr opened => exact absurd opened.1 new
  | @receives m _ session outbound left found running waiting =>
      refine settle (owed.before forward moves (fun _ sender => sender) ?_ known) fun told => ?_
      · intro session' there
        have after : (s.api.sessions.receive m).opened[n]? = some session' := there
        rw [Sessions.receive, Sessions.getElem_update, Option.map_eq_some_iff] at after
        obtain ⟨before, old, rfl⟩ := after
        refine ⟨before, old, ?_⟩
        split <;> exact id
      · exact (told_receive found waiting told).imp_right fun serves =>
          ⟨_, List.mem_singleton_self _, serves⟩
  | @stops m _ event sessions taken ends =>
      have keeps := stops_keeps taken ends
      exact settle (owed.kept forward moves keeps known) fun told => .inl (told.kept keeps owed)

theorem server_remembers (forward : Monotone host.clock) :
    (server host : Workers (Hub β) Worker Action).Remembers (Hub.Coherent host)
      (fun i a s => a.Ok host i s) (Hub.Due host) Hub.Paid Action.Serves where
  begins _ _ _ _ _ coherent begun due := remembers_begins forward coherent begun due
  takes := by
    rintro i a rest s s' agenda x coherent relies ⟨ok, taken⟩ due
    exact remembers_takes forward coherent relies ok taken due

end remembers

omit [StorageBackend β] in
theorem accounted_start (host : Host) (api : ApiState β) :
    Workers.Accounted (Hub.Due host) Hub.Paid Action.Serves (Server.start api) := by
  rintro x ⟨⟨_, _, _, _, _, sender, _⟩, _⟩
  cases sender

omit [StorageBackend β] in
theorem Hub.Owes.due {s : Hub β} {x : Uuid × Nat} (owed : s.Owes host x) :
    ∃ late, Hub.Due host (x.1, x.2, late) s := by
  classical
  exact ⟨decide (s.Late x), owed, decide_eq_true_iff⟩

omit [StorageBackend β] in
theorem Action.Serves.seesTo {a : Action} {x : Debt} (serves : a.Serves x) :
    a.SeesTo (x.1, x.2.1) := serves.imp_left And.right

/-- Whatever is done next, an offer that was there does not become a late one. -/
theorem late_step {p p' : Pool (Hub β) Worker Action} {i : Worker}
    (coherent : Hub.Coherent host p.shared) (moved : (server host).step p i p') {k : Uuid} {n : Nat}
    (known : p.shared.api.dispatch.offers.lookup k ≠ none) :
    p'.shared.Late (k, n) ↔ p.shared.Late (k, n) := by
  cases moved with
  | begins idle begun => cases begun <;> exact Iff.rfl
  | @takes a rest shared agenda next taken =>
      obtain ⟨ok, taken⟩ := taken
      have same := late_take (n := n) (a := a) coherent ok known
      rw [Pool.after_shared, ← same]
      generalize a.take host ok p.shared = result at taken
      obtain ⟨s, _ | more⟩ := result <;> obtain ⟨rfl, rfl⟩ := Prod.mk.inj taken <;> exact Iff.rfl

/-- Whatever the workers of a server do and however they interleave: once a session has
    looked up its driver's offers, each offer that is still pending and unexpired, while the
    session runs and is the one registered, has been sent to it, or waits on its channel, or
    is on the agenda of a worker that will tell of it.  Left out are the offers that were
    created when the session was already open and whose maker tells nobody of them, or gave
    up on it. -/
theorem pending_offers_reach_session (host : Host) (forward : Monotone host.clock)
    (api : ApiState β) (sound : Sound host api.dispatch)
    (registered : api.dispatch.toLedger.Registered) (past : List Worker)
    (p : Pool (Hub β) Worker Action)
    (run : Run (server host).step anyStep (Server.start api) past p)
    (offerId : Uuid) (n : Nat) (owed : p.shared.Owes host (offerId, n)) :
    p.shared.Told (offerId, n) ∨ ∃ i, ∃ a ∈ p.agenda i, a.SeesTo (offerId, n) := by
  have nothing := accounted_start host api
  obtain ⟨late, due⟩ := owed.due
  refine ((server_remembers forward).run server_upholds (server_start sound registered) nothing
    run (offerId, n, late) due).imp_right ?_
  rintro ⟨i, a, member, serves⟩
  exact ⟨i, a, member, serves.seesTo⟩

/-- The session of driver 100 is owed the offer that was pending when it opened. -/
theorem replayed_offer_reaches_session :
    let p := Server.firstSession stillHost offeredService 100 [true, true]
    p.shared.Told (3, 0) ∨ ∃ i, ∃ a ∈ p.agenda i, a.SeesTo (3, 0) := by
  intro p
  obtain ⟨sound, registered⟩ := offeredService_ready
  obtain ⟨past, run⟩ := Server.firstSession_run offeredService 100 [true, true]
  have owed : p.shared.Owes stillHost (3, 0) := by
    refine ⟨⟨3, 1, 100, .pending, 30000000000⟩, ⟨100, .running, []⟩, ?_, rfl, ?_, ?_, ?_, rfl⟩ <;>
      decide +kernel
  have forward : Monotone stillHost.clock := monotone_const
  exact pending_offers_reach_session stillHost forward offeredService sound registered past p run
    3 0 owed

end Spatiad
