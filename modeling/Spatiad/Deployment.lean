import Spatiad.CrashRuns
import Spatiad.ServerRuns
import Spatiad.Foundation.Tokens

/-! # Deployments

Servers that come up one after another on a backend that outlives them.  A server dies
between two actions or in the middle of one, and its sessions, its channels and the agendas
of its workers go with it.  The next one starts by recovery.  What sockets took and what a
webhook was called for is out of the server's hands, so it has to stay true of whatever is
recovered.
-/

namespace Spatiad

open Foundation Foundation.Agendas

variable {β : Type}

/-! ## What leaves a server -/

/-- What the sockets took, with the driver of each session. -/
def Hub.messages (s : Hub β) : List (Uuid × DriverOutbound) :=
  s.sent.filterMap fun
    | (n, .text outbound) =>
        (s.api.sessions.opened[n]?).map fun session => (session.driverId, outbound)
    | _ => none

/-- The matches an action calls the webhook for, if one is configured. -/
def Action.announces (s : Hub β) : Action → List MatchResult
  | .webhook result => if s.api.webhookUrl.isSome then [result] else []
  | _ => []

/-! ## Deployments -/

/-- A server, running or gone, and what it and those before it let out. -/
structure Deployment (β : Type) where
  pool : Pool (Hub (Crashing β)) Worker Action
  alive : Bool
  /-- What the sockets of former servers took. -/
  told : List (Uuid × DriverOutbound)
  /-- The matches that a webhook was called for. -/
  announced : List MatchResult

/-- What happens to a deployment; `calls` is the number of storage calls after which the
    server dies. -/
inductive Incident where
  | works (i : Worker)
  | dies (i : Worker) (calls : Nat)
  | stops
  | restarts (calls : Option Nat)

namespace Deployment

def messages (d : Deployment β) : List (Uuid × DriverOutbound) := d.told ++ d.pool.shared.messages

def engine (d : Deployment β) : Engine (Crashing β) := d.pool.shared.api.dispatch

variable [StorageBackend β]

def history (d : Deployment β) : Ledger := d.engine.storage.replayed

def world (d : Deployment β) : World β := ⟨d.engine, d.alive⟩

def start (api : ApiState (Crashing β)) : Deployment β := ⟨Server.start api, false, [], []⟩

end Deployment

def Hub.limited (s : Hub (Crashing β)) (calls : Option Nat) : Hub (Crashing β) :=
  s.withDispatch (s.api.dispatch.limited calls)

variable [StorageBackend β]

inductive deploymentStep (host : Host) : Deployment β → Incident → Deployment β → Prop where
  | begins {d i shared agenda} (up : d.alive = true) (idle : d.pool.agenda i = [])
      (begun : begins host i d.pool.shared shared agenda) :
      deploymentStep host d (.works i) { d with pool := d.pool.after i shared agenda }
  | takes {d i a rest ok shared agenda} (up : d.alive = true) (next : d.pool.agenda i = a :: rest)
      (taken : proceed rest (a.take host ok d.pool.shared) = (shared, agenda)) :
      deploymentStep host d (.works i)
        { d with
          pool := d.pool.after i shared agenda
          announced := d.announced ++ a.announces d.pool.shared }
  /-- Nobody goes on after the action that the server dies in. -/
  | dies {d i a rest ok calls} (up : d.alive = true) (next : d.pool.agenda i = a :: rest) :
      deploymentStep host d (.dies i calls)
        { d with
          pool := ⟨(a.take host ok (d.pool.shared.limited (some calls))).1, fun _ => []⟩
          alive := false
          announced := d.announced ++ a.announces d.pool.shared }
  | stops {d} (up : d.alive = true) :
      deploymentStep host d .stops
        { d with
          pool := ⟨d.pool.shared, fun _ => []⟩
          alive := false }
  /-- The configuration is that of the new server. -/
  | restarts {d h3Resolution calls} {api : ApiState (Crashing β)} (down : d.alive = false)
      (recovered : Engine.recover host h3Resolution (d.engine.storage.limited calls)
        d.engine.tick = .ok api.dispatch) :
      deploymentStep host d (.restarts calls)
        { d with
          pool := Server.start api
          alive := calls.isNone
          told := d.messages }

/-! ## What an action makes of the engine -/

variable {host : Host}

/-- Operations that a server comes to: of jobs, only what was checked is submitted. -/
def Op.Admitted (host : Host) : Op → Prop
  | .submitJob job => ∃ payload : OfferRequest, payload.validate host = .ok () ∧
      ∃ createdAt, job = payload.job createdAt
  | _ => True

inductive Engine.Touches (host : Host) (e : Engine β) : Engine β → Prop where
  | kept : Touches host e e
  | draws : Touches host e e.drawn
  | snapshot : Touches host e e.createSnapshot.1
  | performs (op : Op) (admitted : op.Admitted host) : Touches host e (perform host e op).1
  | drawsAndPerforms (op : Op) (admitted : op.Admitted host) :
      Touches host e (perform host e.drawn op).1

/-- Whatever becomes of its socket, an action does one thing to the engine. -/
theorem Action.touches {a : Action} {i : Worker} {s : Hub β} (relies : a.Ok host i s) (ok : Bool) :
    s.api.dispatch.Touches host (a.take host ok s).1.api.dispatch := by
  cases a with
  | sweep n driverId => exact .performs (.expirePendingOffersForDriver driverId) trivial
  | replay | lookUp | send | sendAll | leave => exact .kept
  | sendFrame => cases ok <;> exact .kept
  | answer n offerId accepted =>
      have performed : s.api.dispatch.Touches host
          (perform host s.api.dispatch (.handleOfferResponse offerId accepted)).1 :=
        .performs _ trivial
      simp only [Action.take]
      simp only [perform] at performed
      split <;> rename_i result <;> rw [result] at performed <;> exact performed
  | lookUpCancelled | webhook =>
      simp only [Action.take]
      split <;> exact .kept
  | run op =>
      refine .performs op ?_
      cases op with
      | submitJob => exact absurd trivial relies
      | _ => trivial
  | limit => exact .draws
  | submit payload =>
      exact .drawsAndPerforms (.submitJob (payload.job (host.clock s.api.dispatch.tick)))
        ⟨payload, relies, _, rfl⟩
  | sweepAll =>
      simp only [Action.take]
      split <;> exact .performs .expirePendingOffersGlobal trivial
  | snapshot => exact .snapshot

namespace Engine.Touches

variable {e e' : Engine (Crashing β)} {P : Ledger → Prop}

theorem continues (touches : e.Touches host e') (sound : Sound host e) :
    Crashing.Continues e.storage e'.storage := by
  have performs : ∀ {e : Engine (Crashing β)}, Sound host e → ∀ op,
      Crashing.Continues e.storage (perform host e op).1.storage := by
    intro e sound op
    obtain ⟨log, trace⟩ := perform_trace sound.keyed sound.ids op
    exact Engine.trace_storage (fun _ _ _ continues => continues.appendWal _ _)
      (fun _ _ _ continues => continues.call _) trace (.refl _)
  cases touches with
  | kept | draws => exact .refl _
  | snapshot =>
      exact Engine.createSnapshot_storage (fun _ _ continues => continues.call _)
        (fun _ _ continues => continues.call _) (.refl _)
  | performs op => exact performs sound op
  | drawsAndPerforms op =>
      have drawn : Sound host e.drawn := (GoesOn.drawn sound).sound
      exact performs drawn op

variable [LawfulBackend β]

theorem logged (touches : e.Touches host e') (logged : Logged host P e) (sound : Sound host e)
    (synced : e.toLedger = e.storage.replayed ∧ e.walSequence = e.storage.issued.length)
    (preserved : ∀ s₀ op s cmd, op.Admitted host → P s → Issues s₀ op s cmd → P (s.apply cmd)) :
    Logged host P e' := by
  have performs : ∀ {e : Engine (Crashing β)}, Logged host P e → Sound host e → ∀ op,
      op.Admitted host → Logged host P (perform host e op).1 := by
    intro e logged sound op admitted
    obtain ⟨log, trace⟩ := perform_trace sound.keyed sound.ids op
    exact logged.trace trace fun s cmd _ => preserved _ _ s cmd admitted
  have drawn : Logged host P e.drawn :=
    logged.same_history (.refl _) (Nat.le_succ _) fun _ => ⟨rfl, rfl⟩
  cases touches with
  | kept => exact logged
  | draws => exact drawn
  | snapshot => exact logged.createSnapshot synced
  | performs op admitted => exact performs logged sound op admitted
  | drawsAndPerforms op admitted => exact performs drawn (GoesOn.drawn sound).sound op admitted

end Engine.Touches

omit [StorageBackend β] in
theorem Hub.limited_moves {s : Hub (Crashing β)} (coherent : Coherent host s) (calls : Option Nat) :
    Moves host s (s.limited calls) :=
  .withDispatch coherent (.of_ledger coherent.sound.dispatch rfl (Nat.le_refl _))

/-! ## Histories move forward -/

namespace Ledger

/-- The match is of an offer that is accepted. -/
def HasMatched (s : Ledger) (result : MatchResult) : Prop :=
  ∃ o, s.offers.lookup result.offerId = some o ∧ o.driverId = result.driverId ∧
    o.jobId = result.jobId ∧ o.status = .accepted

/-- The match is of an offer that was accepted once, and perhaps withdrawn since. -/
def Confirms (s : Ledger) (won : Uuid → Prop) (result : MatchResult) : Prop :=
  won result.offerId ∧ ∃ o, s.offers.lookup result.offerId = some o ∧
    o.driverId = result.driverId ∧ o.jobId = result.jobId ∧
    (o.status = .accepted ∨ o.status = .cancelled)

theorem Confirms.stable {s s' : Ledger} {won won' : Uuid → Prop} (become : s.OffersBecome s')
    (kept : ∀ k, won k → won' k) {result : MatchResult} (confirmed : s.Confirms won result) :
    s'.Confirms won' result := by
  obtain ⟨once, o, found, own, ofJob, status⟩ := confirmed
  obtain ⟨o', found', becomes⟩ := become result.offerId o found
  exact ⟨kept _ once, o', found', becomes.driverId.trans own, becomes.jobId.trans ofJob,
    becomes.closed OfferStatus.noConfusion status⟩

/-- From `s` on, offers moved forward, and they still belong to jobs. -/
structure LeadsTo (s s' : Ledger) : Prop where
  offers : s.OffersBecome s'
  registered : s'.Registered

namespace LeadsTo

variable {s s' : Ledger}

theorem refl (registered : s.Registered) : s.LeadsTo s :=
  ⟨fun _ o found => ⟨o, found, .refl o⟩, registered⟩

theorem issued {s₀ : Ledger} {op : Op} {cmd : Command} (leads : s.LeadsTo s')
    (issues : Issues s₀ op s' cmd) : s.LeadsTo (s'.apply cmd) where
  registered := registered_issued leads.registered issues
  offers k o found := by
    obtain ⟨o', found', becomes⟩ := leads.offers k o found
    obtain ⟨o'', found'', becomes'⟩ := becomes_issued issues found'
    exact ⟨o'', found'', becomes.trans becomes'⟩

end LeadsTo

end Ledger

/-- At some point of the history the offer was accepted. -/
def Crashing.HasAccepted (d : Crashing β) (offerId : Uuid) : Prop :=
  ∃ earlier, earlier <+: d.issued ∧
    ∃ o, (Ledger.empty.replay earlier).offers.lookup offerId = some o ∧ o.status = .accepted

omit [StorageBackend β] in
theorem Crashing.HasAccepted.grown {d d' : Crashing β} (grows : d.appended <+: d'.appended)
    {offerId : Uuid} (once : d.HasAccepted offerId) : d'.HasAccepted offerId := by
  obtain ⟨earlier, begins, accepted⟩ := once
  exact ⟨earlier, begins.trans (grows.map Prod.snd), accepted⟩

namespace Deployment

variable [LawfulBackend β] {d d' : Deployment β} {x : Incident}

/-- The engine is touched, or touched for the last time, or recovered. -/
inductive Passes (host : Host) (d d' : Deployment β) : Prop where
  | works (up : d.alive = true) (touched : d.engine.Touches host d'.engine)
  | dies (up : d.alive = true) (down : d'.alive = false) (calls : Nat)
      (touched : (d.engine.limited (some calls)).Touches host d'.engine)
  | restarts {h3Resolution : Nat} {calls : Option Nat} (down : d.alive = false)
      (alive : d'.alive = calls.isNone)
      (recovered : Engine.recover host h3Resolution (d.engine.storage.limited calls)
        d.engine.tick = .ok d'.engine)

def Backed (host : Host) (d : Deployment β) : Prop :=
  d.world.Logged host Ledger.Registered

def Working (host : Host) (d : Deployment β) : Prop :=
  d.alive = true → Workers.Upheld (Hub.Coherent host) (fun i a s => a.Ok host i s) d.pool

omit [LawfulBackend β] in
theorem passes (working : d.Working host) (taken : deploymentStep host d x d') :
    d.Passes host d' := by
  cases taken with
  | @begins i shared agenda up idle begun =>
      have same : shared.api.dispatch = d.engine := by
        cases begun <;> rfl
      refine .works up ?_
      simp only [engine, Pool.after_shared, same]
      exact .kept
  | @takes i a rest ok shared agenda up next taken =>
      have relies := (working up).agenda i a (next ▸ List.mem_cons_self)
      have touched : d.engine.Touches host (a.take host ok d.pool.shared).1.api.dispatch :=
        Action.touches relies ok
      refine .works up ?_
      simp only [engine, Pool.after_shared]
      generalize a.take host ok d.pool.shared = result at taken touched
      obtain ⟨s, _ | more⟩ := result <;> obtain ⟨rfl, rfl⟩ := Prod.mk.inj taken <;> exact touched
  | @dies i a rest ok calls up next =>
      have relies := ((working up).agenda i a (next ▸ List.mem_cons_self)).stable
        (Hub.limited_moves (working up).shared (some calls))
      exact .dies up rfl calls (Action.touches relies ok)
  | stops up => exact .works up .kept
  | restarts down recovered => exact .restarts down rfl recovered

/-- What the commands of a server preserve holds of the history after every step. -/
theorem history_holds {P : Ledger → Prop} (backed : d.Backed host) (working : d.Working host)
    (taken : deploymentStep host d x d') (held : P d.history)
    (preserved : ∀ s₀ op s cmd, op.Admitted host → P s → Issues s₀ op s cmd → P (s.apply cmd)) :
    d'.world.Logged host P := by
  have here : d.world.Logged host P := backed.also held
  cases passes working taken with
  | works up touched =>
      have sound : Sound host d.engine := backed.sound up
      exact ⟨touched.logged here.logged sound (here.synced up) preserved,
        fun _ => (touched.continues sound).unlimited (here.living up)⟩
  | dies up down calls touched =>
      have synced := here.synced up
      have limited : Logged host P (d.engine.limited (some calls)) := here.logged.limited synced _
      have sound : Sound host (d.engine.limited (some calls)) :=
        ⟨(backed.sound up).keyed, (backed.sound up).ids⟩
      refine ⟨touched.logged limited sound synced preserved, fun up => ?_⟩
      cases down.symm.trans up
  | @restarts h3Resolution calls down alive recovered =>
      have turn : worldStep host d.world (.recover calls) d'.world := by
        rw [world, world, down, alive]
        exact .recover recovered
      exact here.step turn fun op calls reply same => by cases same

theorem record_grows (backed : d.Backed host) (working : d.Working host)
    (taken : deploymentStep host d x d') :
    d.engine.storage.appended <+: d'.engine.storage.appended := by
  cases passes working taken with
  | works up touched => exact (touched.continues (backed.sound up)).grows
  | dies up down calls touched =>
      have sound : Sound host (d.engine.limited (some calls)) :=
        ⟨(backed.sound up).keyed, (backed.sound up).ids⟩
      exact (touched.continues sound).grows
  | @restarts h3Resolution calls down alive recovered =>
      have turn : worldStep host d.world (.recover calls) d'.world := by
        rw [world, world, down, alive]
        exact .recover recovered
      exact backed.grows turn

theorem history_leads (backed : d.Backed host) (working : d.Working host)
    (taken : deploymentStep host d x d') : d'.Backed host ∧ d.history.LeadsTo d'.history := by
  have forward : ∀ s₀ op s cmd, op.Admitted host → d.history.LeadsTo s → Issues s₀ op s cmd →
      d.history.LeadsTo (s.apply cmd) := fun _ _ _ _ _ leads issues => leads.issued issues
  have leads := history_holds backed working taken (.refl backed.logged.held) forward
  exact ⟨leads.also leads.logged.held.registered, leads.logged.held⟩

end Deployment

/-! ## What was said -/

namespace Hub

variable {s s' : Hub β} {driverId : Uuid} {outbound : DriverOutbound}

omit [StorageBackend β] in
theorem mem_messages : (driverId, outbound) ∈ s.messages ↔
    ∃ n, (n, .text outbound) ∈ s.sent ∧ s.Speaks n driverId := by
  simp only [messages, List.mem_filterMap]
  constructor
  · rintro ⟨⟨n, frame⟩, sent, shown⟩
    cases frame with
    | pong => cases shown
    | text =>
        obtain ⟨session, found, same⟩ := Option.map_eq_some_iff.mp shown
        obtain ⟨rfl, rfl⟩ := Prod.mk.inj same
        exact ⟨n, sent, session, found, rfl⟩
  · rintro ⟨n, sent, session, found, rfl⟩
    exact ⟨(n, .text outbound), sent, Option.map_eq_some_iff.mpr ⟨session, found, rfl⟩⟩

omit [StorageBackend β] in
/-- What sockets took was true, if it was shown to the right sessions. -/
theorem messages_warranted (moves : ∀ n driverId, s.Speaks n driverId → s'.Speaks n driverId)
    (sent : ∀ n outbound, (n, .text outbound) ∈ s'.sent → s.Shows n outbound)
    (member : (driverId, outbound) ∈ s'.messages) : s.Warrants driverId outbound := by
  obtain ⟨n, shown, session, found, rfl⟩ := mem_messages.mp member
  obtain ⟨driverId, speaks, warranted⟩ := sent n outbound shown
  obtain ⟨session', found', rfl⟩ := moves n driverId speaks
  obtain rfl := Option.some.inj (found.symm.trans found')
  exact warranted

theorem shown_before (coherent : Coherent host s) {i : Worker} {a : Action}
    (relies : a.Ok host i s) {ok : Bool} {n : Nat}
    (sent : (n, .text outbound) ∈ (a.take host ok s).1.sent) : s.Shows n outbound := by
  cases a with
  | sendFrame m frame =>
      cases ok with
      | false => exact coherent.sent n outbound sent
      | true =>
          cases List.mem_append.mp sent with
          | inl old => exact coherent.sent n outbound old
          | inr new =>
              obtain ⟨rfl, same⟩ := Prod.mk.inj (List.mem_singleton.mp new)
              exact relies.2 outbound same.symm
  | answer | lookUpCancelled | webhook | sweepAll =>
      simp only [Action.take] at sent
      split at sent <;> exact coherent.sent n outbound sent
  | _ => exact coherent.sent n outbound sent

end Hub

/-! ## Matches to announce -/

/-- The match that an action will call the webhook for. -/
def Action.results : Action → List MatchResult
  | .webhook result => [result]
  | _ => []

namespace Action

omit [StorageBackend β] in
theorem announces_sublist (s : Hub β) (a : Action) : (a.announces s).Sublist a.results := by
  cases a with
  | webhook result =>
      simp only [announces, Action.results]
      split
      · exact .refl _
      · exact List.nil_sublist _
  | _ => exact .refl _

theorem tokens_map {α : Type} (items : List α) (act : α → Action)
    (none_ : ∀ item, (act item).results = []) : tokens Action.results (items.map act) = [] := by
  unfold tokens
  rw [List.flatMap_map]
  exact List.flatMap_eq_nil_iff.mpr fun item _ => none_ item

theorem tokens_notices (offers : List OfferRecord) :
    tokens Action.results (notices offers) = [] := tokens_map offers .lookUp fun _ => rfl

/-- A match that an action puts on its agenda was just made, of an offer that was pending. -/
theorem new_matches (a : Action) (ok : Bool) (s : Hub β) {more : List Action}
    (left : (a.take host ok s).2 = some more) :
    ∃ new : Option MatchResult, tokens Action.results more = new.toList ∧ ∀ result ∈ new,
      (∃ o, s.api.dispatch.offers.lookup result.offerId = some o ∧ o.status = .pending) ∧
        (a.take host ok s).1.api.dispatch.toLedger.HasMatched result := by
  have nothing : tokens Action.results more = [] →
      ∃ new : Option MatchResult, tokens Action.results more = new.toList ∧ ∀ result ∈ new,
        (∃ o, s.api.dispatch.offers.lookup result.offerId = some o ∧ o.status = .pending) ∧
          (a.take host ok s).1.api.dispatch.toLedger.HasMatched result :=
    fun same => ⟨none, same, fun _ member => by cases member⟩
  cases a with
  | sweep n driverId =>
      cases left
      apply nothing
      rw [tokens_append, tokens_notices, List.append_nil]
      exact tokens_map _ _ fun _ => rfl
  | replay n driverId =>
      cases left
      exact nothing (tokens_map _ _ fun _ => rfl)
  | sendFrame n frame =>
      cases ok <;> cases left
      exact nothing rfl
  | lookUp offer =>
      cases left
      apply nothing
      cases List.find? _ (s.api.dispatch.pendingOffersForDriver host offer.driverId) <;> rfl
  | answer n offerId accepted =>
      have response := handleOfferResponse_response host s.api.dispatch offerId accepted
      simp only [Action.take] at left ⊢
      generalize DispatchService.handleOfferResponse host s.api.dispatch offerId accepted = result
        at response left ⊢
      obtain ⟨e', reply⟩ := result
      cases reply with
      | error => cases left
      | ok update =>
          cases left
          refine ⟨update.matched, ?_, ?_⟩
          · rw [tokens_append, tokens_notices, List.nil_append]
            cases update.matched <;> rfl
          · intro result matched
            obtain ⟨o, found, own, ofJob, pending, won⟩ := match_accepted response matched
            exact ⟨⟨o, found, pending⟩, _, won, own, ofJob, rfl⟩
  | lookUpCancelled | webhook =>
      simp only [Action.take] at left
      split at left <;> cases left <;> exact nothing rfl
  | sweepAll =>
      simp only [Action.take] at left
      split at left <;> cases left
      · exact nothing rfl
      · exact nothing (tokens_notices _)
  | limit =>
      simp only [Action.take] at left
      split at left <;> cases left
      exact nothing rfl
  | leave => cases left
  | send | sendAll | run | submit | snapshot =>
      cases left
      exact nothing rfl

omit [StorageBackend β] in
theorem begun_results {s s' : Hub β} {i : Worker} {agenda : List Action}
    (begun : begins host i s s' agenda) : tokens Action.results agenda = [] := by
  have requested : ∀ (request : Request) (n : Nat),
      tokens Action.results (request.agenda host s.api n) = [] := by
    intro request n
    unfold Request.agenda
    split <;> repeat' split
    all_goals rfl
  cases begun with
  | request => exact requested _ _
  | wakes => exact requested _ _
  | snapshot | opens | receives | stops => rfl

end Action

namespace Deployment

/-! ## What holds of a deployment -/

def Issued (result : MatchResult) (s : Hub (Crashing β)) : Prop :=
  s.api.dispatch.storage.replayed.Confirms s.api.dispatch.storage.HasAccepted result

omit [StorageBackend β] in
theorem hasAccepted_now {storage : Crashing β} {offerId : Uuid} {o : OfferRecord}
    (found : storage.replayed.offers.lookup offerId = some o) (accepted : o.status = .accepted) :
    storage.HasAccepted offerId := ⟨storage.issued, List.prefix_rfl, o, found, accepted⟩

structure Steady [LawfulBackend β] (host : Host) (d : Deployment β) : Prop where
  backed : d.Backed host
  working : d.Working host
  told : ∀ driverId outbound, (driverId, outbound) ∈ d.messages →
    d.history.Warrants d.engine.storage.HasAccepted driverId outbound
  won : d.alive = true → ∀ k ∈ d.pool.shared.won, d.engine.storage.HasAccepted k
  announced : Exclusive Action.results MatchResult.offerId Issued d.pool d.announced

namespace Steady

variable [LawfulBackend β] {d d' : Deployment β} {x : Incident}

theorem synced (steady : d.Steady host) (up : d.alive = true) :
    d.engine.toLedger = d.history := (steady.backed.synced up).1

theorem told_before (steady : d.Steady host) (up : d.alive = true) {s : Hub (Crashing β)}
    (moves : ∀ n driverId, d.pool.shared.Speaks n driverId → s.Speaks n driverId)
    (sent : ∀ n outbound, (n, .text outbound) ∈ s.sent → d.pool.shared.Shows n outbound)
    (driverId : Uuid) (outbound : DriverOutbound)
    (member : (driverId, outbound) ∈ d.told ++ s.messages) :
    d.history.Warrants d.engine.storage.HasAccepted driverId outbound := by
  cases List.mem_append.mp member with
  | inl old => exact steady.told driverId outbound (List.mem_append_left _ old)
  | inr new =>
      rw [← steady.synced up]
      exact (Hub.messages_warranted moves sent new).imp (steady.won up)

/-- An action uses up the match it announces, and may be given one that was just made. -/
theorem announces (steady : d.Steady host) {i : Worker} {a : Action} {rest agenda : List Action}
    {ok : Bool} {shared : Hub (Crashing β)} (up : d.alive = true)
    (next : d.pool.agenda i = a :: rest)
    (taken : proceed rest (a.take host ok d.pool.shared) = (shared, agenda))
    (leads : d.history.OffersBecome shared.api.dispatch.storage.replayed)
    (grows : d.engine.storage.appended <+: shared.api.dispatch.storage.appended)
    (synced : shared.api.dispatch.toLedger = shared.api.dispatch.storage.replayed) :
    Exclusive Action.results MatchResult.offerId Issued (d.pool.after i shared agenda)
      (d.announced ++ a.announces d.pool.shared) := by
  have stable : ∀ result, Issued result d.pool.shared → Issued result shared :=
    fun result issued => issued.stable leads fun _ once => once.grown grows
  have held : tokens Action.results (d.pool.agenda i) =
      a.results ++ tokens Action.results rest := by
    rw [next, tokens_cons]
  have uses := a.announces_sublist d.pool.shared
  have fresh := @Action.new_matches (Crashing β) _ host a ok d.pool.shared
  generalize a.take host ok d.pool.shared = result at taken fresh
  obtain ⟨s, more⟩ := result
  cases more with
  | none =>
      obtain ⟨rfl, rfl⟩ := Prod.mk.inj taken
      have given : tokens Action.results [] = [] ++ [] := rfl
      have kept : (a.announces d.pool.shared ++ []).Sublist
          (tokens Action.results (d.pool.agenda i)) := by
        rw [held, List.append_nil]
        exact uses.trans (List.sublist_append_left _ _)
      exact steady.announced.moved stable given kept nofun nofun .nil
  | some more =>
      obtain ⟨rfl, rfl⟩ := Prod.mk.inj taken
      obtain ⟨new, given, made⟩ := fresh rfl
      have given : tokens Action.results (more ++ rest) =
          new.toList ++ tokens Action.results rest := by
        rw [tokens_append, given]
      have kept : (a.announces d.pool.shared ++ tokens Action.results rest).Sublist
          (tokens Action.results (d.pool.agenda i)) := by
        rw [held]
        exact uses.append (.refl _)
      apply steady.announced.moved stable given kept
      case issued =>
        intro result member
        obtain ⟨_, o, found, own, ofJob, accepted⟩ := made result (Option.mem_toList.mp member)
        have found : s.api.dispatch.toLedger.offers.lookup result.offerId = some o := found
        rw [synced] at found
        exact ⟨hasAccepted_now found accepted, o, found, own, ofJob, .inl accepted⟩
      case fresh =>
        -- what was announced before is of an offer that was not pending
        intro result member other same issued
        obtain ⟨o, found, pending⟩ := (made result (Option.mem_toList.mp member)).1
        obtain ⟨_, o', found', _, _, status⟩ := issued
        have ledger : d.pool.shared.api.dispatch.toLedger = _ := steady.synced up
        rw [ledger] at found
        rw [same] at found'
        obtain rfl := Option.some.inj (found.symm.trans found')
        grind
      case distinct => cases new <;> simp

theorem working_step (steady : d.Steady host) (backed : d'.Backed host)
    (taken : deploymentStep host d x d') : d'.Working host := by
  intro up
  cases taken with
  | begins _ idle begun => exact (server_upholds.step (steady.working ‹_›) (.begins idle begun)).2
  | takes _ next taken =>
      exact (server_upholds.step (steady.working ‹_›) (.takes next ⟨_, taken⟩)).2
  | dies | stops => cases up
  | @restarts h3Resolution calls api down recovered =>
      have ledger : api.dispatch.toLedger = api.dispatch.storage.replayed := (backed.synced up).1
      have registered : api.dispatch.toLedger.Registered := by
        rw [ledger]
        exact backed.logged.held
      exact server_start (backed.sound up) registered

theorem told_step (steady : d.Steady host) (taken : deploymentStep host d x d') {driverId : Uuid}
    {outbound : DriverOutbound} (member : (driverId, outbound) ∈ d'.messages) :
    d.history.Warrants d.engine.storage.HasAccepted driverId outbound := by
  cases taken with
  | @begins i shared agenda up idle begun =>
      have held := steady.working up
      obtain ⟨moves, _⟩ := begins_ok held.shared begun
      apply steady.told_before up moves.speaks _ driverId outbound member
      intro n outbound sent
      have before : (n, .text outbound) ∈ d.pool.shared.sent := by cases begun <;> exact sent
      exact held.shared.sent n outbound before
  | @takes i a rest ok shared agenda up next taken =>
      have held := steady.working up
      have relies := held.agenda i a (next ▸ List.mem_cons_self)
      obtain ⟨moves, _⟩ := Hub.taken held.shared relies ok
      have shown : ∀ n outbound, (n, .text outbound) ∈ (a.take host ok d.pool.shared).1.sent →
          d.pool.shared.Shows n outbound :=
        fun n outbound => Hub.shown_before held.shared relies
      generalize a.take host ok d.pool.shared = result at taken moves shown
      obtain ⟨s, _ | more⟩ := result <;> obtain ⟨rfl, rfl⟩ := Prod.mk.inj taken <;>
        exact steady.told_before up moves.speaks shown driverId outbound member
  | @dies i a rest ok calls up next =>
      have held := steady.working up
      have limits := Hub.limited_moves held.shared (some calls)
      have relies := (held.agenda i a (next ▸ List.mem_cons_self)).stable limits
      obtain ⟨moves, _⟩ := Hub.taken limits.coherent relies ok
      apply steady.told_before up moves.speaks _ driverId outbound member
      exact fun n outbound sent => Hub.shown_before limits.coherent relies sent
  | stops => exact steady.told driverId outbound member
  | restarts =>
      cases List.mem_append.mp member with
      | inl old => exact steady.told driverId outbound old
      | inr new => cases new

theorem won_step (steady : d.Steady host) (backed : d'.Backed host)
    (grows : d.engine.storage.appended <+: d'.engine.storage.appended)
    (taken : deploymentStep host d x d') (up : d'.alive = true) {k : Uuid}
    (won : k ∈ d'.pool.shared.won) : d'.engine.storage.HasAccepted k := by
  have synced : d'.engine.toLedger = d'.engine.storage.replayed := (backed.synced up).1
  cases taken with
  | @begins i shared agenda up idle begun =>
      have before : k ∈ d.pool.shared.won := by cases begun <;> exact won
      exact (steady.won up k before).grown grows
  | @takes i a rest ok shared agenda up next taken =>
      have new := @Hub.take_won (Crashing β) _ host d.pool.shared a ok k
      have now : k ∈ d.pool.shared.won ∨ ∃ o, shared.api.dispatch.offers.lookup k = some o ∧
          o.status = .accepted := by
        simp only [Pool.after_shared] at won
        generalize a.take host ok d.pool.shared = result at taken new
        obtain ⟨s, _ | more⟩ := result <;> obtain ⟨rfl, rfl⟩ := Prod.mk.inj taken <;> exact new won
      cases now with
      | inl before => exact (steady.won up k before).grown grows
      | inr accepted =>
          obtain ⟨o, found, accepted⟩ := accepted
          have found : shared.api.dispatch.toLedger.offers.lookup k = some o := found
          rw [engine, Pool.after_shared] at synced
          rw [synced] at found
          exact hasAccepted_now found accepted
  | dies | stops => cases up
  | restarts => cases won

theorem announced_step (steady : d.Steady host) (backed : d'.Backed host)
    (leads : d.history.OffersBecome d'.history)
    (grows : d.engine.storage.appended <+: d'.engine.storage.appended)
    (taken : deploymentStep host d x d') :
    Exclusive Action.results MatchResult.offerId Issued d'.pool d'.announced := by
  have stable : ∀ result, Issued result d.pool.shared → Issued result d'.pool.shared :=
    fun result issued => issued.stable leads fun _ once => once.grown grows
  cases taken with
  | @begins i shared agenda up idle begun =>
      exact steady.announced.emptied stable (Action.begun_results begun)
  | takes up next taken => exact steady.announces up next taken leads grows (backed.synced up).1
  | @dies i a rest ok calls up next =>
      have uses : (a.announces d.pool.shared).Sublist
          (tokens Action.results (d.pool.agenda i)) := by
        rw [next, tokens_cons]
        exact (a.announces_sublist _).trans (List.sublist_append_left _ _)
      apply Exclusive.idle
      case issued =>
        intro result member
        apply stable result
        cases List.mem_append.mp member with
        | inl old => exact steady.announced.issued result old
        | inr new => exact steady.announced.held i result (uses.subset new)
      case once => exact (steady.announced.apart i).sublist (.append (.refl _) uses)
      case none_ => exact fun _ => rfl
  | stops => exact .idle steady.announced.issued steady.announced.once fun _ => rfl
  | restarts =>
      exact .idle (fun result member => stable result (steady.announced.issued result member))
        steady.announced.once fun _ => rfl

theorem step (steady : d.Steady host) (taken : deploymentStep host d x d') : d'.Steady host := by
  obtain ⟨backed, leads⟩ := history_leads steady.backed steady.working taken
  have grows := record_grows steady.backed steady.working taken
  constructor
  case backed => exact backed
  case working => exact steady.working_step backed taken
  case told =>
    intro driverId outbound member
    exact (steady.told_step taken member).stable leads.offers fun _ once => once.grown grows
  case won => exact fun up k => steady.won_step backed grows taken up
  case announced => exact steady.announced_step backed leads.offers grows taken

theorem start {h3Resolution : Nat} {storage : β} {tick : Nat} {api : ApiState (Crashing β)}
    (blank : LawfulBackend.disk storage = WriteAheadLog.Disk.empty)
    (engine : api.dispatch = Engine.withStorage h3Resolution ⟨storage, none, []⟩ tick) :
    (Deployment.start api).Steady host where
  backed := by
    have world : (Deployment.start api).world = World.start h3Resolution storage tick :=
      congrArg (fun e => (⟨e, false⟩ : World β)) engine
    unfold Backed
    rw [world]
    exact World.logged_start h3Resolution tick blank Ledger.registered_empty
  working := Bool.noConfusion
  told _ _ := nofun
  won _ _ := nofun
  announced := .idle nofun .nil fun _ => rfl

theorem run {past : List Incident} (steady : d.Steady host)
    (run : Run (deploymentStep host) anyStep d past d') : d'.Steady host :=
  run.state_invariant (Steady host) steady fun _ _ _ steady taken => steady.step taken

end Steady

/-! ## Explicit runs -/

section explicit

variable (host) (d : Deployment β)

/-- A worker takes its next actions, one for each outcome. -/
def works (d : Deployment β) (i : Worker) (oks : List Bool) : Deployment β :=
  oks.foldl (fun d ok =>
    match d.pool.agenda i with
    | [] => d
    | a :: rest =>
        let (shared, agenda) := proceed rest (a.take host ok d.pool.shared)
        { d with
          pool := d.pool.after i shared agenda
          announced := d.announced ++ a.announces d.pool.shared }) d

def given (i : Worker) (shared : Hub (Crashing β)) (agenda : List Action) : Deployment β :=
  { d with pool := d.pool.after i shared agenda }

def asked (i : Worker) (n : Nat) (request : Request) : Deployment β :=
  d.given i d.pool.shared (request.agenda host d.pool.shared.api n)

/-- The server comes up on what can be recovered, with its configuration unchanged. -/
def restarted : Deployment β :=
  { d with
    pool := Server.start { d.pool.shared.api with dispatch := d.engine.recovered host }
    alive := true
    told := d.messages }

def bounced : Deployment β :=
  restarted host { d with
    pool := ⟨d.pool.shared, fun _ => []⟩
    alive := false }

variable {host} {d} {first : Deployment β}

/-- A run leads to `d`, whose server is running. -/
def Lives (host : Host) (first d : Deployment β) : Prop :=
  d.alive = true ∧ ∃ past, Run (deploymentStep host) anyStep first past d

theorem Lives.works (lives : Lives host first d) (i : Worker) (oks : List Bool) :
    Lives host first (d.works host i oks) := by
  apply List.foldlRecOn (motive := Lives host first) oks
  · exact lives
  · rintro d ⟨up, past, run⟩ ok -
    cases agenda : d.pool.agenda i with
    | nil => exact ⟨up, past, run⟩
    | cons a rest => exact ⟨up, _, run.next trivial (.takes up agenda rfl)⟩

theorem Lives.given (lives : Lives host first d) {i : Worker} {shared : Hub (Crashing β)}
    {agenda : List Action} (idle : d.pool.agenda i = [])
    (begun : begins host i d.pool.shared shared agenda) :
    Lives host first (d.given i shared agenda) := by
  obtain ⟨up, past, run⟩ := lives
  exact ⟨up, _, run.next trivial (.begins up idle begun)⟩

theorem Lives.asked (lives : Lives host first d) {k : Nat} (idle : d.pool.agenda (.handler k) = [])
    {request : Request} (http : request.driver = none) :
    Lives host first (d.asked host (.handler k) 0 request) := lives.given idle (.request http)

theorem Lives.woken (lives : Lives host first d) {n : Nat} {session : Session}
    (idle : d.pool.agenda (.session n) = []) {request : Request}
    (found : d.pool.shared.api.sessions.opened[n]? = some session)
    (running : session.stage = .running) (own : request.driver = some session.driverId) :
    Lives host first (d.asked host (.session n) n request) :=
  lives.given idle (.wakes found running own)

variable [LawfulBackend β]

/-- A server can always come up. -/
theorem restarted_step (backed : d.Backed host) (down : d.alive = false) :
    deploymentStep host d (.restarts none) (d.restarted host) := by
  obtain ⟨e, ok, _⟩ := backed.recover 8 none
  have ok : Engine.recover host 8 (d.engine.storage.limited none) d.engine.tick = .ok e := ok
  have recovers : Engine.recover host 8 (d.engine.storage.limited none) d.engine.tick =
      .ok (d.engine.recovered host) := by
    unfold Engine.recovered
    rw [ok]
  exact .restarts down recovers

theorem Lives.bounced (lives : Lives host first d) (steady : first.Steady host) :
    Lives host first (d.bounced host) := by
  obtain ⟨up, past, run⟩ := lives
  have stopped := run.next trivial (.stops up)
  exact ⟨rfl, _, stopped.next trivial (restarted_step (steady.run stopped).backed rfl)⟩

end explicit

/-- A server with a webhook and without tokens, on a blank database. -/
def blankDeployment : Deployment SqliteBackend :=
  .start
    { dispatch := Engine.withStorage 8 ⟨SqliteBackend.blank, none, []⟩ 0
      webhookUrl := some "http://localhost/matches"
      dispatcherToken := none
      dispatchRateLimiter := .new 60 60
      sessions := .empty }

/-- Driver 100 reports where it is, and job 1 is offered to it. -/
def offeredDeployment : Deployment SqliteBackend :=
  let d := blankDeployment.restarted stillHost
  let d := d.given (.session 0) (d.pool.shared.withSessions
    (d.pool.shared.api.sessions.register 100)) [.sweep 0 100, .replay 0 100]
  let d := d.works stillHost (.session 0) [true, true]
  let d := d.asked stillHost (.session 0) 0
    (.driverMessage 100 (.text (some (.location "tow_truck" .available 0 0 0))))
  let d := d.works stillHost (.session 0) [true]
  let d := d.asked stillHost (.handler 0) 0
    (.dispatchOffer (fun _ => none) ⟨1, "tow_truck", ⟨0, 0⟩, none, 1, 2, 30⟩)
  d.works stillHost (.handler 0) [true, true]

/-- It accepts, and the webhook is called; then the server is replaced. -/
def matchedDeployment : Deployment SqliteBackend :=
  let d := offeredDeployment.asked stillHost (.session 0) 0
    (.driverMessage 100 (.text (some (.offerResponse 6 true))))
  (d.works stillHost (.session 0) [true, true, true, true, true]).bounced stillHost

theorem blankDeployment_steady : blankDeployment.Steady stillHost :=
  @Steady.start _ _ _ _ 8 SqliteBackend.blank 0 _ rfl rfl

theorem offeredDeployment_lives : Lives stillHost blankDeployment offeredDeployment := by
  have up : Lives stillHost blankDeployment (blankDeployment.restarted stillHost) :=
    ⟨rfl, _, Run.start.next trivial (restarted_step blankDeployment_steady.backed rfl)⟩
  have opens := (up.given rfl (@begins.opens _ stillHost _ 100)).works (.session 0) [true, true]
  have reports := (@Lives.woken _ _ _ _ _ opens 0 ⟨100, .running, []⟩ (by decide +kernel)
    (.driverMessage 100 (.text (some (.location "tow_truck" .available 0 0 0))))
    (by decide +kernel) rfl rfl).works (.session 0) [true]
  exact (@Lives.asked _ _ _ _ _ reports 0 (by decide +kernel)
    (.dispatchOffer (fun _ => none) ⟨1, "tow_truck", ⟨0, 0⟩, none, 1, 2, 30⟩)
    rfl).works (.handler 0) [true, true]

theorem matchedDeployment_follows {first : Deployment SqliteBackend}
    (lives : Lives stillHost first offeredDeployment) (steady : first.Steady stillHost) :
    Lives stillHost first matchedDeployment := by
  have answers := (@Lives.woken _ _ _ _ _ lives 0 ⟨100, .running, []⟩ (by decide +kernel)
    (.driverMessage 100 (.text (some (.offerResponse 6 true)))) (by decide +kernel) rfl
    rfl).works (.session 0) [true, true, true, true, true]
  exact answers.bounced steady

theorem matchedDeployment_lives : Lives stillHost blankDeployment matchedDeployment :=
  matchedDeployment_follows offeredDeployment_lives blankDeployment_steady

/-! ## Whole lives of a deployment -/

/-- However often servers die and come up again, whatever a driver was ever told is true of
    the one that is running: it knows each offer as that driver's, for that job and with that
    deadline, and what was told to be expired or cancelled never opens again.  A match alone,
    which whoever answers is told, may be of an offer to another driver; that offer was
    accepted once, and is accepted or withdrawn now. -/
theorem told_drivers_true [LawfulBackend β] (host : Host) (h3Resolution : Nat) (storage : β)
    (tick : Nat) (blank : LawfulBackend.disk storage = WriteAheadLog.Disk.empty)
    (api : ApiState (Crashing β))
    (engine : api.dispatch = Engine.withStorage h3Resolution ⟨storage, none, []⟩ tick)
    (past : List Incident) (d : Deployment β)
    (run : Run (deploymentStep host) anyStep (Deployment.start api) past d) (up : d.alive = true)
    (driverId : Uuid) (outbound : DriverOutbound) (told : (driverId, outbound) ∈ d.messages) :
    d.engine.toLedger.Warrants d.engine.storage.HasAccepted driverId outbound := by
  have steady : d.Steady host := (Steady.start blank engine).run run
  rw [steady.synced up]
  exact steady.told driverId outbound told

/-- The new server knows of the match that the old one told driver 100 of. -/
theorem told_match_survives :
    (100, .matched 6 1) ∈ matchedDeployment.messages ∧
      matchedDeployment.engine.toLedger.Warrants matchedDeployment.engine.storage.HasAccepted 100
        (.matched 6 1) := by
  have told : (100, .matched 6 1) ∈ matchedDeployment.messages := by decide +kernel
  obtain ⟨up, past, run⟩ := matchedDeployment_lives
  refine ⟨told, ?_⟩
  exact told_drivers_true stillHost 8 SqliteBackend.blank 0 rfl _ rfl past _ run up 100 _ told

/-- No match is announced twice, whatever servers die in between, and every match that was
    announced is of an offer that was accepted once and that the running server knows as
    accepted, or as withdrawn since, by its driver and for its job. -/
theorem matches_announced_once [LawfulBackend β] (host : Host) (h3Resolution : Nat) (storage : β)
    (tick : Nat) (blank : LawfulBackend.disk storage = WriteAheadLog.Disk.empty)
    (api : ApiState (Crashing β))
    (engine : api.dispatch = Engine.withStorage h3Resolution ⟨storage, none, []⟩ tick)
    (past : List Incident) (d : Deployment β)
    (run : Run (deploymentStep host) anyStep (Deployment.start api) past d) :
    (d.announced.Pairwise fun result other => result.offerId ≠ other.offerId) ∧
      (d.alive = true → ∀ result ∈ d.announced,
        d.engine.toLedger.Confirms d.engine.storage.HasAccepted result) := by
  have steady : d.Steady host := (Steady.start blank engine).run run
  refine ⟨steady.announced.once, fun up result member => ?_⟩
  rw [steady.synced up]
  exact steady.announced.issued result member

/-- The webhook was called for offer 6. -/
theorem announced_match_survives :
    matchedDeployment.announced = [⟨1, 100, 6, 0⟩] ∧
      matchedDeployment.engine.toLedger.Confirms matchedDeployment.engine.storage.HasAccepted
        ⟨1, 100, 6, 0⟩ := by
  have announced : matchedDeployment.announced = [⟨1, 100, 6, 0⟩] := by decide +kernel
  obtain ⟨up, past, run⟩ := matchedDeployment_lives
  obtain ⟨_, confirmed⟩ :=
    matches_announced_once stillHost 8 SqliteBackend.blank 0 rfl _ rfl past _ run
  refine ⟨announced, confirmed up _ ?_⟩
  rw [announced]
  exact List.mem_singleton_self _

end Deployment

end Spatiad
