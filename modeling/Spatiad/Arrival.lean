import Spatiad.SessionOffers
import Spatiad.Foundation.Finishing

/-! # Offers arrive

Handlers come to an end, and a session writes what waits on its channel.  So where no worker
with something to do and no session with something to receive is passed over for ever, an
offer that stays open is sent on the socket of its driver, who stays connected.
-/

namespace Spatiad

open Foundation Foundation.Agendas Workers

variable {β : Type} [StorageBackend β] {host : Host}

/-! ## Handlers come to an end -/

namespace Action

/-- How many rounds of further actions an action may lead to. -/
def rank : Action → Nat
  | .sweep .. | .answer .. | .sweepAll => 2
  | .replay .. | .lookUp _ | .lookUpCancelled _ | .webhook _ => 1
  | _ => 0

theorem rank_notices {offers : List OfferRecord} {b : Action} (member : b ∈ notices offers) :
    b.rank = 1 := by
  obtain ⟨offer, _, rfl⟩ := List.mem_map.mp member
  rfl

theorem rank_lt (a : Action) (ok : Bool) (s : Hub β) {more : List Action}
    (left : (a.take host ok s).2 = some more) {b : Action} (member : b ∈ more) :
    b.rank < a.rank := by
  cases a with
  | sweep n driverId =>
      cases left
      cases List.mem_append.mp member with
      | inl notice =>
          obtain ⟨item, _, rfl⟩ := List.mem_map.mp notice
          exact Nat.zero_lt_two
      | inr new =>
          rw [rank_notices new]
          exact Nat.one_lt_two
  | replay n driverId =>
      cases left
      obtain ⟨pending, _, rfl⟩ := List.mem_map.mp member
      exact Nat.zero_lt_one
  | sendFrame n frame =>
      cases ok <;> cases left
      cases member
  | lookUp offer =>
      cases left
      obtain ⟨pending, _, rfl⟩ := Option.map_eq_some_iff.mp (Option.mem_toList.mp member)
      exact Nat.zero_lt_one
  | answer n offerId accepted =>
      simp only [Action.take] at left
      split at left
      · cases left
      · rename_i update _
        cases left
        cases List.mem_append.mp member with
        | inl new =>
            rw [rank_notices new]
            exact Nat.one_lt_two
        | inr told =>
            cases matched : update.matched with
            | none =>
                rw [matched] at told
                cases told
            | some result =>
                rw [matched, Option.elim_some] at told
                simp only [announcement, List.mem_cons, List.not_mem_nil, or_false] at told
                rcases told with rfl | rfl | rfl <;> simp [rank]
  | lookUpCancelled jobId =>
      simp only [Action.take] at left
      split at left <;> cases left
      · cases member
      · obtain rfl := List.mem_singleton.mp member
        exact Nat.zero_lt_one
  | webhook result =>
      simp only [Action.take] at left
      split at left <;> cases left
      · cases member
      · obtain rfl := List.mem_singleton.mp member
        exact Nat.zero_lt_one
  | sweepAll =>
      simp only [Action.take] at left
      split at left <;> cases left
      · cases member
      · cases List.mem_cons.mp member with
        | inl told =>
            subst told
            exact Nat.zero_lt_two
        | inr new =>
            rw [rank_notices new]
            exact Nat.one_lt_two
  | limit =>
      simp only [Action.take] at left
      split at left <;> cases left
      cases member
  | leave => cases left
  | send | sendAll | run | submit | snapshot =>
      cases left
      cases member

end Action

theorem server_finishes :
    (server host : Workers (Hub β) Worker Action).Finishes Action.rank := by
  rintro i a rest s s' agenda ⟨ok, taken⟩
  have lower := fun {more} left {b} => @Action.rank_lt β _ host a ok s more left b
  generalize a.take host ok s = result at taken lower
  obtain ⟨s₁, more⟩ := result
  cases more with
  | none =>
      obtain ⟨rfl, rfl⟩ := Prod.mk.inj taken
      exact ⟨[], [], rfl, List.nil_sublist rest, nofun⟩
  | some more =>
      obtain ⟨rfl, rfl⟩ := Prod.mk.inj taken
      exact ⟨more, rest, rfl, .refl rest, fun b member => lower rfl member⟩

/-- Whatever engine, sockets and other workers do, a worker that moves on and on becomes idle
    again and again: no handler, session message or background round goes on for ever. -/
theorem handlers_finish (host : Host) (run : (server host : Workers (Hub β) Worker Action).Endless)
    (i : Worker) (k : Nat) :
    ∃ m, k ≤ m ∧ ((run.state m).agenda i = [] ∨ ∀ l, m ≤ l → run.mover l ≠ i) :=
  server_finishes.idle_or_still run i k

/-! ## Channels -/

def Sessions.queue (sessions : Sessions) (n : Nat) : List DriverOutbound :=
  (sessions.opened[n]?).elim [] Session.queue

namespace Sessions

variable {sessions : Sessions} {n : Nat}

theorem queue_update (m : Nat) {change : Session → Session}
    (grows : ∀ session, session.queue <+: (change session).queue) :
    sessions.queue n <+: (sessions.update m change).queue n := by
  unfold queue
  rw [getElem_update]
  cases sessions.opened[n]? with
  | none => exact List.prefix_rfl
  | some session =>
      simp only [Option.map_some, Option.elim_some]
      split
      · exact grows session
      · exact List.prefix_rfl

theorem queue_send (driverId : Uuid) (outbound : DriverOutbound) :
    sessions.queue n <+: (sessions.send driverId outbound).queue n := by
  cases send_cases sessions driverId outbound with
  | inl same => rw [same]
  | inr enqueues =>
      obtain ⟨m, same⟩ := enqueues
      rw [same]
      apply queue_update
      intro session
      unfold Session.enqueue
      split
      · exact List.prefix_rfl
      · exact List.prefix_append _ _

theorem queue_sendAll (messages : List (Uuid × DriverOutbound)) :
    sessions.queue n <+: (messages.foldl (fun sessions message =>
      sessions.send message.1 message.2) sessions).queue n := by
  induction messages generalizing sessions with
  | nil => exact List.prefix_rfl
  | cons message rest ih => exact (queue_send message.1 message.2).trans ih

theorem queue_leave (m : Nat) : sessions.queue n <+: (sessions.leave m).queue n :=
  queue_update m fun _ => List.prefix_rfl

theorem queue_register (driverId : Uuid) :
    sessions.queue n <+: (sessions.register driverId).queue n := by
  unfold queue
  cases found : sessions.opened[n]? with
  | none => exact List.nil_prefix
  | some session =>
      have old : n < sessions.opened.length := (List.getElem?_eq_some_iff.mp found).1
      have still : (sessions.register driverId).opened[n]? = some session :=
        (List.getElem?_append_left old).trans found
      rw [still]

theorem queue_receive {session : Session} {outbound : DriverOutbound} {left : List DriverOutbound}
    {m : Nat} (found : sessions.opened[m]? = some session)
    (waiting : session.queue = outbound :: left) :
    sessions.queue n <+: (sessions.receive m).queue n ∨
      m = n ∧ sessions.queue n = outbound :: (sessions.receive m).queue n := by
  unfold queue receive
  rw [getElem_update]
  by_cases here : m = n
  · subst here
    refine .inr ⟨rfl, ?_⟩
    simp [found, waiting]
  · refine .inl ?_
    cases sessions.opened[n]? with
    | none => exact List.prefix_rfl
    | some other => simp [here]

end Sessions

namespace Hub

variable {s s' : Hub β} {i : Worker} {n : Nat}

theorem queue_take (a : Action) (ok : Bool) :
    s.api.sessions.queue n <+: (a.take host ok s).1.api.sessions.queue n := by
  cases a with
  | sweep | replay | lookUp | run | limit | submit | snapshot => exact List.prefix_rfl
  | sendFrame m frame =>
      cases ok with
      | false => exact Sessions.queue_leave m
      | true => exact List.prefix_rfl
  | send driverId outbound => exact Sessions.queue_send driverId outbound
  | sendAll messages => exact Sessions.queue_sendAll messages
  | leave m => exact Sessions.queue_leave m
  | answer m =>
      simp only [Action.take]
      split
      · exact Sessions.queue_leave m
      · exact List.prefix_rfl
  | lookUpCancelled | webhook | sweepAll =>
      simp only [Action.take]
      split <;> exact List.prefix_rfl

/-- What waits goes on waiting, or the session takes the first of it to its socket. -/
theorem queue_step {p p' : Pool (Hub β) Worker Action}
    (moved : (server host).step p i p') (n : Nat) :
    p.shared.api.sessions.queue n <+: p'.shared.api.sessions.queue n ∨
      ∃ outbound, p.shared.api.sessions.queue n = outbound :: p'.shared.api.sessions.queue n ∧
        p'.agenda (.session n) = [.sendFrame n (.text outbound)] := by
  cases moved with
  | @takes a rest shared agenda next taken =>
      obtain ⟨ok, taken⟩ := taken
      have grows := @queue_take β _ host p.shared n a ok
      generalize a.take host ok p.shared = result at taken grows
      obtain ⟨s, _ | more⟩ := result <;> obtain ⟨rfl, rfl⟩ := Prod.mk.inj taken <;> exact .inl grows
  | @begins shared agenda idle begun =>
      simp only [Pool.after_shared]
      cases begun with
      | request | snapshot | wakes => exact .inl List.prefix_rfl
      | opens => exact .inl (Sessions.queue_register _)
      | @receives m _ session outbound left found running waiting =>
          cases @Sessions.queue_receive _ n _ _ _ _ found waiting with
          | inl waits => exact .inl waits
          | inr takes =>
              obtain ⟨rfl, first⟩ := takes
              exact .inr ⟨outbound, first, Pool.after_agenda⟩
      | @stops m _ event sessions taken ends =>
          rcases ends with rfl | rfl | rfl
          · cases taken
            exact .inl (Sessions.queue_leave m)
          · cases taken
            exact .inl (Sessions.queue_leave m)
          · cases taken
            exact .inl (Sessions.queue_update m fun _ => List.prefix_rfl)

def Runs (s : Hub β) (n : Nat) : Prop :=
  ∃ session : Session, s.api.sessions.opened[n]? = some session ∧ session.stage = .running

/-- The offer was written on the socket, or was created when the session was already open by
    one who does not tell of it. -/
def Reached (s : Hub β) (x : Uuid × Nat) : Prop :=
  (∃ outbound : DriverOutbound, outbound.isOffer x.1 = true ∧ (x.2, .text outbound) ∈ s.sent) ∨
    x.1 ∈ s.untold ∧ s.Late x

end Hub

/-! ## Sessions that receive -/

section receiving

variable (run : (server host : Workers (Hub β) Worker Action).Endless)

/-- In step `k` session `n` takes the first message off its channel, to send it. -/
def Receives (n k : Nat) (outbound : DriverOutbound) : Prop :=
  (run.state k).shared.api.sessions.queue n =
      outbound :: (run.state (k + 1)).shared.api.sessions.queue n ∧
    (run.state (k + 1)).agenda (.session n) = [.sendFrame n (.text outbound)]

/-- A session that stays in its loop receives again while something waits. -/
def Receptive : Prop :=
  ∀ n k, (∀ m, k ≤ m → (run.state m).shared.Runs n) →
    (run.state k).shared.api.sessions.queue n ≠ [] → ∃ m outbound, k ≤ m ∧ Receives run n m outbound

variable {run} {n : Nat} {outbound : DriverOutbound}

theorem queue_kept {k m : Nat} (later : k ≤ m)
    (none_ : ∀ l, k ≤ l → l < m → ∀ outbound, ¬ Receives run n l outbound) :
    (run.state k).shared.api.sessions.queue n <+: (run.state m).shared.api.sessions.queue n := by
  induction m, later using Nat.le_induction with
  | base => exact List.prefix_rfl
  | succ m later ih =>
      have before := ih fun l after early => none_ l after (Nat.lt_succ_of_lt early)
      cases Hub.queue_step (run.moves m) n with
      | inl grows => exact before.trans grows
      | inr receives =>
          obtain ⟨outbound, first, sends⟩ := receives
          exact absurd ⟨first, sends⟩ (none_ m later (Nat.lt_succ_self m) outbound)

theorem received_sent (fair : run.Fair) {k : Nat}
    (runs : ∀ m, k ≤ m → (run.state m).shared.Runs n) (receives : Receives run n k outbound) :
    ∃ m, k ≤ m ∧ (n, .text outbound) ∈ (run.state m).shared.sent := by
  have busy : (run.state (k + 1)).agenda (.session n) ≠ [] := by
    rw [receives.2]
    exact List.cons_ne_nil _ _
  obtain ⟨m, later, mover⟩ := fair (.session n) (k + 1) busy
  obtain ⟨l, after, moves, same⟩ := run.next_move later mover
  have step := run.moves l
  have running := runs (l + 1) (by omega)
  rw [moves] at step
  refine ⟨l + 1, by omega, ?_⟩
  generalize run.state (l + 1) = p' at step running
  cases step with
  | begins idle =>
      rw [same] at idle
      exact absurd idle busy
  | @takes a rest shared agenda next taken =>
      rw [same, receives.2] at next
      obtain ⟨rfl, rfl⟩ := List.cons.inj next
      obtain ⟨ok, taken⟩ := taken
      cases ok with
      | true =>
          obtain ⟨rfl, rfl⟩ := Prod.mk.inj taken
          exact List.mem_append_right _ (List.mem_singleton_self _)
      | false =>
          -- a socket that fails ends the loop
          obtain ⟨rfl, rfl⟩ := Prod.mk.inj taken
          obtain ⟨session, found, stage⟩ := running
          have left : ((run.state l).shared.api.sessions.leave n).opened[n]? = some session := found
          rw [Sessions.leave, Sessions.getElem_update, Option.map_eq_some_iff] at left
          obtain ⟨before, _, rfl⟩ := left
          simp at stage

theorem next_received (receptive : Receptive run) {k : Nat}
    (runs : ∀ m, k ≤ m → (run.state m).shared.Runs n)
    (waits : (run.state k).shared.api.sessions.queue n ≠ []) :
    ∃ m first, k ≤ m ∧ Receives run n m first ∧
      (run.state k).shared.api.sessions.queue n <+: (run.state m).shared.api.sessions.queue n := by
  classical
  have some_time : ∃ m, k ≤ m ∧ ∃ first, Receives run n m first := by
    obtain ⟨m, first, later, receives⟩ := receptive n k runs waits
    exact ⟨m, later, first, receives⟩
  obtain ⟨later, first, receives⟩ := Nat.find_spec some_time
  refine ⟨Nat.find some_time, first, later, receives, queue_kept later ?_⟩
  intro l after before outbound earlier
  exact Nat.find_min some_time before ⟨after, outbound, earlier⟩

/-- What waits on a channel is written in the end, if the session stays in its loop: each
    message that it receives before brings this one closer. -/
theorem queued_sent (fair : run.Fair) (receptive : Receptive run) {k : Nat}
    (runs : ∀ m, k ≤ m → (run.state m).shared.Runs n) {before after : List DriverOutbound}
    (waits : (run.state k).shared.api.sessions.queue n = before ++ outbound :: after) :
    ∃ m, k ≤ m ∧ (n, .text outbound) ∈ (run.state m).shared.sent := by
  induction before generalizing k after with
  | nil =>
      obtain ⟨m, first, later, receives, more, kept⟩ :=
        next_received receptive runs (by simp [waits])
      rw [waits, receives.1] at kept
      obtain ⟨rfl, _⟩ := List.cons.inj kept
      obtain ⟨l, from_, sent⟩ := received_sent fair (fun l from_ => runs l (by omega)) receives
      exact ⟨l, later.trans from_, sent⟩
  | cons head before ih =>
      obtain ⟨m, first, later, receives, more, kept⟩ :=
        next_received receptive runs (by simp [waits])
      rw [waits, receives.1] at kept
      obtain ⟨_, closer⟩ := List.cons.inj kept
      have still : (run.state (m + 1)).shared.api.sessions.queue n =
          before ++ outbound :: (after ++ more) := by
        rw [← closer]
        simp
      obtain ⟨l, from_, sent⟩ := ih (fun l from_ => runs l (by omega)) still
      exact ⟨l, by omega, sent⟩

end receiving

/-- Wherever handlers, sessions and background rounds all go on, an offer that stays pending
    and unexpired while the session of its driver stays open is written on the socket of that
    session; left out are the offers that were created when it was already open and whose
    maker tells nobody of them, or gave up on it. -/
theorem pending_offers_sent (host : Host) (forward : Monotone host.clock) (api : ApiState β)
    (sound : Sound host api.dispatch) (registered : api.dispatch.toLedger.Registered)
    (run : (server host : Workers (Hub β) Worker Action).Endless)
    (starts : run.state 0 = Server.start api) (fair : run.Fair) (receptive : Receptive run)
    (offerId : Uuid) (n k : Nat) :
    ∃ m, k ≤ m ∧ ((run.state m).shared.Reached (offerId, n) ∨
      ¬ (run.state m).shared.Owes host (offerId, n)) := by
  by_contra never
  push Not at never
  have held : Workers.Upheld (Hub.Coherent host) (fun i a s => a.Ok host i s) (run.state 0) := by
    rw [starts]
    exact server_start sound registered
  have nothing : Workers.Accounted (Hub.Due host) Hub.Paid Action.Serves (run.state 0) := by
    rw [starts]
    exact accounted_start host api
  have sameLate : ∀ m, k ≤ m →
      ((run.state m).shared.Late (offerId, n) ↔ (run.state k).shared.Late (offerId, n)) := by
    intro m later
    induction m, later using Nat.le_induction with
    | base => exact Iff.rfl
    | succ m later ih =>
        obtain ⟨o, _, known, _⟩ := (never m later).2
        have coherent := (server_upholds.endless run held m).shared
        exact (late_step coherent (run.moves m) (by rw [known]; exact Option.some_ne_none o)).trans ih
  obtain ⟨late, _, due⟩ := (never k (Nat.le_refl k)).2.due
  obtain ⟨m, later, told | settled⟩ :=
    (server_remembers forward).settles run server_upholds server_finishes fair held nothing
      (offerId, n, late) k
  case inr => exact settled ⟨(never m later).2, due.trans (sameLate m later).symm⟩
  have runs : ∀ l, m ≤ l → (run.state l).shared.Runs n := by
    intro l after
    obtain ⟨_, session, _, _, _, _, found, running⟩ := (never l (later.trans after)).2
    exact ⟨session, found, running⟩
  rcases told with sent | ⟨session, outbound, found, waits, isOffer⟩ | untold
  · exact (never m later).1 (.inl sent)
  · have queue : (run.state m).shared.api.sessions.queue n = session.queue := by
      unfold Sessions.queue
      rw [found, Option.elim_some]
    obtain ⟨before, after, split⟩ := List.append_of_mem waits
    obtain ⟨l, after, sent⟩ := queued_sent fair receptive runs (queue.trans split)
    exact (never l (later.trans after)).1 (.inl ⟨outbound, isOffer, sent⟩)
  · exact (never m later).1 (.inr untold)

/-! ## Explicit runs -/

theorem receptive_of_drained (run : (server host : Workers (Hub β) Worker Action).Endless) (last : Nat)
    (drained : ∀ k, last ≤ k → ∀ n, (run.state k).shared.api.sessions.queue n = []) :
    Receptive run := by
  intro n k _ waits
  by_contra never
  push Not at never
  have kept := queue_kept (Nat.le_max_left k last) fun l later _ outbound => never l outbound later
  rw [drained _ (Nat.le_max_right k last) n, List.prefix_nil] at kept
  exact waits kept

/-- What a worker of an explicit run does next: a session opens, is woken by a request or
    receives, or a worker takes its next action, which succeeds. -/
inductive Cue where
  | opens (driverId : Uuid)
  | wakes (n : Nat) (request : Request)
  | receives (n : Nat)
  | acts (i : Worker)

namespace Server

section script

variable (host) (p : Pool (Hub β) Worker Action) (cues : List Cue)

def cued : Cue → Worker
  | .opens _ => .session p.shared.api.sessions.opened.length
  | .wakes n _ | .receives n => .session n
  | .acts i => i

def follow : Cue → Pool (Hub β) Worker Action
  | .opens driverId =>
      let n := p.shared.api.sessions.opened.length
      p.after (.session n) (p.shared.withSessions (p.shared.api.sessions.register driverId))
        [.sweep n driverId, .replay n driverId]
  | .wakes n request => p.after (.session n) p.shared (request.agenda host p.shared.api n)
  | .receives n =>
      p.after (.session n) (p.shared.withSessions (p.shared.api.sessions.receive n))
        ((p.shared.api.sessions.queue n).head?.map fun outbound =>
          .sendFrame n (.text outbound)).toList
  | .acts i => next host p i true

def waits (n : Nat) (meets : Session → Bool) : Bool :=
  (p.agenda (.session n)).isEmpty &&
    (p.shared.api.sessions.opened[n]?).any fun session => session.stage == .running && meets session

def ready : Cue → Bool
  | .opens _ => (p.agenda (.session p.shared.api.sessions.opened.length)).isEmpty
  | .wakes n request => waits p n fun session => request.driver == some session.driverId
  | .receives n => waits p n fun session => !session.queue.isEmpty
  | .acts i => !(p.agenda i).isEmpty

def script (k : Nat) : Pool (Hub β) Worker Action := (cues.take k).foldl (follow host) p

def readyAll (p : Pool (Hub β) Worker Action) : List Cue → Bool
  | [] => true
  | c :: rest => ready p c && readyAll (follow host p c) rest

def cuedAll (p : Pool (Hub β) Worker Action) : List Cue → List Worker
  | [] => []
  | c :: rest => cued p c :: cuedAll (follow host p c) rest

/-- The cues can be followed, and nobody has anything to do before or after. -/
structure Plays : Prop where
  before : ∀ i, p.agenda i = []
  ready : readyAll host p cues = true
  after : ((cuedAll host p cues).all fun i =>
    ((script host p cues cues.length).agenda i).isEmpty) = true

variable {host} {p} {cues}

omit [StorageBackend β] in
theorem waits_iff {n : Nat} {meets : Session → Bool} (waiting : waits p n meets = true) :
    p.agenda (.session n) = [] ∧ ∃ session : Session, p.shared.api.sessions.opened[n]? = some session ∧
      session.stage = .running ∧ meets session = true := by
  simp only [waits, Bool.and_eq_true, List.isEmpty_iff, Option.any_eq_true, beq_iff_eq] at waiting
  exact waiting

theorem follow_step {c : Cue} (isReady : ready p c = true) :
    (server host).step p (cued p c) (follow host p c) := by
  cases c with
  | opens driverId => exact .begins (List.isEmpty_iff.mp isReady) .opens
  | wakes n request =>
      obtain ⟨idle, session, found, running, own⟩ := waits_iff isReady
      exact .begins idle (.wakes found running (beq_iff_eq.mp own))
  | receives n =>
      obtain ⟨idle, session, found, running, some_⟩ := waits_iff isReady
      cases waiting : session.queue with
      | nil =>
          rw [waiting] at some_
          cases some_
      | cons outbound rest =>
          have first : (p.shared.api.sessions.queue n).head? = some outbound := by
            rw [Sessions.queue, found, Option.elim_some, waiting, List.head?_cons]
          simp only [follow, first]
          exact .begins idle (.receives found running waiting)
  | acts i =>
      simp only [follow, next]
      cases agenda : p.agenda i with
      | nil =>
          simp only [ready, agenda] at isReady
          cases isReady
      | cons a rest => exact .takes agenda ⟨true, rfl⟩

theorem follow_other {c : Cue} {i : Worker} (other : i ≠ cued p c) :
    (follow host p c).agenda i = p.agenda i := by
  cases c with
  | acts j =>
      simp only [follow, next]
      cases p.agenda j with
      | nil => rfl
      | cons a rest => exact Pool.after_other other
  | _ => exact Pool.after_other other

theorem ready_at (readies : readyAll host p cues = true) {k : Nat} (short : k < cues.length) :
    ready (script host p cues k) cues[k] = true := by
  induction cues generalizing p k with
  | nil => cases short
  | cons c rest ih =>
      obtain ⟨first, later⟩ := Bool.and_eq_true_iff.mp readies
      cases k with
      | zero => exact first
      | succ k => exact ih later (Nat.lt_of_succ_lt_succ short)

theorem foldl_other {i : Worker} (other : i ∉ cuedAll host p cues) :
    (cues.foldl (follow host) p).agenda i = p.agenda i := by
  induction cues generalizing p with
  | nil => rfl
  | cons c rest ih =>
      obtain ⟨notFirst, notLater⟩ := not_or.mp (List.mem_cons.not.mp other)
      exact (ih notLater).trans (follow_other notFirst)

theorem Plays.idle (plays : Plays host p cues) (i : Worker) :
    (script host p cues cues.length).agenda i = [] := by
  by_cases has : i ∈ cuedAll host p cues
  · exact List.isEmpty_iff.mp (List.all_eq_true.mp plays.after i has)
  · rw [script, List.take_length, foldl_other has, plays.before]

theorem script_succ {k : Nat} (short : k < cues.length) :
    script host p cues (k + 1) = follow host (script host p cues k) cues[k] := by
  rw [script, List.take_succ_eq_append_getElem short, List.foldl_append]
  rfl

theorem script_last {k : Nat} (long : cues.length ≤ k) :
    script host p cues k = script host p cues cues.length := by
  rw [script, script, List.take_of_length_le long, List.take_length]

theorem probe_step (idle : p.agenda (.handler 0) = []) : (server host).step p (.handler 0) p := by
  have same : p.after (.handler 0) p.shared [] = p := by
    rw [Pool.after, ← idle, Function.update_eq_self]
  have probed : (server host).step p (.handler 0) (p.after (.handler 0) p.shared []) :=
    .begins idle (@begins.request β host 0 p.shared .probe rfl)
  rwa [same] at probed

/-- The cues are followed, then probes come for ever. -/
def scriptRun (plays : Plays host p cues) : (server host : Workers (Hub β) Worker Action).Endless where
  state := script host p cues
  mover k := (cues[k]?).elim (.handler 0) (cued (script host p cues k))
  moves k := by
    by_cases short : k < cues.length
    · rw [script_succ short, List.getElem?_eq_getElem short]
      exact follow_step (ready_at plays.ready short)
    · have long := Nat.le_of_not_lt short
      rw [script_last long, script_last (Nat.le_succ_of_le long), List.getElem?_eq_none long]
      exact probe_step (plays.idle _)

theorem scriptRun_still (plays : Plays host p cues) {k : Nat} (late : cues.length ≤ k) :
    (scriptRun plays).state k = script host p cues cues.length := script_last late

theorem scriptRun_fair (plays : Plays host p cues) : (scriptRun plays).Fair :=
  .of_rest cues.length fun k late i => by rw [scriptRun_still plays late, plays.idle]

theorem scriptRun_receptive (plays : Plays host p cues)
    (drained : ((script host p cues cues.length).shared.api.sessions.opened.all fun session =>
      session.queue.isEmpty) = true) : Receptive (scriptRun plays) := by
  refine receptive_of_drained _ cues.length fun k late n => ?_
  rw [scriptRun_still plays late, Sessions.queue]
  cases found : (script host p cues cues.length).shared.api.sessions.opened[n]? with
  | none => rfl
  | some session =>
      exact List.isEmpty_iff.mp (List.all_eq_true.mp drained session (List.mem_of_getElem? found))

end script

end Server

/-- Driver 101 has been offered job 1, and driver 100 is there too. -/
def rivalService : ApiState InMemoryBackend :=
  serviceAfter stillHost [comesOnline 100, comesOnline 101, .submitJob (jobAtOrigin 1)] []

theorem rivalService_ready :
    Sound stillHost rivalService.dispatch ∧ rivalService.dispatch.toLedger.Registered := by
  let ops := [comesOnline 100, comesOnline 101, .submitJob (jobAtOrigin 1)]
  have reached : Run (serviceStep stillHost) anyStep emptyService _
      (performAll stillHost emptyService ops).2 :=
    performAll_run ops (permitted_any emptyService [] ops) .start
  exact ⟨(sound_withStorage 8 InMemoryBackend.mk 0).run reached, registered_run reached⟩

/-- Both drivers connect, driver 101 refuses, and the next offer waits for driver 100. -/
def refusal : List Cue :=
  [.opens 100, .acts (.session 0), .acts (.session 0), .opens 101, .acts (.session 1),
    .acts (.session 1), .acts (.session 1),
    .wakes 1 (.driverMessage 101 (.text (some (.offerResponse 4 false)))), .acts (.session 1),
    .acts (.session 1), .acts (.session 1), .acts (.session 1), .receives 0, .acts (.session 0)]

theorem refusal_plays : Server.Plays stillHost (Server.start rivalService) refusal where
  before _ := rfl
  ready := by decide +kernel
  after := by decide +kernel

def refusalRun : (server stillHost : Workers (Hub InMemoryBackend) Worker Action).Endless :=
  Server.scriptRun refusal_plays

/-- While driver 101 is being answered, it is seen to that this comes to an end. -/
theorem refusal_finishes :
    (refusalRun.state 9).agenda (.session 1) ≠ [] ∧
      ∃ m, 9 ≤ m ∧ ((refusalRun.state m).agenda (.session 1) = [] ∨
        ∀ l, m ≤ l → refusalRun.mover l ≠ .session 1) :=
  ⟨by decide +kernel, handlers_finish stillHost refusalRun (.session 1) 9⟩

/-- The offer that waits for driver 100 is written on the socket. -/
theorem waiting_offer_sent :
    (refusalRun.state 12).shared.api.sessions.queue 0 = [.offer 13 1 ⟨0, 0⟩ none 30000000000] ∧
      ∃ m, 12 ≤ m ∧ (refusalRun.state m).shared.Reached (13, 0) := by
  obtain ⟨sound, registered⟩ := rivalService_ready
  have forward : Monotone stillHost.clock := monotone_const
  let offer := DriverOutbound.offer 13 1 ⟨0, 0⟩ none 30000000000
  have owes : ∀ m, 12 ≤ m → (refusalRun.state m).shared.Owes stillHost (13, 0) := by
    have open_ : ∀ m queue, m = 12 ∧ queue = [offer] ∨ (m = 13 ∨ m = 14) ∧ queue = [] →
        (refusalRun.state m).shared.Owes stillHost (13, 0) := by
      rintro m queue (⟨rfl, rfl⟩ | ⟨rfl | rfl, rfl⟩)
      · refine ⟨⟨13, 1, 100, .pending, 30000000000⟩, ⟨100, .running, [offer]⟩, ?_, rfl, ?_, ?_, ?_,
          rfl⟩ <;> decide +kernel
      · refine ⟨⟨13, 1, 100, .pending, 30000000000⟩, ⟨100, .running, []⟩, ?_, rfl, ?_, ?_, ?_,
          rfl⟩ <;> decide +kernel
      · refine ⟨⟨13, 1, 100, .pending, 30000000000⟩, ⟨100, .running, []⟩, ?_, rfl, ?_, ?_, ?_,
          rfl⟩ <;> decide +kernel
    intro m later
    by_cases late : 14 ≤ m
    · have still : refusalRun.state m = refusalRun.state 14 := Server.scriptRun_still refusal_plays late
      exact still ▸ open_ 14 [] (.inr ⟨.inr rfl, rfl⟩)
    · by_cases first : m = 12
      · exact open_ m [offer] (.inl ⟨first, rfl⟩)
      · exact open_ m [] (.inr ⟨.inl (by omega), rfl⟩)
  have receptive : Receptive refusalRun :=
    Server.scriptRun_receptive refusal_plays (by decide +kernel)
  obtain ⟨m, later, sent | closed⟩ := pending_offers_sent stillHost forward rivalService sound
    registered refusalRun rfl (Server.scriptRun_fair refusal_plays) receptive 13 0 12
  · exact ⟨by decide +kernel, m, later, sent⟩
  · exact absurd (owes m later) closed

end Spatiad
