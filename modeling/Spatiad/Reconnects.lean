import Spatiad.Sessions
import Spatiad.Foundation.Runs

/-! # Reconnects

Two sessions of one driver overlap whenever it reconnects over a half-open
connection.  The newer one lives on unless the older cleans up after it.
-/

namespace Spatiad

open Foundation

namespace Sessions

/-- Session `n` of some driver, with no later one of the same driver. -/
structure Latest (s : Sessions) (n : Nat) (session : Session) : Prop where
  found : s.opened[n]? = some session
  last : ∀ m later, n < m → s.opened[m]? = some later → later.driverId ≠ session.driverId

variable {s : Sessions} {n m : Nat} {session : Session}

theorem driverId_changed {change : Session → Session}
    (sameDriver : ∀ session, (change session).driverId = session.driverId) (i : Nat)
    (session : Session) : (if m = i then change session else session).driverId = session.driverId := by
  split
  · exact sameDriver session
  · rfl

theorem Latest.of_update {change : Session → Session}
    (latest : (s.update m change).Latest n session)
    (sameDriver : ∀ session, (change session).driverId = session.driverId) :
    ∃ before, s.Latest n before ∧ session = if m = n then change before else before := by
  have found := latest.found
  rw [getElem_update, Option.map_eq_some_iff] at found
  obtain ⟨before, there, rfl⟩ := found
  refine ⟨before, ⟨there, ?_⟩, rfl⟩
  intro k later above stored
  have other := latest.last k (if m = k then change later else later) above (by
    rw [getElem_update, stored, Option.map_some])
  rwa [driverId_changed sameDriver, driverId_changed sameDriver] at other

theorem Latest.update (latest : s.Latest n session) {change : Session → Session}
    (sameDriver : ∀ session, (change session).driverId = session.driverId) :
    (s.update m change).Latest n (if m = n then change session else session) := by
  refine ⟨by rw [getElem_update, latest.found, Option.map_some], ?_⟩
  intro k later above stored
  rw [getElem_update, Option.map_eq_some_iff] at stored
  obtain ⟨before, there, rfl⟩ := stored
  rw [driverId_changed sameDriver, driverId_changed sameDriver]
  exact latest.last k before above there

theorem Latest.of_register {driverId : Uuid} (latest : (s.register driverId).Latest n session) :
    (n = s.opened.length ∧ session = ⟨driverId, .running, []⟩) ∨
      s.Latest n session ∧ session.driverId ≠ driverId := by
  obtain ⟨found, last⟩ := latest
  simp only [register] at found last
  rcases Nat.lt_trichotomy n s.opened.length with old | rfl | beyond
  · rw [List.getElem?_append_left old] at found
    refine .inr ⟨⟨found, ?_⟩, ?_⟩
    · intro m later above stored
      have within : m < s.opened.length := (List.getElem?_eq_some_iff.mp stored).1
      exact last m later above (by rw [List.getElem?_append_left within, stored])
    · exact (last s.opened.length ⟨driverId, .running, []⟩ old (by simp)).symm
  · rw [List.getElem?_concat_length] at found
    exact .inl ⟨rfl, (Option.some.inj found).symm⟩
  · rw [List.getElem?_eq_none (by simp; omega)] at found
    cases found

end Sessions

/-- As long as the latest session of a driver has not failed, it runs and its sender
    is the registered one. -/
def Survives (past : List SessionEvent) (s : Sessions) : Prop :=
  ∀ n session, s.Latest n session → .fail n ∉ past →
    session.stage = .running ∧ s.senders.lookup session.driverId = some n

/-- No session cleans up while another one, the latest of its driver, has not failed. -/
def Undisturbed (past : List SessionEvent) (s : Sessions) : SessionEvent → Prop
  | .cleanup m => ∀ own n session, s.opened[m]? = some own → s.Latest n session →
      session.driverId = own.driverId → n = m ∨ .fail n ∈ past
  | _ => True

namespace Survives

variable {past : List SessionEvent} {s s' : Sessions} {event : SessionEvent}

theorem start : Survives [] Sessions.empty := by
  intro n session latest
  have found := latest.found
  simp [Sessions.empty] at found

theorem step (survives : Survives past s) (undisturbed : Undisturbed past s event)
    (taken : sessionStep s event s') : Survives (past ++ [event]) s' := by
  intro n session latest unfailed
  have unfailedBefore : .fail n ∉ past := fun earlier => unfailed (List.mem_append_left _ earlier)
  cases taken with
  | @register driverId =>
      rcases latest.of_register with ⟨rfl, rfl⟩ | ⟨before, other⟩
      · exact ⟨rfl, AList.lookup_insert _⟩
      · obtain ⟨running, registered⟩ := survives n session before unfailedBefore
        exact ⟨running, (AList.lookup_insert_ne other).trans registered⟩
  | @fail m own found isRunning =>
      obtain ⟨before, latestBefore, rfl⟩ := latest.of_update fun _ => rfl
      have other : m ≠ n := by
        rintro rfl
        exact unfailed (List.mem_append_right _ List.mem_cons_self)
      rw [if_neg other]
      exact survives n before latestBefore unfailedBefore
  | @closed m own found isRunning drained dropped =>
      obtain ⟨before, latestBefore, rfl⟩ := latest.of_update fun _ => rfl
      obtain ⟨running, registered⟩ := survives n before latestBefore unfailedBefore
      have other : m ≠ n := by
        rintro rfl
        obtain rfl := Option.some.inj (found.symm.trans latestBefore.found)
        exact dropped registered
      rw [if_neg other]
      exact ⟨running, registered⟩
  | @cleanup m own found leaving =>
      obtain ⟨before, ⟨there, last⟩, rfl⟩ := latest.of_update fun _ => rfl
      have latestBefore : s.Latest n before := ⟨there, last⟩
      obtain ⟨running, registered⟩ := survives n before latestBefore unfailedBefore
      have other : m ≠ n := by
        rintro rfl
        obtain rfl := Option.some.inj (found.symm.trans there)
        rw [running] at leaving
        cases leaving
      rw [if_neg other]
      refine ⟨running, ?_⟩
      have apart : before.driverId ≠ own.driverId := by
        intro same
        rcases undisturbed own n before found latestBefore same with rfl | failed
        · exact other rfl
        · exact unfailedBefore failed
      exact (AList.lookup_erase_ne apart).trans registered
  | @send driverId outbound =>
      rcases s.send_cases driverId outbound with same | ⟨m, same⟩
      · rw [same] at latest ⊢
        exact survives n session latest unfailedBefore
      · rw [same] at latest ⊢
        obtain ⟨before, latestBefore, rfl⟩ := latest.of_update (Session.enqueue_driverId outbound)
        obtain ⟨running, registered⟩ := survives n before latestBefore unfailedBefore
        by_cases here : m = n
        · rw [if_pos here, Session.enqueue_stage, Session.enqueue_driverId]
          exact ⟨running, registered⟩
        · rw [if_neg here]
          exact ⟨running, registered⟩
  | @receive m own found isRunning waiting =>
      obtain ⟨before, latestBefore, rfl⟩ := latest.of_update fun _ => rfl
      obtain ⟨running, registered⟩ := survives n before latestBefore unfailedBefore
      by_cases here : m = n
      · rw [if_pos here]
        exact ⟨running, registered⟩
      · rw [if_neg here]
        exact ⟨running, registered⟩

/-- A clean-up after the latest session takes its sender with it. -/
theorem disturbed (taken : sessionStep s event s') (disturbing : ¬Undisturbed past s event) :
    ¬Survives (past ++ [event]) s' := by
  intro survives
  cases taken with
  | register | fail | closed | send | receive => exact disturbing trivial
  | @cleanup m own found leaving =>
      apply disturbing
      intro own' n session found' latest sameDriver
      obtain rfl := Option.some.inj (found.symm.trans found')
      by_contra neither
      obtain ⟨other, unfailed⟩ := not_or.mp neither
      let ended (session : Session) : Session := { session with stage := .ended }
      have after : (s.update m ended).Latest n _ := latest.update fun _ => rfl
      rw [if_neg (Ne.symm other)] at after
      have unfailed' : .fail n ∉ past ++ [.cleanup m] := by
        intro member
        rcases List.mem_append.mp member with earlier | last
        · exact unfailed earlier
        · cases List.mem_singleton.mp last
      obtain ⟨_, registered⟩ := survives n session ⟨after.found, after.last⟩ unfailed'
      have removed : (s.cleanup m own.driverId).senders.lookup session.driverId = none := by
        rw [sameDriver]
        exact AList.lookup_erase _ _
      rw [removed] at registered
      cases registered

end Survives

/-- The latest session of a driver survives every reconnect in which no superseded
    session is still to clean up: in a run without such clean-ups it does in every
    state, and a further step keeps it so iff it is no such clean-up. -/
theorem sessions_survive_reconnects (past : List SessionEvent) (s : Sessions)
    (run : Run sessionStep Undisturbed Sessions.empty past s) :
    Survives past s ∧ ∀ event s', sessionStep s event s' →
      (Survives (past ++ [event]) s' ↔ Undisturbed past s event) := by
  have survives : Survives past s :=
    run.invariant Survives Survives.start fun past s event s' survives undisturbed taken =>
      survives.step undisturbed taken
  refine ⟨survives, fun event s' taken => ⟨?_, fun undisturbed => survives.step undisturbed taken⟩⟩
  intro after
  by_contra disturbing
  exact Survives.disturbed taken disturbing after

/-- A driver whose first session is gone before it reconnects. -/
theorem reconnect_after_cleanup :
    Survives [.register 7, .fail 0, .cleanup 0, .register 7]
      ⟨(∅ : HashMap Uuid Nat).insert 7 1, [⟨7, .ended, []⟩, ⟨7, .running, []⟩]⟩ := by
  let s₁ := Sessions.empty.register 7
  let s₂ := s₁.leave 0
  let s₃ := s₂.cleanup 0 7
  have first : sessionStep Sessions.empty (.register 7) s₁ := .register
  have second : sessionStep s₁ (.fail 0) s₂ := @sessionStep.fail s₁ 0 ⟨7, .running, []⟩ rfl rfl
  have third : sessionStep s₂ (.cleanup 0) s₃ :=
    @sessionStep.cleanup s₂ 0 ⟨7, .leaving, []⟩ rfl rfl
  have fourth : sessionStep s₃ (.register 7) (s₃.register 7) := .register
  have alone : Undisturbed [.register 7, .fail 0] s₂ (.cleanup 0) := by
    intro own n session _ latest _
    have bound : n < 1 := (List.getElem?_eq_some_iff.mp latest.found).1
    exact .inl (Nat.lt_one_iff.mp bound)
  have run : Run sessionStep Undisturbed Sessions.empty _ (s₃.register 7) :=
    (((Run.start.next (by trivial) first).next (by trivial) second).next alone third).next
      (by trivial) fourth
  exact (sessions_survive_reconnects _ _ run).1

/-- A driver reconnects over a half-open connection: the first session finds its
    channel closed, and its clean-up removes the sender of the second. -/
theorem reconnect_lost :
    ¬∀ past s, Run sessionStep anyStep Sessions.empty past s → Survives past s := by
  intro all
  let s₁ := Sessions.empty.register 7
  let s₂ := s₁.register 7
  let s₃ := s₂.leave 0
  let s₄ := s₃.cleanup 0 7
  have first : sessionStep Sessions.empty (.register 7) s₁ := .register
  have second : sessionStep s₁ (.register 7) s₂ := .register
  have third : sessionStep s₂ (.closed 0) s₃ :=
    @sessionStep.closed s₂ 0 ⟨7, .running, []⟩ rfl rfl rfl (by decide +kernel)
  have fourth : sessionStep s₃ (.cleanup 0) s₄ :=
    @sessionStep.cleanup s₃ 0 ⟨7, .leaving, []⟩ rfl rfl
  have run : Run sessionStep anyStep Sessions.empty _ s₄ :=
    (((Run.start.next trivial first).next trivial second).next trivial third).next trivial fourth
  have latest : s₄.Latest 1 ⟨7, .running, []⟩ := by
    refine ⟨rfl, fun m later above found => ?_⟩
    have bound : m < 2 := (List.getElem?_eq_some_iff.mp found).1
    omega
  have registered := (all _ _ run 1 _ latest (by decide)).2
  exact absurd registered (by decide +kernel)

end Spatiad
