import Spatiad.ServiceRuns

/-! # Terminal statuses

Every command that closes an offer asks for a pending one, except the one a
withdrawal logs.  A run that withdraws no settled offer keeps them all.
-/

namespace Spatiad

open Foundation

def OfferStatus.terminal : OfferStatus → Bool
  | .accepted | .rejected | .expired => true
  | .pending | .cancelled => false

namespace Ledger

def KeepsTerminal (s₀ s : Ledger) : Prop :=
  ∀ k o, s₀.offers.lookup k = some o → o.status.terminal = true → s.offers.lookup k = some o

theorem keepsTerminal_refl (s : Ledger) : s.KeepsTerminal s := fun _ _ found _ => found

theorem KeepsTerminal.trans {s₀ s s' : Ledger} (first : s₀.KeepsTerminal s)
    (second : s.KeepsTerminal s') : s₀.KeepsTerminal s' := by
  intro k o found settled
  exact second k o (first k o found settled) settled

end Ledger

def WithdrawsOpenOffer (s : Ledger) : Op → Prop
  | .cancelOffer offerId => ∀ o, s.offers.lookup offerId = some o → o.status.terminal = false
  | _ => True

theorem pending_ne_terminal {s : Ledger} {k : Uuid} {o o' : OfferRecord}
    (found : s.offers.lookup k = some o) (settled : o.status.terminal = true)
    (found' : s.offers.lookup k = some o') : o'.status ≠ .pending := by
  obtain rfl := Option.some.inj (found.symm.trans found')
  intro pending
  rw [pending] at settled
  cases settled

theorem keepsTerminal_issued {s₀ s : Ledger} {op : Op} {cmd : Command}
    (opened : WithdrawsOpenOffer s₀ op) (issued : Issues s₀ op s cmd) :
    s.KeepsTerminal (s.apply cmd) := by
  intro k o found settled
  by_cases creates : ∃ offer, cmd = .createOffer offer
  · obtain ⟨offer, rfl⟩ := creates
    rw [Ledger.lookup_createOffer, if_neg]
    · exact found
    · rintro rfl
      rw [issued.fresh.unused] at found
      cases found
  · have unchanged : s.newStatus cmd k o = o.status := by
      have change := Ledger.rewritten s cmd k o
      generalize s.newStatus cmd k o = status at change
      cases change with
      | kept => rfl
      | swept pending => exact absurd pending (pending_ne_terminal found settled found)
      | accepted =>
          cases issued with
          | accept selected pending =>
              exact absurd pending (pending_ne_terminal found settled selected)
      | rejected =>
          cases issued with
          | reject selected pending =>
              exact absurd pending (pending_ne_terminal found settled selected)
      | expired =>
          cases issued with
          | expire _ due pending => exact absurd pending (pending_ne_terminal found settled due)
      | withdrawn =>
          cases issued with
          | withdraw =>
              rw [opened o found] at settled
              cases settled
    rw [Ledger.lookup_apply s fun offer same => creates ⟨offer, same⟩, found, Option.map_some,
      unchanged]

variable {β : Type} [StorageBackend β] {host : Host}

theorem keepsTerminal_step {e e' : DispatchService β} {x : Exchange} (sound : Sound host e)
    (opened : WithdrawsOpenOffer e.toLedger x.1) (taken : serviceStep host e x e') :
    e.toLedger.KeepsTerminal e'.toLedger :=
  sound.step_invariant taken _ (Ledger.keepsTerminal_refl _) fun _ _ _ kept issued =>
    kept.trans (keepsTerminal_issued opened issued)

theorem keepsTerminal_run {e e' : DispatchService β} {past : List Exchange} (sound : Sound host e)
    (run : Run (serviceStep host) (fun _ e x => WithdrawsOpenOffer e.toLedger x.1) e past e') :
    e.toLedger.KeepsTerminal e'.toLedger := by
  refine run.invariant_under (Sound host) (fun _ e' => e.toLedger.KeepsTerminal e'.toLedger) sound
    (fun _ _ _ sound taken => sound.step taken) (Ledger.keepsTerminal_refl _) ?_
  intro _ s x s' sound kept opened taken
  exact kept.trans (keepsTerminal_step sound opened taken)

omit [StorageBackend β] in
theorem matched_accepted {e : Engine β} (keyed : e.toLedger.Keyed) {jobId driverId offerId : Uuid}
    (reported : e.jobDispatchState host jobId = .matched driverId offerId) :
    ∃ o, e.offers.lookup offerId = some o ∧ o.status = .accepted := by
  unfold Engine.jobDispatchState at reported
  split at reported
  · cases reported
  · simp only at reported
    split at reported
    · cases reported
    · split at reported
      · rename_i accepted found
        cases reported
        have isAccepted := List.find?_some found
        have member := List.mem_of_mem_filter (List.mem_of_find?_eq_some found)
        obtain ⟨k, stored⟩ := (HashMap.mem_iter (host.order_perm e.tick)).mp member
        refine ⟨accepted, ?_, by simpa using isAccepted⟩
        have key := keyed k accepted stored
        subst key
        exact stored
      · split at reported
        · cases reported
        · split at reported <;> cases reported

/-- From any reachable state, while no withdrawal names a settled offer, settled
    offers keep their status; a reported match stays an accepted offer. -/
theorem terminal_offers_final (host : Host) (h3Resolution : Nat) (storage : β) (tick : Nat)
    (past later : List Exchange) (e e' : DispatchService β)
    (reached : Run (serviceStep host) anyStep (Engine.withStorage h3Resolution storage tick) past e)
    (continued : Run (serviceStep host) (fun _ e x => WithdrawsOpenOffer e.toLedger x.1) e later e') :
    (∀ k o, e.offers.lookup k = some o → o.status.terminal = true →
        ∃ o', e'.offers.lookup k = some o' ∧ o'.status = o.status) ∧
      ∀ jobId driverId offerId, e.jobDispatchState host jobId = .matched driverId offerId →
        ∃ o', e'.offers.lookup offerId = some o' ∧ o'.status = .accepted := by
  have sound : Sound host e := (sound_withStorage h3Resolution storage tick).run reached
  have kept := keepsTerminal_run sound continued
  constructor
  · intro k o found settled
    exact ⟨o, kept k o found settled, rfl⟩
  · intro jobId driverId offerId reported
    obtain ⟨o, found, accepted⟩ := matched_accepted sound.keyed reported
    exact ⟨o, kept offerId o found (by rw [accepted]; rfl), accepted⟩

/-- Driver 100 wins job 1, then the offer it accepted is withdrawn. -/
theorem withdrawn_match :
    ∃ past e later e',
      Run (serviceStep (Host.plain fun _ => 0)) anyStep emptyService past e ∧
      past.map Prod.fst = [comesOnline 100, .submitJob (jobAtOrigin 1), .handleOfferResponse 3 true] ∧
      Run (serviceStep (Host.plain fun _ => 0)) anyStep e later e' ∧
      later.map Prod.fst = [.cancelOffer 3] ∧
      e.jobDispatchState (Host.plain fun _ => 0) 1 = .matched 100 3 ∧
      (e.offers.lookup 3).map OfferRecord.status = some .accepted ∧
      (e'.offers.lookup 3).map OfferRecord.status = some .cancelled := by
  refine ⟨_, _, _, _,
    performAll_run [comesOnline 100, .submitJob (jobAtOrigin 1), .handleOfferResponse 3 true]
      (permitted_any _ _ _) .start, ?_,
    performAll_run [.cancelOffer 3] (permitted_any _ _ _) .start, ?_, ?_, ?_, ?_⟩
  all_goals decide +kernel

/-- An offer refused by driver 100 stays rejected while job 1 is submitted again and
    its new offer withdrawn. -/
theorem refusal_final :
    ∃ (e : DispatchService InMemoryBackend) (later : List Exchange)
      (e' : DispatchService InMemoryBackend),
      Run (serviceStep (Host.plain fun _ => 0)) anyStep e later e' ∧
      later.map Prod.fst = [.submitJob (jobAtOrigin 1), .cancelOffer 10] ∧
      ∃ o', e'.offers.lookup 3 = some o' ∧ o'.status = .rejected := by
  let e := (performAll (Host.plain fun _ => 0) emptyService
    [comesOnline 100, .submitJob (jobAtOrigin 1), .handleOfferResponse 3 false]).2
  let later : List Op := [.submitJob (jobAtOrigin 1), .cancelOffer 10]
  refine ⟨e, _, _, performAll_run later (permitted_any _ _ _) .start, by decide +kernel, ?_⟩
  refine (terminal_offers_final (Host.plain fun _ => 0) 8 InMemoryBackend.mk 0 _ _ e _
    (performAll_run _ (permitted_any _ _ _) .start)
    (performAll_run later ⟨trivial, ?_, trivial⟩ .start)).1
    3 ⟨3, 1, 100, .rejected, 30000000000⟩ (by decide +kernel) rfl
  intro o found
  have opened : (perform (Host.plain fun _ => 0) e (.submitJob (jobAtOrigin 1))).1.offers.lookup 10 =
      some ⟨10, 1, 100, .pending, 30000000000⟩ := by decide +kernel
  obtain rfl := Option.some.inj (found.symm.trans opened)
  rfl

end Spatiad
