import Spatiad.Operations

/-! # Runs of the service

A run performs operations one after another and remembers what each returned.
Its clock readings, its ids and its iteration orders are the host's, so a
statement about every host is one about any of these.
-/

namespace Spatiad

open Foundation

abbrev Exchange := Op × Reply

variable {β : Type} [StorageBackend β] {host : Host}

def serviceStep (host : Host) (e : DispatchService β) (x : Exchange) (e' : DispatchService β) :
    Prop :=
  perform host e x.1 = (e', x.2)

theorem serviceStep_perform (host : Host) (e : DispatchService β) (op : Op) :
    serviceStep host e (op, (perform host e op).2) (perform host e op).1 := rfl

/-- What every reachable engine satisfies and every operation relies on. -/
structure Sound (host : Host) (e : Engine β) : Prop where
  keyed : e.toLedger.Keyed
  ids : IdsDrawn host e

omit [StorageBackend β] in
theorem sound_withStorage (h3Resolution : Nat) (storage : β) (tick : Nat) :
    Sound host (Engine.withStorage h3Resolution storage tick) where
  keyed := Ledger.keyed_empty
  ids := by
    intro k o found
    simp [Engine.withStorage, Ledger.empty] at found

namespace Sound

variable {e e' : DispatchService β} {x : Exchange}

theorem trace (sound : Sound host e) (taken : serviceStep host e x e') :
    ∃ log, Trace host (Issues e.toLedger x.1) e log e' := by
  obtain ⟨log, trace⟩ := perform_trace sound.keyed sound.ids x.1
  rw [taken] at trace
  exact ⟨log, trace⟩

omit [StorageBackend β] in
theorem drawn (sound : Sound host e) : Sound host e.drawn where
  keyed := sound.keyed
  ids := sound.ids.drawn

theorem step (sound : Sound host e) (taken : serviceStep host e x e') : Sound host e' := by
  obtain ⟨log, trace⟩ := sound.trace taken
  exact ⟨trace.keyed sound.keyed, trace.idsDrawn sound.ids⟩

/-- An operation preserves what each command it may issue preserves. -/
theorem step_invariant (sound : Sound host e) (taken : serviceStep host e x e')
    (P : Ledger → Prop) (held : P e.toLedger)
    (preserved : ∀ s cmd, s.Keyed → P s → Issues e.toLedger x.1 s cmd → P (s.apply cmd)) :
    P e'.toLedger := by
  obtain ⟨log, trace⟩ := sound.trace taken
  have both : e'.toLedger.Keyed ∧ P e'.toLedger := by
    refine trace.ledger_invariant (fun s => s.Keyed ∧ P s) ?_ ⟨sound.keyed, held⟩
    rintro s cmd ⟨keyed, held⟩ issued
    exact ⟨keyed.apply cmd, preserved s cmd keyed held issued⟩
  exact both.2

theorem run {allow : List Exchange → DispatchService β → Exchange → Prop} {past : List Exchange}
    (sound : Sound host e) (run : Run (serviceStep host) allow e past e') : Sound host e' :=
  run.state_invariant (Sound host) sound fun _ _ _ sound taken => sound.step taken

end Sound

/-! ## Explicit runs -/

def performAll (host : Host) (e : DispatchService β) : List Op → List Exchange × DispatchService β
  | [] => ([], e)
  | op :: rest =>
      let (e, reply) := perform host e op
      let (past, e) := performAll host e rest
      ((op, reply) :: past, e)

def Permitted (host : Host) (allow : List Exchange → DispatchService β → Exchange → Prop)
    (past : List Exchange) (e : DispatchService β) : List Op → Prop
  | [] => True
  | op :: rest =>
      let x := (op, (perform host e op).2)
      allow past e x ∧ Permitted host allow (past ++ [x]) (perform host e op).1 rest

theorem performAll_run {allow : List Exchange → DispatchService β → Exchange → Prop}
    {start e : DispatchService β} {past : List Exchange} (ops : List Op)
    (permitted : Permitted host allow past e ops) (run : Run (serviceStep host) allow start past e) :
    Run (serviceStep host) allow start (past ++ (performAll host e ops).1)
      (performAll host e ops).2 := by
  induction ops generalizing e past with
  | nil => simpa only [performAll, List.append_nil] using run
  | cons op rest ih =>
      obtain ⟨allowed, permitted⟩ := permitted
      have longer := ih permitted (.next run allowed rfl)
      simpa only [performAll, List.append_assoc, List.singleton_append] using longer

theorem permitted_any (e : DispatchService β) (past : List Exchange) (ops : List Op) :
    Permitted host anyStep past e ops := by
  induction ops generalizing e past with
  | nil => trivial
  | cons op rest ih => exact ⟨trivial, ih _ _⟩

/-- A host with a given clock on which ids count up, maps iterate as they are
    stored and all points coincide. -/
def Host.plain (clock : Nat → DateTime) : Host where
  clock := clock
  newV4 := id
  order _ ks := ks
  haversineKm _ _ := 0
  cellKey _ _ := ""
  displayF64 _ := ""
  isAlphanumeric := Char.isAlphanum
  newV4_injective := Function.injective_id
  order_perm _ ks := List.Perm.refl ks
  haversineKm_nonneg _ _ := le_refl 0

def stillHost : Host := Host.plain fun _ => 0

def jobAtOrigin (jobId : Uuid) : JobRequest where
  jobId := jobId
  category := "tow_truck"
  pickup := ⟨0, 0⟩
  dropoff := none
  initialRadiusKm := 1
  maxRadiusKm := 5
  timeoutSeconds := 30
  createdAt := 0

def comesOnline (driverId : Uuid) : Op :=
  .upsertDriverLocation driverId "tow_truck" ⟨0, 0⟩ .available

def emptyService : DispatchService InMemoryBackend := Engine.withStorage 8 ⟨⟩ 0

end Spatiad
