import Spatiad.CrashRuns

/-! # Exact recovery

Whatever was appended before a crash, recovery replays it: nothing is lost, doubled
or reordered, over any number of crashes and snapshots.
-/

namespace Spatiad

open Foundation WriteAheadLog

variable {β : Type} [StorageBackend β] [LawfulBackend β]

/-- Recovery is exact at every point of every run: it ends in the state that all
    commands whose append returned lead to, one after another, and at their number.
    What is appended later is numbered above everything still in the log. -/
theorem crash_recovery_exact (host : Host) (h3Resolution : Nat) (storage : β) (tick : Nat)
    (blank : LawfulBackend.disk storage = Disk.empty) (past : List Turn) (w : World β)
    (run : Run (worldStep host) anyStep (World.start h3Resolution storage tick) past w) :
    (∀ h3Resolution' calls, ∃ e,
      Engine.recover host h3Resolution' (w.engine.storage.limited calls) w.engine.tick = .ok e ∧
      e.toLedger = Ledger.empty.replay w.engine.storage.issued ∧
      e.walSequence = w.engine.storage.issued.length) ∧
    ∀ later w', Run (worldStep host) anyStep w later w' →
      ∃ more, w'.engine.storage.appended = w.engine.storage.appended ++ more ∧
        ∀ entry ∈ more, ∀ old ∈ LawfulBackend.wal w.engine.storage.backend, old.1 < entry.1 := by
  obtain ⟨logged, _⟩ := (World.logged_start h3Resolution tick blank trivial).run_any run
  constructor
  · intro h3Resolution' calls
    obtain ⟨e, ok, ledger, position, _⟩ := logged.recover h3Resolution' calls
    exact ⟨e, ok, ledger, position⟩
  · intro later w' continued
    obtain ⟨logged', more, appended⟩ := logged.run_any continued
    refine ⟨more, appended.symm, ?_⟩
    -- the later entries are numbered on from the number of those before
    have issued : w'.engine.storage.issued = w.engine.storage.issued ++ more.map Prod.snd := by
      rw [Crashing.issued, ← appended, List.map_append, Crashing.issued]
    have numbered := logged'.logged.numbered
    rw [issued, number_append, ← logged.logged.numbered, ← appended, List.append_cancel_left_eq,
      Nat.zero_add] at numbered
    intro entry new old inLog
    rw [numbered] at new
    exact Nat.lt_of_le_of_lt (logged.logged.backs.log_le inLog) (number_above new).1

/-- A driver comes online, the process dies between the write of a snapshot and the
    compaction, and its successor between the two commands of a submission. -/
theorem recovery_after_two_crashes :
    ∃ w : World SqliteBackend, w.alive = false ∧ w.engine.storage.issued.length = 2 ∧
      ∃ e, Engine.recover (Host.plain fun _ => 0) 8 (w.engine.storage.limited none) w.engine.tick =
        .ok e ∧ e.toLedger = Ledger.empty.replay w.engine.storage.issued := by
  let host := Host.plain fun _ => 0
  let e₀ : Engine (Crashing SqliteBackend) := Engine.withStorage 8 ⟨SqliteBackend.blank, none, []⟩ 0
  let e₁ := e₀.recovered host
  let e₂ := (perform host (e₁.limited none) (comesOnline 100)).1
  let e₃ := ((e₂.limited (some 1)).createSnapshot).1
  let e₄ := e₃.recovered host
  let e₅ := (perform host (e₄.limited (some 2)) (.submitJob (jobAtOrigin 1))).1
  have first : worldStep host ⟨e₀, false⟩ (.recover none) ⟨e₁, true⟩ := .recover rfl
  have second : worldStep host ⟨e₁, true⟩ (.perform (comesOnline 100) none _) ⟨e₂, true⟩ :=
    worldStep_perform ..
  have third : worldStep host ⟨e₂, true⟩ (.snapshot (some 1)) ⟨e₃, false⟩ := .snapshot
  have fourth : worldStep host ⟨e₃, false⟩ (.recover none) ⟨e₄, true⟩ := .recover rfl
  have fifth : worldStep host ⟨e₄, true⟩ (.perform (.submitJob (jobAtOrigin 1)) (some 2) _)
    ⟨e₅, false⟩ := worldStep_perform ..
  have run : Run (worldStep host) anyStep ⟨e₀, false⟩ _ ⟨e₅, false⟩ :=
    ((((Run.start.next trivial first).next trivial second).next trivial third).next trivial
      fourth).next trivial fifth
  have exact := (crash_recovery_exact host 8 SqliteBackend.blank 0 rfl _ ⟨e₅, false⟩ run).1 8 none
  obtain ⟨e, ok, ledger, _⟩ := exact
  exact ⟨⟨e₅, false⟩, rfl, by decide +kernel, e, ok, ledger⟩

end Spatiad
