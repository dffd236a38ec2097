import Mathlib.Tactic.Common
import Mathlib.Data.List.Basic

/-! # Snapshot and write-ahead log

A deterministic machine whose commands are numbered from one.  A disk holds a
snapshot and a log of numbered commands; `Backs` says that the two together
still hold every command issued.  Appending, snapshotting and compacting keep
it, and recovery from a disk that backs a history yields that history's state.
-/

namespace Foundation.WriteAheadLog

variable {σ κ : Type*}

/-- The commands with their sequence numbers, the first being `base + 1`. -/
def number (base : Nat) : List κ → List (Nat × κ)
  | [] => []
  | c :: cs => (base + 1, c) :: number (base + 1) cs

theorem number_append (base : Nat) (cs ds : List κ) :
    number base (cs ++ ds) = number base cs ++ number (base + cs.length) ds := by
  induction cs generalizing base with
  | nil => rfl
  | cons c cs ih =>
      simp only [List.cons_append, number, ih, List.length_cons]
      congr 3
      omega

theorem length_number (base : Nat) (cs : List κ) : (number base cs).length = cs.length := by
  induction cs generalizing base with
  | nil => rfl
  | cons c cs ih => rw [number, List.length_cons, ih, List.length_cons]

theorem map_number (base : Nat) (cs : List κ) : (number base cs).map Prod.snd = cs := by
  induction cs generalizing base with
  | nil => rfl
  | cons c cs ih => rw [number, List.map_cons, ih]

theorem number_above {base : Nat} {cs : List κ} {entry : Nat × κ}
    (member : entry ∈ number base cs) : base < entry.1 ∧ entry.1 ≤ base + cs.length := by
  induction cs generalizing base with
  | nil => cases member
  | cons c cs ih =>
      simp only [number, List.mem_cons] at member
      simp only [List.length_cons]
      rcases member with rfl | later
      · exact ⟨Nat.lt_succ_self base, by omega⟩
      · have bounds := ih later
        omega

theorem number_used {base n : Nat} {cs : List κ} (inside : n < cs.length) :
    ∃ entry ∈ number base cs, entry.1 = base + n + 1 := by
  induction cs generalizing base n with
  | nil => cases inside
  | cons c cs ih =>
      cases n with
      | zero => exact ⟨(base + 1, c), List.mem_cons_self, rfl⟩
      | succ n =>
          obtain ⟨entry, member, numbered⟩ := @ih (base + 1) n (Nat.lt_of_succ_lt_succ inside)
          exact ⟨entry, List.mem_cons_of_mem _ member, by omega⟩

/-- Dropping the entries up to `n` leaves the numbering of the remaining commands. -/
theorem number_after {base n : Nat} (reached : base ≤ n) (cs : List κ) :
    (number base cs).filter (fun entry => n < entry.1) = number n (cs.drop (n - base)) := by
  induction cs generalizing base with
  | nil => simp [number]
  | cons c cs ih =>
      by_cases here : base = n
      · subst here
        have all : ∀ entry ∈ number base (c :: cs), decide (base < entry.1) = true := by
          intro entry member
          exact decide_eq_true (number_above member).1
        rw [List.filter_eq_self.mpr all, Nat.sub_self, List.drop_zero]
      · have skip : ¬ n < base + 1 := by omega
        have next : n - base = (n - (base + 1)) + 1 := by omega
        simp only [number, List.filter_cons, decide_eq_true_eq, skip, if_false]
        rw [ih (by omega), next, List.drop_succ_cons]

/-- What a disk holds: the latest snapshot with the number of commands it covers, and
    the log. -/
structure Disk (σ κ : Type*) where
  snapshot : Option (Nat × σ)
  log : List (Nat × κ)

namespace Disk

def empty : Disk σ κ := ⟨none, []⟩

/-- How many commands the snapshot covers. -/
def position (d : Disk σ κ) : Nat :=
  match d.snapshot with
  | none => 0
  | some (n, _) => n

def base (init : σ) (d : Disk σ κ) : σ :=
  match d.snapshot with
  | none => init
  | some (_, s) => s

/-- Log entries the snapshot does not cover. -/
def tail (d : Disk σ κ) : List (Nat × κ) := d.log.filter fun entry => d.position < entry.1

def append (d : Disk σ κ) (n : Nat) (c : κ) : Disk σ κ := { d with log := d.log ++ [(n, c)] }

def writeSnapshot (d : Disk σ κ) (n : Nat) (s : σ) : Disk σ κ := { d with snapshot := some (n, s) }

def compact (d : Disk σ κ) (n : Nat) : Disk σ κ :=
  { d with log := d.log.filter fun entry => n < entry.1 }

end Disk

section machine

variable (apply : σ → κ → σ) (init : σ)

/-- The disk still holds the whole history: the snapshot is the state after a prefix
    of it and the log starts no later than that prefix ends. -/
structure Backs (issued : List κ) (d : Disk σ κ) : Prop where
  covered : d.position ≤ issued.length
  snapshot : d.base init = (issued.take d.position).foldl apply init
  log : ∃ first ≤ d.position, d.log = number first (issued.drop first)

variable {apply init} {issued : List κ} {d : Disk σ κ}

theorem backs_empty : Backs apply init [] (Disk.empty : Disk σ κ) where
  covered := Nat.le_refl 0
  snapshot := rfl
  log := ⟨0, Nat.le_refl 0, rfl⟩

namespace Backs

theorem append (backs : Backs apply init issued d) (c : κ) :
    Backs apply init (issued ++ [c]) (d.append (issued.length + 1) c) where
  covered := by
    rw [List.length_append]
    exact Nat.le_trans backs.covered (Nat.le_add_right _ _)
  snapshot := by
    show d.base init = ((issued ++ [c]).take d.position).foldl apply init
    rw [List.take_append_of_le_length backs.covered]
    exact backs.snapshot
  log := by
    obtain ⟨first, early, log⟩ := backs.log
    have inside : first ≤ issued.length := Nat.le_trans early backs.covered
    refine ⟨first, early, ?_⟩
    rw [List.drop_append_of_le_length inside, number_append, Disk.append, log, List.length_drop,
      Nat.add_sub_cancel' inside]
    rfl

theorem writeSnapshot (backs : Backs apply init issued d) :
    Backs apply init issued (d.writeSnapshot issued.length (issued.foldl apply init)) where
  covered := Nat.le_refl _
  snapshot := by
    show issued.foldl apply init = (issued.take issued.length).foldl apply init
    rw [List.take_length]
  log := by
    obtain ⟨first, early, log⟩ := backs.log
    exact ⟨first, Nat.le_trans early backs.covered, log⟩

theorem compact (backs : Backs apply init issued d) {n : Nat} (safe : n ≤ d.position) :
    Backs apply init issued (d.compact n) where
  covered := backs.covered
  snapshot := backs.snapshot
  log := by
    obtain ⟨first, early, log⟩ := backs.log
    by_cases older : first ≤ n
    · refine ⟨n, safe, ?_⟩
      rw [Disk.compact, log, number_after older, List.drop_drop, Nat.add_sub_cancel' older]
    · refine ⟨first, early, ?_⟩
      rw [Disk.compact, log]
      refine List.filter_eq_self.mpr fun entry member => decide_eq_true ?_
      have above := (number_above member).1
      omega

theorem log_le (backs : Backs apply init issued d) {entry : Nat × κ} (member : entry ∈ d.log) :
    entry.1 ≤ issued.length := by
  obtain ⟨first, early, log⟩ := backs.log
  rw [log] at member
  have bounds := (number_above member).2
  have := backs.covered
  rw [List.length_drop] at bounds
  omega

theorem tail_eq (backs : Backs apply init issued d) :
    d.tail = number d.position (issued.drop d.position) := by
  obtain ⟨first, early, log⟩ := backs.log
  rw [Disk.tail, log, number_after early, List.drop_drop, Nat.add_sub_cancel' early]

end Backs

end machine

/-- Replaying numbered entries applies their commands and ends at the last number. -/
theorem foldl_number {τ : Type*} (f : τ → κ → τ) (cs : List κ) (base : Nat) (t : τ) :
    (number base cs).foldl (fun (acc : Nat × τ) entry => (entry.1, f acc.2 entry.2)) (base, t) =
      (base + cs.length, cs.foldl f t) := by
  induction cs generalizing base t with
  | nil => rfl
  | cons c cs ih =>
      simp only [number, List.foldl_cons, ih, List.length_cons]
      congr 1
      omega

def recover (apply : σ → κ → σ) (init : σ) (d : Disk σ κ) : Nat × σ :=
  d.tail.foldl (fun acc entry => (entry.1, apply acc.2 entry.2)) (d.position, d.base init)

/-- Recovery from a disk that backs a history yields its state and its length. -/
theorem recover_eq {apply : σ → κ → σ} {init : σ} {issued : List κ} {d : Disk σ κ}
    (backs : Backs apply init issued d) :
    recover apply init d = (issued.length, issued.foldl apply init) := by
  rw [recover, backs.tail_eq, foldl_number, backs.snapshot, List.length_drop,
    Nat.add_sub_cancel' backs.covered, ← List.foldl_append, List.take_append_drop]

end Foundation.WriteAheadLog
