import Spatiad.AnswerFrame
import Spatiad.Foundation.Groups

/-! # The spatial index and the drivers

The buckets of the index are the groups of drivers by cell, and the index has the cell of
each driver's position in every state an engine can come to.
-/

namespace Spatiad

open Foundation StorageBackend

/-! ## The index by itself -/

namespace SpatialIndex

variable {index : SpatialIndex}

/-- The buckets are the inverse of the map from a driver to its cell. -/
def Consistent (index : SpatialIndex) : Prop :=
  Groups.Inverts index.buckets fun driverId => index.driverCells.lookup driverId

theorem consistent_new (resolution : Nat) : (new resolution).Consistent := .empty

theorem removeDriver_unknown {driverId : Uuid}
    (unknown : index.driverCells.lookup driverId = none) : index.removeDriver driverId = index := by
  rw [removeDriver, unknown]

theorem removeDriver_known {driverId : Uuid} {cell : String}
    (known : index.driverCells.lookup driverId = some cell) :
    index.removeDriver driverId = { index with
      driverCells := index.driverCells.erase driverId
      buckets := Groups.leave index.buckets cell driverId } := by
  simp only [removeDriver, known, Groups.leave]
  cases index.buckets.lookup cell <;> rfl

theorem removeDriver_driverCells (index : SpatialIndex) (driverId : Uuid) :
    (fun id => (index.removeDriver driverId).driverCells.lookup id) =
      Function.update (fun id => index.driverCells.lookup id) driverId none := by
  cases known : index.driverCells.lookup driverId with
  | none =>
      rw [removeDriver_unknown known]
      exact (Function.update_eq_self_iff.mpr known.symm).symm
  | some cell =>
      rw [removeDriver_known known]
      funext id
      rw [Function.update_apply]
      exact HashMap.lookup_erase_if _ _ _

theorem removeDriver_resolution (index : SpatialIndex) (driverId : Uuid) :
    (index.removeDriver driverId).resolution = index.resolution := by
  cases known : index.driverCells.lookup driverId with
  | none => rw [removeDriver_unknown known]
  | some cell => rw [removeDriver_known known]

theorem Consistent.removeDriver (consistent : index.Consistent) (driverId : Uuid) :
    (index.removeDriver driverId).Consistent := by
  unfold Consistent
  rw [removeDriver_driverCells]
  cases known : index.driverCells.lookup driverId with
  | none =>
      rw [removeDriver_unknown known, Function.update_eq_self_iff.mpr known.symm]
      exact consistent
  | some cell =>
      rw [removeDriver_known known]
      exact Groups.Inverts.leave consistent known

variable {host : Host}

theorem upsertDriver_driverCells (index : SpatialIndex) (driverId : Uuid) (point : Coordinates) :
    (fun id => (index.upsertDriver host driverId point).driverCells.lookup id) =
      Function.update (fun id => index.driverCells.lookup id) driverId
        (some (host.cellKey index.resolution point)) := by
  have removed := removeDriver_driverCells index driverId
  funext id
  rw [Function.update_apply, upsertDriver, HashMap.lookup_insert_if, removeDriver_resolution]
  split
  · rfl
  · rename_i other
    rw [congrFun removed id, Function.update_of_ne other]

theorem upsertDriver_resolution (index : SpatialIndex) (driverId : Uuid) (point : Coordinates) :
    (index.upsertDriver host driverId point).resolution = index.resolution :=
  removeDriver_resolution index driverId

theorem Consistent.upsertDriver (consistent : index.Consistent) (driverId : Uuid)
    (point : Coordinates) : (index.upsertDriver host driverId point).Consistent := by
  have removed := consistent.removeDriver driverId
  have free : (index.removeDriver driverId).driverCells.lookup driverId = none := by
    rw [congrFun (removeDriver_driverCells index driverId) driverId, Function.update_self]
  unfold Consistent
  rw [upsertDriver_driverCells, ← removeDriver_resolution index driverId]
  have joined := removed.join free (host.cellKey (index.removeDriver driverId).resolution point)
  rw [removeDriver_driverCells, Function.update_idem] at joined
  exact joined

end SpatialIndex

/-! ## Index and drivers -/

section engine

variable {β : Type} [StorageBackend β] {host : Host} {e e' : Engine β}

def cellOf (host : Host) (resolution : Nat) (drivers : HashMap Uuid DriverSnapshot) (id : Uuid) :
    Option String :=
  (drivers.lookup id).map fun d => host.cellKey resolution d.position

omit [StorageBackend β] in
theorem cellOf_insert (resolution : Nat) (drivers : HashMap Uuid DriverSnapshot) (id : Uuid)
    (d : DriverSnapshot) : cellOf host resolution (drivers.insert id d) =
      Function.update (cellOf host resolution drivers) id
        (some (host.cellKey resolution d.position)) := by
  funext k
  rw [Function.update_apply, cellOf, HashMap.lookup_insert_if]
  split <;> rfl

omit [StorageBackend β] in
theorem cellOf_erase (resolution : Nat) (drivers : HashMap Uuid DriverSnapshot) (id : Uuid) :
    cellOf host resolution (drivers.erase id) =
      Function.update (cellOf host resolution drivers) id none := by
  funext k
  rw [Function.update_apply, cellOf, HashMap.lookup_erase_if]
  split <;> rfl

/-- The index has the cells of the drivers' positions, and nothing else. -/
structure Mirrored (host : Host) (e : Engine β) : Prop where
  resolution : e.spatial.resolution = e.h3Resolution
  cells : (fun id => e.spatial.driverCells.lookup id) = cellOf host e.h3Resolution e.drivers
  consistent : e.spatial.Consistent

/-- Nothing that the index depends on is different. -/
structure SamePlaces (e e' : Engine β) : Prop where
  h3Resolution : e'.h3Resolution = e.h3Resolution
  spatial : e'.spatial = e.spatial
  positions : ∀ id, (e'.drivers.lookup id).map DriverSnapshot.position =
    (e.drivers.lookup id).map DriverSnapshot.position

omit [StorageBackend β] in
theorem SamePlaces.trans {e'' : Engine β} (first : SamePlaces e e') (second : SamePlaces e' e'') :
    SamePlaces e e'' :=
  ⟨second.h3Resolution.trans first.h3Resolution, second.spatial.trans first.spatial,
    fun id => (second.positions id).trans (first.positions id)⟩

theorem SamePlaces.pushJobEvents (host : Host) (e : Engine β) (jobId : Uuid)
    (kinds : List JobEventKind) : SamePlaces e (e.pushJobEvents host jobId kinds) := by
  have start : SamePlaces e e := ⟨rfl, rfl, fun _ => rfl⟩
  apply Engine.pushJobEvents_rule start
  exact fun _ _ same => same.trans ⟨rfl, rfl, fun _ => rfl⟩

omit [StorageBackend β] in
theorem Mirrored.of_same (mirrored : Mirrored host e) (same : SamePlaces e e') : Mirrored host e' := by
  obtain ⟨h3Resolution, spatial, positions⟩ := same
  refine ⟨?_, ?_, ?_⟩
  · rw [spatial, h3Resolution]
    exact mirrored.resolution
  · rw [spatial, mirrored.cells, h3Resolution]
    funext id
    have position := congrArg (Option.map (host.cellKey e.h3Resolution)) (positions id)
    simp only [Option.map_map] at position
    exact position.symm
  · rw [spatial]
    exact mirrored.consistent

theorem SamePlaces.setOfferStatus (host : Host) (e : Engine β) (offerId : Uuid)
    (status : OfferStatus) (kind : Uuid → JobEventKind) :
    SamePlaces e (e.setOfferStatus host offerId status kind) := by
  unfold Engine.setOfferStatus
  cases e.offers.lookup offerId with
  | none => exact ⟨rfl, rfl, fun _ => rfl⟩
  | some offer => exact ⟨rfl, rfl, fun _ => rfl⟩

theorem SamePlaces.createSnapshot (e : Engine β) : SamePlaces e e.createSnapshot.1 := by
  obtain ⟨storage, same⟩ := e.createSnapshot_only
  rw [same]
  exact ⟨rfl, rfl, fun _ => rfl⟩

theorem markBusy_positions (drivers : HashMap Uuid DriverSnapshot) (winner id : Uuid) :
    ((markBusy winner drivers).lookup id).map DriverSnapshot.position =
      (drivers.lookup id).map DriverSnapshot.position := by
  rw [Ledger.lookup_markBusy, Option.map_map]
  congr 1
  funext d
  simp only [Function.comp_apply]
  split <;> rfl

/-- Every command keeps the index in step; only reports and removals change it. -/
theorem Mirrored.applyCommand (mirrored : Mirrored host e) (cmd : Command) :
    Mirrored host (e.applyCommand host cmd) := by
  cases cmd with
  | upsertDriverLocation driverId category position status timestamp =>
      refine ⟨?_, ?_, mirrored.consistent.upsertDriver driverId position⟩
      · exact (SpatialIndex.upsertDriver_resolution e.spatial driverId position).trans
          mirrored.resolution
      · simp only [Engine.applyCommand, SpatialIndex.upsertDriver_driverCells, mirrored.cells,
          mirrored.resolution, cellOf_insert]
  | removeDriver driverId =>
      refine ⟨?_, ?_, mirrored.consistent.removeDriver driverId⟩
      · exact (SpatialIndex.removeDriver_resolution e.spatial driverId).trans mirrored.resolution
      · simp only [Engine.applyCommand, SpatialIndex.removeDriver_driverCells, mirrored.cells,
          cellOf_erase]
  | registerJob | createOffer => exact mirrored.of_same ⟨rfl, rfl, fun _ => rfl⟩
  | rejectOffer | markOfferExpired | markOfferCancelled =>
      exact mirrored.of_same (.setOfferStatus host e _ _ _)
  | acceptOffer offerId respondedAt =>
      simp only [Engine.applyCommand]
      cases e.offers.lookup offerId with
      | none => exact mirrored
      | some offer =>
          let offers := e.offers.insert offerId { offer with status := .accepted }
          let competing := competesWith offer.jobId offer.offerId
          have matched : SamePlaces e { e with
              offers := cancelWhere competing offers
              drivers := markBusy offer.driverId e.drivers } :=
            ⟨rfl, rfl, markBusy_positions e.drivers offer.driverId⟩
          have swept := matched.trans
            (.pushJobEvents host _ offer.jobId (e.cancelledEvents host competing offers))
          exact mirrored.of_same (swept.trans ⟨rfl, rfl, fun _ => rfl⟩)
  | cancelJob jobId =>
      simp only [Engine.applyCommand]
      split
      · let cancelled := e.cancelledEvents host (pendingOf jobId) e.offers
        have swept := SamePlaces.pushJobEvents host { e with
          cancelledJobs := insert jobId e.cancelledJobs
          offers := cancelWhere (pendingOf jobId) e.offers } jobId cancelled
        have same : SamePlaces e _ := ⟨swept.h3Resolution, swept.spatial, swept.positions⟩
        split
        · exact mirrored.of_same (same.trans ⟨rfl, rfl, fun _ => rfl⟩)
        · exact mirrored.of_same same
      · exact mirrored
  | recordWebhookDeliveryFailed jobId offerId =>
      simp only [Engine.applyCommand]
      split
      · exact mirrored.of_same ⟨rfl, rfl, fun _ => rfl⟩
      · exact mirrored

theorem Mirrored.trace {may : Ledger → Command → Prop} {log : List Command}
    (mirrored : Mirrored host e) (trace : Trace host may e log e') : Mirrored host e' := by
  apply trace.rule mirrored
  case drawn => exact fun _ mirrored => mirrored.of_same ⟨rfl, rfl, fun _ => rfl⟩
  case logged =>
    intro e cmd _ _ mirrored
    have logged : Mirrored host (e.logged cmd) := mirrored.of_same ⟨rfl, rfl, fun _ => rfl⟩
    exact logged.applyCommand cmd

/-! ## Recovery -/

def refile (host : Host) (drivers : HashMap Uuid DriverSnapshot) (index : SpatialIndex) (id : Uuid) :
    SpatialIndex :=
  match drivers.lookup id with
  | none => index
  | some d => index.upsertDriver host id d.position

omit [StorageBackend β] in
theorem refile_files (host : Host) (drivers : HashMap Uuid DriverSnapshot) {index : SpatialIndex}
    (consistent : index.Consistent) (id : Uuid) :
    (refile host drivers index id).Consistent ∧
      (refile host drivers index id).resolution = index.resolution ∧
      ∀ k, (refile host drivers index id).driverCells.lookup k =
        if k = id then (cellOf host index.resolution drivers k).or (index.driverCells.lookup k)
        else index.driverCells.lookup k := by
  cases found : drivers.lookup id with
  | none =>
      have step : refile host drivers index id = index := by rw [refile, found]
      rw [step]
      refine ⟨consistent, rfl, fun k => ?_⟩
      split
      · rename_i same
        rw [cellOf, same, found]
        rfl
      · rfl
  | some d =>
      have step : refile host drivers index id = index.upsertDriver host id d.position := by
        rw [refile, found]
      rw [step]
      refine ⟨consistent.upsertDriver id d.position, SpatialIndex.upsertDriver_resolution _ _ _, ?_⟩
      intro k
      refine (congrFun (SpatialIndex.upsertDriver_driverCells index id d.position) k).trans ?_
      rw [Function.update_apply]
      split
      · rename_i same
        rw [cellOf, same, found]
        rfl
      · rfl

omit [StorageBackend β] in
theorem refileAll_files (host : Host) (drivers : HashMap Uuid DriverSnapshot) (ids : List Uuid)
    {index : SpatialIndex} (consistent : index.Consistent) :
    (ids.foldl (refile host drivers) index).Consistent ∧
      (ids.foldl (refile host drivers) index).resolution = index.resolution ∧
      ∀ k, (ids.foldl (refile host drivers) index).driverCells.lookup k =
        if k ∈ ids then (cellOf host index.resolution drivers k).or (index.driverCells.lookup k)
        else index.driverCells.lookup k := by
  induction ids generalizing index with
  | nil => exact ⟨consistent, rfl, fun k => by simp⟩
  | cons id rest ih =>
      obtain ⟨kept, resolution, cells⟩ := refile_files host drivers consistent id
      obtain ⟨keptAll, resolutionAll, cellsAll⟩ := ih kept
      refine ⟨keptAll, resolutionAll.trans resolution, fun k => (cellsAll k).trans ?_⟩
      rw [resolution, cells]
      by_cases first : k = id
      · subst first
        by_cases again : k ∈ rest
        · simp [again, ← Option.or_assoc]
        · simp [again]
      · simp [first]

omit [StorageBackend β] in
theorem fromSnapshot_mirrored (host : Host) (snap : EngineSnapshot) (storage : β) (tick : Nat) :
    Mirrored host (Engine.fromSnapshot host snap storage tick) := by
  have start := SpatialIndex.consistent_new snap.h3Resolution
  obtain ⟨consistent, resolution, cells⟩ :=
    refileAll_files host snap.drivers (host.order tick snap.drivers.keys) start
  refine ⟨resolution, funext fun id => (cells id).trans ?_, consistent⟩
  have blank : (SpatialIndex.new snap.h3Resolution).driverCells.lookup id = none := rfl
  rw [blank, Option.or_none]
  split
  · rfl
  · rename_i absent
    have unknown : snap.drivers.lookup id = none := by
      rw [(host.order_perm tick _).mem_iff] at absent
      exact AList.lookup_eq_none.mpr absent
    exact (congrArg (Option.map _) unknown).symm

omit [StorageBackend β] in
theorem withStorage_mirrored (host : Host) (h3Resolution : Nat) (storage : β) (tick : Nat) :
    Mirrored host (Engine.withStorage h3Resolution storage tick) :=
  ⟨rfl, rfl, SpatialIndex.consistent_new h3Resolution⟩

theorem recover_mirrored {h3Resolution : Nat} {storage : β} {tick : Nat}
    (recovered : Engine.recover host h3Resolution storage tick = .ok e) : Mirrored host e := by
  apply Engine.recover_rule recovered
  case base =>
    intro snapshot _
    cases snapshot with
    | none => exact withStorage_mirrored host h3Resolution storage tick
    | some snap => exact fromSnapshot_mirrored host snap storage tick
  case replayed =>
    intro e cmd seq mirrored
    exact (mirrored.applyCommand cmd).of_same ⟨rfl, rfl, fun _ => rfl⟩

theorem Reachable.mirrored (reachable : Reachable host e) : Mirrored host e := by
  induction reachable with
  | fresh h3Resolution storage tick => exact withStorage_mirrored host h3Resolution storage tick
  | viewed _ mirrored => exact mirrored.of_same ⟨rfl, rfl, fun _ => rfl⟩
  | recoveredBlank _ recovered | recovered _ _ recovered => exact recover_mirrored recovered
  | @mutated e _ mutation mirrored =>
      apply Engine.mutate_rule
      case logged => exact mirrored.trace
      case written => exact fun _ _ _ => mirrored.of_same (.setOfferStatus host e _ _ _)
      case snapshot => exact mirrored.of_same (.createSnapshot e)

theorem candidates_arranged (host : Host) (index : SpatialIndex) (point : Coordinates) (tick : Nat) :
    (index.candidatesInSameCell host point tick).Perm
      ((index.buckets.lookup (host.cellKey index.resolution point)).getD ∅).sort := by
  unfold SpatialIndex.candidatesInSameCell
  cases index.buckets.lookup (host.cellKey index.resolution point) with
  | none => exact .of_eq (Finset.sort_empty _).symm
  | some drivers => exact host.order_perm tick _

end engine

/-- In every reachable state the index has the cell of each driver's position and no other
    entry, each driver is in the bucket of its cell alone, no bucket is empty, and the
    candidates for a point are the drivers in its cell, each once. -/
theorem spatial_index_mirrors {β : Type} [StorageBackend β] (host : Host) (e : Engine β)
    (reachable : Reachable host e) :
    let cellKey := host.cellKey e.h3Resolution
    (∀ id, e.spatial.driverCells.lookup id =
      (e.drivers.lookup id).map fun d => cellKey d.position) ∧
    (∀ id d, e.drivers.lookup id = some d → ∀ cell,
      (∃ bucket, e.spatial.buckets.lookup cell = some bucket ∧ id ∈ bucket) ↔
        cell = cellKey d.position) ∧
    (∀ cell, e.spatial.buckets.lookup cell ≠ some ∅) ∧
    ∀ point tick, (e.spatial.candidatesInSameCell host point tick).Nodup ∧
      ∀ id, id ∈ e.spatial.candidatesInSameCell host point tick ↔
        ∃ d, e.drivers.lookup id = some d ∧ cellKey d.position = cellKey point := by
  intro cellKey
  obtain ⟨resolution, cells, consistent⟩ := reachable.mirrored
  have cellOf_eq := congrFun cells
  refine ⟨cellOf_eq, ?_, consistent.inhabited, fun point tick => ?_⟩
  · intro id d registered cell
    rw [consistent.group_iff, cellOf_eq, cellOf, registered]
    simp only [Option.map_some, Option.some.injEq]
    exact eq_comm
  · have arranged := candidates_arranged host e.spatial point tick
    refine ⟨arranged.nodup_iff.mpr (Finset.sort_nodup _ _), fun id => ?_⟩
    rw [arranged.mem_iff, Finset.mem_sort, consistent.mem_iff, cellOf_eq, cellOf, resolution,
      Option.map_eq_some_iff]

def hemispheres : Host :=
  { stillHost with cellKey := fun _ point => if 0 ≤ point.latitude then "north" else "south" }

/-- The last driver to leave a cell takes the bucket with it. -/
theorem driver_crosses_equator :
    let e := [.upsertDriverLocation 100 "tow_truck" ⟨1, 0⟩ .available,
      .upsertDriverLocation 101 "tow_truck" ⟨-1, 0⟩ .available,
      .upsertDriverLocation 100 "tow_truck" ⟨-2, 0⟩ .available].foldl
        (Engine.mutate hemispheres) (Engine.withStorage 8 InMemoryBackend.mk 0)
    e.spatial.candidatesInSameCell hemispheres ⟨1, 0⟩ 0 = [] ∧
      ∀ id ∈ [100, 101], id ∈ e.spatial.candidatesInSameCell hemispheres ⟨-3, 0⟩ 0 := by
  intro e
  have reachable : Reachable hemispheres e := (Reachable.fresh 8 InMemoryBackend.mk 0).run _
  obtain ⟨_, _, _, candidates⟩ := spatial_index_mirrors hemispheres e reachable
  refine ⟨by decide +kernel, fun id member => ((candidates ⟨-3, 0⟩ 0).2 id).mpr ?_⟩
  have inSouth : ∀ id ∈ [100, 101], (e.drivers.lookup id).any fun d =>
      hemispheres.cellKey 8 d.position = hemispheres.cellKey 8 ⟨-3, 0⟩ := by decide +kernel
  obtain ⟨d, registered, south⟩ := (Option.any_eq_true _ _).mp (inSouth id member)
  exact ⟨d, registered, of_decide_eq_true south⟩

end Spatiad
