import Mathlib.Data.Finset.Sort
import Spatiad.Types

/-! # Spatial index

Drivers bucketed by the H3 cell of their position, with the inverse map from a
driver to its cell.
-/

namespace Spatiad

open Foundation

structure SpatialIndex where
  resolution : Nat
  buckets : HashMap String (Finset Uuid)
  driverCells : HashMap Uuid String

namespace SpatialIndex

def new (resolution : Nat) : SpatialIndex := ⟨resolution, ∅, ∅⟩

/-- Forget a driver; a bucket it leaves empty is dropped. -/
def removeDriver (index : SpatialIndex) (driverId : Uuid) : SpatialIndex :=
  match index.driverCells.lookup driverId with
  | none => index
  | some cell =>
      let driverCells := index.driverCells.erase driverId
      match index.buckets.lookup cell with
      | none => { index with driverCells }
      | some drivers =>
          let rest := drivers.erase driverId
          let buckets := if rest = ∅ then index.buckets.erase cell else index.buckets.insert cell rest
          { index with driverCells, buckets }

def upsertDriver (host : Host) (index : SpatialIndex) (driverId : Uuid) (point : Coordinates) :
    SpatialIndex :=
  let index := index.removeDriver driverId
  let cell := host.cellKey index.resolution point
  let drivers := (index.buckets.lookup cell).getD ∅
  { index with
    buckets := index.buckets.insert cell (insert driverId drivers)
    driverCells := index.driverCells.insert driverId cell }

/-- A bucket comes out in the order its set iterates in at the time. -/
def candidatesInSameCell (host : Host) (index : SpatialIndex) (point : Coordinates) (tick : Nat) :
    List Uuid :=
  match index.buckets.lookup (host.cellKey index.resolution point) with
  | none => []
  | some drivers => host.order tick drivers.sort

end SpatialIndex

end Spatiad
