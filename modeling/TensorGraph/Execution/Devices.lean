/-!
# Devices

A task runs on a device, and a device runs one task at a time. A farm records which devices are
taken. Of several idle devices the one listed last is handed out first.
-/

namespace TensorGraph.Execution

abbrev Device := Int

/-- Devices, and for each whether it is taken, in the order in which they were first mentioned. -/
structure DeviceFarm where
  devices : List Device
  taken : List (Option Device × Bool)
deriving DecidableEq, Inhabited, Repr

namespace DeviceFarm

def record (d : Option Device) (b : Bool) : List (Option Device × Bool) →
    List (Option Device × Bool)
  | [] => [(d, b)]
  | e :: es => if e.1 = d then (d, b) :: es else e :: record d b es

def mark (f : DeviceFarm) (d : Option Device) (b : Bool) : DeviceFarm :=
  { f with taken := record d b f.taken }

def ofDevices (ds : List Device) : DeviceFarm :=
  ⟨ds, ds.foldl (fun es d => record (some d) false es) []⟩

def ofCount (n : Nat) : DeviceFarm := ofDevices ((List.range n).map fun (i : Nat) => (i : Int))

def idle? (f : DeviceFarm) : Option Device := ((f.taken.filter fun e => !e.2).getLast?).bind (·.1)

def acquire (f : DeviceFarm) : Option Device × DeviceFarm := (f.idle?, f.mark f.idle? true)

def release (f : DeviceFarm) (d : Device) : DeviceFarm := f.mark (some d) false

def releaseAll (f : DeviceFarm) : DeviceFarm := f.devices.foldl release f

end DeviceFarm

end TensorGraph.Execution
