import TensorGraph.Arena

/-!
# Detaching tensors

A tensor that nothing produces, nothing uses and nobody asks for drops out of the graph.
-/

namespace TensorGraph

namespace Build

def detach (t : TensorId) : Build Unit :=
  modifyTensor t fun x => { x with src := .empty, dst := .empty, isInput := false, isOutput := false
    }

def updateInputAccessor (o : OpId) (i : Nat) (f : DimTable → Accessor → Accessor × Option Fault) :
    Build Unit := do
  let as ← expect .badKey (← op o).inputAccessors
  let a ← expect .badIndex as[i]?
  let (a, fault) := f (← look) a
  modifyOp o fun x => { x with inputAccessors := some (as.set i a) }
  if let some e := fault then throw e

def updateOutputAccessor (o : OpId) (i : Nat) (f : DimTable → Accessor → Accessor × Option Fault) :
    Build Unit := do
  let as ← expect .badKey (← op o).outputAccessors
  let a ← expect .badIndex as[i]?
  let (a, fault) := f (← look) a
  modifyOp o fun x => { x with outputAccessors := some (as.set i a) }
  if let some e := fault then throw e

end Build

end TensorGraph
