import TensorGraph.Graph.Detach
import TensorGraph.Op.Matmul.Workload

/-!
# Groups of matrix products

Several products with the same number of rows, run as one operator. Their results may be written
side by side into one tensor.
-/

namespace TensorGraph

namespace Matmul

open Build

def memberClass (c : OpClass) : OpClass := if c == .groupGemmRcr then .gemmRcr else .gemmRcrBias

def memberInputs (c : OpClass) : Nat := if c == .groupGemmRcr then 2 else 3

def groupKey (sizes : List (Int × Int × Int)) : String :=
  String.join (sizes.zipIdx.map fun ((m, n, k), i) =>
    let sep := if i == 0 then " " else "  && "
    s!"{sep}GROUP_{i}_M == {m} &&GROUP_{i}_N == {n} &&GROUP_{i}_K == {k}")

def groupWorkloads (o : OpId) : Build Unit := do
  let x ← op o
  let count := (← intParam o "groups").toNat
  let step := memberInputs x.cls
  let ts ← inputs o
  let rows ← axis (← shape (← expect .badIndex ts.head?)) 0
  for i in List.range count do
    let r ← axis (← shape (← expect .badIndex ts[i * step]?)) 0
    let g ← get
    require (.groupBatches (x.cls == .groupGemmRcr)) ((g.dim rows).same (g.dim r))
  modifyOp o fun x => { x with execPath := some [] }
  for m in (← dim rows).values do
    let sizes ← (List.range count).mapM fun i => do
      let sb ← shape (← expect .badIndex ts[i * step + 1]?)
      let n ← dim (← axis sb 0)
      let k ← dim (← axis sb 1)
      return (m, n.value, k.value)
    let key := groupKey sizes
    modifyOp o fun x => { x with execPath := x.execPath.map fun p => Workload.insert p key (.item key key "") }

def groupMember (o : OpId) (ts : List TensorId) : Build (TensorId × Int) := do
  let m ← create (memberClass (← op o).cls)
  let y ← apply m ts
  setSrc y ⟨[o], true⟩
  for t in ts do
    removeDst t m
  return (y, ← intParam m "epilogue_alignment")

def joinResults (o : OpId) (ys : List TensorId) (dim : Int) : Build TensorId := do
  let z ← Concat.concat ys dim
  setSrc z ⟨[o], true⟩
  let mut offset : Int := 0
  for (y, i) in ys.zipIdx do
    let target ← shape z
    let start := offset
    updateOutputAccessor o i fun look a => a.rebase look target dim start
    offset := offset + (← Build.dim (← axis (← shape y) dim)).value
    detach y
  return z

def applyGroup (o : OpId) (groups : List (List TensorId)) (strideDim : Option Int) :
    Build (List TensorId) := do
  setInputs o []
  let step := memberInputs (← op o).cls
  let mut ys : List TensorId := []
  let mut alignment : Int := 8
  for ts in groups do
    require .badNumber (ts.length == step)
    let (y, a) ← groupMember o ts
    alignment := min a alignment
    ys := ys ++ [y]
    modifyOp o fun x => { x with inputs := some (x.inputList ++ ts) }
  linkInputs o
  let ins ← accessors (← inputs o)
  let outs ← accessors ys
  modifyOp o fun x => { x with inputAccessors := some ins, outputAccessors := some outs }
  setParam o "groups" (.int ys.length)
  let results ← match strideDim with
    | none => pure ys
    | some d =>
      require .groupStride (d == 1)
      setParam o "output_stride_dim" (.int d)
      pure [← joinResults o ys d]
  setOutputs o results
  setParam o "epilogue_alignment" (.int alignment)
  groupWorkloads o
  setParam o "unique_workspace" (.int (96 * ys.length))
  return results

end Matmul

end TensorGraph
