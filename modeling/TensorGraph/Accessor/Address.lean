import TensorGraph.Accessor

/-!
# Addresses

Elements are read and written in groups: one access moves `width` elements that lie side by side.
-/

namespace TensorGraph.Accessor

/-- Where the group with number `i` of `width` elements starts. -/
def address? (a : Accessor) (width i : Int) : Option Int :=
  if a.isContiguous then some (a.offset + i * width)
  else do
    let row ← a.seenTotal
    let stored ← a.storedTotal
    let n := i * width
    return n.tdiv row * stored + n.tmod row + a.offset

def widths : List Int := [8, 4, 2, 1]

def widthOf (n : Int) : Int := (widths.find? fun w => n % w == 0).getD 1

def width? (a : Accessor) : Option Int :=
  if a.isContiguous then some (widthOf a.offset)
  else do
    let row ← a.seenTotal
    let stored ← a.storedTotal
    return min (min (widthOf a.offset) (widthOf row)) (widthOf stored)

def commonWidth? (as : List Accessor) : Option Int :=
  as.foldlM (fun w a => a.width?.map (min w)) 8

def widthFor? (elements : Int) (as : List Accessor) : Option Int :=
  (commonWidth? as).map (min (widthOf elements))

end TensorGraph.Accessor
