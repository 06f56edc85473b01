import NodeProbe.Component.Counter
import NodeProbe.Component.Diagnostics
import NodeProbe.Component.Scripted
import NodeProbe.Request.Dispatch

/-!
# Assembled nodes

A node can be put together from counters, diagnostics and scripted components. Each
component has a slot of its own in the store of the node, found by its position;
diagnostics use the statistics of the node instead.
-/
namespace NodeProbe

inductive Slot where
  | counter (s : Counter.State)
  | cells (c : Cells)
deriving Inhabited

abbrev Slots := List Slot

namespace Slots

def counterPlace (i : Nat) : Lens Slots Counter.State where
  get slots := match slots[i]? with
    | some (.counter s) => s
    | _ => {}
  put s slots := slots.set i (.counter s)

def cellsPlace (i : Nat) : Lens Slots Cells where
  get slots := match slots[i]? with
    | some (.cells c) => c
    | _ => {}
  put c slots := slots.set i (.cells c)

end Slots

inductive ComponentPlan where
  | counter
  | diagnostics
  /-- A scripted component and the values that its cells hold at first. -/
  | scripted (script : Scripted.ComponentScript) (cells : Cells)

namespace ComponentPlan

def slot : ComponentPlan → Slot
  | counter => .counter {}
  | diagnostics => .cells {}
  | scripted _ cells => .cells cells

def component (i : Nat) : ComponentPlan → Component (Memory Slots)
  | counter => (NodeProbe.counter.focus (Slots.counterPlace i)).focus Memory.storePlace
  | diagnostics => NodeProbe.diagnostics.focus Memory.statisticsPlace
  | scripted script _ => (script.component.focus (Slots.cellsPlace i)).focus Memory.storePlace

def components (plans : List ComponentPlan) : List (Component (Memory Slots)) :=
  plans.zipIdx.map fun (plan, i) => plan.component i

def memory (plans : List ComponentPlan) : Memory Slots := { store := plans.map slot }

end ComponentPlan

end NodeProbe
