/-! The three flags of an `AtomicSwitch` and its functions, one step for each access to a
flag: any other thread may act between two accesses of one call. -/

namespace BTool.TaskPool

@[ext] structure AtomicSwitch where
  binit : Bool
  bstart : Bool
  bstop : Bool
deriving DecidableEq

/-- How far one access takes a call. -/
inductive Progress (Pc Result : Type) where
  | goes (pc : Pc)
  | returns (result : Result)

/-- Where a call goes from there. -/
def Progress.elim {Pc Result Place : Type} (goes : Pc → Place) (returns : Result → Place) :
    Progress Pc Result → Place
  | .goes pc => goes pc
  | .returns result => returns result

namespace AtomicSwitch

def construct : AtomicSwitch := ⟨false, false, false⟩

/-- The flags of a switch that has been started and not been stopped. -/
def started : AtomicSwitch := ⟨true, true, false⟩

inductive StartPc where
  | loadStop
  | loadInit
  | exchange
deriving DecidableEq

inductive StopPc where
  | loadInit
  | loadStart
  | exchange
deriving DecidableEq

inductive ResetPc where
  | storeStart
  | storeStop
  | storeInit
deriving DecidableEq

inductive HasStartedPc where
  | loadStop
  | loadStart
  | loadInit
deriving DecidableEq

inductive HasStopedPc where
  | loadInit
  | loadStart
  | loadStop
deriving DecidableEq

/-- `init` is one `compare_exchange_strong`. -/
def init (switch : AtomicSwitch) : AtomicSwitch × Bool :=
  if switch.binit then (switch, false) else ({ switch with binit := true }, true)

def start (switch : AtomicSwitch) : StartPc → AtomicSwitch × Progress StartPc Bool
  | .loadStop => (switch, if switch.bstop then .returns false else .goes .loadInit)
  | .loadInit => (switch, if !switch.binit then .returns false else .goes .exchange)
  | .exchange =>
    if switch.bstart then (switch, .returns false)
    else ({ switch with bstart := true }, .returns true)

def stop (switch : AtomicSwitch) : StopPc → AtomicSwitch × Progress StopPc Bool
  | .loadInit => (switch, if !switch.binit then .returns false else .goes .loadStart)
  | .loadStart => (switch, if !switch.bstart then .returns false else .goes .exchange)
  | .exchange =>
    if switch.bstop then (switch, .returns false)
    else ({ switch with bstop := true }, .returns true)

def reset (switch : AtomicSwitch) : ResetPc → AtomicSwitch × Progress ResetPc Unit
  | .storeStart => ({ switch with bstart := false }, .goes .storeStop)
  | .storeStop => ({ switch with bstop := false }, .goes .storeInit)
  | .storeInit => ({ switch with binit := false }, .returns ())

def hasStarted (switch : AtomicSwitch) : HasStartedPc → Progress HasStartedPc Bool
  | .loadStop => if switch.bstop then .returns false else .goes .loadStart
  | .loadStart => if switch.bstart then .goes .loadInit else .returns false
  | .loadInit => .returns switch.binit

def hasStoped (switch : AtomicSwitch) : HasStopedPc → Progress HasStopedPc Bool
  | .loadInit => if !switch.binit then .returns true else .goes .loadStart
  | .loadStart => if !switch.bstart then .returns true else .goes .loadStop
  | .loadStop => .returns switch.bstop

/-- A `stop` of a started switch goes on until it has set it. -/
theorem stop_started (pc : StopPc) :
    (∃ later, started.stop pc = (started, .goes later)) ∨
      started.stop pc = (⟨true, true, true⟩, .returns true) := by
  cases pc with
  | loadInit => exact .inl ⟨.loadStart, rfl⟩
  | loadStart => exact .inl ⟨.exchange, rfl⟩
  | exchange => exact .inr rfl

end AtomicSwitch

end BTool.TaskPool
