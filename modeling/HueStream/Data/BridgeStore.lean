import HueStream.Data.Rediscovery
import HueStream.Lib.Run

/-! # The list of bridges, call by call

`HueStreamData` as it stands in the source: a list that might be empty, from which every call takes and to
which it adds by itself. Bridges are made by the client or, empty ones, by the list. From a fresh list on no
call leaves the list empty, so that it is one with an active bridge all the time, as `HueStreamData` has
it. -/

namespace HueStream.Data

open HueStream.Lib

/-- `_bridges`, with the bridge objects; `next` is the pointer the next new object gets. -/
structure BridgeStore where
  heap : Heap := fun _ => {}
  next : BridgePtr := 0
  bridges : List BridgePtr := []

namespace BridgeStore

variable (σ : BridgeSettings) (s : BridgeStore)

/-- A new bridge object. -/
def create (b : Bridge) : BridgeStore :=
  { s with heap := Function.update s.heap s.next b, next := s.next + 1 }

/-- A new empty bridge at the end of the list. -/
def pushNew : BridgeStore := { s.create {} with bridges := s.bridges ++ [s.next] }

/-- `Clear`. -/
def clear : BridgeStore := pushNew { s with bridges := [] }

/-- `GetActiveBridge`. -/
def getActiveBridge : BridgePtr × BridgeStore :=
  match s.bridges.getLast? with
  | none => (s.next, s.pushNew)
  | some active => (active, s)

/-- `SetActiveBridge`. -/
def setActiveBridge (bridge : BridgePtr) : BridgeStore :=
  let (active, s) := s.getActiveBridge
  let bridges :=
    if !(s.heap active).hasEverBeenAuthorizedForStreaming σ then s.bridges.dropLast else s.bridges
  { s with bridges := HueStreamData.removeBridge s.heap bridge bridges ++ [bridge] }

/-- `ClearActiveBridge`. -/
def clearActiveBridge : BridgeStore :=
  if !s.bridges.isEmpty then pushNew { s with bridges := s.bridges.dropLast } else s.pushNew

/-- `RediscoverKnownBridge`. -/
def rediscoverKnownBridge (discovered : List BridgePtr) : Bool × BridgeStore :=
  match s.bridges.reverse.foldl (HueStreamData.rediscoverStep σ discovered) (s.heap, none) with
  | (heap, none) => (false, { s with heap })
  | (heap, some activeBridge) => (true, setActiveBridge σ { s with heap } activeBridge)

end BridgeStore

/-- The calls, and what a client may do besides: make a bridge. -/
inductive DataCall
  | create (b : Bridge)
  | getActiveBridge
  | setActiveBridge (bridge : BridgePtr)
  | clearActiveBridge
  | clear
  | rediscoverKnownBridge (discovered : List BridgePtr)

/-- A fresh list and calls with bridges there are. -/
def bridgeData (σ : BridgeSettings) : Machine BridgeStore DataCall where
  Init s := s = BridgeStore.pushNew {}
  step s
    | .create b => some (s.create b)
    | .getActiveBridge => some s.getActiveBridge.2
    | .setActiveBridge bridge => if bridge < s.next then some (s.setActiveBridge σ bridge) else none
    | .clearActiveBridge => some s.clearActiveBridge
    | .clear => some s.clear
    | .rediscoverKnownBridge discovered =>
      if discovered.all (· < s.next) then some (s.rediscoverKnownBridge σ discovered).2 else none

namespace BridgeStore

variable {σ : BridgeSettings} {s : BridgeStore} {d : HueStreamData}

/-! ### A list with an active bridge -/

theorem getActiveBridge_eq (h : s.bridges = d.bridges) : s.getActiveBridge = (d.active, s) := by
  rw [getActiveBridge, h, HueStreamData.bridges, List.getLast?_concat]

theorem setActiveBridge_eq (h : s.bridges = d.bridges) (bridge : BridgePtr) :
    s.setActiveBridge σ bridge = { s with bridges := (d.setActiveBridge σ s.heap bridge).bridges } := by
  have hlast : s.bridges.dropLast = d.earlier := by rw [h, HueStreamData.bridges, List.dropLast_concat]
  rw [setActiveBridge, getActiveBridge_eq h]
  simp only [HueStreamData.setActiveBridge, HueStreamData.bridges, hlast]
  cases (s.heap d.active).hasEverBeenAuthorizedForStreaming σ with
  | false => rfl
  | true =>
    rw [h]
    rfl

theorem clearActiveBridge_eq (h : s.bridges = d.bridges) : s.clearActiveBridge =
    { s.create {} with bridges := (d.clearActiveBridge s.next).bridges } := by
  have hlast : s.bridges.dropLast = d.earlier := by rw [h, HueStreamData.bridges, List.dropLast_concat]
  have hne : s.bridges.isEmpty = false := by simp [h, HueStreamData.bridges]
  rw [clearActiveBridge, hne, hlast]
  rfl

theorem clear_eq : s.clear = { s.create {} with bridges := (HueStreamData.clear s.next).bridges } := rfl

theorem rediscoverKnownBridge_eq (h : s.bridges = d.bridges) (discovered : List BridgePtr) :
    s.rediscoverKnownBridge σ discovered =
      let (found, heap, d') := d.rediscoverKnownBridge σ s.heap discovered
      (found, { s with heap, bridges := d'.bridges }) := by
  unfold rediscoverKnownBridge HueStreamData.rediscoverKnownBridge
  rw [← h]
  obtain ⟨heap, found⟩ := s.bridges.reverse.foldl (HueStreamData.rediscoverStep σ discovered) (s.heap, none)
  cases found with
  | none => simp only [h]
  | some b =>
    have hset : setActiveBridge σ { s with heap } b =
        { s with heap, bridges := (d.setActiveBridge σ heap b).bridges } :=
      setActiveBridge_eq (s := { s with heap }) h b
    simp only [hset]

end BridgeStore

end HueStream.Data
