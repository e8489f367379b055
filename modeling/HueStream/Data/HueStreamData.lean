import HueStream.Data.Bridge

/-! # Bridge objects and the list of stored bridges

`BridgePtr` is a shared pointer to a bridge, so bridges live in a heap and a list of bridges is a
list of pointers. `HueStreamData::GetActiveBridge` is the last bridge of the list and puts an empty
one there when the list is empty, so the list is kept here as the bridges before the last one and
the last one: a list without an active bridge cannot be built. -/

namespace HueStream.Data

/-- A shared pointer to a bridge. -/
abbrev BridgePtr := ℕ

/-- The bridge objects. -/
abbrev Heap := BridgePtr → Bridge

/-- `HueStreamData`, the stored bridges. -/
structure HueStreamData where
  earlier : List BridgePtr
  active : BridgePtr
deriving DecidableEq

namespace HueStreamData

/-- `_bridges`, the active one last. -/
def bridges (d : HueStreamData) : List BridgePtr := d.earlier ++ [d.active]

/-- `RemoveBridge`: the first bridge with the id of `bridge` goes. -/
def removeBridge (heap : Heap) (bridge : BridgePtr) (l : List BridgePtr) : List BridgePtr :=
  l.eraseP fun arg => (heap arg).id = (heap bridge).id

/-- `SetActiveBridge`: an active bridge that was never authorized for streaming is dropped. -/
def setActiveBridge (σ : BridgeSettings) (heap : Heap) (d : HueStreamData) (bridge : BridgePtr) :
    HueStreamData :=
  let kept :=
    if (heap d.active).hasEverBeenAuthorizedForStreaming σ then d.bridges else d.earlier
  { earlier := removeBridge heap bridge kept, active := bridge }

/-- `ClearActiveBridge`, with the new empty bridge that takes the place of the active one. -/
def clearActiveBridge (d : HueStreamData) (fresh : BridgePtr) : HueStreamData :=
  { d with active := fresh }

/-- `Clear`, with the new empty bridge. -/
def clear (fresh : BridgePtr) : HueStreamData := { earlier := [], active := fresh }

/-- `GetAllKnownBridges`, the last one first. -/
def getAllKnownBridges (σ : BridgeSettings) (heap : Heap) (d : HueStreamData) : List BridgePtr :=
  d.bridges.reverse.filter fun b => (heap b).hasEverBeenAuthorizedForStreaming σ

/-- The discovered bridge `RediscoverKnownBridge` takes for a known one. -/
def rediscovered (σ : BridgeSettings) (heap : Heap) (discovered : List BridgePtr)
    (known : BridgePtr) : Option BridgePtr :=
  if (heap known).isAuthorizedForStreaming σ then
    discovered.find? fun b => (heap b).id = (heap known).id
  else none

/-- One turn of the loop of `RediscoverKnownBridge`: a known bridge that was discovered gets the
address it was found at, and the first such bridge becomes the active one. -/
def rediscoverStep (σ : BridgeSettings) (discovered : List BridgePtr)
    (acc : Heap × Option BridgePtr) (known : BridgePtr) : Heap × Option BridgePtr :=
  match rediscovered σ acc.1 discovered known with
  | none => acc
  | some b =>
    (Function.update acc.1 known
      { acc.1 known with ipAddress := (acc.1 b).ipAddress, isValidIp := true },
     acc.2.or (some known))

/-- `RediscoverKnownBridge`: the heap and the stored bridges after it, and whether a known bridge
was found. -/
def rediscoverKnownBridge (σ : BridgeSettings) (heap : Heap) (d : HueStreamData)
    (discovered : List BridgePtr) : Bool × Heap × HueStreamData :=
  match d.bridges.reverse.foldl (rediscoverStep σ discovered) (heap, none) with
  | (heap, none) => (false, heap, d)
  | (heap, some b) => (true, heap, d.setActiveBridge σ heap b)

end HueStreamData

end HueStream.Data
