import HueStream.Data.Group
import HueStream.Lib.Numbers
import Mathlib.Data.Rat.Floor

/-! # The streaming protocol

A frame has a header of sixteen bytes, the id of the group in the second version, and one record for
each light. The first version addresses a light by a type and two bytes, the second by one byte; both
take the address from the number at the head of the id of the light, without looking at its range. -/

namespace HueStream.Streaming

open HueStream.Data HueStream.Lib

/-- `ColorSpace`. -/
inductive ColorSpace
  | rgb | xybri

/-- The value of a colour space in a frame. -/
def ColorSpace.toByte : ColorSpace → UInt8
  | .rgb => 0
  | .xybri => 1

/-- `StreamOptions`. -/
structure StreamOptions where
  colorSpace : ColorSpace := .rgb
  group : Group := {}
  useClipV2 : Bool := false

/-- The bytes of a text. -/
def bytes (s : String) : List UInt8 := s.toUTF8.data.toList

/-- `HueStream`. -/
def magic : List UInt8 := [0x48, 0x75, 0x65, 0x53, 0x74, 0x72, 0x65, 0x61, 0x6d]

def reserved : UInt8 := 0x00

def versionMinor : UInt8 := 0x00

def addrTypeLightId : UInt8 := 0x00

def addrTypeGroupId : UInt8 := 0x01

/-- The two bytes of a 16-bit number. -/
def highByte (n : ℕ) : UInt8 := UInt8.ofNat (n / 256)

def lowByte (n : ℕ) : UInt8 := UInt8.ofNat (n % 256)

/-- `static_cast<uint16_t>(component * 65535)` of a clamped component. -/
def to16Bits (component : ℚ) : ℕ := ⌊Color.clamp component * 65535⌋₊

/-- The address of a light, from the 16 bits of its id. -/
def addressBytes (useClipV2 : Bool) (id : ℕ) : List UInt8 :=
  if useClipV2 then [lowByte id]
  else if 100 ≤ id then [addrTypeGroupId, highByte (id - 100), lowByte (id - 100)]
  else [addrTypeLightId, highByte id, lowByte id]

/-- The record of a light whose id is read as a number. -/
def lightBytes (useClipV2 : Bool) (id : ℕ) (color : Color) : List UInt8 :=
  let r := to16Bits color.red
  let g := to16Bits color.green
  let b := to16Bits color.blue
  addressBytes useClipV2 (id % 2 ^ 16) ++
    [highByte r, lowByte r, highByte g, lowByte g, highByte b, lowByte b]

/-- The header. -/
def headerBytes (options : StreamOptions) (seqNr : UInt8) : List UInt8 :=
  magic ++ [if options.useClipV2 then 0x02 else 0x01, versionMinor, seqNr, reserved, reserved,
    options.colorSpace.toByte, reserved]

/-- `ProtocolSerializer::Serialize`; `none` when the id of a light makes `std::stoul` throw. -/
def serialize (options : StreamOptions) (seqNr : UInt8) : Option (List UInt8) := do
  let records ← options.group.lights.mapM fun l =>
    (stoul l.id.toList).map fun id => lightBytes options.useClipV2 id l.color
  return headerBytes options seqNr ++ (if options.useClipV2 then bytes options.group.id else []) ++
    records.flatten

/-! ### Decoding -/

/-- What a record addresses. -/
inductive Address
  /-- A light, of the first version. -/
  | light (id : ℕ)
  /-- A channel of a group, of the first version; its id is counted from 100 on. -/
  | groupChannel (id : ℕ)
  /-- A channel, of the second version. -/
  | channel (id : ℕ)
deriving DecidableEq

structure Record where
  address : Address
  red : ℕ
  green : ℕ
  blue : ℕ
deriving DecidableEq

structure Frame where
  version : UInt8
  seqNr : UInt8
  colorSpace : UInt8
  groupId : List UInt8
  records : List Record
deriving DecidableEq

/-- The number of two bytes. -/
def ofBytes (high low : UInt8) : ℕ := high.toNat * 256 + low.toNat

/-- The records of the first version. -/
def decodeRecords : List UInt8 → Option (List Record)
  | [] => some []
  | type :: high :: low :: rh :: rl :: gh :: gl :: bh :: bl :: rest =>
    let id := ofBytes high low
    (decodeRecords rest).map fun records =>
      ⟨if type = addrTypeGroupId then .groupChannel (id + 100) else .light id,
        ofBytes rh rl, ofBytes gh gl, ofBytes bh bl⟩ :: records
  | _ => none

/-- The records of the second version. -/
def decodeRecordsV2 : List UInt8 → Option (List Record)
  | [] => some []
  | id :: rh :: rl :: gh :: gl :: bh :: bl :: rest =>
    (decodeRecordsV2 rest).map fun records =>
      ⟨.channel id.toNat, ofBytes rh rl, ofBytes gh gl, ofBytes bh bl⟩ :: records
  | _ => none

/-- A decoder that is told the length of the group ids of the second version. -/
def decode (groupIdLength : ℕ) (payload : List UInt8) : Option Frame :=
  if payload.take 9 = magic then
    match payload.drop 9 with
    | version :: _ :: seqNr :: _ :: _ :: colorSpace :: _ :: rest =>
      if version = 0x02 then
        (decodeRecordsV2 (rest.drop groupIdLength)).map fun records =>
          ⟨version, seqNr, colorSpace, rest.take groupIdLength, records⟩
      else
        (decodeRecords rest).map fun records => ⟨version, seqNr, colorSpace, [], records⟩
    | _ => none
  else none

/-! ### What a frame says -/

/-- The number a light is addressed by. -/
def wireId (useClipV2 : Bool) (id : ℕ) : ℕ := if useClipV2 then id % 2 ^ 8 else id % 2 ^ 16

/-- The address of an id: below 100 a light, from 100 on a channel of the group; in the second version
a channel. -/
def address (useClipV2 : Bool) (id : ℕ) : Address :=
  if useClipV2 then .channel (wireId useClipV2 id)
  else if wireId useClipV2 id < 100 then .light (wireId useClipV2 id)
  else .groupChannel (wireId useClipV2 id)

/-- The record of a light. -/
def record (useClipV2 : Bool) (id : ℕ) (color : Color) : Record :=
  ⟨address useClipV2 id, to16Bits color.red, to16Bits color.green, to16Bits color.blue⟩

/-- The frame of a group whose lights have ids that are read as `ids`. -/
def frame (options : StreamOptions) (seqNr : UInt8) (ids : List ℕ) : Frame :=
  { version := if options.useClipV2 then 0x02 else 0x01
    seqNr
    colorSpace := options.colorSpace.toByte
    groupId := if options.useClipV2 then bytes options.group.id else []
    records := List.zipWith (fun id (l : Light) => record options.useClipV2 id l.color) ids
      options.group.lights }

/-- The ids an address can carry. -/
def inRange (useClipV2 : Bool) (id : ℕ) : Prop := id < if useClipV2 then 2 ^ 8 else 2 ^ 16

instance (useClipV2 : Bool) (id : ℕ) : Decidable (inRange useClipV2 id) := Nat.decLt _ _

end HueStream.Streaming
