import HueStream.Streaming.Protocol
import Mathlib.Algebra.Order.Floor.Semiring

/-! # Decoding a frame

The decoder recovers what was serialized, up to the ids: they come back modulo the width of the address.
The group id of the second version has no mark of its own, so its length has to be known. -/

namespace HueStream.Streaming

open HueStream.Data HueStream.Lib

variable {options : StreamOptions} {seqNr : UInt8} {payload rest : List UInt8} {id : ℕ} {color : Color}

/-! ### Bytes -/

theorem ofBytes_highByte_lowByte {n : ℕ} (h : n < 2 ^ 16) : ofBytes (highByte n) (lowByte n) = n := by
  have hhigh : (highByte n).toNat = n / 256 := by
    rw [highByte, UInt8.toNat_ofNat', Nat.mod_eq_of_lt (by omega)]
  have hlow : (lowByte n).toNat = n % 256 := by
    rw [lowByte, UInt8.toNat_ofNat', Nat.mod_eq_of_lt (by omega)]
  rw [ofBytes, hhigh, hlow]
  omega

theorem toNat_lowByte (n : ℕ) : (lowByte n).toNat = n % 2 ^ 8 := by
  rw [lowByte, UInt8.toNat_ofNat', Nat.mod_eq_of_lt (by omega)]
  rfl

theorem to16Bits_lt (component : ℚ) : to16Bits component < 2 ^ 16 := by
  have hle : Color.clamp component ≤ 1 := by
    unfold Color.clamp
    split_ifs with h₁ h₀
    · exact le_rfl
    · exact zero_le_one
    · exact not_lt.mp h₁
  have hmul : Color.clamp component * 65535 ≤ ((65535 : ℕ) : ℚ) := by
    push_cast
    linarith
  have hfloor : to16Bits component ≤ 65535 := by
    unfold to16Bits
    exact Nat.floor_le_of_le hmul
  omega

theorem length_bytes (s : String) : (bytes s).length = s.utf8ByteSize :=
  Array.length_toList

/-! ### Records -/

theorem decodeRecords_append : decodeRecords (lightBytes false id color ++ rest) =
    (decodeRecords rest).map fun records => record false id color :: records := by
  have hr := ofBytes_highByte_lowByte (to16Bits_lt color.red)
  have hg := ofBytes_highByte_lowByte (to16Bits_lt color.green)
  have hb := ofBytes_highByte_lowByte (to16Bits_lt color.blue)
  have hid : id % 2 ^ 16 < 2 ^ 16 := Nat.mod_lt _ (by decide)
  by_cases h : 100 ≤ id % 2 ^ 16
  · have hchannel : ofBytes (highByte (id % 2 ^ 16 - 100)) (lowByte (id % 2 ^ 16 - 100)) =
        id % 2 ^ 16 - 100 := ofBytes_highByte_lowByte (by omega)
    have haddress : address false id = .groupChannel (id % 2 ^ 16 - 100 + 100) := by
      rw [Nat.sub_add_cancel h]
      simp only [address, wireId, Bool.false_eq_true, if_false, if_neg (not_lt.mpr h)]
    simp only [lightBytes, addressBytes, Bool.false_eq_true, if_false, if_pos h, List.cons_append,
      List.nil_append, decodeRecords, if_true, hchannel, hr, hg, hb, record, haddress]
  · have hlight := ofBytes_highByte_lowByte hid
    have haddress : address false id = .light (id % 2 ^ 16) := by
      simp only [address, wireId, Bool.false_eq_true, if_false, if_pos (not_le.mp h)]
    have htype : addrTypeLightId ≠ addrTypeGroupId := by decide
    simp only [lightBytes, addressBytes, Bool.false_eq_true, if_false, if_neg h, List.cons_append,
      List.nil_append, decodeRecords, if_neg htype, hlight, hr, hg, hb, record, haddress]

theorem decodeRecordsV2_append : decodeRecordsV2 (lightBytes true id color ++ rest) =
    (decodeRecordsV2 rest).map fun records => record true id color :: records := by
  have hr := ofBytes_highByte_lowByte (to16Bits_lt color.red)
  have hg := ofBytes_highByte_lowByte (to16Bits_lt color.green)
  have hb := ofBytes_highByte_lowByte (to16Bits_lt color.blue)
  have hid : (lowByte (id % 2 ^ 16)).toNat = id % 2 ^ 8 := by
    rw [toNat_lowByte]
    omega
  have haddress : address true id = .channel (id % 2 ^ 8) := rfl
  simp only [lightBytes, addressBytes, if_true, List.cons_append, List.nil_append, decodeRecordsV2,
    hid, hr, hg, hb, record, haddress]

/-- The records of lights are decoded one after another. -/
theorem decode_flatten (ids : List ℕ) (lights : List Light) :
    decodeRecords (List.zipWith (fun id (l : Light) => lightBytes false id l.color) ids lights).flatten =
        some (List.zipWith (fun id (l : Light) => record false id l.color) ids lights) ∧
      decodeRecordsV2
          (List.zipWith (fun id (l : Light) => lightBytes true id l.color) ids lights).flatten =
        some (List.zipWith (fun id (l : Light) => record true id l.color) ids lights) := by
  induction ids generalizing lights with
  | nil => exact ⟨rfl, rfl⟩
  | cons id ids ih =>
    cases lights with
    | nil => exact ⟨rfl, rfl⟩
    | cons l lights =>
      obtain ⟨h₁, h₂⟩ := ih lights
      simp only [List.zipWith_cons_cons, List.flatten_cons]
      rw [decodeRecords_append, decodeRecordsV2_append, h₁, h₂]
      exact ⟨rfl, rfl⟩

/-! ### Frames -/

/-- The numbers at the heads of the ids of lights. -/
def readIds (lights : List Light) : Option (List ℕ) := lights.mapM fun l => stoul l.id.toList

theorem mapM_records (useClipV2 : Bool) (lights : List Light) :
    (lights.mapM fun l => (stoul l.id.toList).map fun id => lightBytes useClipV2 id l.color) =
      (readIds lights).map fun ids =>
        List.zipWith (fun id (l : Light) => lightBytes useClipV2 id l.color) ids lights := by
  induction lights with
  | nil => rfl
  | cons l lights ih =>
    simp only [readIds, List.mapM_cons, ih]
    cases stoul l.id.toList with
    | none => rfl
    | some id =>
      have hrest : lights.mapM (fun l => stoul l.id.toList) = readIds lights := rfl
      simp only [Option.map_some, Option.bind_eq_bind, Option.bind_some, hrest]
      cases readIds lights <;> rfl

theorem readIds_eq_none {lights : List Light} :
    readIds lights = none ↔ ∃ l ∈ lights, stoul l.id.toList = none := by
  induction lights with
  | nil => simp [readIds]
  | cons l lights ih =>
    have hcons : readIds (l :: lights) = (stoul l.id.toList).bind fun id =>
        (readIds lights).map fun ids => id :: ids := by
      simp only [readIds, List.mapM_cons]
      cases stoul l.id.toList <;> cases lights.mapM (fun l => stoul l.id.toList) <;> rfl
    rw [hcons]
    cases hl : stoul l.id.toList with
    | none => simp [hl]
    | some id => simp [hl, ih]

theorem serialize_eq : serialize options seqNr = (readIds options.group.lights).map fun ids =>
    headerBytes options seqNr ++ (if options.useClipV2 then bytes options.group.id else []) ++
      (List.zipWith (fun id (l : Light) => lightBytes options.useClipV2 id l.color) ids
        options.group.lights).flatten := by
  unfold serialize
  rw [mapM_records]
  cases readIds options.group.lights <;> rfl

theorem decode_header {n : ℕ} : decode n (headerBytes options seqNr ++ rest) =
    if options.useClipV2 then (decodeRecordsV2 (rest.drop n)).map fun records =>
      ⟨0x02, seqNr, options.colorSpace.toByte, rest.take n, records⟩
    else (decodeRecords rest).map fun records =>
      ⟨0x01, seqNr, options.colorSpace.toByte, [], records⟩ := by
  unfold decode headerBytes
  cases options.useClipV2 <;> simp [magic]

/-- **Decoding gives back the frame**, with the ids as the address carries them. -/
theorem decode_serialize {ids : List ℕ} (hids : readIds options.group.lights = some ids)
    (h : serialize options seqNr = some payload) :
    decode options.group.id.utf8ByteSize payload = some (frame options seqNr ids) := by
  rw [serialize_eq, hids, Option.map_some, Option.some_inj] at h
  subst h
  obtain ⟨h₁, h₂⟩ := decode_flatten ids options.group.lights
  rw [List.append_assoc, decode_header, frame]
  cases options.useClipV2 with
  | true =>
    simp only [if_true, ← length_bytes]
    rw [List.drop_left, List.take_left, h₂]
    rfl
  | false =>
    simp only [Bool.false_eq_true, if_false, List.nil_append]
    rw [h₁]
    rfl

/-! ### Addresses -/

theorem wireId_of_inRange {useClipV2 : Bool} (h : inRange useClipV2 id) : wireId useClipV2 id = id := by
  unfold inRange at h
  unfold wireId
  cases useClipV2 with
  | true => exact Nat.mod_eq_of_lt h
  | false => exact Nat.mod_eq_of_lt h

/-- Ids in range have addresses of their own. -/
theorem address_injective {useClipV2 : Bool} {id' : ℕ} (h : inRange useClipV2 id)
    (h' : inRange useClipV2 id') (heq : address useClipV2 id = address useClipV2 id') : id = id' := by
  have hid := wireId_of_inRange h
  have hid' := wireId_of_inRange h'
  unfold address at heq
  rw [hid, hid'] at heq
  split_ifs at heq
  all_goals
    injection heq

theorem address_of_inRange {useClipV2 : Bool} (h : inRange useClipV2 id) :
    address useClipV2 id = if useClipV2 then .channel id
      else if id < 100 then .light id else .groupChannel id := by
  unfold address
  rw [wireId_of_inRange h]

/-- A group of the second version with one black light. -/
def oneLight (lightId : String) : StreamOptions :=
  { useClipV2 := true, group := { lights := [{ id := lightId }] } }

/-- A group without lights, whose id looks like the record of the channel 65 in black. -/
def noLight : StreamOptions := { useClipV2 := true, group := { id := "A\x00\x00\x00\x00\x00\x00" } }

end HueStream.Streaming
