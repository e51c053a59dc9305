import AtreoAgent.Codec.Buffer

/-! The frames between the agent and the relay (`frame.go`). A frame is written into a
slice that is used again for the next one. -/
namespace Relay

open Codec

def frameBind : UInt8 := 0x01
def frameData : UInt8 := 0x02
def frameKeepalive : UInt8 := 0x03
def frameClose : UInt8 := 0x04

def sessionTokenLen : Nat := 32
def tunnelIDLen : Nat := 8
def dataHeaderLen : Nat := 1 + tunnelIDLen

/-- A slice: its array up to the capacity, and how much of it is in use. -/
structure Slice where
  array : Bytes
  len : Nat
  deriving DecidableEq, Repr

namespace Slice

def bytes (s : Slice) : Bytes := s.array.take s.len

/-- `make([]byte, n)` -/
def make (n : Nat) : Slice := ⟨List.replicate n 0, n⟩

/-- `s[:n]` -/
def upTo (s : Slice) (n : Nat) : Slice := { s with len := n }

/-- `copy(s[offset:], data)`, which stops at the end of the slice. -/
def copy (s : Slice) (offset : Nat) (data : Bytes) : Slice :=
  let data := data.take (s.len - offset)
  { s with array := s.array.take offset ++ (data ++ s.array.drop (offset + data.length)) }

end Slice

def encodeBind (token : Bytes) : Bytes :=
  (((Slice.make (1 + sessionTokenLen)).copy 0 [frameBind]).copy 1 token).bytes

def encodeKeepalive : Bytes := [frameKeepalive]

/-- A DATA frame, in `dst` if that is large enough. -/
def encodeData (dst : Slice) (tunnelID : UInt64) (payload : Bytes) : Slice :=
  let dst := if dst.array.length < dataHeaderLen + payload.length then
      Slice.make (dataHeaderLen + payload.length) else dst
  let dst := dst.upTo (dataHeaderLen + payload.length)
  let dst := dst.copy 0 [frameData]
  let dst := dst.copy 1 (bigEndian tunnelIDLen tunnelID.toNat)
  dst.copy dataHeaderLen payload

inductive FrameError where
  /-- `relay: short frame` -/
  | shortFrame
  /-- `relay: unexpected frame type` -/
  | unexpectedType
  deriving DecidableEq, Repr

structure ParsedFrame where
  typ : UInt8
  tunnelID : UInt64 := 0
  payload : Bytes := []
  deriving DecidableEq, Repr

/-- `binary.BigEndian.Uint64` of the first octets. -/
def uint64 (bs : Bytes) : UInt64 := UInt64.ofNat (ofBigEndian (bs.take tunnelIDLen))

def parseFrame : Bytes → Except FrameError ParsedFrame
  | [] => .error .shortFrame
  | b :: bs =>
      if b = frameData then
        if (b :: bs).length < dataHeaderLen then .error .shortFrame
        else .ok ⟨frameData, uint64 bs, (b :: bs).drop dataHeaderLen⟩
      else if b = frameClose then
        if (b :: bs).length < 1 + tunnelIDLen then .error .shortFrame
        else .ok ⟨frameClose, uint64 bs, []⟩
      else if b = frameKeepalive then .ok ⟨frameKeepalive, 0, []⟩
      else .error .unexpectedType

/-- What a DATA frame looks like on the wire. -/
def dataFrame (tunnelID : UInt64) (payload : Bytes) : Bytes :=
  frameData :: (bigEndian tunnelIDLen tunnelID.toNat ++ payload)

theorem length_dataFrame (tunnelID : UInt64) (payload : Bytes) :
    (dataFrame tunnelID payload).length = dataHeaderLen + payload.length := by
  simp only [dataFrame, dataHeaderLen, List.length_cons, List.length_append, length_bigEndian]
  omega

namespace Slice

/-- A copy behind what is written already goes on with it. -/
theorem take_copy (s : Slice) (offset : Nat) (data : Bytes) (hLen : s.len ≤ s.array.length)
    (hFits : offset + data.length ≤ s.len) :
    (s.copy offset data).array.take (offset + data.length) = s.array.take offset ++ data ∧
      (s.copy offset data).array.length = s.array.length ∧ (s.copy offset data).len = s.len := by
  have hAll : data.take (s.len - offset) = data := List.take_of_length_le (by omega)
  have hOffset : (s.array.take offset).length = offset := by
    rw [List.length_take]
    omega
  have hCopy : s.copy offset data = { s with
      array := s.array.take offset ++ (data ++ s.array.drop (offset + data.length)) } := by
    rw [copy, hAll]
  rw [hCopy]
  refine ⟨?_, ?_, rfl⟩
  · have hLength : offset + data.length = (s.array.take offset ++ data).length := by
      rw [List.length_append, hOffset]
    rw [← List.append_assoc, hLength, List.take_left]
  · simp only [List.length_append, List.length_drop, hOffset]
    omega

end Slice

/-- Whatever the slice held before, it holds the frame afterwards, in place if that fits. -/
theorem encodeData_eq (dst : Slice) (tunnelID : UInt64) (payload : Bytes) :
    (encodeData dst tunnelID payload).bytes = dataFrame tunnelID payload ∧
      (dataHeaderLen + payload.length ≤ dst.array.length →
        (encodeData dst tunnelID payload).array.length = dst.array.length) := by
  -- The slice that the three copies go into.
  obtain ⟨room, hRoom, hLength, hSame⟩ : ∃ room : Slice,
      encodeData dst tunnelID payload =
        ((room.copy 0 [frameData]).copy 1 (bigEndian tunnelIDLen tunnelID.toNat)).copy dataHeaderLen
          payload ∧
      (room.len = dataHeaderLen + payload.length ∧ room.len ≤ room.array.length) ∧
      (dataHeaderLen + payload.length ≤ dst.array.length →
        room.array.length = dst.array.length) := by
    refine ⟨_, rfl, ?_, ?_⟩
    · refine ⟨rfl, ?_⟩
      dsimp only [Slice.upTo]
      split
      · rw [Slice.make, List.length_replicate]
      · omega
    · intro hFits
      dsimp only [Slice.upTo]
      rw [if_neg (by omega)]
  obtain ⟨hLen, hArray⟩ := hLength
  have hHeader : dataHeaderLen = 1 + tunnelIDLen := rfl
  have hType := room.take_copy 0 [frameData] hArray (by rw [List.length_singleton]; omega)
  have hID := (room.copy 0 [frameData]).take_copy 1 (bigEndian tunnelIDLen tunnelID.toNat)
    (by omega) (by rw [length_bigEndian]; omega)
  have hPayload := ((room.copy 0 [frameData]).copy 1
    (bigEndian tunnelIDLen tunnelID.toNat)).take_copy dataHeaderLen payload (by omega) (by omega)
  rw [length_bigEndian, ← hHeader] at hID
  rw [hRoom]
  refine ⟨?_, fun hFits => by rw [hPayload.2.1, hID.2.1, hType.2.1, hSame hFits]⟩
  rw [Slice.bytes, hPayload.2.2, hID.2.2, hType.2.2, hLen, hPayload.1, hID.1]
  have hFirst : (room.copy 0 [frameData]).array.take 1 = [frameData] := hType.1
  rw [hFirst, dataFrame, List.append_assoc]
  rfl

theorem uint64_bigEndian (tunnelID : UInt64) (bs : Bytes) :
    uint64 (bigEndian tunnelIDLen tunnelID.toNat ++ bs) = tunnelID := by
  have hTake : (bigEndian tunnelIDLen tunnelID.toNat ++ bs).take tunnelIDLen =
      bigEndian tunnelIDLen tunnelID.toNat :=
    List.take_left' (length_bigEndian tunnelIDLen _)
  rw [uint64, hTake, ofBigEndian_bigEndian tunnelID.toNat_lt, UInt64.ofNat_toNat]

/-- A DATA frame cut to `n` octets has lost the end of its payload. -/
theorem parseFrame_take (tunnelID : UInt64) (payload : Bytes) {n : Nat} (h : dataHeaderLen ≤ n) :
    parseFrame ((dataFrame tunnelID payload).take n) =
      .ok ⟨frameData, tunnelID, payload.take (n - dataHeaderLen)⟩ := by
  have hTake : (dataFrame tunnelID payload).take n =
      dataFrame tunnelID (payload.take (n - dataHeaderLen)) := by
    obtain ⟨m, rfl⟩ := Nat.exists_eq_add_of_le h
    have hHeader : dataHeaderLen + m = (tunnelIDLen + m) + 1 := by
      rw [dataHeaderLen]
      omega
    rw [Nat.add_sub_cancel_left, hHeader, dataFrame, List.take_succ_cons, List.take_append,
      length_bigEndian, Nat.add_sub_cancel_left,
      List.take_of_length_le (by rw [length_bigEndian]; omega), dataFrame]
  have hLength := length_dataFrame tunnelID (payload.take (n - dataHeaderLen))
  have hDrop : (dataFrame tunnelID (payload.take (n - dataHeaderLen))).drop dataHeaderLen =
      payload.take (n - dataHeaderLen) := by
    rw [dataFrame, dataHeaderLen, Nat.add_comm, List.drop_succ_cons]
    exact List.drop_left' (length_bigEndian tunnelIDLen _)
  rw [hTake]
  rw [dataFrame] at hLength hDrop ⊢
  rw [parseFrame, if_pos rfl, if_neg (by omega), uint64_bigEndian, hDrop]

/-- A DATA frame is read as it was written. -/
theorem parseFrame_dataFrame (tunnelID : UInt64) (payload : Bytes) :
    parseFrame (dataFrame tunnelID payload) = .ok ⟨frameData, tunnelID, payload⟩ := by
  have hTake := parseFrame_take tunnelID payload (n := dataHeaderLen + payload.length) (by omega)
  rwa [Nat.add_sub_cancel_left, List.take_length, ← length_dataFrame, List.take_length] at hTake

end Relay
