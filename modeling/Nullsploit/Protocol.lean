/-
Nullsploit/Protocol.lean

The wire protocol between agents and the SOC (protocol.h, the same file on
both sides): a packed header of 25 bytes, then the encrypted payload.

The header's fields are read off its bytes the way the code reads the packed
struct, with `ntohl` on the two 32-bit fields.  A `Frame` is what a sender
writes; `Frame.header` and `Frame.bytes` are its bytes, and the four field
lemmas say that a reader of these bytes sees the frame's own values.
-/
import Nullsploit.Bytes

namespace Nullsploit

open Bytes

/-- `MAGIC_HEADER`, "FW01". -/
def magicHeader : Nat := 0x46573031

def msgTypePing : UInt8 := 0
def msgTypeBatch : UInt8 := 1
def msgTypeAlert : UInt8 := 2
def msgTypeBlockIp : UInt8 := 3
def msgTypeUnblockIp : UInt8 := 4
def msgTypeConfigUpdate : UInt8 := 5
def msgTypeYaraUpdate : UInt8 := 6

/-- `sizeof(struct soc_msg_hdr)`. -/
def hdrSize : Nat := 25

/-! ### The fields of a header in memory -/

/-- `ntohl(hdr.magic)`. -/
def hdrMagic (hdr : List UInt8) : Nat := beNat (hdr.take 4)

/-- `hdr.agent_uuid`. -/
def hdrUuid (hdr : List UInt8) : List UInt8 := (hdr.drop 4).take 16

/-- `hdr.msg_type`. -/
def hdrMsgType (hdr : List UInt8) : UInt8 := hdr.getD 20 0

/-- `ntohl(hdr.payload_len)`. -/
def hdrPayloadLen (hdr : List UInt8) : Nat := beNat ((hdr.drop 21).take 4)

/-! ### Frames -/

/-- A message as it is sent: the header's own fields and the payload after
it.  The magic and the length are not free. -/
structure Frame where
  agentUuid : List UInt8
  msgType : UInt8
  payload : List UInt8
  uuid_length : agentUuid.length = 16

namespace Frame

variable (f : Frame)

/-- The header written before the payload. -/
def header : List UInt8 :=
  beBytes 4 magicHeader ++ (f.agentUuid ++ (f.msgType :: beBytes 4 f.payload.length))

/-- The whole frame. -/
def bytes : List UInt8 := f.header ++ f.payload

@[simp] theorem length_header : f.header.length = hdrSize := by
  simp [header, f.uuid_length, hdrSize]

theorem length_bytes : f.bytes.length = hdrSize + f.payload.length := by
  rw [bytes, List.length_append, length_header]

theorem hdrMagic_header : hdrMagic f.header = magicHeader := by
  rw [hdrMagic, header, List.take_left' (length_beBytes 4 _)]
  exact beNat_beBytes_of_lt (by decide)

theorem hdrUuid_header : hdrUuid f.header = f.agentUuid := by
  rw [hdrUuid, header, List.drop_left' (length_beBytes 4 _), List.take_left' f.uuid_length]

theorem drop_twenty_header : f.header.drop 20 = f.msgType :: beBytes 4 f.payload.length := by
  rw [header, ← List.append_assoc]
  apply List.drop_left'
  rw [List.length_append, length_beBytes, f.uuid_length]

theorem hdrMsgType_header : hdrMsgType f.header = f.msgType := by
  have h : f.header[20]? = some f.msgType := by
    have h0 : (f.header.drop 20)[0]? = some f.msgType := by
      rw [drop_twenty_header]
      rfl
    rwa [List.getElem?_drop] at h0
  rw [hdrMsgType, List.getD_eq_getElem?_getD, h]
  rfl

theorem hdrPayloadLen_header (h : f.payload.length < 2 ^ 32) :
    hdrPayloadLen f.header = f.payload.length := by
  have hdrop : f.header.drop 21 = beBytes 4 f.payload.length := by
    rw [show (21 : Nat) = 20 + 1 from rfl, ← List.drop_drop, drop_twenty_header]
    rfl
  rw [hdrPayloadLen, hdrop, List.take_of_length_le (length_beBytes 4 _).le]
  exact beNat_beBytes_of_lt (by simpa using h)

end Frame

end Nullsploit
