/-
Nullsploit/LocalControl.lean

The local control port of the receiver (soc-server/soc_receiver.c): a
38-byte record from the dashboard becomes an encrypted command on the
connection of the agent it names.

`localControl_record` is the whole path for a record that carries the
hexadecimal text of a UUID: the frame goes to the first registered connection
with that UUID, and carries the record's type and data.
-/
import Nullsploit.AgentFraming
import Nullsploit.AesWrapper
import Nullsploit.HexText

namespace Nullsploit

open CText Bytes HexText

/-! ### The registry of agents -/

/-- `connected_agents`, slot by slot. -/
abbrev Registry := List (Option AgentConnection)

/-- The UUID in the header buffer of a connection. -/
def AgentConnection.uuid (conn : AgentConnection) : List UInt8 := hdrUuid (peek conn.hdr hdrSize)

/-- The descriptor of the first connection with the UUID. -/
def findAgent (targetUuid : List UInt8) : Registry → Option Nat
  | [] => none
  | none :: slots => findAgent targetUuid slots
  | some conn :: slots =>
      if conn.uuid = targetUuid then some conn.fd else findAgent targetUuid slots

/-! ### Sending a command -/

/-- `sscanf(uuid_hex + (i * 2), "%02x", &val)` for the sixteen bytes; `junk` is
what an unassigned `val` holds. -/
def parseUuidHex (junk : Nat → UInt8) (uuidHex : List UInt8) : List UInt8 :=
  (List.range 16).map fun i =>
    match sscanf02x (uuidHex.drop (2 * i)) with
    | some val => UInt8.ofNat val.toNat
    | none => junk i

/-- `send_command_to_agent`, the writes succeeding: the descriptor and the
bytes written to it, or -1. -/
def sendCommandToAgent (E : Equiv.Perm AesBlock) (iv : AesBlock) (junk : Nat → UInt8)
    (connected : Registry) (uuidHex : List UInt8) (commandType : UInt8) (data : List UInt8) :
    Option (Nat × List UInt8) :=
  if (cstr uuidHex).length ≠ 32 then none
  else
    let targetUuid := parseUuidHex junk (cstr uuidHex)
    match findAgent targetUuid connected with
    | none => none
    | some fd =>
        some (fd, Frame.bytes ⟨targetUuid, commandType, aesEncrypt E iv data, by
          simp [targetUuid, parseUuidHex]⟩)

/-! ### The control record -/

/-- `sizeof(struct local_cmd)`. -/
def localCmdSize : Nat := 38

/-- What the receiver does with the bytes of a control connection. -/
def localControl (E : Equiv.Perm AesBlock) (iv : AesBlock) (junk : Nat → UInt8)
    (connected : Registry) (received : List UInt8) : Option (Nat × List UInt8) :=
  if localCmdSize ≤ received.length then
    -- cmd.agent_uuid_hex[32] is overwritten by the terminator
    sendCommandToAgent E iv junk connected (received.take 32) (received.getD 33 0)
      ((received.drop 34).take 4)
  else none

/-! ### What arrives -/

theorem parseUuidHex_hexText (junk : Nat → UInt8) {uuid : List UInt8} (h : uuid.length = 16) :
    parseUuidHex junk (hexText uuid) = uuid := by
  apply List.ext_getElem
  · simp [parseUuidHex, h]
  · intro i h₁ h₂
    have hdrop : uuid.drop i = uuid[i] :: uuid.drop (i + 1) := List.drop_eq_getElem_cons h₂
    have htext : hexText (uuid.drop i) = sprintf02x uuid[i] ++ hexText (uuid.drop (i + 1)) := by
      rw [hdrop]
      rfl
    simp only [parseUuidHex, List.getElem_map, List.getElem_range]
    rw [drop_hexText, htext, sscanf02x_sprintf02x]
    dsimp only
    have hb : uuid[i].toNat < 256 := uuid[i].toNat_lt
    rw [BitVec.toNat_ofNat, Nat.mod_eq_of_lt (by omega), UInt8.ofNat_toNat]

theorem zero_not_mem_hexText (uuid : List UInt8) : (0 : UInt8) ∉ hexText uuid := by
  intro h
  obtain ⟨d, hd, h0⟩ := mem_hexText h
  have key : ∀ d < 16, (0 : UInt8) ≠ hexDigit d := by decide
  exact key d hd h0

theorem sendCommandToAgent_hexText (E : Equiv.Perm AesBlock) (iv : AesBlock) (junk : Nat → UInt8)
    (connected : Registry) {uuid : List UInt8} (huuid : uuid.length = 16) (commandType : UInt8)
    (data : List UInt8) :
    sendCommandToAgent E iv junk connected (hexText uuid) commandType data
      = (findAgent uuid connected).map fun fd =>
          (fd, Frame.bytes ⟨uuid, commandType, aesEncrypt E iv data, huuid⟩) := by
  have hstr : cstr (hexText uuid) = hexText uuid := cstr_of_not_mem (zero_not_mem_hexText uuid)
  have hparse := parseUuidHex_hexText junk huuid
  rw [sendCommandToAgent, hstr, if_neg (by rw [length_hexText, huuid]; simp)]
  simp only [hparse]
  rcases findAgent uuid connected with - | fd <;> rfl

/-- The record of the dashboard, read and passed on. -/
theorem localControl_record (E : Equiv.Perm AesBlock) (iv : AesBlock) (junk : Nat → UInt8)
    (connected : Registry) {uuid : List UInt8} (huuid : uuid.length = 16) (commandType : UInt8)
    {data : List UInt8} (hdata : data.length = 4) :
    localControl E iv junk connected (hexText uuid ++ 0 :: commandType :: data)
      = (findAgent uuid connected).map fun fd =>
          (fd, Frame.bytes ⟨uuid, commandType, aesEncrypt E iv data, huuid⟩) := by
  have hlen : (hexText uuid).length = 32 := by rw [length_hexText, huuid]
  have hsize : (hexText uuid ++ 0 :: commandType :: data).length = localCmdSize := by
    simp [hlen, hdata, localCmdSize]
  -- 32 digits, the NUL, the command, four bytes of address
  have htype : (hexText uuid ++ 0 :: commandType :: data).getD 33 0 = commandType := by
    rw [List.getD_eq_getElem?_getD, List.getElem?_append_right (by omega), hlen]
    rfl
  have hrest : (hexText uuid ++ 0 :: commandType :: data).drop 34 = data := by
    rw [show (34 : Nat) = 32 + 2 from rfl, ← List.drop_drop, List.drop_left' hlen]
    rfl
  rw [localControl, if_pos hsize.ge, List.take_left' hlen, htype, hrest,
    List.take_of_length_le hdata.le]
  exact sendCommandToAgent_hexText E iv junk connected huuid commandType data

end Nullsploit
