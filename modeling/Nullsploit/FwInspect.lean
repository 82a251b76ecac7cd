/-
Nullsploit/FwInspect.lean

The shared header `fw_inspect.h`: what the agent pushes to the firewall, and
the events it gets from it.  Addresses are the raw `uint32_t` the C code stores,
network byte order in memory on a little-endian host.  An event is the struct's
bytes in memory, which is what every component copies, sends and inserts; its
fields are read off them.
-/
import Mathlib.Tactic.Common
import Nullsploit.Bytes

namespace Nullsploit

open Bytes

/-- `MAX_BLOCKLIST_IPS`. -/
def maxBlocklistIps : Nat := 1024

/-- `struct blocklist_entry`. -/
structure BlocklistEntry where
  ip : BitVec 32
  mask : BitVec 8
  deriving DecidableEq, Repr

/-- `struct blocklist_payload`.  `entries j` is what reading `entries[j]`
yields; the array proper ends at `maxBlocklistIps`. -/
structure BlocklistPayload where
  count : Nat
  blockLocalIps : BitVec 32
  entries : Nat → BlocklistEntry

namespace BlocklistPayload

/-- The entries a loop `for (j = 0; j < count; j++)` visits. -/
def listed (p : BlocklistPayload) : List BlocklistEntry := (List.range p.count).map p.entries

/-- The zero-filled payload with the given entries in front. -/
def ofList (blockLocalIps : BitVec 32) (es : List BlocklistEntry) : BlocklistPayload where
  count := es.length
  blockLocalIps := blockLocalIps
  entries j := es.getD j ⟨0, 0⟩

@[simp] theorem listed_ofList (b : BitVec 32) (es : List BlocklistEntry) :
    (ofList b es).listed = es := by
  apply List.ext_getElem
  · simp [listed, ofList]
  · intro i h₁ h₂
    simp [listed, ofList, List.getD, h₂]

/-- What the firewall is promised: the count fits the array and every mask is
a prefix length. -/
structure WellFormed (p : BlocklistPayload) : Prop where
  count_le : p.count ≤ maxBlocklistIps
  mask_le : ∀ e ∈ p.listed, e.mask.toNat ≤ 32

end BlocklistPayload

/-! ### Events -/

def severityInfo : UInt8 := 0
def severityWarning : UInt8 := 1
def severityCritical : UInt8 := 2

def threatPhpShell : UInt8 := 1
def threatXss : UInt8 := 2
def threatSynFlood : UInt8 := 3
def threatSlowloris : UInt8 := 4
def threatBlocklist : UInt8 := 5
def threatSqli : UInt8 := 6
def threatCmdi : UInt8 := 7
def threatPathTrav : UInt8 := 8
def threatLfi : UInt8 := 9
def threatRfi : UInt8 := 10
def threatBot : UInt8 := 11
def threatYara : UInt8 := 12
def threatReputation : UInt8 := 13

/-- `sizeof(struct fw_event)`, two bytes of padding included. -/
def eventSize : Nat := 408

/-- `struct fw_event` in memory. -/
structure FwEvent where
  bytes : List UInt8
  length_eq : bytes.length = eventSize
  deriving DecidableEq, Repr

namespace FwEvent

variable (e : FwEvent)

def timestamp : Nat := leNat (e.bytes.take 8)
def srcIp : BitVec 32 := BitVec.ofNat 32 (leNat ((e.bytes.drop 8).take 4))
def destIp : BitVec 32 := BitVec.ofNat 32 (leNat ((e.bytes.drop 12).take 4))
def srcPort : BitVec 16 := BitVec.ofNat 16 (leNat ((e.bytes.drop 16).take 2))
def destPort : BitVec 16 := BitVec.ofNat 16 (leNat ((e.bytes.drop 18).take 2))
def threatType : UInt8 := e.bytes.getD 20 0
def severity : UInt8 := e.bytes.getD 21 0
def payloadPreview : List UInt8 := (e.bytes.drop 22).take 128
def details : List UInt8 := (e.bytes.drop 150).take 256

end FwEvent

/-- A zeroed `char` array of `n` bytes after a text was put into it: what fits
in front of the terminator. -/
def textField (n : Nat) (text : List UInt8) : List UInt8 :=
  text.take (n - 1) ++ List.replicate (n - (text.take (n - 1)).length) 0

theorem length_textField (n : Nat) (text : List UInt8) : (textField n text).length = n := by
  rw [textField, List.length_append, List.length_replicate, List.length_take]
  omega

/-- A `struct fw_event` initialised field by field, its padding zero. -/
def FwEvent.make (timestamp : Nat) (srcIp destIp : BitVec 32) (srcPort destPort : BitVec 16)
    (threatType severity : UInt8) (payloadPreview details : List UInt8) : FwEvent where
  bytes := leBytes 8 timestamp ++ leBytes 4 srcIp.toNat ++ leBytes 4 destIp.toNat ++
    leBytes 2 srcPort.toNat ++ leBytes 2 destPort.toNat ++ [threatType, severity] ++
    textField 128 payloadPreview ++ textField 256 details ++ [0, 0]
  length_eq := by
    simp only [List.length_append, length_leBytes, length_textField, List.length_cons,
      List.length_nil, eventSize]

/-! The fields of an event made so are read back. -/

section Make

variable (timestamp : Nat) (srcIp destIp : BitVec 32) (srcPort destPort : BitVec 16)
  (threatType severity : UInt8) (payloadPreview details : List UInt8)

@[simp] theorem FwEvent.make_srcIp :
    (FwEvent.make timestamp srcIp destIp srcPort destPort threatType severity payloadPreview
      details).srcIp = srcIp := by
  have hlt : srcIp.toNat < 256 ^ 4 := srcIp.isLt
  unfold FwEvent.srcIp FwEvent.make
  simp only [List.append_assoc]
  rw [List.drop_left' (length_leBytes 8 timestamp), List.take_left' (length_leBytes 4 _),
    leNat_leBytes_of_lt hlt, BitVec.ofNat_toNat, BitVec.setWidth_eq]

@[simp] theorem FwEvent.make_destIp :
    (FwEvent.make timestamp srcIp destIp srcPort destPort threatType severity payloadPreview
      details).destIp = destIp := by
  have hlt : destIp.toNat < 256 ^ 4 := destIp.isLt
  have hfront : (leBytes 8 timestamp ++ leBytes 4 srcIp.toNat).length = 12 := by
    simp only [List.length_append, length_leBytes]
  unfold FwEvent.destIp FwEvent.make
  simp only [List.append_assoc] at hfront ⊢
  rw [← List.append_assoc (leBytes 8 timestamp), List.drop_left' hfront,
    List.take_left' (length_leBytes 4 _), leNat_leBytes_of_lt hlt, BitVec.ofNat_toNat,
    BitVec.setWidth_eq]

@[simp] theorem FwEvent.make_srcPort :
    (FwEvent.make timestamp srcIp destIp srcPort destPort threatType severity payloadPreview
      details).srcPort = srcPort := by
  have hlt : srcPort.toNat < 256 ^ 2 := srcPort.isLt
  have hfront : (leBytes 8 timestamp ++ leBytes 4 srcIp.toNat ++ leBytes 4 destIp.toNat).length
      = 16 := by
    simp only [List.length_append, length_leBytes]
  unfold FwEvent.srcPort FwEvent.make
  simp only [List.append_assoc] at hfront ⊢
  rw [← List.append_assoc (leBytes 4 srcIp.toNat), ← List.append_assoc (leBytes 8 timestamp),
    List.drop_left' hfront, List.take_left' (length_leBytes 2 _), leNat_leBytes_of_lt hlt,
    BitVec.ofNat_toNat, BitVec.setWidth_eq]

@[simp] theorem FwEvent.make_destPort :
    (FwEvent.make timestamp srcIp destIp srcPort destPort threatType severity payloadPreview
      details).destPort = destPort := by
  have hlt : destPort.toNat < 256 ^ 2 := destPort.isLt
  have hfront : (leBytes 8 timestamp ++ leBytes 4 srcIp.toNat ++ leBytes 4 destIp.toNat ++
      leBytes 2 srcPort.toNat).length = 18 := by
    simp only [List.length_append, length_leBytes]
  unfold FwEvent.destPort FwEvent.make
  dsimp only
  generalize leBytes 8 timestamp ++ leBytes 4 srcIp.toNat ++ leBytes 4 destIp.toNat ++
      leBytes 2 srcPort.toNat = front at hfront
  simp only [List.append_assoc]
  rw [List.drop_left' hfront, List.take_left' (length_leBytes 2 _), leNat_leBytes_of_lt hlt,
    BitVec.ofNat_toNat, BitVec.setWidth_eq]

@[simp] theorem FwEvent.make_threatType :
    (FwEvent.make timestamp srcIp destIp srcPort destPort threatType severity payloadPreview
      details).threatType = threatType := by
  have hfront : (leBytes 8 timestamp ++ leBytes 4 srcIp.toNat ++ leBytes 4 destIp.toNat ++
      leBytes 2 srcPort.toNat ++ leBytes 2 destPort.toNat).length = 20 := by
    simp only [List.length_append, length_leBytes]
  unfold FwEvent.threatType FwEvent.make
  dsimp only
  generalize leBytes 8 timestamp ++ leBytes 4 srcIp.toNat ++ leBytes 4 destIp.toNat ++
      leBytes 2 srcPort.toNat ++ leBytes 2 destPort.toNat = front at hfront
  simp only [List.append_assoc, List.getD_eq_getElem?_getD]
  rw [List.getElem?_append_right (by omega), hfront]
  rfl

end Make

/-- The bytes of an array of events. -/
def eventBytes (es : List FwEvent) : List UInt8 := es.flatMap FwEvent.bytes

/-- `events[0 .. k)` of a buffer cast to `struct fw_event *`. -/
def eventsOf : Nat → List UInt8 → List FwEvent
  | 0, _ => []
  | k + 1, bs =>
      if h : (bs.take eventSize).length = eventSize then
        ⟨bs.take eventSize, h⟩ :: eventsOf k (bs.drop eventSize)
      else []

/-- The event with every field 0: an informational one. -/
def infoEvent : FwEvent where
  bytes := List.replicate eventSize 0
  length_eq := List.length_replicate

theorem length_eventBytes (es : List FwEvent) : (eventBytes es).length = eventSize * es.length := by
  induction es with
  | nil => rfl
  | cons e es ih =>
      show (e.bytes ++ eventBytes es).length = _
      rw [List.length_append, e.length_eq, ih, List.length_cons, Nat.mul_succ, Nat.add_comm]

theorem eventBytes_ne_nil {es : List FwEvent} (h : es ≠ []) : eventBytes es ≠ [] := by
  apply List.ne_nil_of_length_pos
  rw [length_eventBytes]
  exact Nat.mul_pos (by decide) (List.length_pos_of_ne_nil h)

/-- An array of events read back. -/
theorem eventsOf_eventBytes (es : List FwEvent) : eventsOf es.length (eventBytes es) = es := by
  induction es with
  | nil => rfl
  | cons e es ih =>
      have htake : (e.bytes ++ eventBytes es).take eventSize = e.bytes := List.take_left' e.length_eq
      have hdrop : (e.bytes ++ eventBytes es).drop eventSize = eventBytes es :=
        List.drop_left' e.length_eq
      show eventsOf (es.length + 1) (e.bytes ++ eventBytes es) = _
      rw [eventsOf, dif_pos (by rw [htake]; exact e.length_eq), hdrop, ih]
      simp only [htake]

end Nullsploit
