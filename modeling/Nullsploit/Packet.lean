/-
Nullsploit/Packet.lean

The headers of a packet, as `struct iphdr` and `struct tcphdr` lay them over
its bytes on a little-endian host.  Multi-byte fields are the raw words the C
code loads: `ntohs` and `ntohl` are applied where the source applies them.
-/
import Nullsploit.Bytes
import Nullsploit.Inet

namespace Nullsploit

open Bytes

/-- `ntohs` (and `htons`) on a little-endian host. -/
def ntohs (x : BitVec 16) : BitVec 16 := BitVec.ofNat 16 (x.toNat % 256 * 256 + x.toNat / 256)

/-- `IPPROTO_TCP`. -/
def ipprotoTcp : UInt8 := 6

/-- The fields of `struct iphdr` that the firewall reads. -/
structure IpHdr where
  ihl : BitVec 4
  totLen : BitVec 16
  protocol : UInt8
  saddr : BitVec 32
  daddr : BitVec 32
  deriving DecidableEq, Repr

/-- The fields of `struct tcphdr` that the firewall reads. -/
structure TcpHdr where
  source : BitVec 16
  dest : BitVec 16
  doff : BitVec 4
  fin : Bool
  syn : Bool
  rst : Bool
  ack : Bool
  deriving DecidableEq, Repr

/-- `sizeof(struct iphdr)` and `sizeof(struct tcphdr)`. -/
def ipHdrSize : Nat := 20
def tcpHdrSize : Nat := 20

/-- The word of `k` bytes at an offset, as a load yields it. -/
def loadAt (w k : Nat) (off : Nat) (data : List UInt8) : BitVec w :=
  BitVec.ofNat w (leNat ((data.drop off).take k))

/-- `(struct iphdr *)data`. -/
def ipHdr (data : List UInt8) : IpHdr where
  ihl := BitVec.ofNat 4 (data.getD 0 0).toNat
  totLen := loadAt 16 2 2 data
  protocol := data.getD 9 0
  saddr := loadAt 32 4 12 data
  daddr := loadAt 32 4 16 data

/-- `(struct tcphdr *)(data + off)`. -/
def tcpHdrAt (off : Nat) (data : List UInt8) : TcpHdr where
  source := loadAt 16 2 off data
  dest := loadAt 16 2 (off + 2) data
  doff := BitVec.ofNat 4 ((data.getD (off + 12) 0).toNat / 16)
  fin := (data.getD (off + 13) 0).toNat.testBit 0
  syn := (data.getD (off + 13) 0).toNat.testBit 1
  rst := (data.getD (off + 13) 0).toNat.testBit 2
  ack := (data.getD (off + 13) 0).toNat.testBit 4

/-- The TCP header behind the IP header of a packet. -/
def tcpHdr (data : List UInt8) : TcpHdr := tcpHdrAt ((ipHdr data).ihl.toNat * 4) data

/-- The offset of the payload, `ihl * 4 + doff * 4`. -/
def payloadOffset (iph : IpHdr) (tcph : TcpHdr) : Nat := iph.ihl.toNat * 4 + tcph.doff.toNat * 4

/-- The length of the payload by the headers, which may be negative. -/
def payloadLen (iph : IpHdr) (tcph : TcpHdr) : Int :=
  (ntohs iph.totLen).toNat - (payloadOffset iph tcph : Int)

/-- A packet belongs to the flow of its source address and port. -/
structure TcpFlow where
  ip : BitVec 32
  port : BitVec 16
  deriving DecidableEq, Repr

def tcpFlowOf (iph : IpHdr) (tcph : TcpHdr) : TcpFlow := ⟨iph.saddr, tcph.source⟩

/-- The flow of a packet. -/
def dataFlow (data : List UInt8) : TcpFlow := tcpFlowOf (ipHdr data) (tcpHdr data)

end Nullsploit
