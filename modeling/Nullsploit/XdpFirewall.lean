/-
Nullsploit/XdpFirewall.lean

The XDP fast path: the program kernel/xdp_firewall.bpf.c, its map
(kernel/ebpf_xdp.c), and the pushes of `agent_listener_thread`
(kernel/fw_nfq.c) that fill the map along with the blocklist.

A push replaces the blocklist but only adds to the map, and adds the address of
every entry whatever its prefix length.  So after a run the map holds the
addresses of all pushes and the blocklist is the one of the last (`Pushed`);
`xdp_no_stricter_iff` compares the two at a packet.
-/
import Nullsploit.PacketPath

namespace Nullsploit

open Inet

/-! ### The program -/

/-- The map `blocked_ips`: a drop counter for each blocked address. -/
abbrev BlockedIps := BitVec 32 → Option (BitVec 32)

/-- `XDP_PASS` and `XDP_DROP`. -/
inductive XdpAction
  | pass
  | drop
  deriving DecidableEq, Repr

/-- `sizeof(struct ethhdr)`. -/
def ethHdrSize : Nat := 14

/-- `eth->h_proto == htons(ETH_P_IP)`. -/
def isEthIp (frame : List UInt8) : Bool := loadAt 16 2 12 frame = ntohs 0x0800#16

/-- `xdp_firewall_prog` on the frame `data .. data_end`. -/
def xdpFirewallProg (blockedIps : BlockedIps) (frame : List UInt8) : BlockedIps × XdpAction :=
  if frame.length < ethHdrSize then (blockedIps, .pass)
  else if isEthIp frame = false then (blockedIps, .pass)
  else if frame.length < ethHdrSize + ipHdrSize then (blockedIps, .pass)
  else
    let srcIp := (ipHdr (frame.drop ethHdrSize)).saddr
    match blockedIps srcIp with
    | some drops => (Function.update blockedIps srcIp (some (drops + 1)), .drop)
    | none => (blockedIps, .pass)

/-! ### Pushes -/

/-- `ebpf_xdp_block_ip`, the update succeeding. -/
def ebpfXdpBlockIp (blockedIps : BlockedIps) (ip : BitVec 32) : BlockedIps :=
  Function.update blockedIps ip (some 0)

/-- The daemon with its map. -/
structure XdpState where
  path : PathState
  blockedIps : BlockedIps

/-- The daemon at start-up. -/
def XdpState.init : XdpState := ⟨⟨Firewall.init, initConnPool⟩, fun _ => none⟩

/-- A complete payload in `agent_listener_thread`. -/
def handlePush (s : XdpState) (payload : BlocklistPayload) : XdpState where
  path := { s.path with firewall := updateIpBlocklist s.path.firewall payload }
  blockedIps := payload.listed.foldl (fun m e => ebpfXdpBlockIp m e.ip) s.blockedIps

theorem isSome_foldl_ebpfXdpBlockIp (es : List BlocklistEntry) (m : BlockedIps) (ip : BitVec 32) :
    (es.foldl (fun m e => ebpfXdpBlockIp m e.ip) m ip).isSome = true
      ↔ (∃ e ∈ es, e.ip = ip) ∨ (m ip).isSome = true := by
  induction es generalizing m with
  | nil => simp
  | cons e es ih =>
      rw [List.foldl_cons, ih]
      by_cases he : e.ip = ip
      · subst he
        simp [ebpfXdpBlockIp]
      · have hother : ebpfXdpBlockIp m e.ip ip = m ip := Function.update_of_ne (Ne.symm he) _ _
        simp [hother, he]

/-! ### What the program drops -/

/-- The frame holds an IPv4 header. -/
def IsIpv4Frame (frame : List UInt8) : Prop :=
  isEthIp frame = true ∧ ethHdrSize + ipHdrSize ≤ frame.length

instance (frame : List UInt8) : Decidable (IsIpv4Frame frame) :=
  inferInstanceAs (Decidable (_ ∧ _))

/-- The source address of the frame. -/
def frameSrc (frame : List UInt8) : BitVec 32 := (ipHdr (frame.drop ethHdrSize)).saddr

theorem xdpFirewallProg_drop_iff (m : BlockedIps) (frame : List UInt8) :
    (xdpFirewallProg m frame).2 = .drop
      ↔ IsIpv4Frame frame ∧ (m (frameSrc frame)).isSome = true := by
  unfold xdpFirewallProg IsIpv4Frame
  split
  · rename_i hlen
    refine ⟨nofun, fun h => absurd h.1.2 ?_⟩
    omega
  · split
    · rename_i hip
      refine ⟨nofun, fun h => absurd h.1.1 ?_⟩
      rw [hip]
      exact Bool.false_ne_true
    · rename_i hip
      split
      · rename_i hlen
        exact ⟨nofun, fun h => absurd h.1.2 (Nat.not_le.mpr hlen)⟩
      · rename_i hlen
        have hframe : isEthIp frame = true ∧ ethHdrSize + ipHdrSize ≤ frame.length :=
          ⟨Bool.eq_true_of_not_eq_false hip, Nat.not_lt.mp hlen⟩
        have hsrc : (ipHdr (frame.drop ethHdrSize)).saddr = frameSrc frame := rfl
        simp only [hsrc]
        rcases hm : m (frameSrc frame) with _ | drops
        · simp
        · simp [hframe]

/-- Counting a drop adds no address. -/
theorem xdpFirewallProg_isSome (m : BlockedIps) (frame : List UInt8) (ip : BitVec 32) :
    ((xdpFirewallProg m frame).1 ip).isSome = (m ip).isSome := by
  unfold xdpFirewallProg
  dsimp only
  split
  · rfl
  · split
    · rfl
    · split
      · rfl
      · split
        · rename_i drops hm
          dsimp only
          by_cases hip : ip = (ipHdr (frame.drop ethHdrSize)).saddr
          · subst hip
            rw [Function.update_self, hm]
            rfl
          · rw [Function.update_of_ne hip]
        · rfl

/-! ### Runs -/

variable (shl : BitVec 8 → BitVec 32) (host : Host) (det : Detectors)

/-- What happens to the daemon: the agent pushes, a frame arrives. -/
inductive XdpEvent
  | push (payload : BlocklistPayload)
  | frame (clock : Clock) (bytes : List UInt8)

/-- An IPv4 frame that the program passes is queued for the daemon; other frames go
past the queue. -/
def xdpStep (s : XdpState) : XdpEvent → XdpState
  | .push payload => handlePush s payload
  | .frame clock bytes =>
      match xdpFirewallProg s.blockedIps bytes with
      | (m, .drop) => { s with blockedIps := m }
      | (m, .pass) =>
          if isEthIp bytes then
            ⟨(fwNfqCallback shl host det clock s.path (bytes.drop ethHdrSize)).state, m⟩
          else { s with blockedIps := m }

/-- The pushes of a run. -/
def pushesOf (run : List XdpEvent) : List BlocklistPayload :=
  run.filterMap fun
    | .push payload => some payload
    | .frame _ _ => none

/-- The daemon after a run. -/
def xdpAfter (run : List XdpEvent) : XdpState := run.foldl (xdpStep shl host det) .init

/-- The blocklist of the last push and the addresses of all of them. -/
structure Pushed (ps : List BlocklistPayload) (s : XdpState) : Prop where
  mem_iff : ∀ ip, (s.blockedIps ip).isSome = true ↔ ∃ p ∈ ps, ∃ e ∈ p.listed, e.ip = ip
  blocklist : ∀ last, ps.getLast? = some last →
    s.path.firewall.blocklist = (updateIpBlocklist Firewall.init last).blocklist
  gBlockLocalIps : ∀ last, ps.getLast? = some last →
    s.path.firewall.gBlockLocalIps = last.blockLocalIps

theorem Pushed.push {ps : List BlocklistPayload} {s : XdpState} (h : Pushed ps s)
    (payload : BlocklistPayload) : Pushed (ps ++ [payload]) (handlePush s payload) where
  mem_iff ip := by
    rw [handlePush, isSome_foldl_ebpfXdpBlockIp, h.mem_iff]
    simp only [List.mem_append, List.mem_singleton, or_and_right, exists_or, exists_eq_left]
    exact or_comm
  blocklist last hlast := by
    rw [List.getLast?_append, List.getLast?_singleton, Option.some_or] at hlast
    obtain rfl := Option.some.inj hlast
    rfl
  gBlockLocalIps last hlast := by
    rw [List.getLast?_append, List.getLast?_singleton, Option.some_or] at hlast
    obtain rfl := Option.some.inj hlast
    rfl

theorem fwNfqCallback_firewall (clock : Clock) (s : PathState) (data : List UInt8) :
    (fwNfqCallback shl host det clock s data).state.firewall.blocklist = s.firewall.blocklist ∧
      (fwNfqCallback shl host det clock s data).state.firewall.gBlockLocalIps
        = s.firewall.gBlockLocalIps := by
  unfold fwNfqCallback
  dsimp only
  split
  · exact ⟨rfl, rfl⟩
  · split
    · exact ⟨rfl, rfl⟩
    · split
      · exact tcpChecks_firewall det _ clock s data
      · exact ⟨rfl, rfl⟩

theorem Pushed.frame {ps : List BlocklistPayload} {s : XdpState} (h : Pushed ps s) (clock : Clock)
    (bytes : List UInt8) : Pushed ps (xdpStep shl host det s (.frame clock bytes)) := by
  have hkeys := xdpFirewallProg_isSome s.blockedIps bytes
  obtain ⟨hblocklist, hlocal⟩ :=
    fwNfqCallback_firewall shl host det clock s.path (bytes.drop ethHdrSize)
  unfold xdpStep
  dsimp only
  rcases hprog : xdpFirewallProg s.blockedIps bytes with ⟨m, _ | _⟩
  · rw [hprog] at hkeys
    dsimp only
    split
    · refine ⟨fun ip => ?_, fun last hlast => ?_, fun last hlast => ?_⟩
      · rw [← h.mem_iff ip, ← hkeys ip]
      · exact hblocklist.trans (h.blocklist last hlast)
      · exact hlocal.trans (h.gBlockLocalIps last hlast)
    · refine ⟨fun ip => ?_, h.blocklist, h.gBlockLocalIps⟩
      rw [← h.mem_iff ip, ← hkeys ip]
  · rw [hprog] at hkeys
    refine ⟨fun ip => ?_, h.blocklist, h.gBlockLocalIps⟩
    rw [← h.mem_iff ip, ← hkeys ip]

theorem pushed_xdpAfter (run : List XdpEvent) : Pushed (pushesOf run) (xdpAfter shl host det run) := by
  induction run using List.reverseRecOn with
  | nil => exact ⟨fun ip => by simp [xdpAfter, XdpState.init, pushesOf], nofun, nofun⟩
  | append_singleton run event ih =>
      rw [xdpAfter, List.foldl_append, pushesOf, List.filterMap_append]
      cases event with
      | push payload => exact ih.push payload
      | frame clock bytes =>
          rw [List.filterMap_cons_none rfl, List.filterMap_nil, List.append_nil]
          exact ih.frame shl host det clock bytes

/-! ### Is the fast path stricter? -/

/-- If the program drops the frame, the daemon would drop the packet in it, and
would do so because its source is blocklisted and not let through as local. -/
def XdpNoStricter (s : XdpState) (clock : Clock) (frame : List UInt8) : Prop :=
  (xdpFirewallProg s.blockedIps frame).2 = .drop →
    (fwNfqCallback shl host det clock s.path (frame.drop ethHdrSize)).verdict = .drop ∧
      inspectIpBlocklist shl s.path.firewall (frameSrc frame) = true ∧
      ¬ BypassedLocally s.path (frameSrc frame)

/-- The daemon drops a blocklisted source that no rule lets through. -/
theorem fwNfqCallback_of_listed {clock : Clock} {s : PathState} {data : List UInt8}
    (hlen : ipHdrSize ≤ data.length) (hb : isBypassedIp host (ipHdr data).saddr = false)
    (hlisted : inspectIpBlocklist shl s.firewall (ipHdr data).saddr = true)
    (hlocal : ¬ BypassedLocally s (ipHdr data).saddr) :
    (fwNfqCallback shl host det clock s data).verdict = .drop := by
  have hdrop : applyLocalBypass s (ipHdr data).saddr true = .drop := if_neg hlocal
  unfold fwNfqCallback
  dsimp only
  rw [if_neg (Nat.not_lt.mpr hlen), hb, if_neg Bool.false_ne_true]
  split
  · dsimp only
    rw [applyLocalBypass_tcpChecks, hlisted, Bool.or_true, Bool.true_or]
    exact hdrop
  · dsimp only
    rw [hlisted, Bool.or_true]
    exact hdrop

theorem fwNfqCallback_of_bypassed {clock : Clock} {s : PathState} {data : List UInt8}
    (hb : isBypassedIp host (ipHdr data).saddr = true) :
    (fwNfqCallback shl host det clock s data).verdict = .accept := by
  unfold fwNfqCallback
  dsimp only
  split
  · rfl
  · rfl

/-- What the property asks of a state, without the callback. -/
theorem xdpNoStricter_iff_rules (s : XdpState) (clock : Clock) (frame : List UInt8) :
    XdpNoStricter shl host det s clock frame ↔
      (IsIpv4Frame frame → (s.blockedIps (frameSrc frame)).isSome = true →
        inspectIpBlocklist shl s.path.firewall (frameSrc frame) = true ∧
        isBypassedIp host (frameSrc frame) = false ∧
        ¬ BypassedLocally s.path (frameSrc frame)) := by
  unfold XdpNoStricter
  rw [xdpFirewallProg_drop_iff, and_imp]
  refine imp_congr_right fun hframe => imp_congr_right fun _ => ?_
  constructor
  · rintro ⟨hverdict, hlisted, hlocal⟩
    refine ⟨hlisted, Bool.eq_false_iff.mpr fun hb => ?_, hlocal⟩
    rw [fwNfqCallback_of_bypassed shl host det hb] at hverdict
    cases hverdict
  · rintro ⟨hlisted, hb, hlocal⟩
    have hlen : ipHdrSize ≤ (frame.drop ethHdrSize).length := by
      rw [List.length_drop]
      have := hframe.2
      omega
    exact ⟨fwNfqCallback_of_listed shl host det hlen hb hlisted hlocal, hlisted, hlocal⟩

/-- The last push and what it says of an address. -/
def StillBlocks (host : Host) (last : BlocklistPayload) (ip : BitVec 32) : Prop :=
  (∃ e ∈ last.listed, InBlock e.ip e.mask.toNat ip) ∧ isBypassedIp host ip = false ∧
    (isLocalIp ip = true → last.blockLocalIps ≠ 0)

/-- **When the fast path is no stricter than the slow one**, after any run with
well-formed pushes: an address ever pushed must still lie in a block of the
last push, must not be one the daemon bypasses, and if it is local, the last
push must say that local addresses are blocked too. -/
theorem xdp_no_stricter_iff (run : List XdpEvent) (hrun : ∀ p ∈ pushesOf run, p.WellFormed)
    (clock : Clock) (frame : List UInt8) :
    XdpNoStricter shl host det (xdpAfter shl host det run) clock frame ↔
      (IsIpv4Frame frame → (∃ p ∈ pushesOf run, ∃ e ∈ p.listed, e.ip = frameSrc frame) →
        ∃ last, (pushesOf run).getLast? = some last ∧ StillBlocks host last (frameSrc frame)) := by
  have h := pushed_xdpAfter shl host det run
  rw [xdpNoStricter_iff_rules, h.mem_iff]
  refine imp_congr_right fun _ => imp_congr_right fun hpushed => ?_
  obtain ⟨p, hp, -⟩ := hpushed
  obtain ⟨last, hlast⟩ : ∃ last, (pushesOf run).getLast? = some last :=
    ⟨_, List.getLast?_eq_some_getLast (List.ne_nil_of_mem hp)⟩
  have hwf : last.WellFormed := hrun last (List.mem_of_getLast? hlast)
  have hlisted : inspectIpBlocklist shl (xdpAfter shl host det run).path.firewall (frameSrc frame)
      = inspectIpBlocklist shl (updateIpBlocklist Firewall.init last) (frameSrc frame) := by
    unfold inspectIpBlocklist
    rw [h.blocklist last hlast]
  rw [hlisted, inspect_of_wellFormed shl Firewall.init hwf, BypassedLocally,
    h.gBlockLocalIps last hlast, not_and]
  constructor
  · exact fun hblocks => ⟨last, hlast, hblocks⟩
  · rintro ⟨last', hlast', hblocks⟩
    obtain rfl := Option.some.inj (hlast.symm.trans hlast')
    exact hblocks

/-- A frame around the bare SYN of 8.8.8.8. -/
def plainSynFrame : List UInt8 := List.replicate 12 0 ++ [8, 0] ++ plainSyn

/-- Block 8.8.8.8. -/
def blockEvent : XdpEvent := .push (.ofList 0 [⟨0x08080808, 32⟩])

/-- Unblock it again: the agent pushes what is left, an empty list. -/
def unblockEvent : XdpEvent := .push (.ofList 0 [])

/-- While it is blocked, both paths drop its packet. -/
theorem xdp_no_stricter_while_blocked :
    (∀ p ∈ pushesOf [blockEvent], p.WellFormed) ∧
      XdpNoStricter (fun _ => 0) ⟨false, 0⟩ noDetectors
        (xdpAfter (fun _ => 0) ⟨false, 0⟩ noDetectors [blockEvent]) ⟨1000, 1⟩ plainSynFrame := by
  have hwf : ∀ p ∈ pushesOf [blockEvent], p.WellFormed := by
    intro p hp
    obtain rfl : p = .ofList 0 [⟨0x08080808, 32⟩] := by simpa [pushesOf, blockEvent] using hp
    exact ⟨by decide, by rw [BlocklistPayload.listed_ofList]; decide⟩
  refine ⟨hwf, (xdp_no_stricter_iff _ _ _ _ hwf _ _).mpr fun _ _ => ?_⟩
  refine ⟨.ofList 0 [⟨0x08080808, 32⟩], rfl, ?_⟩
  unfold StillBlocks
  rw [BlocklistPayload.listed_ofList]
  decide

/-- Once it is unblocked, the daemon accepts its packets but never sees them. -/
theorem unblocked_source_still_dropped :
    ¬ ∃ det, XdpNoStricter (fun _ => 0) ⟨false, 0⟩ det
      (xdpAfter (fun _ => 0) ⟨false, 0⟩ det [blockEvent, unblockEvent]) ⟨1000, 1⟩
      plainSynFrame := by
  rintro ⟨det, h⟩
  have hrules := (xdpNoStricter_iff_rules _ _ det _ _ _).mp h (by decide)
    (((pushed_xdpAfter _ _ det [blockEvent, unblockEvent]).mem_iff _).mpr ?_)
  · have hempty := (pushed_xdpAfter (fun _ => 0) ⟨false, 0⟩ det
      [blockEvent, unblockEvent]).blocklist (.ofList 0 []) rfl
    have hnot := inspectIpBlocklist_of_empty (fun _ => 0) _ hempty (frameSrc plainSynFrame)
    exact Bool.false_ne_true (hnot.symm.trans hrules.1)
  · refine ⟨.ofList 0 [⟨0x08080808, 32⟩], by simp [pushesOf, blockEvent], ?_⟩
    rw [BlocklistPayload.listed_ofList]
    decide

end Nullsploit
