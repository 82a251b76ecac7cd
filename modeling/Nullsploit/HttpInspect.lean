/-
Nullsploit/HttpInspect.lean

The HTTP inspector, kernel/http_inspect.c.  It reports to the TCP monitor that
payload was sent and, when the four bytes that end a request header stand in
the packet, that the request is complete; then it runs the detectors over the
decoded payload, the first finding deciding.

The detectors for SQL injection, command injection, path traversal, bots and
YARA rules are a parameter (`Detectors`): what is proved here and in the
modules on top holds whatever they find.
-/
import Nullsploit.CText
import Nullsploit.IpBlocklist
import Nullsploit.TcpMonitor

namespace Nullsploit

open CText

/-! ### Searching -/

/-- `k_strstr(...) != NULL` on a counted buffer. -/
def kStrstr (haystack needle : List UInt8) : Bool :=
  if needle.length > haystack.length then false
  else (List.range (haystack.length - needle.length + 1)).any fun i =>
    (haystack.drop i).take needle.length = needle

/-- `k_stristr(...) != NULL`. -/
def kStristr (haystack needle : List UInt8) : Bool :=
  kStrstr (haystack.map toLower) (needle.map toLower)

/-- The search finds the needle wherever it stands. -/
theorem kStrstr_iff {haystack needle : List UInt8} :
    kStrstr haystack needle = true ↔ needle <:+: haystack := by
  unfold kStrstr
  split
  · rename_i hlen
    refine ⟨nofun, fun h => absurd h.length_le ?_⟩
    omega
  · rw [List.any_eq_true]
    constructor
    · rintro ⟨i, -, hi⟩
      rw [decide_eq_true_iff] at hi
      have hpre : needle <+: haystack.drop i := List.prefix_iff_eq_take.mpr hi.symm
      exact hpre.isInfix.trans (List.drop_suffix i haystack).isInfix
    · rintro ⟨s, t, rfl⟩
      refine ⟨s.length, ?_, ?_⟩
      · rw [List.mem_range]
        simp only [List.length_append]
        omega
      · rw [decide_eq_true_iff, List.append_assoc, List.drop_left, List.take_left]

/-! ### URL decoding -/

/-- `is_hex_char`. -/
def isHexChar (c : UInt8) : Bool :=
  (ch '0' ≤ c ∧ c ≤ ch '9') ∨ (ch 'a' ≤ c ∧ c ≤ ch 'f') ∨ (ch 'A' ≤ c ∧ c ≤ ch 'F')

/-- `hex_val`. -/
def hexCharVal (c : UInt8) : UInt8 :=
  if ch '0' ≤ c ∧ c ≤ ch '9' then c - ch '0'
  else if ch 'a' ≤ c ∧ c ≤ ch 'f' then 10 + (c - ch 'a')
  else if ch 'A' ≤ c ∧ c ≤ ch 'F' then 10 + (c - ch 'A')
  else 0

/-- A complete escape at the front of the text, and what follows it. -/
def urlEscape : List UInt8 → Option (UInt8 × List UInt8)
  | c :: h :: l :: rest =>
      if c = ch '%' ∧ isHexChar h ∧ isHexChar l then
        some (hexCharVal h <<< 4 ||| hexCharVal l, rest)
      else none
  | _ => none

/-- `url_decode` into a buffer with room for so many bytes and the terminator. -/
def urlDecode : Nat → List UInt8 → List UInt8
  | 0, _ => []
  | _ + 1, [] => []
  | room + 1, c :: src =>
      match urlEscape (c :: src) with
      | some (b, rest) => b :: urlDecode room rest
      | none => (if c = ch '+' then ch ' ' else c) :: urlDecode room src

/-! ### Findings -/

/-- What a scoring detector returns, and leaves in the two buffers. -/
structure Detection where
  score : Int
  pattern : List UInt8
  details : List UInt8
  deriving DecidableEq, Repr

/-- The detectors the inspector calls, as functions of the decoded payload;
`scanMemYara` is the name of the first matching rule. -/
structure Detectors where
  detectSqli : List UInt8 → Detection
  detectCmdi : List UInt8 → Detection
  detectPathTraversal : List UInt8 → Detection
  detectBot : List UInt8 → Detection
  scanMemYara : List UInt8 → Option (List UInt8)

/-- What a check reports and how much reputation it costs. -/
structure Finding where
  threatType : UInt8
  severity : UInt8
  payloadPreview : List UInt8
  details : List UInt8
  damage : Int
  deriving DecidableEq, Repr

/-- A detector reports from a score of 40 on. -/
def scored (threatType severity : UInt8) (damage : Int) (d : Detection) : Option Finding :=
  if d.score ≥ 40 then some ⟨threatType, severity, d.pattern, d.details, damage⟩ else none

/-- The path detector names the kind of its finding in the pattern. -/
def pathThreat (d : Detection) : UInt8 :=
  if strstr d.pattern (str "RFI") then threatRfi
  else if strstr d.pattern (str "LFI") then threatLfi
  else threatPathTrav

def phpSignatures : List (List UInt8) :=
  [str "eval(", str "base64_decode(", str "system(", str "passthru(", str "exec(",
    str "shell_exec(", str "popen(", str "proc_open("]

def xssSignatures : List (List UInt8) :=
  [str "<script>", str "javascript:", str "onerror=", str "onload=", str "<img", str "alert("]

/-- The signature loops: the first signature found, reported with the payload
itself as details. -/
def signature (search : List UInt8 → List UInt8 → Bool) (signatures : List (List UInt8))
    (threatType severity : UInt8) (title : List UInt8) (damage : Int) (payload : List UInt8) :
    Option Finding :=
  (signatures.find? (search payload)).map fun sig =>
    ⟨threatType, severity, title ++ sig.take 100, payload, damage⟩

def yaraFinding (rule : List UInt8) : Finding :=
  ⟨threatYara, severityCritical, str "YARA matched: " ++ rule.take 100,
    str "HTTP payload triggered inline YARA rule " ++ rule.take 100, 30⟩

/-- The checks in source order, on the decoded payload. -/
def Detectors.scan (det : Detectors) (payload : List UInt8) : Option Finding :=
  scored threatSqli severityCritical 20 (det.detectSqli payload) <|>
  scored threatCmdi severityCritical 20 (det.detectCmdi payload) <|>
  scored (pathThreat (det.detectPathTraversal payload)) severityCritical 20
    (det.detectPathTraversal payload) <|>
  scored threatBot severityInfo 15 (det.detectBot payload) <|>
  signature kStrstr phpSignatures threatPhpShell severityCritical (str "PHP Shell: ") 25 payload <|>
  signature kStristr xssSignatures threatXss severityWarning (str "XSS Detected: ") 10 payload <|>
  (det.scanMemYara payload).map yaraFinding

/-! ### The inspector -/

/-- What the packet path of the firewall reads and changes. -/
structure PathState where
  firewall : Firewall
  pool : ConnPool

/-- What a check leaves behind; `drop` is its return value. -/
structure Checked where
  state : PathState
  drop : Bool
  events : List FwEvent

/-- The end of a request header. -/
def headerEnd : List UInt8 := str "\r\n\r\n"

/-- The payload of a TCP packet by its headers. -/
def payloadOf (data : List UInt8) : List UInt8 :=
  (data.drop (payloadOffset (ipHdr data) (tcpHdr data))).take
    (payloadLen (ipHdr data) (tcpHdr data)).toNat

/-- The part of the payload that is searched. -/
def scannedPart (data : List UInt8) : List UInt8 := (payloadOf data).take 2048

/-- The two callbacks into the TCP monitor. -/
def registerHttp (pool : ConnPool) (data : List UInt8) : ConnPool :=
  let saddr := (ipHdr data).saddr
  let source := (tcpHdr data).source
  let pool := registerHttpHeaderSent pool saddr source
  if kStrstr (scannedPart data) headerEnd then registerHttpComplete pool saddr source else pool

/-- A finding is sent and costs the source reputation. -/
def Finding.report (f : Finding) (clock : Clock) (s : PathState) (data : List UInt8) : Checked where
  state :=
    { s with
      firewall :=
        { s.firewall with
          reputation := (updateIpReputation s.firewall.reputation (ipHdr data).saddr f.damage
            f.threatType.toNat clock.seconds).1 } }
  drop := true
  events :=
    [.make clock.seconds (ipHdr data).saddr (ipHdr data).daddr (tcpHdr data).source
      (tcpHdr data).dest f.threatType f.severity f.payloadPreview f.details]

/-- `inspect_http_payload`; `mayPull` is `pskb_may_pull`, which the userspace
build defines as 1. -/
def inspectHttpPayload (det : Detectors) (mayPull : Nat → Bool) (clock : Clock) (s : PathState)
    (data : List UInt8) : Checked :=
  let payloadLen := payloadLen (ipHdr data) (tcpHdr data)
  if payloadLen ≤ 0 then ⟨s, false, []⟩
  else if mayPull (payloadOffset (ipHdr data) (tcpHdr data) + min 1024 payloadLen.toNat) = false then
    ⟨s, false, []⟩
  else
    let s := { s with pool := registerHttp s.pool data }
    match det.scan (urlDecode 4095 (scannedPart data)) with
    | some finding => finding.report clock s data
    | none => ⟨s, false, []⟩

/-! ### What the callbacks do -/

/-- An entry after the two callbacks for a packet of its flow. -/
def ConnState.registered (conn : ConnState) (data : List UInt8) : ConnState :=
  { conn with
    httpHeaderCount := conn.httpHeaderCount + 1
    isHttpComplete := conn.isHttpComplete || kStrstr (scannedPart data) headerEnd }

theorem registerHttp_of_owned {pool : ConnPool} {data : List UInt8}
    (h : (pool (dataFlow data).slot).ownedBy (dataFlow data) = true) :
    registerHttp pool data = Function.update pool (dataFlow data).slot
      ((pool (dataFlow data).slot).registered data) := by
  have hslot : connHash (ipHdr data).saddr (tcpHdr data).source = (dataFlow data).slot := rfl
  have hflow : (⟨(ipHdr data).saddr, (tcpHdr data).source⟩ : TcpFlow) = dataFlow data := rfl
  unfold registerHttp registerHttpComplete registerHttpHeaderSent ConnState.registered
  dsimp only
  rw [hslot, hflow, if_pos h, Function.update_self]
  cases hend : kStrstr (scannedPart data) headerEnd
  · rw [if_neg Bool.false_ne_true, Bool.or_false]
  · have h' : ({ pool (dataFlow data).slot with
        httpHeaderCount := (pool (dataFlow data).slot).httpHeaderCount + 1 } : ConnState).ownedBy
        (dataFlow data) = true := h
    rw [if_pos rfl, if_pos h', Function.update_idem, Bool.or_true]

theorem registerHttp_of_not_owned {pool : ConnPool} {data : List UInt8}
    (h : (pool (dataFlow data).slot).ownedBy (dataFlow data) = false) :
    registerHttp pool data = pool := by
  have hslot : connHash (ipHdr data).saddr (tcpHdr data).source = (dataFlow data).slot := rfl
  have hflow : (⟨(ipHdr data).saddr, (tcpHdr data).source⟩ : TcpFlow) = dataFlow data := rfl
  unfold registerHttp registerHttpComplete registerHttpHeaderSent
  dsimp only
  rw [hslot, hflow, h, if_neg Bool.false_ne_true, h, if_neg Bool.false_ne_true, ite_self]

end Nullsploit
