/-
Nullsploit/LiveAlerts.lean

The text of a live alert: `process_agent_message` (soc-server/soc_receiver.c)
formats an event as a JSON object, and `sse_broadcast` writes it to each client
as a server-sent event.

The preview and the details go into the object as they are.  The reader meant
here takes UTF-8 JSON and keeps integers exactly (one that makes them doubles
rounds timestamps above 2^53).  It gets the event back exactly if the two texts
are UTF-8 of plain bytes and the timestamp is one that `%lld` prints as it is
(`live_alert_wellformed_iff`).  In one direction the text is read member by
member; in the other, a string that is read back as the very bytes it was made
from has no escape in it, and a preview that ends in a backslash swallows its own
quote and breaks the object behind it.
-/
import Nullsploit.Ingest
import Nullsploit.JsonText
import Nullsploit.Packet

namespace Nullsploit

open Bytes CText HexText Inet JsonText

/-! ### The text -/

/-- The members of `json_alert` up to the severity, with their values as the
format string prints them. -/
def alertHead (agentUuid : List UInt8) (e : FwEvent) : List UInt8 :=
  str "\x7b\"agent_uuid\":\"" ++ hexText agentUuid ++
    str "\",\"timestamp\":" ++ decimalInt (BitVec.ofNat 64 e.timestamp).toInt ++
    str ",\"src_ip\":\"" ++ inetNtop e.srcIp ++ str "\",\"dest_ip\":\"" ++ inetNtop e.destIp ++
    str "\",\"src_port\":" ++ decimalInt (ntohs e.srcPort).toNat ++
    str ",\"dest_port\":" ++ decimalInt (ntohs e.destPort).toNat ++
    str ",\"threat_type\":" ++ decimalInt e.threatType.toNat ++
    str ",\"severity\":" ++ decimalInt e.severity.toNat

/-- `json_alert`.  The texts run from their fields to the next NUL. -/
def jsonAlert (agentUuid : List UInt8) (e : FwEvent) : List UInt8 :=
  (alertHead agentUuid e ++ str ",\"payload_preview\":\"" ++ cstr (e.bytes.drop 22) ++
    str "\",\"details\":\"" ++ cstr (e.bytes.drop 150) ++ str "\"\x7d").take 2047

/-- What `sse_broadcast` writes to each client: `len` bytes of `sse_data`. -/
def sseData (eventJson : List UInt8) : List UInt8 :=
  let text := str "data: " ++ eventJson ++ [nl, nl]
  (text.take 8191 ++ [0]).take text.length

/-! ### The reader -/

/-- The ten fields of an alert. -/
structure Alert where
  agentUuid : List UInt8
  timestamp : Nat
  srcIp : BitVec 32
  destIp : BitVec 32
  srcPort : Nat
  destPort : Nat
  threatType : Nat
  severity : Nat
  payloadPreview : List UInt8
  details : List UInt8
  deriving DecidableEq, Repr

/-- The alert of an event; ports are in host order. -/
def Alert.ofEvent (agentUuid : List UInt8) (e : FwEvent) : Alert where
  agentUuid := agentUuid
  timestamp := e.timestamp
  srcIp := e.srcIp
  destIp := e.destIp
  srcPort := (ntohs e.srcPort).toNat
  destPort := (ntohs e.destPort).toNat
  threatType := e.threatType.toNat
  severity := e.severity.toNat
  payloadPreview := cstr e.payloadPreview
  details := cstr e.details

/-- Bytes from their hexadecimal text. -/
def unhex : List UInt8 → Option (List UInt8)
  | [] => some []
  | [_] => none
  | a :: b :: s =>
      match hexVal a, hexVal b, unhex s with
      | some x, some y, some bs => some (UInt8.ofNat (16 * x + y) :: bs)
      | _, _, _ => none

/-- The string of that name. -/
def strMember (ms : List (List UInt8 × Json)) (key : String) : Option (List UInt8) :=
  match ms.lookup (str key) with
  | some (.str s) => some s
  | _ => none

/-- The natural number of that name. -/
def natMember (ms : List (List UInt8 × Json)) (key : String) : Option Nat :=
  match ms.lookup (str key) with
  | some (.num n 0) => if 0 ≤ n then some n.toNat else none
  | _ => none

/-- The alert an object stands for: ten members, and each of the ten names. -/
def Alert.ofMembers (ms : List (List UInt8 × Json)) : Option Alert := do
  guard (ms.length = 10)
  let agentUuid ← (strMember ms "agent_uuid").bind unhex
  let timestamp ← natMember ms "timestamp"
  let srcIp ← (strMember ms "src_ip").bind inetPton
  let destIp ← (strMember ms "dest_ip").bind inetPton
  let srcPort ← natMember ms "src_port"
  let destPort ← natMember ms "dest_port"
  let threatType ← natMember ms "threat_type"
  let severity ← natMember ms "severity"
  let payloadPreview ← strMember ms "payload_preview"
  let details ← strMember ms "details"
  return ⟨agentUuid, timestamp, srcIp, destIp, srcPort, destPort, threatType, severity,
    payloadPreview, details⟩

/-- What is read first, where an object is an alert. -/
theorem Alert.ofMembers_eq_some {ms : List (List UInt8 × Json)} {a : Alert}
    (h : Alert.ofMembers ms = some a) :
    natMember ms "timestamp" = some a.timestamp ∧
      strMember ms "payload_preview" = some a.payloadPreview ∧
      strMember ms "details" = some a.details := by
  simp only [Alert.ofMembers, Option.bind_eq_bind, Option.bind_eq_some_iff, Option.pure_def,
    Option.some.injEq] at h
  obtain ⟨-, -, uuid, -, ts, hts, sip, -, dip, -, sp, -, dp, -, tt, -, sev, -, pre, hpre, det, hdet,
    rfl⟩ := h
  exact ⟨hts, hpre, hdet⟩

theorem FwEvent.timestamp_lt (e : FwEvent) : e.timestamp < 2 ^ 64 := by
  have hlen : (e.bytes.take 8).length = 8 := by
    rw [List.length_take, e.length_eq]
    rfl
  have hlt := leNat_lt (e.bytes.take 8)
  rwa [hlen] at hlt

/-- The text is one server-sent event, a single `data` line and a blank line,
and its data is UTF-8 text of the object of the alert. -/
def LiveAlertOk (text : List UInt8) (a : Alert) : Prop :=
  ∃ data ms, text = str "data: " ++ data ++ [nl, nl] ∧ (∀ b ∈ data, b ≠ nl ∧ b ≠ 13) ∧
    IsUtf8 data ∧ Denotes data (.obj ms) ∧ Alert.ofMembers ms = some a

/-! ### The text, member by member -/

section Members

variable (agentUuid : List UInt8) (e : FwEvent)

/-- `(long long)event->timestamp`. -/
def printedTimestamp : Int := (BitVec.ofNat 64 e.timestamp).toInt

/-- A string member. -/
def textMember (key : String) (s : List UInt8) : Member := ⟨str key, quoted s, .str s⟩

/-- An integer member. -/
def intMember (key : String) (n : Int) : Member := ⟨str key, decimalInt n, .num n 0⟩

/-- The eight members in front of the texts. -/
def alertLead : List Member :=
  [textMember "agent_uuid" (hexText agentUuid), intMember "timestamp" (printedTimestamp e),
    textMember "src_ip" (inetNtop e.srcIp), textMember "dest_ip" (inetNtop e.destIp),
    intMember "src_port" (ntohs e.srcPort).toNat, intMember "dest_port" (ntohs e.destPort).toNat,
    intMember "threat_type" e.threatType.toNat, intMember "severity" e.severity.toNat]

/-- The object behind its eighth comma. -/
def alertTail (preview details : List UInt8) : List UInt8 :=
  quoted (str "payload_preview") ++ ch ':' :: ch '"' :: (preview ++ ch '"' :: ch ',' ::
    (quoted (str "details") ++ ch ':' :: ch '"' :: (details ++ [ch '"', ch '\x7d'])))

/-- The whole object. -/
def alertObject (preview details : List UInt8) : List UInt8 :=
  ch '\x7b' :: ((alertLead agentUuid e).flatMap (fun m => m.render ++ [ch ',']) ++
    alertTail preview details)

theorem alertHead_append (preview details : List UInt8) :
    alertHead agentUuid e ++ str ",\"payload_preview\":\"" ++ preview ++
        str "\",\"details\":\"" ++ details ++ str "\"\x7d"
      = alertObject agentUuid e preview details := by
  have h₁ : str "\x7b\"agent_uuid\":\"" = ch '\x7b' :: (quoted (str "agent_uuid") ++ [ch ':', ch '"']) := by
    decide
  have h₂ : str "\",\"timestamp\":" = ch '"' :: ch ',' :: (quoted (str "timestamp") ++ [ch ':']) := by
    decide
  have h₃ : str ",\"src_ip\":\"" = ch ',' :: (quoted (str "src_ip") ++ [ch ':', ch '"']) := by decide
  have h₄ : str "\",\"dest_ip\":\"" = ch '"' :: ch ',' :: (quoted (str "dest_ip") ++ [ch ':', ch '"']) := by
    decide
  have h₅ : str "\",\"src_port\":" = ch '"' :: ch ',' :: (quoted (str "src_port") ++ [ch ':']) := by
    decide
  have h₆ : str ",\"dest_port\":" = ch ',' :: (quoted (str "dest_port") ++ [ch ':']) := by decide
  have h₇ : str ",\"threat_type\":" = ch ',' :: (quoted (str "threat_type") ++ [ch ':']) := by decide
  have h₈ : str ",\"severity\":" = ch ',' :: (quoted (str "severity") ++ [ch ':']) := by decide
  have h₉ : str ",\"payload_preview\":\""
      = ch ',' :: (quoted (str "payload_preview") ++ [ch ':', ch '"']) := by decide
  have h₁₀ : str "\",\"details\":\"" = ch '"' :: ch ',' :: (quoted (str "details") ++ [ch ':', ch '"']) := by
    decide
  have h₁₁ : str "\"\x7d" = [ch '"', ch '\x7d'] := by decide
  have hquoted : ∀ s, quoted s = ch '"' :: (s ++ [ch '"']) := fun _ => rfl
  simp only [alertHead, h₁, h₂, h₃, h₄, h₅, h₆, h₇, h₈, h₉, h₁₀, h₁₁]
  simp only [alertObject, alertLead, alertTail, textMember, intMember, Member.render,
    printedTimestamp, List.flatMap_cons, List.flatMap_nil, List.append_assoc, List.cons_append,
    List.nil_append, List.append_nil, hquoted]

theorem plain_of_isDigit {b : UInt8} (h : isDigit b = true) : Plain b := by
  have hall : ∀ d < 10, Plain (digit d) := by decide
  rw [eq_digit h]
  rw [isDigit_iff] at h
  exact hall _ (by omega)

theorem plain_hexText (bs : List UInt8) : ∀ b ∈ hexText bs, Plain b := by
  have hall : ∀ d < 16, Plain (hexDigit d) := by decide
  intro b hb
  obtain ⟨d, hd, rfl⟩ := mem_hexText hb
  exact hall d hd

theorem plain_inetNtop (ip : BitVec 32) : ∀ b ∈ inetNtop ip, Plain b := by
  intro b hb
  rcases mem_inetNtop hb with hdigit | rfl
  · exact plain_of_isDigit hdigit
  · decide

theorem unhex_hexText (bs : List UInt8) : unhex (hexText bs) = some bs := by
  induction bs with
  | nil => rfl
  | cons b bs ih =>
      have hb : b.toNat < 256 := b.toNat_lt
      obtain ⟨hhi, -⟩ := hexDigit_spec (show b.toNat / 16 < 16 by omega)
      obtain ⟨hlo, -⟩ := hexDigit_spec (show b.toNat % 16 < 16 by omega)
      show unhex (hexDigit (b.toNat / 16) :: hexDigit (b.toNat % 16) :: hexText bs) = _
      rw [unhex, hhi, hlo, ih]
      dsimp only
      rw [Nat.div_add_mod, UInt8.ofNat_toNat]

theorem plain_key {key : String} (h : (str key).all fun b => Plain b) : ∀ b ∈ str key, Plain b := by
  simpa using h

/-- Fuel for each of the members in front. -/
def leadFuel : Nat := 40

theorem textMember_ok {key : String} {s : List UInt8} (hkey : (str key).all fun b => Plain b)
    (hlen : (str key).length < leadFuel) (hs : ∀ b ∈ s, Plain b) (hfits : s.length + 2 ≤ leadFuel) :
    (textMember key s).Ok leadFuel :=
  ⟨plain_key hkey, hlen, (reads_quoted hs).mono hfits⟩

theorem intMember_ok {key : String} (n : Int) (hkey : (str key).all fun b => Plain b)
    (hlen : (str key).length < leadFuel) : (intMember key n).Ok leadFuel :=
  ⟨plain_key hkey, hlen, (reads_decimalInt n).mono (by decide)⟩

theorem alertLead_ok (huuid : agentUuid.length = 16) :
    ∀ m ∈ alertLead agentUuid e, m.Ok leadFuel := by
  have hhex : (hexText agentUuid).length + 2 ≤ leadFuel := by
    rw [length_hexText, huuid]
    decide
  have hip : ∀ ip, (inetNtop ip).length + 2 ≤ leadFuel := by
    intro ip
    have := inetNtop_length_le ip
    unfold leadFuel
    omega
  intro m hm
  simp only [alertLead, List.mem_cons, List.not_mem_nil, or_false] at hm
  rcases hm with rfl | rfl | rfl | rfl | rfl | rfl | rfl | rfl
  · exact textMember_ok (by decide) (by decide) (plain_hexText _) hhex
  · exact intMember_ok _ (by decide) (by decide)
  · exact textMember_ok (by decide) (by decide) (plain_inetNtop _) (hip _)
  · exact textMember_ok (by decide) (by decide) (plain_inetNtop _) (hip _)
  · exact intMember_ok _ (by decide) (by decide)
  · exact intMember_ok _ (by decide) (by decide)
  · exact intMember_ok _ (by decide) (by decide)
  · exact intMember_ok _ (by decide) (by decide)

/-- With fuel to spare, the object is read through its eight numbers and
addresses to its texts. -/
theorem value_alertObject (huuid : agentUuid.length = 16) {fuel : Nat} (hfuel : leadFuel ≤ fuel)
    (preview details : List UInt8) :
    value (fuel + 8 + 1) (alertObject agentUuid e preview details)
      = (members fuel (alertTail preview details)).map fun p =>
          (.obj ((alertLead agentUuid e).map Member.pair ++ p.1), p.2) := by
  have hlead := members_lead (alertLead_ok agentUuid e huuid) hfuel (alertTail preview details)
  rw [show (alertLead agentUuid e).length = 8 from rfl] at hlead
  refine (value_object (fuel + 8) _).trans ?_
  refine (congrArg (Option.map fun p => (Json.obj p.1, p.2)) hlead).trans ?_
  rw [Option.map_map]
  rfl

end Members

/-! ### The two texts -/

/-- Both texts plain: the last two members. -/
theorem members_alertTail {preview details : List UInt8} (hpreview : ∀ b ∈ preview, Plain b)
    (hdetails : ∀ b ∈ details, Plain b) {fuel : Nat}
    (hfuel : preview.length + details.length + 20 ≤ fuel) :
    members (fuel + 2) (alertTail preview details)
      = some ([(str "payload_preview", .str preview), (str "details", .str details)], []) := by
  have hpreviewOk : (textMember "payload_preview" preview).Ok (fuel + 1) :=
    ⟨plain_key (by decide), (by decide : (str "payload_preview").length < 20).trans_le (by omega),
      (reads_quoted hpreview).mono (by omega)⟩
  have hdetailsOk : (textMember "details" details).Ok fuel :=
    ⟨plain_key (by decide), (by decide : (str "details").length < 20).trans_le (by omega),
      (reads_quoted hdetails).mono (by omega)⟩
  have htext : alertTail preview details
      = (textMember "payload_preview" preview).render ++ ch ',' ::
          ((textMember "details" details).render ++ ch '\x7d' :: []) := by
    simp [alertTail, textMember, Member.render, quoted]
  rw [htext, members_comma hpreviewOk (Nat.le_refl _), members_brace hdetailsOk (Nat.le_refl _)]
  rfl

/-- What the reader makes of the member in front of it, its value a string. -/
theorem members_text {key : String} (hkey : ∀ b ∈ str key, Plain b) {fuel : Nat}
    (hfuel : (str key).length < fuel + 1) {s rest : List UInt8} {ms : List (List UInt8 × Json)}
    (h : members (fuel + 2) (quoted (str key) ++ ch ':' :: ch '"' :: s) = some (ms, rest)) :
    ∃ v r ms', stringBody fuel s = some (v, r) ∧ ms = (str key, .str v) :: ms' ∧
      ((∃ r', skipWs r = ch ',' :: r' ∧ members (fuel + 1) r' = some (ms', rest)) ∨
        skipWs r = ch '\x7d' :: rest ∧ ms' = []) := by
  rw [members_key hkey hfuel, value_quote] at h
  rcases e : stringBody fuel s with - | ⟨v, r⟩
  · rw [e] at h
    cases h
  · rw [e] at h
    dsimp only [Option.map_some] at h
    rcases e' : skipWs r with - | ⟨d, r'⟩
    · rw [e'] at h
      cases h
    · rw [e'] at h
      dsimp only at h
      split_ifs at h with hcomma hbrace
      · obtain ⟨⟨ms', rest'⟩, hrest, hms⟩ := Option.map_eq_some_iff.mp h
        obtain ⟨rfl, rfl⟩ := Prod.mk.inj hms
        exact ⟨v, r, ms', rfl, rfl, Or.inl ⟨r', by rw [e', hcomma], hrest⟩⟩
      · obtain ⟨rfl, rfl⟩ := Prod.mk.inj (Option.some.inj h)
        exact ⟨v, r, [], rfl, rfl, Or.inr ⟨by rw [e', hbrace], rfl⟩⟩

/-- Texts that are read back are plain. -/
theorem plain_of_members_alertTail {fuel : Nat} (hfuel : 20 ≤ fuel) {preview details rest : List UInt8}
    {ms : List (List UInt8 × Json)}
    (h : members (fuel + 3) (alertTail preview details) = some (ms, rest))
    (hpreview : strMember ms "payload_preview" = some preview)
    (hdetails : strMember ms "details" = some details) :
    (∀ b ∈ preview, Plain b) ∧ ∀ b ∈ details, Plain b := by
  obtain ⟨v, r, ms', hread, rfl, hnext⟩ := members_text (plain_key (by decide))
    ((by decide : (str "payload_preview").length < 20).trans_le (by omega)) h
  obtain rfl : v = preview := Option.some.inj hpreview
  rcases stringBody_self hread with ⟨hplain, rfl⟩ | ⟨fuel', v', hrun⟩
  · refine ⟨hplain, ?_⟩
    rcases hnext with ⟨r', hr', hrest⟩ | ⟨hr', -⟩
    · obtain rfl := (List.cons_eq_cons.mp hr').2
      obtain ⟨w, r, ms'', hread', rfl, -⟩ := members_text (plain_key (by decide))
        ((by decide : (str "details").length < 20).trans_le (by omega)) hrest
      obtain rfl : w = details := Option.some.inj hdetails
      rcases stringBody_self hread' with ⟨hplain', -⟩ | ⟨fuel', v', hrun⟩
      · exact hplain'
      · -- behind the last quote there is only the brace
        match fuel' with
        | 0 => cases hrun
        | 1 => cases hrun
        | _ + 2 => cases hrun
    · exact absurd (List.cons_eq_cons.mp hr').1 (by decide)
  · -- the preview swallows its quote: the string ends in front of `details`
    have hr : r = str "details" ++ ch '"' :: ch ':' :: ch '"' :: (details ++ [ch '"', ch '\x7d']) := by
      match fuel' with
      | 0 => cases hrun
      | 1 => cases hrun
      | _ + 2 => exact ((Prod.mk.inj (Option.some.inj hrun)).2).symm
    obtain ⟨t, ht⟩ : ∃ t, skipWs r = ch 'd' :: t := ⟨_, by rw [hr]; rfl⟩
    rcases hnext with ⟨r', hr', -⟩ | ⟨hr', -⟩
    · exact absurd (List.cons_eq_cons.mp (ht.symm.trans hr')).1 (by decide)
    · exact absurd (List.cons_eq_cons.mp (ht.symm.trans hr')).1 (by decide)

/-! ### The alert -/

section Alert

variable {agentUuid : List UInt8} (huuid : agentUuid.length = 16) (e : FwEvent)
include huuid

/-- The alert of the event with these two texts. -/
def alertWith (agentUuid : List UInt8) (e : FwEvent) (preview details : List UInt8) : Alert :=
  { Alert.ofEvent agentUuid e with payloadPreview := preview, details := details }

omit huuid in
theorem printedTimestamp_eq_iff : printedTimestamp e = e.timestamp ↔ e.timestamp < 2 ^ 63 := by
  have hlt : e.timestamp < 2 ^ 64 := e.timestamp_lt
  have hnat : (BitVec.ofNat 64 e.timestamp).toNat = e.timestamp := by
    rw [BitVec.toNat_ofNat, Nat.mod_eq_of_lt hlt]
  unfold printedTimestamp
  rw [BitVec.toInt_eq_toNat_cond, hnat]
  split <;> omega

omit huuid in
/-- The ten members as the alert they were made from. -/
theorem ofMembers_alert (hts : e.timestamp < 2 ^ 63) (preview details : List UInt8) :
    Alert.ofMembers ((alertLead agentUuid e).map Member.pair ++
        [(str "payload_preview", .str preview), (str "details", .str details)])
      = some (alertWith agentUuid e preview details) := by
  generalize hms : (alertLead agentUuid e).map Member.pair ++
    [(str "payload_preview", Json.str preview), (str "details", .str details)] = ms
  have hint : ∀ {key : String} {n : Nat}, ms.lookup (str key) = some (.num n 0) →
      natMember ms key = some n := by
    intro key n h
    rw [natMember, h]
    show (if (0 : Int) ≤ n then some (Int.toNat n) else none) = some n
    rw [if_pos (Int.natCast_nonneg n), Int.toNat_natCast]
  have huuid : strMember ms "agent_uuid" = some (hexText agentUuid) := by rw [← hms]; rfl
  have htime : natMember ms "timestamp" = some e.timestamp :=
    hint (by rw [← printedTimestamp_eq_iff e |>.mpr hts, ← hms]; rfl)
  have hsrc : strMember ms "src_ip" = some (inetNtop e.srcIp) := by rw [← hms]; rfl
  have hdest : strMember ms "dest_ip" = some (inetNtop e.destIp) := by rw [← hms]; rfl
  have hsport : natMember ms "src_port" = some (ntohs e.srcPort).toNat := hint (by rw [← hms]; rfl)
  have hdport : natMember ms "dest_port" = some (ntohs e.destPort).toNat := hint (by rw [← hms]; rfl)
  have hthreat : natMember ms "threat_type" = some e.threatType.toNat := hint (by rw [← hms]; rfl)
  have hseverity : natMember ms "severity" = some e.severity.toNat := hint (by rw [← hms]; rfl)
  have hpreview : strMember ms "payload_preview" = some preview := by rw [← hms]; rfl
  have hdetails : strMember ms "details" = some details := by rw [← hms]; rfl
  have hlen : ms.length = 10 := by rw [← hms]; rfl
  simp only [Alert.ofMembers, guard, hlen, huuid, htime, hsrc, hdest, hsport, hdport, hthreat,
    hseverity, hpreview, hdetails, Option.bind_some, unhex_hexText, inetPton_inetNtop]
  rfl

/-- **The object is the alert** exactly if the texts are plain and the timestamp
is printed as it is. -/
theorem alertObject_denotes_iff (preview details : List UInt8) :
    (∃ ms, Denotes (alertObject agentUuid e preview details) (.obj ms) ∧
        Alert.ofMembers ms = some (alertWith agentUuid e preview details)) ↔
      e.timestamp < 2 ^ 63 ∧ (∀ b ∈ preview, Plain b) ∧ ∀ b ∈ details, Plain b := by
  constructor
  · rintro ⟨ms, ⟨fuel, rest, hread, -⟩, halert⟩
    have hmore := value_mono (show fuel ≤ (fuel + leadFuel + 3) + 8 + 1 by omega) _ _ hread
    rw [value_alertObject agentUuid e huuid (by omega)] at hmore
    obtain ⟨⟨ms', rest'⟩, htail, hobj⟩ := Option.map_eq_some_iff.mp hmore
    obtain ⟨hms, rfl⟩ := Prod.mk.inj hobj
    obtain rfl := Json.obj.inj hms
    obtain ⟨hts, hpreview, hdetails⟩ := Alert.ofMembers_eq_some halert
    refine ⟨?_, plain_of_members_alertTail (by unfold leadFuel; omega) htail hpreview hdetails⟩
    have hts : (if 0 ≤ printedTimestamp e then some (printedTimestamp e).toNat else none)
        = some e.timestamp := hts
    split at hts
    · rw [← printedTimestamp_eq_iff, ← Option.some.inj hts]
      omega
    · cases hts
  · rintro ⟨hts, hpreview, hdetails⟩
    refine ⟨(alertLead agentUuid e).map Member.pair ++
      [(str "payload_preview", .str preview), (str "details", .str details)],
      ⟨preview.length + details.length + 20 + leadFuel + 2 + 8 + 1, [], ?_, by simp⟩, ?_⟩
    · rw [value_alertObject agentUuid e huuid (by omega),
        members_alertTail hpreview hdetails (by omega)]
      rfl
    · exact ofMembers_alert e hts preview details

end Alert

/-! ### The event stream -/

theorem length_cstr_lt {s : List UInt8} (h : (0 : UInt8) ∈ s) : (cstr s).length < s.length := by
  obtain ⟨q, hq⟩ := eq_cstr_append h
  have hlen := congrArg List.length hq
  rw [List.length_append, List.length_cons] at hlen
  omega

/-- A terminated preview ends in its field. -/
theorem cstr_preview {e : FwEvent} (h : (0 : UInt8) ∈ e.payloadPreview) :
    cstr (e.bytes.drop 22) = cstr e.payloadPreview := by
  conv_lhs => rw [← List.take_append_drop 128 (e.bytes.drop 22)]
  exact cstr_append_of_mem h _

theorem cstr_details {e : FwEvent} (h : (0 : UInt8) ∈ e.details) :
    cstr (e.bytes.drop 150) = cstr e.details := by
  conv_lhs => rw [← List.take_append_drop 256 (e.bytes.drop 150)]
  exact cstr_append_of_mem h _

theorem length_alertHead_le {agentUuid : List UInt8} (huuid : agentUuid.length = 16) (e : FwEvent) :
    (alertHead agentUuid e).length ≤ 300 := by
  have htime : (decimalInt (BitVec.ofNat 64 e.timestamp).toInt).length ≤ 21 := by
    apply length_decimalInt_le (by decide)
    have := BitVec.two_mul_toInt_lt (x := BitVec.ofNat 64 e.timestamp)
    have := BitVec.le_two_mul_toInt (x := BitVec.ofNat 64 e.timestamp)
    omega
  have hport : ∀ x : BitVec 16, (decimalInt x.toNat).length ≤ 6 := by
    intro x
    apply length_decimalInt_le (by decide)
    have := x.isLt
    omega
  have hbyte : ∀ x : UInt8, (decimalInt x.toNat).length ≤ 4 := by
    intro x
    apply length_decimalInt_le (by decide)
    have := x.toNat_lt
    omega
  have hsrc := inetNtop_length_le e.srcIp
  have hdest := inetNtop_length_le e.destIp
  have hsport := hport (ntohs e.srcPort)
  have hdport := hport (ntohs e.destPort)
  have hthreat := hbyte e.threatType
  have hseverity := hbyte e.severity
  have hlit : (str "\x7b\"agent_uuid\":\"").length = 15 ∧ (str "\",\"timestamp\":").length = 14 ∧
      (str ",\"src_ip\":\"").length = 11 ∧ (str "\",\"dest_ip\":\"").length = 13 ∧
      (str "\",\"src_port\":").length = 13 ∧ (str ",\"dest_port\":").length = 13 ∧
      (str ",\"threat_type\":").length = 15 ∧ (str ",\"severity\":").length = 12 := by decide
  unfold alertHead
  simp only [List.length_append, length_hexText, huuid, hlit]
  omega

/-- Neither buffer cuts the text. -/
theorem sseData_jsonAlert {agentUuid : List UInt8} (huuid : agentUuid.length = 16) {e : FwEvent}
    (hpreview : (0 : UInt8) ∈ e.payloadPreview) (hdetails : (0 : UInt8) ∈ e.details) :
    sseData (jsonAlert agentUuid e)
      = str "data: " ++ alertObject agentUuid e (cstr e.payloadPreview) (cstr e.details) ++ [nl, nl] := by
  have hhead := length_alertHead_le huuid e
  have hlen₁ : (cstr e.payloadPreview).length < 128 :=
    (length_cstr_lt hpreview).trans_le (List.length_take_le _ _)
  have hlen₂ : (cstr e.details).length < 256 :=
    (length_cstr_lt hdetails).trans_le (List.length_take_le _ _)
  have hlit : (str ",\"payload_preview\":\"").length = 20 ∧ (str "\",\"details\":\"").length = 13 ∧
      (str "\"\x7d").length = 2 := by decide
  have hobj : (alertObject agentUuid e (cstr e.payloadPreview) (cstr e.details)).length ≤ 2047 := by
    rw [← alertHead_append]
    simp only [List.length_append, hlit]
    omega
  have hjson : jsonAlert agentUuid e
      = alertObject agentUuid e (cstr e.payloadPreview) (cstr e.details) := by
    rw [jsonAlert, cstr_preview hpreview, cstr_details hdetails, alertHead_append,
      List.take_of_length_le hobj]
  have htext : (str "data: " ++ jsonAlert agentUuid e ++ [nl, nl]).length ≤ 8191 := by
    rw [hjson, List.length_append, List.length_append, show (str "data: ").length = 6 from rfl,
      show [nl, nl].length = 2 from rfl]
    omega
  unfold sseData
  dsimp only
  rw [List.take_of_length_le htext, List.take_left, hjson]

/-- What an event stream needs of the text, apart from the object in it. -/
theorem liveAlertOk_iff_denotes {agentUuid : List UInt8} (huuid : agentUuid.length = 16) {e : FwEvent}
    (hpreview : (0 : UInt8) ∈ e.payloadPreview) (hdetails : (0 : UInt8) ∈ e.details) (a : Alert) :
    LiveAlertOk (sseData (jsonAlert agentUuid e)) a ↔
      (∀ b ∈ alertObject agentUuid e (cstr e.payloadPreview) (cstr e.details), b ≠ nl ∧ b ≠ 13) ∧
        IsUtf8 (alertObject agentUuid e (cstr e.payloadPreview) (cstr e.details)) ∧
        ∃ ms, Denotes (alertObject agentUuid e (cstr e.payloadPreview) (cstr e.details)) (.obj ms) ∧
          Alert.ofMembers ms = some a := by
  unfold LiveAlertOk
  rw [sseData_jsonAlert huuid hpreview hdetails]
  constructor
  · rintro ⟨data, ms, htext, hline, hutf8, hread⟩
    obtain rfl := List.append_cancel_left (List.append_cancel_right htext)
    exact ⟨hline, hutf8, ms, hread⟩
  · rintro ⟨hline, hutf8, ms, hread⟩
    exact ⟨_, ms, rfl, hline, hutf8, hread⟩

/-- A byte of ASCII that is no control character. -/
def Printable (b : UInt8) : Prop := 32 ≤ b ∧ b < 0x80

instance (b : UInt8) : Decidable (Printable b) := inferInstanceAs (Decidable (32 ≤ b ∧ b < 0x80))

theorem printable_of_mem_str {s : String} {b : UInt8} (hs : (str s).all fun b => Printable b)
    (hb : b ∈ str s) : Printable b := by
  simpa using List.all_eq_true.mp hs b hb

theorem printable_of_isDigit {b : UInt8} (h : isDigit b = true) : Printable b := by
  have hall : ∀ d < 10, Printable (digit d) := by decide
  rw [eq_digit h]
  rw [isDigit_iff] at h
  exact hall _ (by omega)

theorem printable_of_mem_hexText {bs : List UInt8} {b : UInt8} (h : b ∈ hexText bs) :
    Printable b := by
  have hall : ∀ d < 16, Printable (hexDigit d) := by decide
  obtain ⟨d, hd, rfl⟩ := mem_hexText h
  exact hall d hd

theorem printable_of_mem_inetNtop {ip : BitVec 32} {b : UInt8} (h : b ∈ inetNtop ip) :
    Printable b := by
  rcases mem_inetNtop h with hdigit | rfl
  · exact printable_of_isDigit hdigit
  · decide

theorem printable_of_mem_decimalInt {n : Int} {b : UInt8} (h : b ∈ decimalInt n) :
    Printable b := by
  unfold decimalInt at h
  split at h
  · rcases List.mem_cons.mp h with rfl | h
    · decide
    · exact printable_of_isDigit (isDigit_of_mem_decimal _ b h)
  · exact printable_of_isDigit (isDigit_of_mem_decimal _ b h)

theorem printable_of_mem_alertHead {agentUuid : List UInt8} {e : FwEvent} {b : UInt8}
    (h : b ∈ alertHead agentUuid e) : Printable b := by
  simp only [alertHead, List.mem_append] at h
  rcases h with (((((((((((((((h | h) | h) | h) | h) | h) | h) | h) | h) | h) | h) | h) | h) | h) |
    h) | h)
  · exact printable_of_mem_str (by decide) h
  · exact printable_of_mem_hexText h
  · exact printable_of_mem_str (by decide) h
  · exact printable_of_mem_decimalInt h
  · exact printable_of_mem_str (by decide) h
  · exact printable_of_mem_inetNtop h
  · exact printable_of_mem_str (by decide) h
  · exact printable_of_mem_inetNtop h
  · exact printable_of_mem_str (by decide) h
  · exact printable_of_mem_decimalInt h
  · exact printable_of_mem_str (by decide) h
  · exact printable_of_mem_decimalInt h
  · exact printable_of_mem_str (by decide) h
  · exact printable_of_mem_decimalInt h
  · exact printable_of_mem_str (by decide) h
  · exact printable_of_mem_decimalInt h

/-- An object of plain texts is one line. -/
theorem alertObject_one_line (agentUuid : List UInt8) (e : FwEvent) {preview details : List UInt8}
    (hpreview : ∀ b ∈ preview, Plain b) (hdetails : ∀ b ∈ details, Plain b) :
    ∀ b ∈ alertObject agentUuid e preview details, b ≠ nl ∧ b ≠ 13 := by
  have hline : ∀ b : UInt8, 32 ≤ b → b ≠ nl ∧ b ≠ 13 := by
    intro b hb
    constructor <;> rintro rfl <;> exact absurd hb (by decide)
  intro b hb
  apply hline
  rw [← alertHead_append] at hb
  simp only [List.mem_append] at hb
  rcases hb with ((((hb | hb) | hb) | hb) | hb) | hb
  · exact (printable_of_mem_alertHead hb).1
  · exact (printable_of_mem_str (by decide) hb).1
  · exact (hpreview b hb).2.2
  · exact (printable_of_mem_str (by decide) hb).1
  · exact (hdetails b hb).2.2
  · exact (printable_of_mem_str (by decide) hb).1

/-- Both texts stand between quotes, so neither can mend the other's encoding. -/
theorem isUtf8_alertObject_iff (agentUuid : List UInt8) (e : FwEvent)
    (preview details : List UInt8) :
    IsUtf8 (alertObject agentUuid e preview details) ↔ IsUtf8 preview ∧ IsUtf8 details := by
  have hlead : ∀ b ∈ alertHead agentUuid e ++ str ",\"payload_preview\":\"", b < 0x80 := by
    intro b hb
    rcases List.mem_append.mp hb with hb | hb
    · exact (printable_of_mem_alertHead hb).2
    · exact (printable_of_mem_str (by decide) hb).2
  have hkey : ∀ b ∈ str ",\"details\":\"", b < 0x80 := by
    intro b hb
    exact (printable_of_mem_str (by decide) hb).2
  have htext : alertObject agentUuid e preview details
      = (alertHead agentUuid e ++ str ",\"payload_preview\":\"") ++ (preview ++ ch '"' ::
          (str ",\"details\":\"" ++ (details ++ ch '"' :: [ch '\x7d']))) := by
    have hmiddle : str "\",\"details\":\"" = ch '"' :: str ",\"details\":\"" := by decide
    rw [← alertHead_append, hmiddle]
    simp only [List.append_assoc, List.cons_append]
    rfl
  have hquote : ch '"' < (0x80 : UInt8) := by decide
  have hbrace : IsUtf8 [ch '\x7d'] := isUtf8_of_ascii (by decide +kernel)
  rw [htext, isUtf8_ascii_append hlead, isUtf8_append_cons hquote, isUtf8_ascii_append hkey,
    isUtf8_append_cons hquote, and_iff_left hbrace]

/-- **When a live alert is well formed.**  Clients read the event back from the
text exactly if its timestamp is below 2^63 and its two texts are UTF-8 without a
quote, a backslash or a control character. -/
theorem live_alert_wellformed_iff {agentUuid : List UInt8} (huuid : agentUuid.length = 16)
    {e : FwEvent} (hpreview : (0 : UInt8) ∈ e.payloadPreview) (hdetails : (0 : UInt8) ∈ e.details) :
    LiveAlertOk (sseData (jsonAlert agentUuid e)) (Alert.ofEvent agentUuid e) ↔
      e.timestamp < 2 ^ 63 ∧
        (IsUtf8 (cstr e.payloadPreview) ∧ ∀ b ∈ cstr e.payloadPreview, Plain b) ∧
        IsUtf8 (cstr e.details) ∧ ∀ b ∈ cstr e.details, Plain b := by
  rw [liveAlertOk_iff_denotes huuid hpreview hdetails, isUtf8_alertObject_iff]
  constructor
  · rintro ⟨-, ⟨hpreview, hdetails⟩, hread⟩
    obtain ⟨hts, hplain, hplain'⟩ := (alertObject_denotes_iff huuid e _ _).mp hread
    exact ⟨hts, ⟨hpreview, hplain⟩, hdetails, hplain'⟩
  · rintro ⟨hts, ⟨hpreview, hplain⟩, hdetails, hplain'⟩
    exact ⟨alertObject_one_line agentUuid e hplain hplain', ⟨hpreview, hdetails⟩,
      (alertObject_denotes_iff huuid e _ _).mpr ⟨hts, hplain, hplain'⟩⟩

/-- An alert of the SQL injection detector. -/
def sqliAlert (preview : String) : FwEvent :=
  .make 1700000000 0x0c6433c6#32 0x0100a8c0#32 0x39d4#16 0x5000#16 threatSqli severityWarning
    (str preview) (str "SQLi Score: 45")

/-- Two plain texts. -/
theorem live_alert_wellformed_plain :
    let uuid := List.replicate 16 (0x11 : UInt8)
    let e := sqliAlert "GET /?id=1' OR 1=1 HTTP/1.1"
    uuid.length = 16 ∧ (0 : UInt8) ∈ e.payloadPreview ∧ (0 : UInt8) ∈ e.details ∧
      LiveAlertOk (sseData (jsonAlert uuid e)) (Alert.ofEvent uuid e) := by
  intro uuid e
  have huuid : uuid.length = 16 := rfl
  have hpreview : (0 : UInt8) ∈ e.payloadPreview := by decide
  have hdetails : (0 : UInt8) ∈ e.details := by decide
  refine ⟨huuid, hpreview, hdetails, (live_alert_wellformed_iff huuid hpreview hdetails).mpr ?_⟩
  -- both texts are ASCII
  have hascii : (∀ b ∈ cstr e.payloadPreview, b < 0x80) ∧ ∀ b ∈ cstr e.details, b < 0x80 := by
    decide +kernel
  refine ⟨by decide, ⟨isUtf8_of_ascii hascii.1, ?_⟩, isUtf8_of_ascii hascii.2, ?_⟩
  · simpa using (by decide : (cstr e.payloadPreview).all fun b => Plain b)
  · simpa using (by decide : (cstr e.details).all fun b => Plain b)

/-- A quote in the request ends the preview early, and what follows is no JSON. -/
theorem quote_breaks_live_alert :
    let uuid := List.replicate 16 (0x11 : UInt8)
    let e := sqliAlert "GET /?id=1\" OR 1=1 HTTP/1.1"
    uuid.length = 16 ∧ (0 : UInt8) ∈ e.payloadPreview ∧ (0 : UInt8) ∈ e.details ∧
      ¬ LiveAlertOk (sseData (jsonAlert uuid e)) (Alert.ofEvent uuid e) := by
  intro uuid e
  have huuid : uuid.length = 16 := rfl
  have hpreview : (0 : UInt8) ∈ e.payloadPreview := by decide
  have hdetails : (0 : UInt8) ∈ e.details := by decide
  refine ⟨huuid, hpreview, hdetails, fun hok => ?_⟩
  have hread := ((liveAlertOk_iff_denotes huuid hpreview hdetails _).mp hok).2.2
  obtain ⟨-, hplain, -⟩ := (alertObject_denotes_iff huuid e _ _).mp hread
  exact absurd (hplain (ch '"') (by decide)) (by decide)

end Nullsploit
