/-
Nullsploit/Dashboard.lean

The blocklist of the dashboard, `addBlocklist` (DashboardController.java) and
`pushBlocklistUpdateToAgents` (NotificationService.java), and the way of one
of its entries to a firewall: the control record to the receiver, the
encrypted command to the agent, the line in the agent's blocklist file, the
entry pushed to the firewall.

The agent, the type and the address survive every encoding
(`pushed_command_arrives`).  The prefix length does not leave the dashboard:
everything from '/' on is cut off before the record is packed, and the agent
writes `/32`.  So a block is enforced exactly when the agent's list, with its
base address added, happens to cover it (`cidr_push_blocks_iff`).
-/
import Nullsploit.LocalControl
import Nullsploit.AgentCommands

namespace Nullsploit

open CText Inet Bytes HexText

/-! ### The Java side -/

/-- The parts of a text between its dots. -/
def splitDots : List UInt8 → List (List UInt8)
  | [] => [[]]
  | b :: s =>
      if b = ch '.' then [] :: splitDots s
      else
        match splitDots s with
        | [] => [[b]]
        | p :: ps => (b :: p) :: ps

/-- `ip.split("\\.")`: trailing empty parts are dropped, unless there is no dot. -/
def javaSplit (s : List UInt8) : List (List UInt8) :=
  if ch '.' ∈ s then ((splitDots s).reverse.dropWhile List.isEmpty).reverse else [s]

/-- `Long.parseLong`; `none` is NumberFormatException. -/
def parseLong (s : List UInt8) : Option Int :=
  let digits := if s.head? = some (ch '-') ∨ s.head? = some (ch '+') then s.tail else s
  let value : Int := if s.head? = some (ch '-') then -digitsVal digits else digitsVal digits
  if digits ≠ [] ∧ digits.all isDigit = true ∧ -2 ^ 63 ≤ value ∧ value < 2 ^ 63 then
    some value
  else none

/-- `ipVal |= (Long.parseLong(parts[i]) << (i * 8))`; `none` is an exception. -/
def addPart (parts : List (List UInt8)) (ipVal : BitVec 64) (i : Nat) : Option (BitVec 64) :=
  match parts[i]? with
  | none => none
  | some part => (parseLong part).map fun v => ipVal ||| BitVec.ofInt 64 v <<< (i * 8)

/-- The four bytes written for the address of `ipCidr`, or `none` when parsing
throws. -/
def parseIpBytes (ipCidr : List UInt8) : Option (List UInt8) :=
  let ip := ipCidr.takeWhile (· ≠ ch '/')
  ((List.range 4).foldlM (addPart (javaSplit ip)) 0).map fun ipVal : BitVec 64 =>
    (List.range 4).map fun i => UInt8.ofNat ((ipVal >>> (i * 8)) &&& 0xFF#64).toNat

/-- The 38 bytes written to the control port for one agent. -/
def controlRecord (uuid : List UInt8) (commandType : UInt8) (ipBytes : List UInt8) : List UInt8 :=
  let rawUuid := uuid.filter (· ≠ ch '-')
  (rawUuid.take 32 ++ List.replicate (33 - (rawUuid.take 32).length) 0) ++ commandType :: ipBytes

/-- `pushBlocklistUpdateToAgents`: the records written, one connection each,
for the UUIDs seen in the last 30 seconds. -/
def pushBlocklistUpdateToAgents (uuids : List (List UInt8)) (ipCidr : List UInt8)
    (commandType : UInt8) : List (List UInt8) :=
  match parseIpBytes ipCidr with
  | none => []
  | some ipBytes => uuids.map fun uuid => controlRecord uuid commandType ipBytes

/-- `addBlocklist`: nothing is pushed if the insertion throws. -/
def addBlocklist (inserted : Bool) (uuids : List (List UInt8)) (ipCidr : List UInt8) :
    List (List UInt8) :=
  if inserted then pushBlocklistUpdateToAgents uuids ipCidr msgTypeBlockIp else []

/-- `uuid_to_str` (db.c), the text under which the database holds a UUID. -/
def uuidToStr (uuid : List UInt8) : List UInt8 :=
  hexText (uuid.take 4) ++ ch '-' :: (hexText ((uuid.drop 4).take 2) ++ ch '-' ::
    (hexText ((uuid.drop 6).take 2) ++ ch '-' :: (hexText ((uuid.drop 8).take 2) ++ ch '-' ::
      hexText (uuid.drop 10))))

/-- The text of a CIDR block: a dotted quad and a prefix length, which may be
left out for a single address. -/
def CidrText (base : BitVec 32) (n : Nat) (text : List UInt8) : Prop :=
  text = inetNtop base ++ ch '/' :: decimal n ∨ n = 32 ∧ text = inetNtop base

/-! ### The address survives -/

theorem splitDots_append {a : List UInt8} (h : ch '.' ∉ a) (b : List UInt8) :
    splitDots (a ++ ch '.' :: b) = a :: splitDots b := by
  induction a with
  | nil => simp [splitDots]
  | cons x a ih =>
      have hx : x ≠ ch '.' := fun e => h (by simp [e])
      rw [List.cons_append, splitDots, if_neg hx, ih fun e => h (List.mem_cons_of_mem _ e)]

theorem splitDots_of_not_mem {a : List UInt8} (h : ch '.' ∉ a) : splitDots a = [a] := by
  induction a with
  | nil => rfl
  | cons x a ih =>
      have hx : x ≠ ch '.' := fun e => h (by simp [e])
      rw [splitDots, if_neg hx, ih fun e => h (List.mem_cons_of_mem _ e)]

theorem dot_not_mem_decimal (n : Nat) : ch '.' ∉ decimal n :=
  fun h => absurd (isDigit_of_mem_decimal n _ h) (by decide)

theorem javaSplit_inetNtop (ip : BitVec 32) :
    javaSplit (inetNtop ip)
      = [decimal (octet ip 0), decimal (octet ip 1), decimal (octet ip 2), decimal (octet ip 3)] := by
  have hsplit : splitDots (inetNtop ip)
      = [decimal (octet ip 0), decimal (octet ip 1), decimal (octet ip 2), decimal (octet ip 3)] := by
    rw [inetNtop, splitDots_append (dot_not_mem_decimal _), splitDots_append (dot_not_mem_decimal _),
      splitDots_append (dot_not_mem_decimal _), splitDots_of_not_mem (dot_not_mem_decimal _)]
  have hne : (decimal (octet ip 3)).isEmpty = false := by
    rw [List.isEmpty_eq_false_iff]
    exact decimal_ne_nil _
  rw [javaSplit, if_pos (by simp [inetNtop]), hsplit]
  simp [hne]

theorem parseLong_decimal {n : Nat} (h : n < 256) : parseLong (decimal n) = some (n : Int) := by
  obtain ⟨b, t, hbt⟩ := List.exists_cons_of_ne_nil (decimal_ne_nil n)
  have hdig := isDigit_of_mem_decimal n
  have hhead : ¬ ((decimal n).head? = some (ch '-') ∨ (decimal n).head? = some (ch '+')) := by
    rw [hbt, List.head?_cons, Option.some.injEq, Option.some.injEq]
    obtain ⟨-, hminus, hplus⟩ := not_blank_not_sign (hdig b (by simp [hbt]))
    exact not_or.mpr ⟨hminus, hplus⟩
  have hminus : ¬ (decimal n).head? = some (ch '-') := fun e => hhead (Or.inl e)
  simp only [parseLong, if_neg hhead, if_neg hminus, digitsVal_decimal]
  rw [if_pos ⟨decimal_ne_nil n, List.all_eq_true.mpr hdig, by omega, by omega⟩]

/-- Adding an octet above the bits that are there. -/
theorem toNat_addOctet {v : BitVec 64} {o k : Nat} (hv : v.toNat < 2 ^ k) (ho : o < 256)
    (hk : k ≤ 24) : (v ||| BitVec.ofInt 64 (o : Int) <<< k).toNat = v.toNat + o * 2 ^ k := by
  have hlt : o * 2 ^ k < 2 ^ 64 := by
    calc o * 2 ^ k < 256 * 2 ^ k := Nat.mul_lt_mul_of_pos_right ho (Nat.two_pow_pos k)
      _ ≤ 256 * 2 ^ 24 := Nat.mul_le_mul_left _ (Nat.pow_le_pow_right (by omega) hk)
      _ ≤ 2 ^ 64 := by decide
  rw [BitVec.ofInt_natCast, BitVec.toNat_or, BitVec.toNat_shiftLeft, BitVec.toNat_ofNat,
    Nat.mod_eq_of_lt (show o < 2 ^ 64 by omega), Nat.shiftLeft_eq, Nat.mod_eq_of_lt hlt,
    Nat.or_comm, ← Nat.shiftLeft_eq, ← Nat.shiftLeft_add_eq_or_of_lt hv, Nat.shiftLeft_eq,
    Nat.add_comm]

/-- The text before the slash is the address. -/
theorem takeWhile_cidrText {base : BitVec 32} {n : Nat} {text : List UInt8}
    (h : CidrText base n text) : text.takeWhile (· ≠ ch '/') = inetNtop base := by
  have hne : ∀ b ∈ inetNtop base, (decide (b ≠ ch '/')) = true := by
    intro b hb
    exact decide_eq_true fun e => slash_not_mem_inetNtop base (e ▸ hb)
  rcases h with rfl | ⟨-, rfl⟩
  · rw [List.takeWhile_append_of_pos hne, List.takeWhile_cons_of_neg (by simp), List.append_nil]
  · exact List.takeWhile_eq_self_iff.mpr hne

/-- One part of the split address. -/
theorem addPart_inetNtop (base : BitVec 32) {i : Nat} (hi : i < 4) (v : BitVec 64) :
    addPart (javaSplit (inetNtop base)) v i
      = some (v ||| BitVec.ofInt 64 (octet base i : Int) <<< (i * 8)) := by
  have hget : (javaSplit (inetNtop base))[i]? = some (decimal (octet base i)) := by
    rw [javaSplit_inetNtop]
    rcases (by omega : i = 0 ∨ i = 1 ∨ i = 2 ∨ i = 3) with rfl | rfl | rfl | rfl <;> rfl
  rw [addPart, hget]
  dsimp only
  rw [parseLong_decimal (octet_lt base i)]
  rfl

/-- The four parts together are the address, first octet lowest. -/
theorem foldlM_addPart (base : BitVec 32) :
    ∃ v : BitVec 64, (List.range 4).foldlM (addPart (javaSplit (inetNtop base))) 0 = some v ∧
      v.toNat = base.toNat := by
  have h0 := octet_lt base 0
  have h1 := octet_lt base 1
  have h2 := octet_lt base 2
  have h3 := octet_lt base 3
  -- each octet goes above the ones before it, so or-ing is adding
  have e0 := toNat_addOctet (v := 0) (k := 0) (by simp) h0 (by omega)
  have e1 := toNat_addOctet (k := 8) (by rw [e0]; simp; omega) h1 (by omega)
  have e2 := toNat_addOctet (k := 16) (by rw [e1, e0]; simp; omega) h2 (by omega)
  have e3 := toNat_addOctet (k := 24) (by rw [e2, e1, e0]; simp; omega) h3 (by omega)
  refine ⟨_, ?_, e3.trans ?_⟩
  · rw [show List.range 4 = [0, 1, 2, 3] from rfl]
    simp only [List.foldlM_cons, List.foldlM_nil, addPart_inetNtop base (show 0 < 4 by omega),
      addPart_inetNtop base (show 1 < 4 by omega), addPart_inetNtop base (show 2 < 4 by omega),
      addPart_inetNtop base (show 3 < 4 by omega), Option.bind_eq_bind, Option.bind_some,
      Option.pure_def]
  · rw [e2, e1, e0]
    have hlt := base.isLt
    simp only [octet]
    simp
    omega

/-- `(byte) ((ipVal >> (i * 8)) & 0xFF)`. -/
theorem ofNat_byte (v : BitVec 64) (i : Nat) :
    UInt8.ofNat ((v >>> (i * 8)) &&& 0xFF#64).toNat = UInt8.ofNat (v.toNat / 256 ^ i) := by
  have hbyte : ((v >>> (i * 8)) &&& 0xFF#64).toNat = v.toNat / 256 ^ i % 256 := by
    rw [BitVec.toNat_and, BitVec.toNat_ushiftRight, Nat.shiftRight_eq_div_pow, Nat.mul_comm,
      Nat.pow_mul]
    exact Nat.and_two_pow_sub_one_eq_mod _ 8
  apply UInt8.toNat_inj.mp
  rw [hbyte]
  simp

theorem parseIpBytes_cidrText {base : BitVec 32} {n : Nat} {text : List UInt8}
    (h : CidrText base n text) : parseIpBytes text = some (leBytes 4 base.toNat) := by
  obtain ⟨v, hv, hval⟩ := foldlM_addPart base
  rw [parseIpBytes]
  simp only [takeWhile_cidrText h, hv, Option.map_some, Option.some.injEq, ofNat_byte, hval]
  rw [show List.range 4 = [0, 1, 2, 3] from rfl]
  simp [leBytes, Nat.div_div_eq_div_mul]

theorem filter_uuidToStr (uuid : List UInt8) :
    (uuidToStr uuid).filter (· ≠ ch '-') = hexText uuid := by
  have hkeep : ∀ bs : List UInt8, (hexText bs).filter (· ≠ ch '-') = hexText bs := by
    intro bs
    rw [List.filter_eq_self]
    intro c hc
    obtain ⟨d, hd, rfl⟩ := mem_hexText hc
    exact decide_eq_true (hexDigit_spec hd).2.2.1
  have hdash : ∀ s : List UInt8, (ch '-' :: s).filter (· ≠ ch '-') = s.filter (· ≠ ch '-') :=
    fun s => List.filter_cons_of_neg (by simp)
  have hsplit : uuid = uuid.take 4 ++ ((uuid.drop 4).take 2 ++ ((uuid.drop 6).take 2 ++
      ((uuid.drop 8).take 2 ++ uuid.drop 10))) := by
    have step : ∀ i, (uuid.drop i).take 2 ++ uuid.drop (i + 2) = uuid.drop i := by
      intro i
      rw [← List.drop_drop, List.take_append_drop]
    rw [step 8, step 6, step 4, List.take_append_drop]
  simp only [uuidToStr, List.filter_append, hdash, hkeep, ← hexText_append]
  rw [← hsplit]

/-- The record for an agent, as the receiver reads it. -/
theorem controlRecord_uuidToStr {uuid : List UInt8} (h : uuid.length = 16) (commandType : UInt8)
    (ipBytes : List UInt8) :
    controlRecord (uuidToStr uuid) commandType ipBytes
      = hexText uuid ++ 0 :: commandType :: ipBytes := by
  have hlen : (hexText uuid).length = 32 := by rw [length_hexText, h]
  simp only [controlRecord, filter_uuidToStr]
  rw [List.take_of_length_le hlen.le, hlen, List.append_assoc]
  rfl

theorem firstWord_leBytes (ip : BitVec 32) : firstWord (leBytes 4 ip.toNat) = ip := by
  have hlt : ip.toNat < 256 ^ 4 := ip.isLt
  rw [firstWord, List.take_of_length_le (length_leBytes 4 _).le, leNat_leBytes_of_lt hlt,
    BitVec.ofNat_toNat, BitVec.setWidth_eq]

/-- The command a pushed record becomes at the agent of a connection, if the
receiver finds one. -/
theorem push_reaches_agent (E : Equiv.Perm AesBlock) (iv : AesBlock) (junk : Nat → UInt8)
    (connected : Registry) {uuid : List UInt8} (huuid : uuid.length = 16) (commandType : UInt8)
    {base : BitVec 32} :
    localControl E iv junk connected
        (controlRecord (uuidToStr uuid) commandType (leBytes 4 base.toNat))
      = (findAgent uuid connected).map fun fd =>
          (fd, Frame.bytes ⟨uuid, commandType, aesEncrypt E iv (leBytes 4 base.toNat), huuid⟩) := by
  rw [controlRecord_uuidToStr huuid]
  exact localControl_record E iv junk connected huuid _ (length_leBytes 4 _)

/-! ### The way of a command -/

/-- The text `a.b.c.d`. -/
def dottedQuad (a b c d : UInt8) : List UInt8 :=
  decimal a.toNat ++ ch '.' :: (decimal b.toNat ++ ch '.' ::
    (decimal c.toNat ++ ch '.' :: decimal d.toNat))

theorem inetNtop_ofOctets (a b c d : UInt8) :
    inetNtop (ofOctets a.toNat b.toNat c.toNat d.toNat) = dottedQuad a b c d := by
  obtain ⟨ha, hb, hc, hd⟩ := octet_ofOctets a.toNat_lt b.toNat_lt c.toNat_lt d.toNat_lt
  rw [inetNtop, ha, hb, hc, hd, dottedQuad]

/-- The bytes of the word lie in the order of the text. -/
theorem leBytes_ofOctets (a b c d : UInt8) :
    leBytes 4 (ofOctets a.toNat b.toNat c.toNat d.toNat).toNat = [a, b, c, d] := by
  have ha := a.toNat_lt
  have hb := b.toNat_lt
  have hc := c.toNat_lt
  have hd := d.toNat_lt
  have hbyte : ∀ (x : UInt8) (n : Nat), n % 256 = x.toNat → UInt8.ofNat n = x := by
    intro x n h
    apply UInt8.toNat_inj.mp
    simpa using h
  rw [ofOctets, BitVec.toNat_ofNat, Nat.mod_eq_of_lt (by omega)]
  simp only [leBytes]
  rw [hbyte a _ (by omega), hbyte b _ (by omega), hbyte c _ (by omega), hbyte d _ (by omega)]

/-- The record for one agent and one address. -/
theorem pushBlocklistUpdateToAgents_single {uuid : List UInt8} (huuid : uuid.length = 16)
    (a b c d commandType : UInt8) :
    pushBlocklistUpdateToAgents [uuidToStr uuid] (dottedQuad a b c d) commandType =
      [hexText uuid ++ 0 :: commandType :: [a, b, c, d]] := by
  have htext : CidrText (ofOctets a.toNat b.toNat c.toNat d.toNat) 32 (dottedQuad a b c d) :=
    Or.inr ⟨rfl, (inetNtop_ofOctets a b c d).symm⟩
  rw [pushBlocklistUpdateToAgents, parseIpBytes_cidrText htext, leBytes_ofOctets]
  exact congrArg (fun record => [record]) (controlRecord_uuidToStr huuid commandType [a, b, c, d])

/-- A command of the dashboard arrives as it was given: the receiver reads the
UUID and the type out of the record, the agent it finds is sent the four bytes
and prints them as the address, and no two commands share a record. -/
theorem pushed_command_arrives (E : Equiv.Perm AesBlock) (iv : AesBlock) (junk : Nat → UInt8)
    (connected : Registry) {uuid : List UInt8} (huuid : uuid.length = 16)
    (a b c d commandType : UInt8) :
    ∃ record, pushBlocklistUpdateToAgents [uuidToStr uuid] (dottedQuad a b c d) commandType
        = [record] ∧
      record.length = localCmdSize ∧ parseUuidHex junk (cstr (record.take 32)) = uuid ∧
      record.getD 33 0 = commandType ∧ (record.drop 34).take 4 = [a, b, c, d] ∧
      inetNtop (firstWord [a, b, c, d]) = dottedQuad a b c d ∧
      (∃ bytes, localControl E iv junk connected record
          = (findAgent uuid connected).map (fun fd => (fd, bytes)) ∧
        ∀ rest, readCommand E (bytes ++ rest) = .command commandType [a, b, c, d] rest) ∧
      ∀ uuid' : List UInt8, uuid'.length = 16 → ∀ a' b' c' d' commandType' : UInt8,
        pushBlocklistUpdateToAgents [uuidToStr uuid'] (dottedQuad a' b' c' d') commandType'
            = [record] →
          uuid' = uuid ∧ (a', b', c', d') = (a, b, c, d) ∧ commandType' = commandType := by
  have hlen : (hexText uuid).length = 32 := by rw [length_hexText, huuid]
  have hhex : parseUuidHex junk (cstr (hexText uuid)) = uuid := by
    rw [cstr_of_not_mem (zero_not_mem_hexText uuid), parseUuidHex_hexText junk huuid]
  have hword : firstWord [a, b, c, d] = ofOctets a.toNat b.toNat c.toNat d.toNat := by
    rw [← leBytes_ofOctets, firstWord_leBytes]
  refine ⟨_, pushBlocklistUpdateToAgents_single huuid a b c d commandType, ?_, ?_, ?_, ?_, ?_,
    ⟨_, localControl_record E iv junk connected huuid commandType rfl, fun rest => ?_⟩, ?_⟩
  · rw [List.length_append, hlen]
    rfl
  · rw [List.take_left' hlen, hhex]
  · rw [List.getD_eq_getElem?_getD, List.getElem?_append_right (by omega), hlen]
    rfl
  · rw [show (34 : Nat) = 32 + 2 from rfl, ← List.drop_drop, List.drop_left' hlen]
    rfl
  · rw [hword, inetNtop_ofOctets]
  · exact readCommand_frame E iv ⟨uuid, commandType, _, huuid⟩ rfl (by simp) rest
  · intro uuid' huuid' a' b' c' d' commandType' hsame
    rw [pushBlocklistUpdateToAgents_single huuid'] at hsame
    have hlen' : (hexText uuid').length = 32 := by rw [length_hexText, huuid']
    obtain ⟨htext, hrest⟩ := List.append_inj (List.cons.inj hsame).1 (hlen'.trans hlen.symm)
    have huuid_eq : uuid' = uuid := by
      rw [← parseUuidHex_hexText junk huuid', htext, parseUuidHex_hexText junk huuid]
    obtain ⟨-, hrest⟩ := List.cons.inj hrest
    obtain ⟨htype, hrest⟩ := List.cons.inj hrest
    obtain ⟨rfl, rfl, rfl, rfl⟩ : a' = a ∧ b' = b ∧ c' = c ∧ d' = d := by
      simpa using hrest
    exact ⟨huuid_eq, rfl, htype⟩

/-- A connection that has received the header of an agent. -/
def AgentConnection.heardFrom (fd : Nat) (uuid : List UInt8) : AgentConnection :=
  { AgentConnection.accepted fd [] with hdr := poke (fun _ => 0) 4 uuid }

/-- An unblock for 10.0.0.200, to the agent on descriptor 9. -/
theorem pushed_unblock_arrives :
    let uuid : List UInt8 := List.map UInt8.ofNat (List.range 16)
    let connected : Registry := [none, some (.heardFrom 9 uuid)]
    ∃ record, pushBlocklistUpdateToAgents [uuidToStr uuid] (dottedQuad 10 0 0 200)
        msgTypeUnblockIp = [record] ∧
      record.length = localCmdSize ∧ parseUuidHex (fun _ => 0) (cstr (record.take 32)) = uuid ∧
      record.getD 33 0 = msgTypeUnblockIp ∧ (record.drop 34).take 4 = [10, 0, 0, 200] ∧
      inetNtop (firstWord [10, 0, 0, 200]) = str "10.0.0.200" ∧
      (∃ bytes, localControl (Equiv.refl _) (fun _ => 0) (fun _ => 0) connected record
          = some (9, bytes) ∧
        ∀ rest, readCommand (Equiv.refl _) (bytes ++ rest)
          = .command msgTypeUnblockIp [10, 0, 0, 200] rest) ∧
      ∀ uuid' : List UInt8, uuid'.length = 16 → ∀ a' b' c' d' commandType' : UInt8,
        pushBlocklistUpdateToAgents [uuidToStr uuid'] (dottedQuad a' b' c' d') commandType'
            = [record] →
          uuid' = uuid ∧ (a', b', c', d') = (10, 0, 0, 200) ∧ commandType' = msgTypeUnblockIp := by
  intro uuid connected
  have honline : findAgent uuid connected = some 9 := by decide
  have htext : dottedQuad 10 0 0 200 = str "10.0.0.200" := by decide
  obtain ⟨record, hpush, hlen, hparse, htype, hip, hntop, ⟨bytes, hsent, hread⟩, honly⟩ :=
    pushed_command_arrives (Equiv.refl _) (fun _ => 0) (fun _ => 0) connected
      (show uuid.length = 16 by decide) 10 0 0 200 msgTypeUnblockIp
  rw [honline, Option.map_some] at hsent
  rw [htext] at hntop
  exact ⟨record, hpush, hlen, hparse, htype, hip, hntop, ⟨bytes, hsent, hread⟩, honly⟩

/-! ### The prefix length does not -/

/-- The block is enforced on the node of the agent on descriptor `fd`: one of
the records pushed for it reaches that agent, and once the agent has handled
the command, reloaded and pushed, every address of the block is matched. -/
def CidrEnforced (E : Equiv.Perm AesBlock) (iv : AesBlock) (junk : Nat → UInt8)
    (shl : BitVec 8 → BitVec 32) (connected : Registry) (fd : Nat) (fw : Firewall)
    (file : List UInt8) (records : List (List UInt8)) (base : BitVec 32) (n : Nat) : Prop :=
  ∃ r ∈ records, ∃ bytes, localControl E iv junk connected r = some (fd, bytes) ∧
    ∃ msgType decrypted, readCommand E bytes = .command msgType decrypted [] ∧
      (handleCommand file msgType decrypted).push = true ∧
      ∀ src, InBlock base n src →
        blockedBy shl fw (handleCommand file msgType decrypted).file src = true

theorem cidrEnforced_iff_blockedBy (E : Equiv.Perm AesBlock) (iv : AesBlock) (junk : Nat → UInt8)
    (shl : BitVec 8 → BitVec 32) {connected : Registry} {uuids : List (List UInt8)}
    (huuids : ∀ u ∈ uuids, u.length = 16) {uuid : List UInt8} (huuid : uuid ∈ uuids) {fd : Nat}
    (honline : findAgent uuid connected = some fd) (fw : Firewall) (file : List UInt8)
    {base : BitVec 32} {n : Nat} {text : List UInt8} (htext : CidrText base n text) :
    CidrEnforced E iv junk shl connected fd fw file (addBlocklist true (uuids.map uuidToStr) text)
        base n
      ↔ ∀ src, InBlock base n src → blockedBy shl fw (handleBlockIp file base) src = true := by
  -- every agent is sent the base address of the block, without its length
  have hrecords : addBlocklist true (uuids.map uuidToStr) text
      = uuids.map fun u => controlRecord (uuidToStr u) msgTypeBlockIp (leBytes 4 base.toNat) := by
    rw [addBlocklist, if_pos rfl, pushBlocklistUpdateToAgents, parseIpBytes_cidrText htext]
    exact List.map_map
  have hread : ∀ u (hu : u.length = 16),
      readCommand E (Frame.bytes ⟨u, msgTypeBlockIp, aesEncrypt E iv (leBytes 4 base.toNat), hu⟩)
        = .command msgTypeBlockIp (leBytes 4 base.toNat) [] := by
    intro u hu
    have h := readCommand_frame E iv ⟨u, msgTypeBlockIp, aesEncrypt E iv (leBytes 4 base.toNat), hu⟩
      rfl (by rw [length_leBytes]; omega) []
    rwa [List.append_nil] at h
  have hhandle : handleCommand file msgTypeBlockIp (leBytes 4 base.toNat)
      = ⟨handleBlockIp file base, true, none⟩ := by
    rw [handleCommand, if_pos rfl, if_pos (length_leBytes 4 _).ge, firstWord_leBytes]
  rw [hrecords]
  constructor
  · -- whichever record it was, the agent read the same command
    rintro ⟨r, hr, bytes, hbytes, msgType, decrypted, hcmd, -, hall⟩
    obtain ⟨u, hu, rfl⟩ := List.mem_map.mp hr
    have hlen := huuids u hu
    rw [push_reaches_agent E iv junk connected hlen msgTypeBlockIp] at hbytes
    obtain ⟨fd', -, hpair⟩ := Option.map_eq_some_iff.mp hbytes
    obtain ⟨-, rfl⟩ := Prod.mk.inj hpair
    rw [hread u hlen] at hcmd
    obtain ⟨rfl, rfl, -⟩ := Downstream.command.inj hcmd
    rwa [hhandle] at hall
  · intro hall
    have hlen := huuids uuid huuid
    refine ⟨_, List.mem_map.mpr ⟨uuid, huuid, rfl⟩, _, ?_, _, _, hread uuid hlen, ?_, ?_⟩
    · rw [push_reaches_agent E iv junk connected hlen msgTypeBlockIp, honline]
      rfl
    · rw [hhandle]
    · rwa [hhandle]

/-- Every address of the block is covered by the agent's list once the base
address is added to it: by the base itself or by an entry that was there, and
after an unfinished last line by what that line and the new one are read as
together. -/
def CoveredWithBase (shl : BitVec 8 → BitVec 32) (file : List UInt8) (base : BitVec 32) (n : Nat) :
    Prop :=
  ∀ src, InBlock base n src →
    if remainder lineBuf file = [] then src = base ∨ Covers shl (fileEntries file) src
    else Covers shl ((finished lineBuf file).filterMap lineEntry ++
      fileEntries (remainder lineBuf file ++ blockLine base)) src

/-- **When a CIDR block pushed from the dashboard is enforced**, on the node of
an online agent whose blocklist has room and does not mention the base
address. -/
theorem cidr_push_blocks_iff (E : Equiv.Perm AesBlock) (iv : AesBlock) (junk : Nat → UInt8)
    (shl : BitVec 8 → BitVec 32) {connected : Registry} {uuids : List (List UInt8)}
    (huuids : ∀ u ∈ uuids, u.length = 16) {uuid : List UInt8} (huuid : uuid ∈ uuids) {fd : Nat}
    (honline : findAgent uuid connected = some fd) (fw : Firewall) {file : List UInt8}
    (hroom : (fileEntries file).length < maxBlocklistIps) {base : BitVec 32} {n : Nat}
    {text : List UInt8} (htext : CidrText base n text)
    (hmention : blocklistMentions file base = false) :
    CidrEnforced E iv junk shl connected fd fw file (addBlocklist true (uuids.map uuidToStr) text)
        base n
      ↔ CoveredWithBase shl file base n := by
  rw [cidrEnforced_iff_blockedBy E iv junk shl huuids huuid honline fw file htext]
  refine forall_congr' fun src => imp_congr_right fun _ => ?_
  rw [blockedBy_iff, handleBlockIp, hmention, if_neg (by simp)]
  split
  · rename_i hrem
    rw [fileEntries_append_blockLine hrem, covers_append_singleton,
      cidrMatch_iff shl (show (32 : BitVec 8).toNat ≤ 32 by decide)]
    show _ ∨ _ ∧ InBlock base 32 src ↔ _
    rw [inBlock_32_iff, and_iff_right hroom, or_comm]
  · rw [fileEntries, pieces_append_remainder (by decide), List.filterMap_append]
    exact Iff.rfl

/-- A pair of neighbours is two addresses. -/
theorem inBlock_31_cases {src : BitVec 32} (h : InBlock (ofOctets 10 0 0 0) 31 src) :
    src = ofOctets 10 0 0 0 ∨ src = ofOctets 10 0 0 1 := by
  have hnext : SamePrefix 31 (ntohl (ofOctets 10 0 0 0)) (ntohl (ofOctets 10 0 0 1)) := by decide
  have hlast : (ntohl (ofOctets 10 0 0 0)).getMsbD 31 = false ∧
      (ntohl (ofOctets 10 0 0 1)).getMsbD 31 = true := by decide
  -- the first 31 bits are those of both, so the last one tells which it is
  have hsame : ∀ y, SamePrefix 31 (ntohl src) y → (ntohl src).getMsbD 31 = y.getMsbD 31 →
      ntohl src = y := by
    intro y hprefix hbit
    refine samePrefix_32_iff.mp fun i hi => ?_
    rcases Nat.lt_succ_iff_lt_or_eq.mp hi with hi | rfl
    · exact hprefix i hi
    · exact hbit
  cases hbit : (ntohl src).getMsbD 31
  · exact Or.inl (ntohl_inj.mp (hsame _ h (hbit.trans hlast.1.symm)))
  · refine Or.inr (ntohl_inj.mp (hsame _ ?_ (hbit.trans hlast.2.symm)))
    exact fun i hi => (h i hi).trans (hnext i hi)

/-- A single address, pushed to an agent with one other entry, and a network whose
other address the agent has blocked before. -/
theorem cidr_push_blocks_covered :
    let uuid : List UInt8 := List.map UInt8.ofNat (List.range 16)
    let connected : Registry := [none, some (.heardFrom 9 uuid)]
    CidrEnforced (Equiv.refl _) (fun _ => 0) (fun _ => 0) (fun _ => 0) connected 9 Firewall.init
        (str "10.1.0.0/16\n") (addBlocklist true [uuidToStr uuid] (str "10.0.0.5/32"))
        (ofOctets 10 0 0 5) 32 ∧
      CidrEnforced (Equiv.refl _) (fun _ => 0) (fun _ => 0) (fun _ => 0) connected 9 Firewall.init
        (str "10.0.0.1/32\n") (addBlocklist true [uuidToStr uuid] (str "10.0.0.0/31"))
        (ofOctets 10 0 0 0) 31 := by
  intro uuid connected
  have hlen : ∀ u ∈ [uuid], u.length = 16 := by
    intro u hu
    rw [List.mem_singleton.mp hu]
    decide
  have honline : findAgent uuid connected = some 9 := by decide
  constructor
  · have hrem : remainder lineBuf (str "10.1.0.0/16\n") = [] := by decide
    refine (cidr_push_blocks_iff (Equiv.refl _) (fun _ => 0) (fun _ => 0) (fun _ => 0)
      hlen (List.mem_singleton_self uuid) honline Firewall.init ?_ (Or.inl ?_) ?_).mpr ?_
    · decide
    · decide
    · decide
    · intro src hsrc
      rw [if_pos hrem]
      exact Or.inl (inBlock_32_iff.mp hsrc)
  · have hrem : remainder lineBuf (str "10.0.0.1/32\n") = [] := by decide
    have hentries : fileEntries (str "10.0.0.1/32\n") = [(ofOctets 10 0 0 1, 32)] := by decide
    refine (cidr_push_blocks_iff (Equiv.refl _) (fun _ => 0) (fun _ => 0) (fun _ => 0)
      hlen (List.mem_singleton_self uuid) honline Firewall.init ?_ (Or.inl ?_) ?_).mpr ?_
    · decide
    · decide
    · decide
    · intro src hsrc
      rw [if_pos hrem, hentries]
      refine (inBlock_31_cases hsrc).imp_right ?_
      rintro rfl
      exact ⟨(ofOctets 10 0 0 1, 32), by decide, by decide⟩

/-- Of a network pushed to an agent with an empty list, only the base address
is blocked. -/
theorem cidr_push_blocks_only_base :
    let uuid : List UInt8 := List.replicate 16 7
    let connected : Registry := [none, some (.heardFrom 9 uuid)]
    let file := str "# Firewall IP Blocklist\n"
    let base := ofOctets 10 0 0 0
    findAgent uuid connected = some 9 ∧ (fileEntries file).length < maxBlocklistIps ∧
      blocklistMentions file base = false ∧ CidrText base 24 (str "10.0.0.0/24") ∧
      ¬ CidrEnforced (Equiv.refl _) (fun _ => 0) (fun _ => 0) (fun _ => 0) connected 9
        Firewall.init file (addBlocklist true [uuidToStr uuid] (str "10.0.0.0/24")) base 24 := by
  intro uuid connected file base
  have hlen : ∀ u ∈ [uuid], u.length = 16 := by
    intro u hu
    rw [List.mem_singleton.mp hu]
    decide
  have honline : findAgent uuid connected = some 9 := by decide
  have htext : CidrText base 24 (str "10.0.0.0/24") := Or.inl (by decide)
  refine ⟨honline, by decide, by decide, htext, ?_⟩
  intro h
  have hall := (cidrEnforced_iff_blockedBy _ _ _ _ hlen (List.mem_singleton_self uuid) honline
    Firewall.init file htext).mp h
  -- 10.0.0.1 is in the block, and the only entry is 10.0.0.0/32
  have hsrc := hall (ofOctets 10 0 0 1) (by decide)
  have hentries : fileEntries (handleBlockIp file base) = [(base, 32)] := by decide
  rw [blockedBy_iff, hentries] at hsrc
  obtain ⟨p, hp, hmatch⟩ := hsrc
  obtain rfl := List.mem_singleton.mp (List.mem_of_mem_take hp)
  exact absurd hmatch (by decide)

end Nullsploit
