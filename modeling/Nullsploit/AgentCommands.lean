/-
Nullsploit/AgentCommands.lean

The commands of the SOC that change the agent's blocklist file, as handled in
`main` of agent/fw_agent.c.

BLOCK_IP looks for the address in the text of the file and appends `ip/32` if
no line contains it, then reloads.  Looking for text is not looking for an
entry: a comment, a longer address or an entry of another block that merely
contains the text stops the append.  And an append to a file whose last line
has no newline is glued to that line.  `blockIp_takes_effect_iff` says when
the command blocks its address all the same.

The other commands rewrite the file from the lines they keep.  `readCommand` is
how a command comes in, and `handleCommand` the dispatch on its type.
-/
import Nullsploit.CidrFile
import Nullsploit.Protocol
import Nullsploit.AesWrapper

namespace Nullsploit

open CText Inet Bytes

/-! ### BLOCK_IP -/

/-- `exists`: some line read with `fgets` contains the text of the address. -/
def blocklistMentions (file : List UInt8) (ip : BitVec 32) : Bool :=
  (fileLines lineBuf file).any fun line => strstr (cstr line) (inetNtop ip)

/-- `fprintf(f, "%s/32\n", ip_str)`. -/
def blockLine (ip : BitVec 32) : List UInt8 := inetNtop ip ++ str "/32\n"

/-- The file after MSG_TYPE_BLOCK_IP. -/
def handleBlockIp (file : List UInt8) (ip : BitVec 32) : List UInt8 :=
  if blocklistMentions file ip then file else file ++ blockLine ip

/-! ### The other commands -/

/-- `while (fgets(..) && line_count < MAX_BLOCKLIST_IPS)`: the lines that are
kept, each as a C string; empty lines, comments and those that `drop` selects
are not. -/
def keptLines (drop : List UInt8 → Bool) : List (List UInt8) → List (List UInt8) →
    List (List UInt8)
  | [], lines => lines
  | line :: rest, lines =>
      if lines.length < maxBlocklistIps then
        -- the first byte decides, so a comment behind a blank is kept
        if line.head? = some (ch '\r') ∨ line.head? = some nl ∨ line.head? = some (ch '#') then
          keptLines drop rest lines
        else if drop (cstr line) then keptLines drop rest lines
        else keptLines drop rest (lines ++ [cstr line])
      else lines

/-- `fprintf(f, "# Firewall IP Blocklist\n")`. -/
def blocklistTitle : List UInt8 := str "# Firewall IP Blocklist\n"

/-- The file after MSG_TYPE_UNBLOCK_IP: the lines without the text of the
address. -/
def handleUnblockIp (file : List UInt8) (ip : BitVec 32) : List UInt8 :=
  blocklistTitle ++
    (keptLines (fun line => strstr line (inetNtop ip)) (fileLines lineBuf file) []).flatten

/-- The file after MSG_TYPE_CONFIG_UPDATE: the new directive, then the lines
that are no directive. -/
def handleConfigUpdate (file : List UInt8) (configVal : Nat) : List UInt8 :=
  blocklistTitle ++ (str "block_local_ips=" ++ decimal configVal ++ [nl]) ++
    (keptLines (fun line => (str "block_local_ips=").isPrefixOf line)
      (fileLines lineBuf file) []).flatten

/-! ### Reading and dispatching -/

/-- What a decrypted command does: the new blocklist file, whether it is
loaded and pushed, and new YARA rules. -/
structure CommandEffect where
  file : List UInt8
  push : Bool
  yara : Option (List UInt8)
  deriving DecidableEq, Repr

/-- `*(uint32_t *)decrypted`. -/
def firstWord (decrypted : List UInt8) : BitVec 32 := BitVec.ofNat 32 (leNat (decrypted.take 4))

/-- The dispatch on `soc_hdr.msg_type`. -/
def handleCommand (file : List UInt8) (msgType : UInt8) (decrypted : List UInt8) : CommandEffect :=
  if msgType = msgTypeBlockIp then
    if 4 ≤ decrypted.length then ⟨handleBlockIp file (firstWord decrypted), true, none⟩
    else ⟨file, false, none⟩
  else if msgType = msgTypeUnblockIp then
    if 4 ≤ decrypted.length then ⟨handleUnblockIp file (firstWord decrypted), true, none⟩
    else ⟨file, false, none⟩
  else if msgType = msgTypeConfigUpdate then
    if 4 ≤ decrypted.length then ⟨handleConfigUpdate file (firstWord decrypted).toNat, true, none⟩
    else ⟨file, false, none⟩
  else if msgType = msgTypeYaraUpdate then ⟨file, false, some decrypted⟩
  else ⟨file, false, none⟩

/-- `read_exact`: the bytes asked for and what follows them, or a failure when
the connection ends or times out before. -/
def readExact (stream : List UInt8) (len : Nat) : Option (List UInt8 × List UInt8) :=
  if len ≤ stream.length then some (stream.take len, stream.drop len) else none

/-- What the command reader of the main loop gets from the SOC connection: the
connection is reset, the header is passed over (wrong magic, unacceptable
length or a payload that does not decrypt), or there is a command. -/
inductive Downstream
  | reset
  | ignored (rest : List UInt8)
  | command (msgType : UInt8) (decrypted rest : List UInt8)
  deriving DecidableEq, Repr

/-- "Process downstream commands from SOC server", allocation succeeding. -/
def readCommand (E : Equiv.Perm AesBlock) (stream : List UInt8) : Downstream :=
  match readExact stream hdrSize with
  | none => .reset
  | some (hdr, stream) =>
      -- a header that fails here is dropped, its payload is not
      if hdrMagic hdr = magicHeader ∧ 0 < hdrPayloadLen hdr ∧ hdrPayloadLen hdr < 16777216 then
        match readExact stream (hdrPayloadLen hdr) with
        | none => .reset
        | some (encrypted, stream) =>
            match aesDecrypt E encrypted with
            | some decrypted => .command (hdrMsgType hdr) decrypted stream
            | none => .ignored stream
      else .ignored stream

/-- A command in a frame is read as it was sent. -/
theorem readCommand_frame (E : Equiv.Perm AesBlock) (iv : AesBlock) (f : Frame)
    {data : List UInt8} (hpay : f.payload = aesEncrypt E iv data) (hdata : data.length < 1048576)
    (rest : List UInt8) :
    readCommand E (f.bytes ++ rest) = .command f.msgType data rest := by
  have hlen : f.payload.length = 16 + 16 * (data.length / 16 + 1) := by
    rw [hpay, length_aesEncrypt]
  have hhdr : readExact (f.bytes ++ rest) hdrSize = some (f.header, f.payload ++ rest) := by
    rw [readExact, if_pos (by rw [List.length_append, f.length_bytes]; omega), Frame.bytes,
      List.append_assoc, List.take_left' f.length_header, List.drop_left' f.length_header]
  have hpayload : readExact (f.payload ++ rest) f.payload.length = some (f.payload, rest) := by
    rw [readExact, if_pos (by rw [List.length_append]; omega), List.take_left, List.drop_left]
  rw [readCommand, hhdr]
  dsimp only
  rw [f.hdrMagic_header, f.hdrPayloadLen_header (by omega),
    if_pos ⟨rfl, by omega, by omega⟩, hpayload]
  dsimp only
  rw [hpay, aesDecrypt_aesEncrypt, f.hdrMsgType_header]

/-! ### When BLOCK_IP takes effect -/

/-- Is the address blocked once the file is reloaded and the firewall has
applied the push? -/
def blockedBy (shl : BitVec 8 → BitVec 32) (fw : Firewall) (file : List UInt8) (ip : BitVec 32) :
    Bool :=
  inspectIpBlocklist shl (updateIpBlocklist fw (loadAndPushBlocklist file)) ip

/-- One of the entries that fit the payload matches the address. -/
def Covers (shl : BitVec 8 → BitVec 32) (es : List (BitVec 32 × BitVec 8)) (ip : BitVec 32) :
    Prop :=
  ∃ p ∈ es.take maxBlocklistIps, cidrMatch shl p.1 p.2 ip = true

theorem blockedBy_iff (shl : BitVec 8 → BitVec 32) (fw : Firewall) (file : List UInt8)
    (ip : BitVec 32) : blockedBy shl fw file ip = true ↔ Covers shl (fileEntries file) ip := by
  have hcap : ((fileEntries file).take maxBlocklistIps).length ≤ maxBlocklistIps :=
    List.length_take_le _ _
  rw [blockedBy, inspect_updateIpBlocklist, loadAndPushBlocklist_listed,
    List.take_of_length_le (by rwa [List.length_map]), List.any_map, List.any_eq_true]
  rfl

/-- A further entry counts if it fits and matches. -/
theorem covers_append_singleton (shl : BitVec 8 → BitVec 32) (es : List (BitVec 32 × BitVec 8))
    (p : BitVec 32 × BitVec 8) (ip : BitVec 32) :
    Covers shl (es ++ [p]) ip
      ↔ Covers shl es ip ∨ es.length < maxBlocklistIps ∧ cidrMatch shl p.1 p.2 ip = true := by
  unfold Covers
  rcases Nat.lt_or_ge es.length maxBlocklistIps with hlt | hge
  · have htake : (es ++ [p]).take maxBlocklistIps = es ++ [p] := by
      apply List.take_of_length_le
      rw [List.length_append, List.length_singleton]
      exact hlt
    rw [htake, List.take_of_length_le hlt.le]
    simp only [List.mem_append, List.mem_singleton, or_and_right, exists_or, exists_eq_left, hlt,
      true_and]
  · rw [List.take_append_of_le_length hge]
    exact ⟨Or.inl, fun h => h.resolve_right fun h => absurd h.1 (Nat.not_lt.mpr hge)⟩

/-- Entries that do not match change nothing. -/
theorem covers_append_of_not_match (shl : BitVec 8 → BitVec 32)
    (es fs : List (BitVec 32 × BitVec 8)) {ip : BitVec 32}
    (h : ∀ p ∈ fs, cidrMatch shl p.1 p.2 ip ≠ true) :
    Covers shl (es ++ fs) ip ↔ Covers shl es ip := by
  unfold Covers
  rw [List.take_append]
  constructor
  · rintro ⟨p, hp, hm⟩
    rcases List.mem_append.mp hp with hp | hp
    · exact ⟨p, hp, hm⟩
    · exact absurd hm (h p (List.mem_of_mem_take hp))
  · rintro ⟨p, hp, hm⟩
    exact ⟨p, List.mem_append_left _ hp, hm⟩

theorem blockLine_eq (ip : BitVec 32) : blockLine ip = (inetNtop ip ++ str "/32") ++ [nl] := by
  rw [blockLine, List.append_assoc]
  rfl

/-- The bytes of the appended line, its newline apart. -/
theorem mem_blockLine {ip : BitVec 32} {b : UInt8} (h : b ∈ inetNtop ip ++ str "/32") :
    isDigit b = true ∨ b = ch '.' ∨ b = ch '/' := by
  rcases List.mem_append.mp h with h | h
  · rcases mem_inetNtop h with h | h
    · exact Or.inl h
    · exact Or.inr (Or.inl h)
  · rw [show str "/32" = [ch '/', ch '3', ch '2'] from rfl] at h
    simp only [List.mem_cons, List.not_mem_nil, or_false] at h
    rcases h with rfl | rfl | rfl
    · exact Or.inr (Or.inr rfl)
    · exact Or.inl rfl
    · exact Or.inl rfl

theorem pieces_blockLine (ip : BitVec 32) : pieces lineBuf (blockLine ip) = [blockLine ip] := by
  have hlen : (blockLine ip).length ≤ 15 + 4 := by
    rw [blockLine, List.length_append]
    exact Nat.add_le_add (inetNtop_length_le ip) (by decide)
  refine pieces_of_fits (by simp [blockLine_eq]) ?_ (hlen.trans (by decide))
  rw [blockLine_eq, List.dropLast_concat]
  intro h
  rcases mem_blockLine h with h | h | h <;> exact absurd h (by decide)

/-- A line made of one field of such bytes. -/
theorem lineEntry_field {f : List UInt8} (hne : f ≠ [])
    (hf : ∀ b ∈ f, isDigit b = true ∨ b = ch '.' ∨ b = ch '/') :
    lineEntry (f ++ [nl]) = parseCidr f := by
  have hnul : (0 : UInt8) ∉ f ++ [nl] := by
    rw [List.mem_append]
    rintro (h | h)
    · rcases hf 0 h with h | h | h <;> exact absurd h (by decide)
    · exact absurd h (by decide)
  have hfield : ∀ b ∈ f, b ∉ delims := by
    intro b hb hdelim
    rw [show delims = [ch ' ', ch '\t', ch '\r', ch '\n'] from rfl] at hdelim
    simp only [List.mem_cons, List.not_mem_nil, or_false] at hdelim
    rcases hdelim with rfl | rfl | rfl | rfl <;>
      rcases hf _ hb with h | h | h <;> exact absurd h (by decide)
  rw [lineEntry, cstr_of_not_mem hnul, strtok_append hne hfield (by decide) [], Option.bind_some]

theorem lineEntry_blockLine (ip : BitVec 32) : lineEntry (blockLine ip) = some (ip, 32) := by
  rw [blockLine_eq, lineEntry_field (by simp [str]) fun b hb => mem_blockLine hb]
  exact parseCidr_suffix ip (str "32")

/-- Appending to a file that ends in a complete line adds the address's own
entry. -/
theorem fileEntries_append_blockLine {file : List UInt8} (h : remainder lineBuf file = [])
    (ip : BitVec 32) : fileEntries (file ++ blockLine ip) = fileEntries file ++ [(ip, 32)] := by
  rw [fileEntries, pieces_append h, List.filterMap_append, pieces_blockLine,
    List.filterMap_cons_some (lineEntry_blockLine ip)]
  rfl

/-- A proper end of the appended line is no entry that matches the address:
it has lost part of the first octet or more. -/
theorem lineEntry_end_of_blockLine (shl : BitVec 8 → BitVec 32) {ip : BitVec 32}
    {x y : List UInt8} (hx : x ≠ []) (hxy : blockLine ip = x ++ y) {p : BitVec 32 × BitVec 8}
    (h : lineEntry y = some p) : cidrMatch shl p.1 p.2 ip ≠ true := by
  have hnil : lineEntry [] = none ∧ lineEntry [nl] = none := by decide
  rcases List.eq_nil_or_concat y with rfl | ⟨z, b, rfl⟩
  · exact absurd (hnil.1.symm.trans h) (by simp)
  rw [blockLine_eq, List.concat_eq_append, ← List.append_assoc] at hxy
  obtain ⟨hz, hb⟩ := List.append_inj' hxy rfl
  obtain rfl := (List.cons.inj hb).1
  have hsub : z ⊆ inetNtop ip ++ str "/32" := by
    rw [hz]
    exact List.subset_append_right x z
  rcases eq_or_ne z [] with rfl | hzne
  · exact absurd (hnil.2.symm.trans h) (by simp)
  rw [List.concat_eq_append, lineEntry_field hzne fun b hb => mem_blockLine (hsub hb)] at h
  rcases List.append_eq_append_iff.mp hz with ⟨x', rfl, hsuffix⟩ | ⟨z', hip, rfl⟩
  · -- the end of "/32" alone
    have hnone : ∀ k < 5, parseCidr ((str "/32").drop k) = none := by decide
    have hdrop : z = (str "/32").drop x'.length := by rw [hsuffix, List.drop_left]
    have hle := congrArg List.length hsuffix
    rw [List.length_append, show (str "/32").length = 3 by decide] at hle
    rw [hdrop, hnone x'.length (by omega)] at h
    cases h
  · -- a dotted quad that is shorter than the address
    have hslash : ch '/' ∉ z' := by
      intro hmem
      apply slash_not_mem_inetNtop ip
      rw [hip]
      exact List.mem_append_right x hmem
    rw [show str "/32" = ch '/' :: str "32" by decide, parseCidr, strchr_append hslash] at h
    obtain ⟨a, ha, rfl⟩ := Option.map_eq_some_iff.mp h
    have hz' := inetPton_eq_some_iff.mp ha
    intro hmatch
    obtain rfl : ip = a := by
      have h32 : (atoi (str "32")).setWidth 8 = (32 : BitVec 8) := by decide
      rw [h32, cidrMatch_iff shl (show (32 : BitVec 8).toNat ≤ 32 by decide)] at hmatch
      exact inBlock_32_iff.mp hmatch
    rw [hz'] at hip
    exact hx (List.self_eq_append_left.mp hip)

/-- The unfinished last line with the new entry glued to it, as far as the
buffer of `fgets` goes. -/
def gluedLine (file : List UInt8) (ip : BitVec 32) : List UInt8 :=
  (remainder lineBuf file ++ blockLine ip).take lineBuf

/-- When BLOCK_IP blocks its address.  If a line contains the text of the
address, the file is not touched and must cover it already.  Otherwise, at the
end of a complete line, the file must cover it or have a free slot.  After an
unfinished line, the entries before that line must cover it, or leave a slot
for what the glued line is read as, and that must match. -/
def BlockIpEffective (shl : BitVec 8 → BitVec 32) (file : List UInt8) (ip : BitVec 32) : Prop :=
  let before := (finished lineBuf file).filterMap lineEntry
  if blocklistMentions file ip then Covers shl (fileEntries file) ip
  else if remainder lineBuf file = [] then
    Covers shl before ip ∨ before.length < maxBlocklistIps
  else
    Covers shl before ip ∨ before.length < maxBlocklistIps ∧
      ∃ p, lineEntry (gluedLine file ip) = some p ∧ cidrMatch shl p.1 p.2 ip = true

theorem nl_not_mem_blockLine (ip : BitVec 32) : nl ∉ inetNtop ip ++ str "/32" := by
  intro h
  rcases mem_blockLine h with h | h | h <;> exact absurd h (by decide)

/-- A line that ends inside the new entry: where the buffer is full. -/
theorem blockLine_split {r : List UInt8} {ip : BitVec 32} (hlen : r.length < lineBuf)
    (hlong : lineBuf < (r ++ blockLine ip).length) :
    ∃ x y, blockLine ip = x ++ y ∧ (r ++ x).length = lineBuf ∧ x ≠ [] ∧ y ≠ [] := by
  obtain ⟨x, y, hxy, hxlen⟩ : ∃ x y, blockLine ip = x ++ y ∧ (r ++ x).length = lineBuf := by
    refine ⟨_, _, (List.take_append_drop (lineBuf - r.length) (blockLine ip)).symm, ?_⟩
    rw [List.length_append] at hlong ⊢
    rw [List.length_take]
    omega
  refine ⟨x, y, hxy, hxlen, ?_, ?_⟩
  · rintro rfl
    rw [List.append_nil] at hxlen
    omega
  · rintro rfl
    rw [hxy, List.append_nil] at hlong
    omega

/-- `fgets` then reads two lines. -/
theorem pieces_blockLine_split {r x y : List UInt8} {ip : BitVec 32} (hnl : nl ∉ r)
    (hxy : blockLine ip = x ++ y) (hxlen : (r ++ x).length = lineBuf) (hy : y ≠ []) :
    pieces lineBuf (r ++ blockLine ip) = [r ++ x, y] := by
  have hline : inetNtop ip ++ str "/32" = x ++ y.dropLast := by
    rw [← List.dropLast_append_of_ne_nil hy, ← hxy, blockLine_eq, List.dropLast_concat]
  have hnlxy : nl ∉ x ∧ nl ∉ y.dropLast := by
    have hbl := nl_not_mem_blockLine ip
    rw [hline, List.mem_append] at hbl
    exact not_or.mp hbl
  have hylen : y.length ≤ lineBuf := by
    have hle := inetNtop_length_le ip
    have hb := congrArg List.length hxy
    simp only [blockLine, List.length_append, show (str "/32\n").length = 4 by decide] at hb
    have : lineBuf = 127 := rfl
    omega
  rw [hxy, ← List.append_assoc, pieces_full (by simp [hnl, hnlxy.1]) (by decide) hxlen,
    pieces_of_fits hy hnlxy.2 hylen]

/-- What is read after the glued line is the end of the new entry, and does
not match. -/
theorem fileEntries_glued (shl : BitVec 8 → BitVec 32) (file : List UInt8) (ip : BitVec 32) :
    ∃ rest, fileEntries (remainder lineBuf file ++ blockLine ip)
        = (lineEntry (gluedLine file ip)).toList ++ rest ∧
      ∀ p ∈ rest, cidrMatch shl p.1 p.2 ip ≠ true := by
  obtain ⟨hnl, hlen⟩ : nl ∉ remainder lineBuf file ∧ (remainder lineBuf file).length < lineBuf :=
    cut_pending (by decide) (by simp) (by decide)
  unfold gluedLine
  generalize remainder lineBuf file = r at hnl hlen
  rcases Nat.lt_or_ge lineBuf (r ++ blockLine ip).length with hlong | hfits
  · -- the buffer is full inside the new entry
    obtain ⟨x, y, hxy, hxlen, hx, hy⟩ := blockLine_split hlen hlong
    refine ⟨(lineEntry y).toList, ?_, ?_⟩
    · rw [fileEntries, pieces_blockLine_split hnl hxy hxlen hy, hxy, ← List.append_assoc,
        List.take_append_of_le_length hxlen.ge, List.take_of_length_le hxlen.le]
      rcases h : lineEntry (r ++ x) with - | p <;> rcases h' : lineEntry y with - | q <;>
        simp [h, h']
    · intro p hp
      exact lineEntry_end_of_blockLine shl hx hxy (Option.mem_toList.mp hp)
  · -- the glued line is one line
    refine ⟨[], ?_, by simp⟩
    have hone : pieces lineBuf (r ++ blockLine ip) = [r ++ blockLine ip] := by
      refine pieces_of_fits (by simp [blockLine_eq]) ?_ hfits
      rw [blockLine_eq, ← List.append_assoc, List.dropLast_concat, List.mem_append]
      exact not_or.mpr ⟨hnl, nl_not_mem_blockLine ip⟩
    rw [fileEntries, hone, List.take_of_length_le hfits]
    rcases h : lineEntry (r ++ blockLine ip) with - | p <;> simp [h]

theorem covers_glued (shl : BitVec 8 → BitVec 32) (es : List (BitVec 32 × BitVec 8))
    (file : List UInt8) (ip : BitVec 32) :
    Covers shl (es ++ fileEntries (remainder lineBuf file ++ blockLine ip)) ip
      ↔ Covers shl es ip ∨ es.length < maxBlocklistIps ∧
          ∃ p, lineEntry (gluedLine file ip) = some p ∧ cidrMatch shl p.1 p.2 ip = true := by
  obtain ⟨rest, hrest, hno⟩ := fileEntries_glued shl file ip
  rw [hrest, ← List.append_assoc, covers_append_of_not_match shl _ _ hno]
  rcases lineEntry (gluedLine file ip) with - | p
  · simp
  · rw [Option.toList_some, covers_append_singleton]
    simp

/-- **When BLOCK_IP takes effect**, for every file and every address. -/
theorem blockIp_takes_effect_iff (shl : BitVec 8 → BitVec 32) (fw : Firewall) (file : List UInt8)
    (ip : BitVec 32) :
    blockedBy shl fw (handleBlockIp file ip) ip = true ↔ BlockIpEffective shl file ip := by
  have hself : cidrMatch shl ip 32 ip = true :=
    (cidrMatch_iff shl (by decide)).mpr (inBlock_self ip _)
  rw [blockedBy_iff, handleBlockIp, BlockIpEffective]
  split
  · -- the file is not touched
    exact Iff.rfl
  · split
    · -- the new line is read as it was written
      rename_i hrem
      have hfile : fileEntries file = (finished lineBuf file).filterMap lineEntry := by
        rw [fileEntries, pieces, hrem]
        simp [pending]
      rw [fileEntries_append_blockLine hrem, covers_append_singleton, hfile]
      exact or_congr Iff.rfl (and_iff_left hself)
    · rw [fileEntries, pieces_append_remainder (by decide), List.filterMap_append]
      exact covers_glued shl _ file ip

/-- A comment that mentions the address keeps it from being blocked. -/
theorem blockIp_comment_mentions :
    let file := str "# 10.0.0.5 seen\n"
    blockedBy (fun _ => 0) Firewall.init (handleBlockIp file (ofOctets 10 0 0 5))
      (ofOctets 10 0 0 5) = false := by
  intro file
  have hnone : fileEntries file = [] := by decide
  have hmention : blocklistMentions file (ofOctets 10 0 0 5) = true := by decide
  rw [Bool.eq_false_iff, ne_eq, blockedBy_iff, handleBlockIp, if_pos hmention, hnone]
  rintro ⟨p, hp, -⟩
  rw [List.take_nil] at hp
  cases hp

end Nullsploit
