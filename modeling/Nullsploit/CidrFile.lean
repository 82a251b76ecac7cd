/-
Nullsploit/CidrFile.lean

The two CIDR list files: the SOC whitelist, read by `auth_init`
(soc-server/auth.c), and the agent's blocklist, read by
`load_and_push_blocklist` (agent/fw_agent.c).

Both loaders read with `fgets(line, 128, f)`, take the first field of what
they got, split it at the first '/', and hand the left part to `inet_pton`
and the right part to `atoi`.  So both tables are the same function of the
file up to their capacity (`authInit_eq`, `loadAndPushBlocklist_listed`): the
entries of its pieces (`lineEntry`), in order.

What a list file is supposed to say is `named`: a line names a block when its
first field is a dotted quad, alone or followed by '/' and a decimal number in
0..32.  The loaders depart from it in two ways, and only in these.  `atoi`
accepts any suffix, so a malformed one still gives an entry, with whatever
mask falls out; and a line longer than the buffer is read as several lines.
`listFile_meaning_iff` says that a file means what it says exactly when no
line does either.
-/
import Nullsploit.Auth
import Nullsploit.IpBlocklist

namespace Nullsploit

open CText Inet

/-! ### The loaders -/

/-- The delimiters of `strtok(line, " \t\r\n")`. -/
def delims : List UInt8 := str " \t\r\n"

/-- `sizeof(line) - 1` for `char line[128]`. -/
def lineBuf : Nat := 127

/-- From the first field to an entry: cut at the first '/', `atoi` what
follows (32 when there is no '/'), `inet_pton` what precedes. -/
def parseCidr (ipStr : List UInt8) : Option (BitVec 32 × BitVec 8) :=
  match strchr (ch '/') ipStr with
  | some (addr, suffix) => (inetPton addr).map fun a => (a, (atoi suffix).setWidth 8)
  | none => (inetPton ipStr).map fun a => (a, 32)

/-- One iteration of the loop in `auth_init`. -/
def whitelistLine (line : List UInt8) : Option WhitelistEntry :=
  match strtok delims (cstr line) with
  | none => none
  | some ipStr =>
      if ipStr.head? = some (ch '#') then none
      else (parseCidr ipStr).map fun p => ⟨p.1, p.2⟩

/-- Capacity of `whitelist`. -/
def maxWhitelist : Nat := 256

/-- `while (fgets(..) && whitelist_count < 256)`. -/
def loadWhitelist : List (List UInt8) → List WhitelistEntry → List WhitelistEntry
  | [], whitelist => whitelist
  | line :: lines, whitelist =>
      if whitelist.length < maxWhitelist then
        match whitelistLine line with
        | some w => loadWhitelist lines (whitelist ++ [w])
        | none => loadWhitelist lines whitelist
      else whitelist

/-- `auth_init`: the whitelist loaded from a file, or localhost without one. -/
def authInit (file : Option (List UInt8)) : List WhitelistEntry :=
  match file with
  | some s => loadWhitelist (fileLines lineBuf s) []
  | none => [⟨ofOctets 127 0 0 1, 32⟩]

/-- What one line of the agent's blocklist turns out to be. -/
inductive BlocklistLine
  | skip
  | directive (blockLocalIps : BitVec 32)
  | entry (e : BlocklistEntry)
  deriving DecidableEq, Repr

/-- One iteration of the loop in `load_and_push_blocklist`. -/
def blocklistLine (line : List UInt8) : BlocklistLine :=
  match strtok delims (cstr line) with
  | none => .skip
  | some ipStr =>
      if ipStr.head? = some (ch '#') then .skip
      else if (str "block_local_ips=").isPrefixOf ipStr then .directive (atoi (ipStr.drop 16))
      else
        match parseCidr ipStr with
        | some (ip, mask) => .entry ⟨ip, mask⟩
        | none => .skip

/-- `while (fgets(..) && payload.count < MAX_BLOCKLIST_IPS)`, on the two
fields the loop fills. -/
def loadBlocklist : List (List UInt8) → BitVec 32 × List BlocklistEntry →
    BitVec 32 × List BlocklistEntry
  | [], payload => payload
  | line :: lines, payload =>
      if payload.2.length < maxBlocklistIps then
        match blocklistLine line with
        | .skip => loadBlocklist lines payload
        | .directive v => loadBlocklist lines (v, payload.2)
        | .entry e => loadBlocklist lines (payload.1, payload.2 ++ [e])
      else payload

/-- `load_and_push_blocklist`: the payload pushed for a file. -/
def loadAndPushBlocklist (file : List UInt8) : BlocklistPayload :=
  let payload := loadBlocklist (fileLines lineBuf file) (0, [])
  .ofList payload.1 payload.2

/-! ### Both tables are the entries of the pieces -/

/-- The entry a piece of a list file gives, in either loader. -/
def lineEntry (line : List UInt8) : Option (BitVec 32 × BitVec 8) :=
  (strtok delims (cstr line)).bind parseCidr

/-- The entries of a file, before any capacity. -/
def fileEntries (s : List UInt8) : List (BitVec 32 × BitVec 8) :=
  (pieces lineBuf s).filterMap lineEntry

theorem parseCidr_eq_some {f : List UInt8} {a : BitVec 32} {m : BitVec 8}
    (h : parseCidr f = some (a, m)) :
    f = inetNtop a ∧ m = 32 ∨
      ∃ suffix, f = inetNtop a ++ ch '/' :: suffix ∧ m = (atoi suffix).setWidth 8 := by
  unfold parseCidr at h
  rcases e : strchr (ch '/') f with - | ⟨addr, suffix⟩
  · rw [e] at h
    obtain ⟨a', ha', heq⟩ := Option.map_eq_some_iff.mp h
    obtain ⟨rfl, rfl⟩ := Prod.mk.inj heq
    exact Or.inl ⟨inetPton_eq_some_iff.mp ha', rfl⟩
  · rw [e] at h
    obtain ⟨a', ha', heq⟩ := Option.map_eq_some_iff.mp h
    obtain ⟨rfl, rfl⟩ := Prod.mk.inj heq
    obtain ⟨rfl, -⟩ := strchr_eq_some e
    exact Or.inr ⟨suffix, by rw [inetPton_eq_some_iff.mp ha'], rfl⟩

theorem slash_not_mem_inetNtop (a : BitVec 32) : ch '/' ∉ inetNtop a := by
  intro h
  rcases mem_inetNtop h with h | h
  · exact absurd h (by decide)
  · exact absurd h (by decide)

theorem parseCidr_inetNtop (a : BitVec 32) : parseCidr (inetNtop a) = some (a, 32) := by
  rw [parseCidr, strchr_eq_none_iff.mpr (slash_not_mem_inetNtop a), inetPton_inetNtop]
  rfl

theorem parseCidr_suffix (a : BitVec 32) (suffix : List UInt8) :
    parseCidr (inetNtop a ++ ch '/' :: suffix) = some (a, (atoi suffix).setWidth 8) := by
  rw [parseCidr, strchr_append (slash_not_mem_inetNtop a)]
  show (inetPton (inetNtop a)).map _ = _
  rw [inetPton_inetNtop]
  rfl

/-- An entry's field starts with a digit, so it is no comment and no
directive. -/
theorem parseCidr_head {f : List UInt8} {p : BitVec 32 × BitVec 8} (h : parseCidr f = some p) :
    ∃ b t, f = b :: t ∧ isDigit b = true := by
  have hquad : ∀ a : BitVec 32, ∃ b t, inetNtop a = b :: t ∧ isDigit b = true := by
    intro a
    obtain ⟨b, t, hbt⟩ := List.exists_cons_of_ne_nil (decimal_ne_nil (octet a 0))
    refine ⟨b, _, by rw [inetNtop, hbt, List.cons_append], ?_⟩
    exact isDigit_of_mem_decimal (octet a 0) b (by rw [hbt]; simp)
  obtain ⟨a, m⟩ := p
  rcases parseCidr_eq_some h with ⟨rfl, -⟩ | ⟨suffix, rfl, -⟩
  · exact hquad a
  · obtain ⟨b, t, hbt, hb⟩ := hquad a
    exact ⟨b, t ++ ch '/' :: suffix, by rw [hbt, List.cons_append], hb⟩

theorem parseCidr_of_comment {f : List UInt8} (h : f.head? = some (ch '#')) :
    parseCidr f = none := by
  rcases e : parseCidr f with - | p
  · rfl
  · obtain ⟨b, t, rfl, hb⟩ := parseCidr_head e
    rw [List.head?_cons, Option.some.injEq] at h
    rw [h] at hb
    exact absurd hb (by decide)

theorem parseCidr_of_directive {f : List UInt8} (h : (str "block_local_ips=").isPrefixOf f = true) :
    parseCidr f = none := by
  rcases e : parseCidr f with - | p
  · rfl
  · obtain ⟨b, t, rfl, hb⟩ := parseCidr_head e
    have hb' : ch 'b' = b := by
      have := (List.isPrefixOf_iff_prefix.mp h)
      obtain ⟨r, hr⟩ := this
      exact (List.cons.inj hr).1
    rw [← hb'] at hb
    exact absurd hb (by decide)

theorem whitelistLine_eq (line : List UInt8) :
    whitelistLine line = (lineEntry line).map fun p => ⟨p.1, p.2⟩ := by
  unfold whitelistLine lineEntry
  rcases strtok delims (cstr line) with - | f
  · rfl
  · dsimp only
    rw [Option.bind_some]
    split
    · rename_i h
      rw [parseCidr_of_comment h]
      rfl
    · rfl

theorem loadWhitelist_eq (lines : List (List UInt8)) (whitelist : List WhitelistEntry)
    (h : whitelist.length ≤ maxWhitelist) :
    loadWhitelist lines whitelist
      = (whitelist ++ lines.filterMap whitelistLine).take maxWhitelist := by
  induction lines generalizing whitelist with
  | nil => simp [loadWhitelist, List.take_of_length_le h]
  | cons line lines ih =>
      rw [loadWhitelist]
      split
      · rename_i hroom
        rcases e : whitelistLine line with - | w
        · rw [List.filterMap_cons_none e]
          exact ih whitelist h
        · rw [List.filterMap_cons_some e]
          simpa using ih (whitelist ++ [w]) (by simp; omega)
      · -- the table is full: the loop stops here
        rw [List.take_append_of_le_length (by omega), List.take_of_length_le h]

theorem authInit_eq (s : List UInt8) :
    authInit (some s)
      = ((fileEntries s).take maxWhitelist).map fun p => ⟨p.1, p.2⟩ := by
  show loadWhitelist (fileLines lineBuf s) [] = _
  rw [loadWhitelist_eq _ _ (Nat.zero_le _), List.nil_append,
    fileLines_eq_pieces (by decide), List.map_take, fileEntries, List.map_filterMap]
  exact congrArg _ (List.filterMap_congr fun line _ => whitelistLine_eq line)

/-- The entry a line of the blocklist adds to the payload. -/
def BlocklistLine.toEntry : BlocklistLine → Option BlocklistEntry
  | .entry e => some e
  | _ => none

theorem blocklistLine_toEntry (line : List UInt8) :
    (blocklistLine line).toEntry = (lineEntry line).map fun p => ⟨p.1, p.2⟩ := by
  unfold blocklistLine lineEntry
  rcases strtok delims (cstr line) with - | f
  · rfl
  · dsimp only
    rw [Option.bind_some]
    split
    · rename_i h
      rw [parseCidr_of_comment h]
      rfl
    · split
      · rename_i h
        rw [parseCidr_of_directive h]
        rfl
      · rcases parseCidr f with - | ⟨ip, mask⟩ <;> rfl

theorem loadBlocklist_eq (lines : List (List UInt8)) (payload : BitVec 32 × List BlocklistEntry)
    (h : payload.2.length ≤ maxBlocklistIps) :
    (loadBlocklist lines payload).2
      = (payload.2 ++ lines.filterMap fun l => (blocklistLine l).toEntry).take maxBlocklistIps := by
  induction lines generalizing payload with
  | nil => simp [loadBlocklist, List.take_of_length_le h]
  | cons line lines ih =>
      rw [loadBlocklist]
      split
      · rename_i hroom
        cases e : blocklistLine line with
        | skip =>
            rw [List.filterMap_cons_none (by rw [e]; rfl)]
            exact ih payload h
        | directive v =>
            rw [List.filterMap_cons_none (by rw [e]; rfl)]
            exact ih (v, payload.2) h
        | entry x =>
            rw [List.filterMap_cons_some (by rw [e]; rfl)]
            simpa using ih (payload.1, payload.2 ++ [x]) (by simp; omega)
      · rw [List.take_append_of_le_length (by omega), List.take_of_length_le h]

theorem loadAndPushBlocklist_listed (s : List UInt8) :
    (loadAndPushBlocklist s).listed
      = ((fileEntries s).take maxBlocklistIps).map fun p => ⟨p.1, p.2⟩ := by
  show (BlocklistPayload.ofList _ _).listed = _
  rw [BlocklistPayload.listed_ofList, loadBlocklist_eq _ _ (Nat.zero_le _), List.nil_append,
    fileLines_eq_pieces (by decide), List.map_take, fileEntries, List.map_filterMap]
  exact congrArg _ (List.filterMap_congr fun line _ => blocklistLine_toEntry line)

/-! ### What a list file says -/

/-- A suffix that is a prefix length: a decimal number in 0..32. -/
def PrefixLength (suffix : List UInt8) : Prop :=
  suffix ≠ [] ∧ (∀ b ∈ suffix, isDigit b = true) ∧ digitsVal suffix ≤ 32

instance (suffix : List UInt8) : Decidable (PrefixLength suffix) :=
  inferInstanceAs (Decidable (_ ∧ _ ∧ _))

/-- The block a first field names. -/
def namedField (field : List UInt8) : Option (BitVec 32 × BitVec 8) :=
  match strchr (ch '/') field with
  | none => (inetPton field).map fun a => (a, 32)
  | some (addr, suffix) =>
      if PrefixLength suffix then
        (inetPton addr).map fun a => (a, BitVec.ofNat 8 (digitsVal suffix))
      else none

/-- The block a line names, by its first field. -/
def named (line : List UInt8) : Option (BitVec 32 × BitVec 8) :=
  (strtok delims line).bind namedField

theorem namedField_eq_some {field : List UInt8} {p : BitVec 32 × BitVec 8}
    (h : namedField field = some p) :
    field = inetNtop p.1 ∧ p.2 = 32 ∨
      ∃ suffix, field = inetNtop p.1 ++ ch '/' :: suffix ∧ PrefixLength suffix ∧
        p.2 = BitVec.ofNat 8 (digitsVal suffix) := by
  unfold namedField at h
  rcases e : strchr (ch '/') field with - | ⟨addr, suffix⟩
  · rw [e] at h
    obtain ⟨a, ha, rfl⟩ := Option.map_eq_some_iff.mp h
    exact Or.inl ⟨inetPton_eq_some_iff.mp ha, rfl⟩
  · rw [e] at h
    dsimp only at h
    split at h
    · rename_i hlen
      obtain ⟨a, ha, rfl⟩ := Option.map_eq_some_iff.mp h
      obtain ⟨rfl, -⟩ := strchr_eq_some e
      exact Or.inr ⟨suffix, by rw [inetPton_eq_some_iff.mp ha], hlen, rfl⟩
    · cases h

theorem named_mask_le {line : List UInt8} {p : BitVec 32 × BitVec 8} (h : named line = some p) :
    p.2.toNat ≤ 32 := by
  obtain ⟨field, -, hfield⟩ := Option.bind_eq_some_iff.mp h
  rcases namedField_eq_some hfield with ⟨-, hm⟩ | ⟨suffix, -, ⟨-, -, hle⟩, hm⟩
  · rw [hm]
    decide
  · rw [hm, BitVec.toNat_ofNat]
    omega

/-- A naming field has no NUL. -/
theorem namedField_of_nul {f : List UInt8} (h0 : (0 : UInt8) ∈ f) : namedField f = none := by
  rcases e : namedField f with - | p
  · rfl
  · exfalso
    have hquad : (0 : UInt8) ∉ inetNtop p.1 := by
      intro h
      rcases mem_inetNtop h with h | h <;> exact absurd h (by decide)
    rcases namedField_eq_some e with ⟨rfl, -⟩ | ⟨suffix, rfl, ⟨-, hdig, -⟩, -⟩
    · exact hquad h0
    · rw [List.mem_append, List.mem_cons] at h0
      rcases h0 with h0 | h0 | h0
      · exact hquad h0
      · exact absurd h0 (by decide)
      · exact absurd (hdig 0 h0) (by decide)

theorem setWidth_atoi {suffix : List UInt8} (h : PrefixLength suffix) :
    (atoi suffix).setWidth 8 = BitVec.ofNat 8 (digitsVal suffix) := by
  obtain ⟨hne, hdig, hle⟩ := h
  rw [atoi_of_digits hne hdig (by omega)]
  apply BitVec.eq_of_toNat_eq
  simp only [BitVec.toNat_setWidth, BitVec.toNat_ofNat]
  omega

/-- On the same field, loader and meaning differ only by the suffix check. -/
theorem parseCidr_eq_namedField_iff (f : List UInt8) :
    parseCidr f = namedField f
      ↔ ∀ a suffix, f = inetNtop a ++ ch '/' :: suffix → PrefixLength suffix := by
  constructor
  · rintro h a suffix rfl
    rw [parseCidr_suffix, namedField, strchr_append (slash_not_mem_inetNtop a)] at h
    by_contra hlen
    simp [hlen] at h
  · intro h
    unfold parseCidr namedField
    rcases e : strchr (ch '/') f with - | ⟨addr, suffix⟩
    · rfl
    · obtain ⟨rfl, -⟩ := strchr_eq_some e
      dsimp only
      rcases ha : inetPton addr with - | a
      · simp
      · have hlen : PrefixLength suffix := h a suffix (by rw [inetPton_eq_some_iff.mp ha])
        rw [if_pos hlen, setWidth_atoi hlen]

/-- The field is a dotted quad, or one followed by '/' and anything. -/
def QuadField (f : List UInt8) : Prop :=
  ∃ a, f = inetNtop a ∨ ∃ suffix, f = inetNtop a ++ ch '/' :: suffix

theorem parseCidr_eq_none_iff (f : List UInt8) : parseCidr f = none ↔ ¬ QuadField f := by
  constructor
  · rintro h ⟨a, rfl | ⟨suffix, rfl⟩⟩
    · simp [parseCidr_inetNtop] at h
    · simp [parseCidr_suffix] at h
  · intro h
    rcases e : parseCidr f with - | ⟨a, m⟩
    · rfl
    · refine absurd ⟨a, ?_⟩ h
      rcases parseCidr_eq_some e with ⟨hf, -⟩ | ⟨suffix, hf, -⟩
      · exact Or.inl hf
      · exact Or.inr ⟨suffix, hf⟩

/-- A line of one piece that is read as it is meant: what follows a dotted
quad and a '/' is a prefix length, and where a NUL cuts the first field, what
is left of it is no dotted quad. -/
def WellFormedLine (line : List UInt8) : Prop :=
  ∀ f, strtok delims (cstr line) = some f →
    (∀ a suffix, f = inetNtop a ++ ch '/' :: suffix → PrefixLength suffix) ∧
      (strtok delims line ≠ some f → ¬ QuadField f)

theorem lineEntry_eq_named_iff (line : List UInt8) :
    lineEntry line = named line ↔ WellFormedLine line := by
  have hnul : (0 : UInt8) ∉ delims := by decide
  rcases e : strtok delims (cstr line) with - | f
  · -- nothing before the end of the C string
    have hname : named line = none := by
      rcases strtok_cstr hnul line with h | ⟨f, hf, h0⟩
      · rw [named, h, e]; rfl
      · rw [named, hf]; exact namedField_of_nul h0
    simp [lineEntry, hname, WellFormedLine, e]
  · rw [lineEntry, e, Option.bind_some]
    rcases strtok_cstr hnul line with h | ⟨f', hf', h0⟩
    · -- the line's own first field is the one the loader sees
      have hf : strtok delims line = some f := h.trans e
      rw [named, hf, Option.bind_some, parseCidr_eq_namedField_iff]
      constructor
      · rintro hlen f' hf'
        obtain rfl := Option.some.inj (e.symm.trans hf')
        exact ⟨hlen, fun hne => absurd hf hne⟩
      · exact fun hall => (hall f e).1
    · -- a NUL cuts the field, and the line names nothing
      have hne : strtok delims line ≠ some f := by
        rw [hf']
        intro heq
        obtain rfl := Option.some.inj heq
        exact zero_not_mem_cstr line (strtok_subset e h0)
      rw [named, hf', Option.bind_some, namedField_of_nul h0]
      rw [parseCidr_eq_none_iff]
      constructor
      · intro hno f'' hf''
        obtain rfl := Option.some.inj (e.symm.trans hf'')
        exact ⟨fun a suffix h => absurd ⟨a, Or.inr ⟨suffix, h⟩⟩ hno, fun _ => hno⟩
      · exact fun hall => (hall f e).2 hne

/-- A piece whose first field is no dotted quad, with or without a suffix. -/
def Silent (piece : List UInt8) : Prop :=
  ∀ f, strtok delims (cstr piece) = some f → ¬ QuadField f

theorem lineEntry_eq_none_iff (piece : List UInt8) : lineEntry piece = none ↔ Silent piece := by
  unfold lineEntry Silent
  rcases strtok delims (cstr piece) with - | f
  · simp
  · simp [parseCidr_eq_none_iff]

/-- A line longer than the buffer that is read as it is meant all the same.
If it names nothing, none of its pieces starts with a dotted quad.  If it
names a block, one piece gives that block, and no piece before it starts with
a dotted quad, nor one after it unless the table is full by then. -/
def SplitHarmless (room : Nat) (line : List UInt8) : Prop :=
  match named line with
  | none => ∀ p ∈ pieces lineBuf line, Silent p
  | some e => ∃ before p after, pieces lineBuf line = before ++ p :: after ∧
      (∀ q ∈ before, Silent q) ∧ lineEntry p = some e ∧ (room = 1 ∨ ∀ q ∈ after, Silent q)

/-- The condition on one line, with `room` free slots in the table. -/
def LineOk (room : Nat) (line : List UInt8) : Prop :=
  if line.length ≤ lineBuf then WellFormedLine line else SplitHarmless room line

/-- A filtered list, capped, has one entry: where it comes from, and why no
other is in it. -/
theorem take_filterMap_eq_singleton_iff {α β : Type*} (f : α → Option β) {room : Nat}
    (hroom : 0 < room) (ps : List α) (e : β) :
    (ps.filterMap f).take room = [e]
      ↔ ∃ before p after, ps = before ++ p :: after ∧ (∀ q ∈ before, f q = none) ∧ f p = some e ∧
          (room = 1 ∨ ∀ q ∈ after, f q = none) := by
  constructor
  · intro h
    -- the first entry is `e`; a second one is cut off only by the cap
    obtain ⟨r, rfl⟩ := Nat.exists_eq_succ_of_ne_zero hroom.ne'
    obtain ⟨es, hes⟩ : ∃ es, ps.filterMap f = e :: es := by
      rcases hps : ps.filterMap f with - | ⟨x, es⟩
      · simp [hps] at h
      · rw [hps, List.take_succ_cons] at h
        exact ⟨es, by rw [(List.cons.inj h).1]⟩
    rw [hes, List.take_succ_cons] at h
    obtain ⟨before, p, after, rfl, hbefore, hp, hafter⟩ := List.filterMap_eq_cons_iff.mp hes
    refine ⟨before, p, after, rfl, hbefore, hp, ?_⟩
    rcases List.take_eq_nil_iff.mp (List.cons.inj h).2 with hr | hnil
    · exact Or.inl (by omega)
    · exact Or.inr (List.filterMap_eq_nil_iff.mp (by rw [hafter, hnil]))
  · rintro ⟨before, p, after, rfl, hbefore, hp, hafter⟩
    rw [List.filterMap_append, List.filterMap_eq_nil_iff.mpr hbefore, List.nil_append,
      List.filterMap_cons_some hp]
    rcases hafter with rfl | hafter
    · simp
    · rw [List.filterMap_eq_nil_iff.mpr hafter]
      exact List.take_of_length_le hroom

/-- What the pieces of a line add to a table with free slots is what the line
names, exactly under the condition. -/
theorem lineOk_iff {room : Nat} (hroom : 0 < room) {line : List UInt8} (hne : line ≠ [])
    (hnl : nl ∉ line.dropLast) :
    ((pieces lineBuf line).filterMap lineEntry).take room = (named line).toList.take room
      ↔ LineOk room line := by
  have hone : (named line).toList.take room = (named line).toList :=
    List.take_of_length_le (by rcases named line with - | e <;> simp; omega)
  rw [LineOk, hone]
  split
  · -- one piece, so one entry at most on either side
    rename_i hlen
    rw [pieces_of_fits hne hnl hlen, ← lineEntry_eq_named_iff]
    rcases el : lineEntry line with - | e
    · rcases named line with - | e' <;> simp [el]
    · obtain ⟨r, rfl⟩ := Nat.exists_eq_succ_of_ne_zero hroom.ne'
      rcases named line with - | e' <;> simp [el]
  · -- several pieces, each with an entry of its own
    unfold SplitHarmless
    rcases named line with - | e
    · simp only [Option.toList_none, List.take_eq_nil_iff, hroom.ne', false_or,
        List.filterMap_eq_nil_iff, lineEntry_eq_none_iff]
    · simp only [Option.toList_some, take_filterMap_eq_singleton_iff lineEntry hroom,
        lineEntry_eq_none_iff]

/-! ### Two readings of a list of lines -/

section
variable {α β : Type*} (f g : α → List β) (cap : Nat) (xs : List α)

/-- Two readings of a list give the same capped table after every number of
items exactly when each item that finds room adds the same. -/
theorem take_flatMap_eq_iff :
    (∀ k, ((xs.take k).flatMap f).take cap = ((xs.take k).flatMap g).take cap)
      ↔ ∀ k x, xs[k]? = some x → ((xs.take k).flatMap g).length < cap →
          (f x).take (cap - ((xs.take k).flatMap g).length)
            = (g x).take (cap - ((xs.take k).flatMap g).length) := by
  have hsucc : ∀ (h : α → List β) {k x}, xs[k]? = some x →
      (xs.take (k + 1)).flatMap h = (xs.take k).flatMap h ++ h x := by
    intro h k x hx
    rw [List.take_add_one, hx]
    simp
  -- with room left, the two tables so far are equal as they are
  have hroom : ∀ k, ((xs.take k).flatMap f).take cap = ((xs.take k).flatMap g).take cap →
      ((xs.take k).flatMap g).length < cap → (xs.take k).flatMap f = (xs.take k).flatMap g := by
    intro k h hlt
    have hlen := congrArg List.length h
    rw [List.length_take, List.length_take] at hlen
    rwa [List.take_of_length_le hlt.le, List.take_of_length_le (by omega)] at h
  constructor
  · intro h k x hx hlt
    have hk := h (k + 1)
    rw [hsucc f hx, hsucc g hx, hroom k (h k) hlt, List.take_append, List.take_append] at hk
    exact List.append_cancel_left hk
  · intro h k
    induction k with
    | zero => simp
    | succ k ih =>
        rcases hx : xs[k]? with - | x
        · rwa [List.take_add_one, hx, Option.toList_none, List.append_nil]
        · rw [hsucc f hx, hsucc g hx]
          by_cases hlt : ((xs.take k).flatMap g).length < cap
          · rw [hroom k ih hlt, List.take_append, List.take_append, h k x hx hlt]
          · -- the table is full on both sides
            have hlen := congrArg List.length ih
            rw [List.length_take, List.length_take] at hlen
            rw [List.take_append_of_le_length (by omega), List.take_append_of_le_length (by omega),
              ih]

end

/-! ### Files that mean what they say -/

/-- The first `k` lines of a text. -/
def firstLines (k : Nat) (s : List UInt8) : List UInt8 := ((textLines s).take k).flatten

/-- The blocks the first `k` lines name, up to a capacity. -/
def namedBlocks (cap k : Nat) (s : List UInt8) : List (BitVec 32 × BitVec 8) :=
  (((textLines s).take k).filterMap named).take cap

/-- Every line that finds room in the table is read as it is meant. -/
def LinesOk (cap : Nat) (s : List UInt8) : Prop :=
  ∀ k line, (textLines s)[k]? = some line →
    (((textLines s).take k).filterMap named).length < cap →
      LineOk (cap - (((textLines s).take k).filterMap named).length) line

theorem fileEntries_firstLines (k : Nat) (s : List UInt8) :
    fileEntries (firstLines k s)
      = ((textLines s).take k).flatMap fun line => (pieces lineBuf line).filterMap lineEntry := by
  rw [fileEntries, firstLines, pieces_take_textLines, List.filterMap_flatMap]

theorem firstLines_all (s : List UInt8) : firstLines (textLines s).length s = s := by
  rw [firstLines, List.take_length, flatten_textLines]

/-- The entries of the first lines are the blocks they name, for every number
of lines, exactly when the lines are in order. -/
theorem take_fileEntries_iff (cap : Nat) (s : List UInt8) :
    (∀ k, (fileEntries (firstLines k s)).take cap = namedBlocks cap k s) ↔ LinesOk cap s := by
  have hnamed : ∀ ls : List (List UInt8),
      ls.filterMap named = ls.flatMap fun line => (named line).toList := by
    intro ls
    rw [List.filterMap_eq_flatMap_toList]
  simp only [fileEntries_firstLines, namedBlocks, LinesOk, hnamed]
  rw [take_flatMap_eq_iff]
  refine forall_congr' fun k => forall_congr' fun line => forall_congr' fun hline =>
    forall_congr' fun hlt => ?_
  obtain ⟨hne, hnl⟩ := mem_textLines (List.mem_of_getElem? hline)
  exact lineOk_iff (by omega) hne hnl

/-- The whitelist file means what it says: after every number of lines the
table holds the blocks these lines name, one entry each, and an address is
accepted only because a line names it. -/
structure WhitelistMeaning (shl : BitVec 8 → BitVec 32) (s : List UInt8) : Prop where
  table : ∀ k, authInit (some (firstLines k s))
    = (namedBlocks maxWhitelist k s).map fun p => ⟨p.1, p.2⟩
  accepts : ∀ src, authCheckIp shl (authInit (some s)) (inetNtop src) = true
    ↔ ∃ p ∈ namedBlocks maxWhitelist (textLines s).length s, InBlock p.1 p.2.toNat src

/-- The blocklist file means what it says, to the firewall it is pushed to. -/
structure BlocklistMeaning (shl : BitVec 8 → BitVec 32) (fw : Firewall) (s : List UInt8) :
    Prop where
  table : ∀ k, (loadAndPushBlocklist (firstLines k s)).listed
    = (namedBlocks maxBlocklistIps k s).map fun p => ⟨p.1, p.2⟩
  blocks : ∀ src, inspectIpBlocklist shl (updateIpBlocklist fw (loadAndPushBlocklist s)) src = true
    ↔ ∃ p ∈ namedBlocks maxBlocklistIps (textLines s).length s, InBlock p.1 p.2.toNat src

theorem namedBlocks_mask_le {cap k : Nat} {s : List UInt8} {p : BitVec 32 × BitVec 8}
    (h : p ∈ namedBlocks cap k s) : p.2.toNat ≤ 32 := by
  obtain ⟨line, -, hline⟩ := List.mem_filterMap.mp (List.mem_of_mem_take h)
  exact named_mask_le hline

/-- Matching against entries that are the named blocks is membership in one
of these. -/
theorem any_cidrMatch_namedBlocks (shl : BitVec 8 → BitVec 32) (cap k : Nat) (s : List UInt8)
    (src : BitVec 32) :
    ((namedBlocks cap k s).any fun p => cidrMatch shl p.1 p.2 src) = true
      ↔ ∃ p ∈ namedBlocks cap k s, InBlock p.1 p.2.toNat src := by
  rw [List.any_eq_true]
  exact exists_congr fun p => and_congr_right fun hp =>
    cidrMatch_iff shl (namedBlocks_mask_le hp)

/-- A table that is the capped entries of its file holds the named blocks,
after every number of lines, exactly when the lines are in order. -/
theorem table_iff {ε : Type*} {mk : BitVec 32 × BitVec 8 → ε} (hmk : Function.Injective mk)
    {cap : Nat} {table : List UInt8 → List ε}
    (htable : ∀ t, table t = ((fileEntries t).take cap).map mk) (s : List UInt8) :
    (∀ k, table (firstLines k s) = (namedBlocks cap k s).map mk) ↔ LinesOk cap s := by
  rw [← take_fileEntries_iff]
  refine forall_congr' fun k => ?_
  rw [htable]
  exact (List.map_injective_iff.mpr hmk).eq_iff

/-- The last of these tables is the one of the whole file. -/
theorem table_all {ε : Type*} {mk : BitVec 32 × BitVec 8 → ε} {cap : Nat}
    (table : List UInt8 → List ε) {s : List UInt8}
    (h : ∀ k, table (firstLines k s) = (namedBlocks cap k s).map mk) :
    table s = (namedBlocks cap (textLines s).length s).map mk := by
  have hall := h (textLines s).length
  rwa [firstLines_all] at hall

theorem whitelistEntry_injective :
    Function.Injective fun p : BitVec 32 × BitVec 8 => (⟨p.1, p.2⟩ : WhitelistEntry) := by
  rintro ⟨a, m⟩ ⟨a', m'⟩ h
  simpa using h

theorem blocklistEntry_injective :
    Function.Injective fun p : BitVec 32 × BitVec 8 => (⟨p.1, p.2⟩ : BlocklistEntry) := by
  rintro ⟨a, m⟩ ⟨a', m'⟩ h
  simpa using h

theorem whitelistMeaning_iff (shl : BitVec 8 → BitVec 32) (s : List UInt8) :
    WhitelistMeaning shl s ↔ LinesOk maxWhitelist s := by
  have htables := table_iff whitelistEntry_injective authInit_eq s
  constructor
  · intro h
    exact htables.mp h.table
  · intro h
    have htable := htables.mpr h
    refine ⟨htable, fun src => ?_⟩
    have hall := table_all (fun t => authInit (some t)) htable
    rw [hall, authCheckIp_inetNtop, List.any_map]
    exact any_cidrMatch_namedBlocks shl _ _ s src

theorem blocklistMeaning_iff (shl : BitVec 8 → BitVec 32) (fw : Firewall) (s : List UInt8) :
    BlocklistMeaning shl fw s ↔ LinesOk maxBlocklistIps s := by
  have htables := table_iff blocklistEntry_injective loadAndPushBlocklist_listed s
  constructor
  · intro h
    exact htables.mp h.table
  · intro h
    have htable := htables.mpr h
    refine ⟨htable, fun src => ?_⟩
    have hcap : (namedBlocks maxBlocklistIps (textLines s).length s).length ≤ maxBlocklistIps :=
      List.length_take_le _ _
    have hall := table_all (fun t => (loadAndPushBlocklist t).listed) htable
    -- the payload never has more entries than the firewall reads
    rw [inspect_updateIpBlocklist, hall, List.take_of_length_le (by simpa using hcap),
      List.any_map]
    exact any_cidrMatch_namedBlocks shl _ _ s src

/-- **When a CIDR list file means what it says.**  Either file does, to the
table loaded from it and to the check that scans the table, exactly when every
line that finds room is read as it is meant. -/
theorem listFile_meaning_iff (shl : BitVec 8 → BitVec 32) (fw : Firewall) (s : List UInt8) :
    (WhitelistMeaning shl s ↔ LinesOk maxWhitelist s) ∧
      (BlocklistMeaning shl fw s ↔ LinesOk maxBlocklistIps s) :=
  ⟨whitelistMeaning_iff shl s, blocklistMeaning_iff shl fw s⟩

/-- A line with a malformed prefix length, in the whitelist, lets everyone
in; in the blocklist it blocks everyone. -/
theorem malformed_prefix_matches_everyone :
    let s := str "10.0.0.1/abc\n"
    (textLines s).filterMap named = [] ∧
      ¬ WhitelistMeaning (fun _ => 0) s ∧ ¬ BlocklistMeaning (fun _ => 0) Firewall.init s ∧
      ∀ src, authCheckIp (fun _ => 0) (authInit (some s)) (inetNtop src) = true ∧
        inspectIpBlocklist (fun _ => 0) (updateIpBlocklist Firewall.init (loadAndPushBlocklist s))
          src = true := by
  intro s
  have hnone : (textLines s).filterMap named = [] := by decide
  have hnoblocks : ∀ cap, namedBlocks cap (textLines s).length s = [] := by
    intro cap
    rw [namedBlocks, List.take_length, hnone, List.take_nil]
  -- `atoi` makes 0 of "abc", and a mask of 0 matches everything
  have hw : authInit (some s) = [⟨ofOctets 10 0 0 1, 0⟩] := by decide
  have hb : (loadAndPushBlocklist s).listed = [⟨ofOctets 10 0 0 1, 0⟩] := by decide
  have hmatch : ∀ src, cidrMatch (fun _ => 0) (ofOctets 10 0 0 1) 0 src = true := by
    intro src
    exact (cidrMatch_iff _ (by decide)).mpr fun i hi => absurd hi (by simp)
  have haccepts : ∀ src, authCheckIp (fun _ => 0) (authInit (some s)) (inetNtop src) = true := by
    intro src
    rw [authCheckIp_inetNtop, hw]
    exact List.any_eq_true.mpr ⟨_, List.mem_singleton_self _, hmatch src⟩
  have hblocks : ∀ src, inspectIpBlocklist (fun _ => 0)
      (updateIpBlocklist Firewall.init (loadAndPushBlocklist s)) src = true := by
    intro src
    rw [inspect_updateIpBlocklist, hb]
    exact List.any_eq_true.mpr ⟨_, List.mem_singleton_self _, hmatch src⟩
  refine ⟨hnone, ?_, ?_, fun src => ⟨haccepts src, hblocks src⟩⟩
  · intro h
    obtain ⟨p, hp, -⟩ := (h.accepts 0).mp (haccepts 0)
    rw [hnoblocks] at hp
    cases hp
  · intro h
    obtain ⟨p, hp, -⟩ := (h.blocks 0).mp (hblocks 0)
    rw [hnoblocks] at hp
    cases hp

end Nullsploit
