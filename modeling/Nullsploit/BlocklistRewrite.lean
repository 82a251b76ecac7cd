/-
Nullsploit/BlocklistRewrite.lean

The commands that rewrite the blocklist file, UNBLOCK_IP and CONFIG_UPDATE.
Both read the file with `fgets`, keep at most 1024 of the lines and write these
back behind a title.  The loader then reads the new file, with another idea of
what a line is: it takes the first field of it, wherever that begins.

`keptLines_eq` says which lines are kept.  As long as no NUL cuts off the end of
one that is followed by another, they are read back as they were
(`pieces_keptLines`); so an entry is lost exactly when its line is not kept.
`unblock_precise_iff` and `config_update_iff` say when that does not happen.
-/
import Nullsploit.AgentCommands

namespace Nullsploit

open CText Inet

/-! ### The first of the kept -/

section FirstKept

variable {α β : Type*}

/-- The positions of a list: the first, and those of the rest. -/
theorem forall_split_cons {P : List α → α → Prop} {y : α} {l : List α} :
    (∀ a x b, y :: l = a ++ x :: b → P a x)
      ↔ P [] y ∧ ∀ a x b, l = a ++ x :: b → P (y :: a) x := by
  constructor
  · intro h
    refine ⟨h [] y l rfl, fun a x b hl => h (y :: a) x b ?_⟩
    rw [hl, List.cons_append]
  · rintro ⟨hfirst, hrest⟩ a x b heq
    cases a with
    | nil =>
        obtain ⟨rfl, -⟩ := List.cons.inj heq
        exact hfirst
    | cons c a =>
        obtain ⟨rfl, hl⟩ := List.cons.inj heq
        exact hrest a x b hl

/-- Keeping the first `n` elements that pass a test loses no value iff all that
have one pass and come early enough. -/
theorem filterMap_take_filter_eq_iff {p : α → Bool} {g : α → Option β} (l : List α) (n : Nat) :
    ((l.filter p).take n).filterMap g = l.filterMap g
      ↔ ∀ a x b, l = a ++ x :: b → g x ≠ none → p x = true ∧ (a.filter p).length < n := by
  induction l generalizing n with
  | nil =>
      refine iff_of_true ?_ fun a x b h => ?_
      · rw [List.filter_nil, List.take_nil]
      · simp at h
  | cons y l ih =>
      rw [forall_split_cons]
      cases hy : p y
      · -- dropped, so it must have no value
        rw [List.filter_cons_of_neg (by simp [hy])]
        cases hg : g y with
        | none =>
            rw [List.filterMap_cons_none hg, ih]
            simp only [List.filter_cons_of_neg (show ¬ p y = true by simp [hy]), ne_eq,
              not_true_eq_false, false_implies, true_and]
        | some z =>
            -- what is kept of the rest has at most as many values as the rest
            rw [List.filterMap_cons_some hg]
            refine iff_of_false (fun h => ?_) fun h => ?_
            · have hsub : ((l.filter p).take n).Sublist l :=
                (List.take_sublist n _).trans List.filter_sublist
              have hlen := (hsub.filterMap g).length_le
              rw [h, List.length_cons] at hlen
              omega
            · exact Bool.false_ne_true (h.1 (Option.some_ne_none z)).1
      · rw [List.filter_cons_of_pos hy]
        simp only [List.filter_cons_of_pos hy]
        cases n with
        | zero =>
            -- no room: nothing at all may have a value
            have hnil := ih 0
            rw [List.take_zero, List.filterMap_nil] at hnil ⊢
            simp only [Nat.not_lt_zero, and_false, imp_false, ne_eq, not_not] at hnil ⊢
            rw [← hnil]
            cases hg : g y with
            | none => simp [List.filterMap_cons_none hg]
            | some z => simp [List.filterMap_cons_some hg]
        | succ m =>
            have hkeep : (y :: (l.filter p).take m).filterMap g = (y :: l).filterMap g
                ↔ ((l.filter p).take m).filterMap g = l.filterMap g := by
              cases hg : g y with
              | none => rw [List.filterMap_cons_none hg, List.filterMap_cons_none hg]
              | some z =>
                  rw [List.filterMap_cons_some hg, List.filterMap_cons_some hg, List.cons_inj_right]
            rw [List.take_succ_cons, hkeep, ih]
            simp only [List.length_cons, Nat.add_lt_add_iff_right, List.filter_nil,
              List.length_nil, Nat.zero_lt_succ, and_self, implies_true, true_and]

end FirstKept

/-! ### What is written back -/

/-- The line is kept: it does not begin as an empty line or a comment, and is not
selected. -/
def keeps (drop : List UInt8 → Bool) (line : List UInt8) : Bool :=
  ¬ (line.head? = some (ch '\r') ∨ line.head? = some nl ∨ line.head? = some (ch '#')) ∧
    drop (cstr line) = false

/-- The lines of the file that are kept. -/
def keptPieces (drop : List UInt8 → Bool) (file : List UInt8) : List (List UInt8) :=
  ((pieces lineBuf file).filter (keeps drop)).take maxBlocklistIps

theorem keptLines_eq_take (drop : List UInt8 → Bool) (lines kept : List (List UInt8))
    (h : kept.length ≤ maxBlocklistIps) :
    keptLines drop lines kept
      = (kept ++ (lines.filter (keeps drop)).map cstr).take maxBlocklistIps := by
  induction lines generalizing kept with
  | nil => simp [keptLines, List.take_of_length_le h]
  | cons line lines ih =>
      rw [keptLines]
      split
      · rename_i hroom
        split
        · rename_i hskip
          have hkeeps : ¬ keeps drop line = true := fun hk => (of_decide_eq_true hk).1 hskip
          rw [List.filter_cons_of_neg hkeeps]
          exact ih kept h
        · rename_i hskip
          split
          · rename_i hdrop
            have hkeeps : ¬ keeps drop line = true := by
              intro hk
              rw [(of_decide_eq_true hk).2] at hdrop
              cases hdrop
            rw [List.filter_cons_of_neg hkeeps]
            exact ih kept h
          · rename_i hdrop
            have hkeeps : keeps drop line = true :=
              decide_eq_true ⟨hskip, Bool.eq_false_iff.mpr hdrop⟩
            rw [List.filter_cons_of_pos hkeeps, List.map_cons]
            simpa using ih (kept ++ [cstr line]) (by simp; omega)
      · rw [List.take_append_of_le_length (by omega), List.take_of_length_le h]

theorem keptLines_eq (drop : List UInt8 → Bool) (file : List UInt8) :
    keptLines drop (fileLines lineBuf file) [] = (keptPieces drop file).map cstr := by
  rw [keptLines_eq_take _ _ _ (Nat.zero_le _), List.nil_append, fileLines_eq_pieces (by decide),
    keptPieces, List.map_take]

/-- No NUL cuts off the end of a kept line that another one follows.  Lines that
begin with a NUL do not count: nothing is written for them. -/
def Uncut (drop : List UInt8 → Bool) (file : List UInt8) : Prop :=
  ∀ line ∈ ((keptPieces drop file).filter fun line => cstr line ≠ []).dropLast, (0 : UInt8) ∉ line

theorem uncut_of_all {drop : List UInt8 → Bool} {file : List UInt8}
    (h : (keptPieces drop file).all (fun line => decide ((0 : UInt8) ∉ line)) = true) :
    Uncut drop file := by
  intro line hline
  have hkept := (List.mem_filter.mp (List.dropLast_subset _ hline)).1
  exact of_decide_eq_true (List.all_eq_true.mp h line hkept)

theorem keptPieces_sublist (drop : List UInt8 → Bool) (file : List UInt8) :
    (keptPieces drop file).Sublist (pieces lineBuf file) :=
  (List.take_sublist _ _).trans List.filter_sublist

/-- The lines that are written are read again one by one. -/
theorem pieces_keptLines {drop : List UInt8 → Bool} {file : List UInt8} (h : Uncut drop file) :
    pieces lineBuf (keptLines drop (fileLines lineBuf file) []).flatten
      = ((keptPieces drop file).map cstr).filter (· ≠ []) := by
  have hsub : ((keptPieces drop file).filter fun line => cstr line ≠ []).Sublist
      (pieces lineBuf file) := List.filter_sublist.trans (keptPieces_sublist drop file)
  have htexts : ((keptPieces drop file).filter fun line => cstr line ≠ []).map cstr
      = ((keptPieces drop file).map cstr).filter (· ≠ []) := by
    rw [List.filter_map]
    rfl
  rw [keptLines_eq, ← List.flatten_filter_ne_nil, ← htexts]
  rw [pieces_map_cstr ?_ ?_ h, htexts, List.filter_filter]
  · simp only [Bool.and_self]
  · intro l hl
    exact fits_of_mem_pieces (by decide) (hsub.subset hl)
  · intro l hl
    exact complete_of_sublist (by decide) hsub hl

theorem cstr_cstr (s : List UInt8) : cstr (cstr s) = cstr s := cstr_of_not_mem (zero_not_mem_cstr s)

/-- What a line is read as does not depend on what follows a NUL. -/
theorem filterMap_cstr {β : Type*} {g : List UInt8 → Option β} (hg : ∀ l, g (cstr l) = g l)
    (hnil : g [] = none) (kept : List (List UInt8)) :
    ((kept.map cstr).filter (· ≠ [])).filterMap g = kept.filterMap g := by
  induction kept with
  | nil => rfl
  | cons l kept ih =>
      rw [List.map_cons]
      by_cases hl : cstr l = []
      · have hnone : g l = none := by rw [← hg, hl, hnil]
        rw [List.filter_cons_of_neg (by simp [hl]), ih, List.filterMap_cons_none hnone]
      · rw [List.filter_cons_of_pos (by simpa using hl), List.filterMap_cons, List.filterMap_cons,
          hg, ih]

theorem lineEntry_cstr (line : List UInt8) : lineEntry (cstr line) = lineEntry line := by
  rw [lineEntry, cstr_cstr]
  rfl

/-- The value of a line that is a directive. -/
def BlocklistLine.toDirective : BlocklistLine → Option (BitVec 32)
  | .directive v => some v
  | _ => none

def lineDirective (line : List UInt8) : Option (BitVec 32) := (blocklistLine line).toDirective

/-- The values of the directives of a file. -/
def fileDirectives (file : List UInt8) : List (BitVec 32) :=
  (pieces lineBuf file).filterMap lineDirective

theorem blocklistLine_cstr (line : List UInt8) : blocklistLine (cstr line) = blocklistLine line := by
  rw [blocklistLine, cstr_cstr]
  rfl

/-- A line that says something does not begin as a comment or an empty line. -/
theorem head_of_blocklistLine {file line : List UInt8} (hline : line ∈ pieces lineBuf file)
    (h : blocklistLine line ≠ .skip) :
    line.head? ≠ some nl ∧ line.head? ≠ some (ch '#') := by
  obtain ⟨hnl, -⟩ := fits_of_mem_pieces (by decide) hline
  constructor
  · intro hhead
    obtain ⟨rest, rfl⟩ := List.head?_eq_some_iff.mp hhead
    -- a newline is the last byte of a piece
    cases rest with
    | nil => exact h (by decide)
    | cons b rest => exact hnl (by simp)
  · intro hhead
    obtain ⟨rest, rfl⟩ := List.head?_eq_some_iff.mp hhead
    have hcstr : cstr (ch '#' :: rest) = ch '#' :: cstr rest := List.takeWhile_cons_of_pos (by decide)
    have hfield : ∃ t, strtok delims (ch '#' :: cstr rest) = some (ch '#' :: t) := by
      refine ⟨(cstr rest).takeWhile (· ∉ delims), ?_⟩
      rw [strtok, List.dropWhile_cons_of_neg (by decide)]
      show some (List.takeWhile _ _) = _
      rw [List.takeWhile_cons_of_pos (by decide)]
    obtain ⟨t, ht⟩ := hfield
    apply h
    rw [blocklistLine, hcstr, ht]
    rfl

theorem ne_skip_of_lineEntry {line : List UInt8} (h : lineEntry line ≠ none) :
    blocklistLine line ≠ .skip := by
  intro hskip
  have hentry := blocklistLine_toEntry line
  rw [hskip] at hentry
  exact h (Option.map_eq_none_iff.mp hentry.symm)

theorem ne_skip_of_lineDirective {line : List UInt8} (h : lineDirective line ≠ none) :
    blocklistLine line ≠ .skip := by
  intro hskip
  apply h
  rw [lineDirective, hskip]
  rfl

/-- For such a line the first byte matters only if it is a carriage return, which
the loader takes for a blank. -/
theorem keeps_iff {drop : List UInt8 → Bool} {file line : List UInt8}
    (hline : line ∈ pieces lineBuf file) (h : blocklistLine line ≠ .skip) :
    keeps drop line = true ↔ line.head? ≠ some (ch '\r') ∧ drop (cstr line) = false := by
  obtain ⟨hnl, hcomment⟩ := head_of_blocklistLine hline h
  rw [keeps, decide_eq_true_iff]
  constructor
  · rintro ⟨hskip, hdrop⟩
    exact ⟨fun hcr => hskip (Or.inl hcr), hdrop⟩
  · rintro ⟨hcr, hdrop⟩
    refine ⟨?_, hdrop⟩
    rintro (h | h | h)
    · exact hcr h
    · exact hnl h
    · exact hcomment h

/-- Of what the lines say nothing is lost iff all lines that say it are kept. -/
theorem keptPieces_filterMap_iff {β : Type*} (drop : List UInt8 → Bool) (file : List UInt8)
    {g : List UInt8 → Option β} (hg : ∀ line, g line ≠ none → blocklistLine line ≠ .skip) :
    (keptPieces drop file).filterMap g = (pieces lineBuf file).filterMap g
      ↔ ∀ before line after, pieces lineBuf file = before ++ line :: after → g line ≠ none →
        line.head? ≠ some (ch '\r') ∧ drop (cstr line) = false ∧
          (before.filter (keeps drop)).length < maxBlocklistIps := by
  rw [keptPieces, filterMap_take_filter_eq_iff]
  refine forall_congr' fun before => forall_congr' fun line => forall_congr' fun after => ?_
  refine forall_congr' fun hsplit => forall_congr' fun hval => ?_
  have hline : line ∈ pieces lineBuf file := by
    rw [hsplit]
    exact List.mem_append_right _ List.mem_cons_self
  rw [keeps_iff hline (hg line hval), and_assoc]

theorem complete_blocklistTitle : Complete lineBuf blocklistTitle :=
  ⟨by decide, by decide, by decide, Or.inl (by decide)⟩

/-! ### UNBLOCK_IP -/

/-- The lines that UNBLOCK_IP takes out. -/
def mentionsIp (ip : BitVec 32) (line : List UInt8) : Bool := strstr line (inetNtop ip)

/-- After UNBLOCK_IP the file has the entries of all other addresses, in order, and
its directives. -/
def UnblockPrecise (file : List UInt8) (ip : BitVec 32) : Prop :=
  fileEntries (handleUnblockIp file ip) = (fileEntries file).filter (fun p => p.1 ≠ ip) ∧
    fileDirectives (handleUnblockIp file ip) = fileDirectives file

/-- Every line with an entry of another address or a directive is kept: it does
not begin with a carriage return, does not contain the text of the address
anywhere, and less than 1024 lines are kept before it. -/
def OthersKept (file : List UInt8) (ip : BitVec 32) : Prop :=
  ∀ before line after, pieces lineBuf file = before ++ line :: after →
    (∃ p, lineEntry line = some p ∧ p.1 ≠ ip) ∨ lineDirective line ≠ none →
    line.head? ≠ some (ch '\r') ∧ mentionsIp ip (cstr line) = false ∧
      (before.filter (keeps (mentionsIp ip))).length < maxBlocklistIps

/-- What the new file is read as. -/
theorem filterMap_unblocked {β : Type*} {file : List UInt8} {ip : BitVec 32}
    (h : Uncut (mentionsIp ip) file) {g : List UInt8 → Option β} (hg : ∀ l, g (cstr l) = g l)
    (hnil : g [] = none) (htitle : g blocklistTitle = none) :
    (pieces lineBuf (handleUnblockIp file ip)).filterMap g
      = (keptPieces (mentionsIp ip) file).filterMap g := by
  show (pieces lineBuf (blocklistTitle ++
    (keptLines (mentionsIp ip) (fileLines lineBuf file) []).flatten)).filterMap g = _
  rw [complete_blocklistTitle.pieces_append, List.filterMap_cons_none htitle, pieces_keptLines h,
    filterMap_cstr hg hnil]

/-- The entry of an address contains its text. -/
theorem mentionsIp_of_lineEntry {line : List UInt8} {p : BitVec 32 × BitVec 8}
    (h : lineEntry line = some p) : mentionsIp p.1 (cstr line) = true := by
  obtain ⟨field, hfield, hparse⟩ := Option.bind_eq_some_iff.mp h
  have htext : inetNtop p.1 <:+: field := by
    obtain ⟨a, m⟩ := p
    rcases parseCidr_eq_some hparse with ⟨rfl, -⟩ | ⟨suffix, rfl, -⟩
    · exact List.infix_rfl
    · exact (List.prefix_append _ _).isInfix
  exact decide_eq_true (htext.trans (infix_of_strtok hfield))

/-- The entry of a line, if it is one of another address. -/
def otherEntry (ip : BitVec 32) (line : List UInt8) : Option (BitVec 32 × BitVec 8) :=
  (lineEntry line).filter fun p => p.1 ≠ ip

theorem otherEntry_ne_none_iff {ip : BitVec 32} {line : List UInt8} :
    otherEntry ip line ≠ none ↔ ∃ p, lineEntry line = some p ∧ p.1 ≠ ip := by
  rw [otherEntry]
  cases h : lineEntry line with
  | none => simp
  | some p => simp [Option.filter]

theorem ne_skip_of_otherEntry {ip : BitVec 32} {line : List UInt8} (h : otherEntry ip line ≠ none) :
    blocklistLine line ≠ .skip := by
  obtain ⟨p, hp, -⟩ := otherEntry_ne_none_iff.mp h
  apply ne_skip_of_lineEntry
  rw [hp]
  exact Option.some_ne_none p

/-- No kept line has an entry of the address itself. -/
theorem filterMap_keptPieces (file : List UInt8) (ip : BitVec 32) :
    (keptPieces (mentionsIp ip) file).filterMap lineEntry
      = (keptPieces (mentionsIp ip) file).filterMap (otherEntry ip) := by
  apply List.filterMap_congr
  intro line hline
  have hkeeps := List.of_mem_filter (List.mem_of_mem_take hline)
  have hmentions : mentionsIp ip (cstr line) = false := (of_decide_eq_true hkeeps).2
  cases h : lineEntry line with
  | none => rw [otherEntry, h, Option.filter_none]
  | some p =>
      have hne : p.1 ≠ ip := by
        rintro rfl
        rw [mentionsIp_of_lineEntry h] at hmentions
        cases hmentions
      rw [otherEntry, h]
      exact (if_pos (decide_eq_true hne)).symm

theorem lineDirective_cstr (line : List UInt8) : lineDirective (cstr line) = lineDirective line := by
  rw [lineDirective, blocklistLine_cstr]
  rfl

/-- **When UNBLOCK_IP is precise**: exactly when all lines that it must keep are
kept. -/
theorem unblock_precise_iff {file : List UInt8} {ip : BitVec 32} (h : Uncut (mentionsIp ip) file) :
    UnblockPrecise file ip ↔ OthersKept file ip := by
  have hold : (fileEntries file).filter (fun p => p.1 ≠ ip)
      = (pieces lineBuf file).filterMap (otherEntry ip) := by
    rw [fileEntries, List.filter_filterMap]
    rfl
  rw [UnblockPrecise, hold, fileEntries, fileDirectives, fileDirectives,
    filterMap_unblocked h lineEntry_cstr (by decide) (by decide),
    filterMap_unblocked h lineDirective_cstr (by decide) (by decide), filterMap_keptPieces,
    keptPieces_filterMap_iff _ _ fun _ => ne_skip_of_otherEntry,
    keptPieces_filterMap_iff _ _ fun _ => ne_skip_of_lineDirective]
  constructor
  · rintro ⟨hentries, hdirectives⟩ before line after hsplit (hother | hdirective)
    · exact hentries before line after hsplit (otherEntry_ne_none_iff.mpr hother)
    · exact hdirectives before line after hsplit hdirective
  · intro hkept
    constructor
    · intro before line after hsplit hother
      exact hkept before line after hsplit (Or.inl (otherEntry_ne_none_iff.mp hother))
    · intro before line after hsplit hdirective
      exact hkept before line after hsplit (Or.inr hdirective)

/-- A file with two addresses and a directive. -/
def sampleBlocklist : List UInt8 :=
  str "block_local_ips=1\n10.0.0.5/32\n192.168.1.0/24 # office\n"

theorem unblock_precise_sample :
    Uncut (mentionsIp (ofOctets 10 0 0 5)) sampleBlocklist ∧
      UnblockPrecise sampleBlocklist (ofOctets 10 0 0 5) ∧
      OthersKept sampleBlocklist (ofOctets 10 0 0 5) := by
  have huncut : Uncut (mentionsIp (ofOctets 10 0 0 5)) sampleBlocklist := uncut_of_all (by decide)
  have hprecise : UnblockPrecise sampleBlocklist (ofOctets 10 0 0 5) := ⟨by decide, by decide⟩
  exact ⟨huncut, hprecise, (unblock_precise_iff huncut).mp hprecise⟩

/-- Unblocking 1.1.1.1 takes 11.1.1.1 out as well. -/
theorem unblock_removes_longer_address :
    ¬ UnblockPrecise (str "11.1.1.1/32\n") (ofOctets 1 1 1 1) := by
  intro h
  have hlost : fileEntries (handleUnblockIp (str "11.1.1.1/32\n") (ofOctets 1 1 1 1)) = [] := by
    decide
  have hentry : (fileEntries (str "11.1.1.1/32\n")).filter (fun p => p.1 ≠ ofOctets 1 1 1 1)
      = [(ofOctets 11 1 1 1, 32)] := by
    decide
  have heq := h.1
  rw [hlost, hentry] at heq
  cases heq

/-! ### CONFIG_UPDATE -/

/-- The lines that CONFIG_UPDATE takes out. -/
def isDirectiveLine (line : List UInt8) : Bool := (str "block_local_ips=").isPrefixOf line

/-- After CONFIG_UPDATE the file has the entries it had, and the payload that is
pushed carries the new value. -/
def ConfigPrecise (file : List UInt8) (v : BitVec 32) : Prop :=
  fileEntries (handleConfigUpdate file v.toNat) = fileEntries file ∧
    (loadAndPushBlocklist (handleConfigUpdate file v.toNat)).blockLocalIps = v

/-- Every line with an entry is kept: it does not begin with a carriage return, and
less than 1024 lines are kept before it. -/
def EntriesKept (file : List UInt8) : Prop :=
  ∀ before line after, pieces lineBuf file = before ++ line :: after → lineEntry line ≠ none →
    line.head? ≠ some (ch '\r') ∧
      (before.filter (keeps isDirectiveLine)).length < maxBlocklistIps

/-- The last of the kept lines that the loader takes for a directive, if there is
one, sets the new value.  Such a line has a blank before the directive. -/
def NoOtherDirective (file : List UInt8) (v : BitVec 32) : Prop :=
  ∀ u, ((keptPieces isDirectiveLine file).filterMap lineDirective).getLast? = some u → u = v

/-- The new directive. -/
def directiveLine (v : Nat) : List UInt8 := str "block_local_ips=" ++ decimal v ++ [nl]

theorem mem_directive {v : Nat} {b : UInt8} (h : b ∈ str "block_local_ips=" ++ decimal v) :
    b ∈ str "block_local_ips=" ∨ isDigit b = true :=
  (List.mem_append.mp h).imp id fun hb => isDigit_of_mem_decimal v b hb

theorem complete_directiveLine {v : Nat} (hv : v < 2 ^ 32) : Complete lineBuf (directiveLine v) := by
  have hlen : (decimal v).length ≤ 10 := length_decimal_le (by decide) (by omega)
  refine ⟨by simp [directiveLine], ?_, ?_, Or.inl (by simp [directiveLine])⟩
  · rw [directiveLine, List.dropLast_concat]
    intro h
    rcases mem_directive h with h | h
    · exact absurd h (by decide)
    · exact absurd h (by decide)
  · rw [directiveLine, List.length_append, List.length_append,
      show (str "block_local_ips=").length = 16 by decide]
    show 16 + (decimal v).length + 1 ≤ 127
    omega

theorem not_delim_of_isDigit {b : UInt8} (h : isDigit b = true) : b ∉ delims ∧ b ≠ 0 := by
  constructor
  · intro hdelim
    rw [show delims = [ch ' ', ch '\t', ch '\r', ch '\n'] from rfl] at hdelim
    simp only [List.mem_cons, List.not_mem_nil, or_false] at hdelim
    rcases hdelim with rfl | rfl | rfl | rfl <;> exact absurd h (by decide)
  · rintro rfl
    exact absurd h (by decide)

/-- The text of a directive is a field. -/
theorem not_delim_of_mem_directive {v : Nat} {b : UInt8}
    (h : b ∈ str "block_local_ips=" ++ decimal v) : b ∉ delims ∧ b ≠ 0 := by
  rcases mem_directive h with hb | hb
  · have hall : (str "block_local_ips=").all (fun b => decide (b ∉ delims ∧ b ≠ 0)) = true := by
      decide
    exact of_decide_eq_true (List.all_eq_true.mp hall b hb)
  · exact not_delim_of_isDigit hb

/-- It is read as it was meant. -/
theorem blocklistLine_directiveLine (v : BitVec 32) :
    blocklistLine (directiveLine v.toNat) = .directive v := by
  have hnul : (0 : UInt8) ∉ directiveLine v.toNat := by
    rw [directiveLine, List.mem_append]
    rintro (h | h)
    · exact (not_delim_of_mem_directive h).2 rfl
    · exact absurd h (by decide)
  have hfield : strtok delims (directiveLine v.toNat)
      = some (str "block_local_ips=" ++ decimal v.toNat) :=
    strtok_append (by simp [decimal_ne_nil]) (fun b hb => (not_delim_of_mem_directive hb).1)
      (by decide) []
  have hstarts : (str "block_local_ips=").isPrefixOf (str "block_local_ips=" ++ decimal v.toNat)
      = true := List.isPrefixOf_iff_prefix.mpr (List.prefix_append _ _)
  have hcomment : (str "block_local_ips=" ++ decimal v.toNat).head? ≠ some (ch '#') := by
    rw [show str "block_local_ips=" = ch 'b' :: str "lock_local_ips=" from rfl, List.cons_append,
      List.head?_cons]
    decide
  have hdrop : (str "block_local_ips=" ++ decimal v.toNat).drop 16 = decimal v.toNat :=
    List.drop_left' (by decide)
  have hvalue : atoi (decimal v.toNat) = v := by
    have hlt := v.isLt
    rw [atoi_of_digits (decimal_ne_nil _) (isDigit_of_mem_decimal _) (by rw [digitsVal_decimal]; omega),
      digitsVal_decimal, BitVec.ofNat_toNat, BitVec.setWidth_eq]
  rw [blocklistLine, cstr_of_not_mem hnul, hfield]
  dsimp only
  rw [if_neg hcomment, if_pos hstarts, hdrop, hvalue]

/-- The pieces of the new file. -/
theorem pieces_configured {file : List UInt8} (h : Uncut isDirectiveLine file) (v : BitVec 32) :
    pieces lineBuf (handleConfigUpdate file v.toNat)
      = blocklistTitle :: directiveLine v.toNat ::
        ((keptPieces isDirectiveLine file).map cstr).filter (· ≠ []) := by
  show pieces lineBuf (blocklistTitle ++ directiveLine v.toNat ++
    (keptLines isDirectiveLine (fileLines lineBuf file) []).flatten) = _
  rw [List.append_assoc, complete_blocklistTitle.pieces_append,
    (complete_directiveLine v.isLt).pieces_append, pieces_keptLines h]

/-- While the payload has room for all lines, the last directive decides. -/
theorem loadBlocklist_fst (lines : List (List UInt8)) (payload : BitVec 32 × List BlocklistEntry)
    (h : payload.2.length + lines.length ≤ maxBlocklistIps) :
    (loadBlocklist lines payload).1
      = ((lines.filterMap lineDirective).getLast?).getD payload.1 := by
  induction lines generalizing payload with
  | nil => rfl
  | cons line lines ih =>
      rw [List.length_cons] at h
      rw [loadBlocklist, if_pos (by omega)]
      cases e : blocklistLine line with
      | skip =>
          rw [List.filterMap_cons_none (by rw [lineDirective, e]; rfl)]
          exact ih payload (by omega)
      | directive v =>
          rw [List.filterMap_cons_some (by rw [lineDirective, e]; rfl), List.getLast?_cons,
            Option.getD_some]
          exact ih (v, payload.2) (show payload.2.length + lines.length ≤ _ by omega)
      | entry x =>
          rw [List.filterMap_cons_none (by rw [lineDirective, e]; rfl)]
          exact ih (payload.1, payload.2 ++ [x]) (by simp; omega)

/-- The value that is pushed: that of the last directive that was kept, or the new
one. -/
theorem blockLocalIps_configured {file : List UInt8} (h : Uncut isDirectiveLine file)
    (v : BitVec 32) :
    (loadAndPushBlocklist (handleConfigUpdate file v.toNat)).blockLocalIps
      = (((keptPieces isDirectiveLine file).filterMap lineDirective).getLast?).getD v := by
  have hlen : (((keptPieces isDirectiveLine file).map cstr).filter (· ≠ [])).length
      ≤ maxBlocklistIps := by
    refine (List.length_filter_le _ _).trans ?_
    rw [List.length_map]
    exact List.length_take_le _ _
  have htitle : blocklistLine blocklistTitle = .skip := by decide
  show (loadBlocklist (fileLines lineBuf (handleConfigUpdate file v.toNat)) (0, [])).1 = _
  rw [fileLines_eq_pieces (by decide), pieces_configured h, loadBlocklist, if_pos (by decide), htitle]
  dsimp only
  rw [loadBlocklist, if_pos (by decide), blocklistLine_directiveLine]
  dsimp only
  rw [loadBlocklist_fst _ _ (by simpa using hlen), filterMap_cstr lineDirective_cstr (by decide)]

/-- A line that is taken out has no entry. -/
theorem isDirectiveLine_of_lineEntry {line : List UInt8} (h : lineEntry line ≠ none) :
    isDirectiveLine (cstr line) = false := by
  refine Bool.eq_false_iff.mpr fun hdirective => h ?_
  obtain ⟨rest, hrest⟩ := List.isPrefixOf_iff_prefix.mp hdirective
  have hfield : strtok delims (cstr line)
      = some (str "block_local_ips=" ++ rest.takeWhile (· ∉ delims)) := by
    have hall : ∀ b ∈ str "block_local_ips=", decide (b ∉ delims) = true := by
      apply List.all_eq_true.mp
      decide
    rw [← hrest, ← List.takeWhile_append_of_pos hall]
    rfl
  rw [lineEntry, hfield, Option.bind_some]
  exact parseCidr_of_directive (List.isPrefixOf_iff_prefix.mpr (List.prefix_append _ _))

/-- **When CONFIG_UPDATE changes only the directive.** -/
theorem config_update_iff {file : List UInt8} {v : BitVec 32} (h : Uncut isDirectiveLine file) :
    ConfigPrecise file v ↔ EntriesKept file ∧ NoOtherDirective file v := by
  have hdirective : lineEntry (directiveLine v.toNat) = none := by
    have hentry := blocklistLine_toEntry (directiveLine v.toNat)
    rw [blocklistLine_directiveLine] at hentry
    exact Option.map_eq_none_iff.mp hentry.symm
  rw [ConfigPrecise, fileEntries, pieces_configured h, blockLocalIps_configured h,
    List.filterMap_cons_none (by decide), List.filterMap_cons_none hdirective,
    filterMap_cstr lineEntry_cstr (by decide), fileEntries,
    keptPieces_filterMap_iff _ _ fun _ => ne_skip_of_lineEntry]
  refine and_congr ?_ ?_
  · refine forall_congr' fun before => forall_congr' fun line => forall_congr' fun after => ?_
    refine forall_congr' fun _ => forall_congr' fun hentry => and_congr_right fun _ => ?_
    -- a line with an entry is never one that is taken out
    exact and_iff_right (isDirectiveLine_of_lineEntry hentry)
  · rw [NoOtherDirective]
    cases ((keptPieces isDirectiveLine file).filterMap lineDirective).getLast? with
    | none => simp
    | some u => simp

theorem config_update_sample :
    Uncut isDirectiveLine sampleBlocklist ∧ ConfigPrecise sampleBlocklist 0 ∧
      EntriesKept sampleBlocklist ∧ NoOtherDirective sampleBlocklist 0 := by
  have huncut : Uncut isDirectiveLine sampleBlocklist := uncut_of_all (by decide)
  have hprecise : ConfigPrecise sampleBlocklist 0 := ⟨by decide, by decide⟩
  exact ⟨huncut, hprecise, (config_update_iff huncut).mp hprecise⟩

/-- A directive with a blank before it survives and wins. -/
theorem indented_directive_wins : ¬ ConfigPrecise (str " block_local_ips=0\n") 1 := by
  intro h
  have hpushed : (loadAndPushBlocklist (handleConfigUpdate (str " block_local_ips=0\n")
      (1 : BitVec 32).toNat)).blockLocalIps = 0 := by
    decide
  have heq := h.2
  rw [hpushed] at heq
  exact absurd heq (by decide)

end Nullsploit
