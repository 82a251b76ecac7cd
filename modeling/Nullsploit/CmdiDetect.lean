/-
Nullsploit/CmdiDetect.lean

The command injection detector, kernel/cmdi_detect.c.  It counts signs in the
decoded payload: shell metacharacters, names of commands, files and paths, each
worth some points.

Every sign is a search in a C string, and a longer text shows no fewer of them
(`signPoints_mono`).  But the payload is counted, and the searches stop at its
first NUL byte: bytes put in front of a payload hide it exactly when one of
them is NUL and the signs before that are worth less (`prefix_keeps_score_iff`).
-/
import Nullsploit.DetectText

namespace Nullsploit

open CText

/-! ### The signs -/

/-- `commands`. -/
def commands : List (List UInt8) :=
  [str "whoami", str "uname", str "id", str "hostname", str "netstat", str "ifconfig", str "ip addr",
    str "wget", str "curl", str "nc ", str "ncat", str "netcat", str "ping", str "tftp", str "ftp ",
    str "bash", str "sh ", str "ash", str "csh", str "zsh", str "python", str "perl", str "ruby",
    str "php -r", str "cat /", str "grep ", str "find ", str "chmod ", str "chown ", str "rm -rf",
    str "touch ", str "mkdir "]

/-- `strchr(decoded, c) != NULL`. -/
def hasChar (decoded : List UInt8) (c : UInt8) : Bool := (strchr c (cstr decoded)).isSome

/-- `has_meta`. -/
def hasMeta (decoded : List UInt8) : Bool :=
  let hasSemi := hasChar decoded (ch ';')
  let hasPipe := hasChar decoded (ch '|')
  let hasAmp := strstr (cstr decoded) (str "&&")
  let hasBacktick := hasChar decoded 96
  let hasDollarParen := strstr (cstr decoded) (str "$(")
  let hasRedirect := hasChar decoded (ch '>') || hasChar decoded (ch '<')
  hasSemi || hasPipe || hasAmp || hasBacktick || hasDollarParen || hasRedirect

/-- The commands found, in the order of the table. -/
def matchedCommands (decoded : List UInt8) : List (List UInt8) :=
  commands.filter (strcaseContains decoded)

/-- `matched_cmds`: a command is added while there are 32 bytes to spare. -/
def matchedCmds (decoded : List UInt8) : List UInt8 :=
  (matchedCommands decoded).foldl
    (fun cmds command => if cmds.length < 256 - 32 then cmds ++ command ++ str ", " else cmds) []

/-- `has_passwd || has_shadow`. -/
def hasEtcFiles (decoded : List UInt8) : Bool :=
  strcaseContains decoded (str "/etc/passwd") || strcaseContains decoded (str "/etc/shadow")

/-- `has_bin`. -/
def hasBin (decoded : List UInt8) : Bool :=
  strcaseContains decoded (str "/bin/sh") || strcaseContains decoded (str "/bin/bash")

/-- `has_dev_tcp`. -/
def hasDevTcp (decoded : List UInt8) : Bool := strcaseContains decoded (str "/dev/tcp/")

/-- The test for a reverse shell. -/
def hasRevShell (decoded : List UInt8) : Bool :=
  strcaseContains decoded (str "bash -i") || strcaseContains decoded (str "sh -i")

/-! ### The detector -/

/-- The scores in source order. -/
def cmdiTally (maxPatternLen : Nat) (decoded : List UInt8) : Tally :=
  let matchCount := (matchedCommands decoded).length
  let note := Tally.note maxPatternLen
  (⟨0, []⟩ : Tally)
    |> note (hasMeta decoded) 15 (str "META_CHAR; ")
    |> note (matchCount > 0) (matchCount * 20) (str "SHELL_CMD; ")
    |> note (hasEtcFiles decoded) 35 (str "ETC_FILES; ")
    |> note (hasBin decoded) 30 (str "BIN_PATHS; ")
    |> note (hasDevTcp decoded) 40 (str "DEV_TCP; ")
    |> note (hasMeta decoded && matchCount > 0) 25 (str "META+CMD; ")
    |> note (hasRevShell decoded) 50 (str "REV_SHELL; ")

/-- `detect_cmdi`. -/
def detectCmdi (maxPatternLen maxDetailsLen : Nat) (payload : List UInt8) : Detection :=
  let decoded := decodedPayload payload
  let t := cmdiTally maxPatternLen decoded
  ⟨t.score, t.matchedPattern,
    snprintfCut maxDetailsLen (str "CMDi Score: " ++ decimalInt t.score ++ str ". Matches: " ++
      t.matchedPattern ++ str ". Commands: " ++ matchedCmds decoded ++ str ". Decoded: " ++
      cstr decoded)⟩

/-! ### The signs of a text

What the detector looks for, as facts about a text without NUL bytes. -/

/-- The word is in the text, in any case. -/
def showsWord (text word : List UInt8) : Bool := decide (word.map toLower <:+: text.map toLower)

def showsAny (words : List (List UInt8)) (text : List UInt8) : Bool := words.any (showsWord text)

/-- A metacharacter of the shell, or a pair that is one. -/
def showsMeta (text : List UInt8) : Bool :=
  (str ";|`><").any (text.contains ·) || decide (str "&&" <:+: text) || decide (str "$(" <:+: text)

/-- What the signs of a text are worth. -/
def signPoints (text : List UInt8) : Nat :=
  (if showsMeta text then 15 else 0) + 20 * commands.countP (showsWord text) +
    (if showsAny [str "/etc/passwd", str "/etc/shadow"] text then 35 else 0) +
    (if showsAny [str "/bin/sh", str "/bin/bash"] text then 30 else 0) +
    (if showsAny [str "/dev/tcp/"] text then 40 else 0) +
    (if showsMeta text && showsAny commands text then 25 else 0) +
    if showsAny [str "bash -i", str "sh -i"] text then 50 else 0

theorem strcaseContains_eq (decoded word : List UInt8) :
    strcaseContains decoded word = showsWord (cstr decoded) word := by
  rw [Bool.eq_iff_iff, strcaseContains_iff, showsWord, decide_eq_true_iff]

theorem hasMeta_eq (decoded : List UInt8) : hasMeta decoded = showsMeta (cstr decoded) := by
  have hmem : ∀ c, hasChar decoded c = (cstr decoded).contains c := by
    intro c
    rw [Bool.eq_iff_iff, List.contains_iff_mem, hasChar, ← Bool.not_eq_false,
      Option.isSome_eq_false_iff, Option.isNone_iff_eq_none, strchr_eq_none_iff, not_not]
  have hchars : str ";|`><" = [ch ';', ch '|', 96, ch '>', ch '<'] := by decide
  rw [Bool.eq_iff_iff, showsMeta, hchars]
  simp only [hasMeta, hmem, strstr, List.any_cons, List.any_nil, Bool.or_eq_true, Bool.or_false]
  tauto

theorem length_matchedCommands (decoded : List UInt8) :
    (matchedCommands decoded).length = commands.countP (showsWord (cstr decoded)) := by
  rw [matchedCommands, ← List.countP_eq_length_filter]
  exact List.countP_congr fun word _ => by rw [strcaseContains_eq]

/-- The score is what the signs before the first NUL are worth. -/
theorem score_detectCmdi (maxPatternLen maxDetailsLen : Nat) (payload : List UInt8) :
    (detectCmdi maxPatternLen maxDetailsLen payload).score
      = signPoints (cstr (decodedPayload payload)) := by
  have hany : ∀ text, decide (commands.countP (showsWord text) > 0) = showsAny commands text := by
    intro text
    rw [Bool.eq_iff_iff, decide_eq_true_iff, gt_iff_lt, List.countP_pos_iff, showsAny,
      List.any_eq_true]
  have hcommands : ∀ text, (if showsAny commands text = true then
      (commands.countP (showsWord text) : Int) * 20 else 0)
      = 20 * commands.countP (showsWord text) := by
    intro text
    rw [← hany]
    by_cases h : commands.countP (showsWord text) > 0
    · rw [if_pos (decide_eq_true h), Int.mul_comm]
    · rw [if_neg (by simpa using h), Nat.eq_zero_of_not_pos h]
      rfl
  simp only [detectCmdi, cmdiTally, Tally.score_note, hasMeta_eq, length_matchedCommands, hany,
    hcommands, hasEtcFiles, hasBin, hasDevTcp, hasRevShell, strcaseContains_eq, signPoints]
  simp [showsAny]

/-! ### A longer text shows no fewer signs -/

/-- A sign that is still there when more text is around. -/
def Persistent (sign : List UInt8 → Bool) : Prop :=
  ∀ a b, a <:+: b → sign a = true → sign b = true

namespace Persistent

variable {p q : List UInt8 → Bool}

theorem or (hp : Persistent p) (hq : Persistent q) : Persistent fun s => p s || q s := by
  intro a b hab h
  rcases Bool.or_eq_true_iff.mp h with h | h
  · exact Bool.or_eq_true_iff.mpr (Or.inl (hp a b hab h))
  · exact Bool.or_eq_true_iff.mpr (Or.inr (hq a b hab h))

theorem and (hp : Persistent p) (hq : Persistent q) : Persistent fun s => p s && q s := by
  intro a b hab h
  obtain ⟨ha, hb⟩ := Bool.and_eq_true_iff.mp h
  exact Bool.and_eq_true_iff.mpr ⟨hp a b hab ha, hq a b hab hb⟩

theorem substring (needle : List UInt8) : Persistent fun s => decide (needle <:+: s) := by
  intro a b hab h
  exact decide_eq_true ((of_decide_eq_true h).trans hab)

theorem showsWord (word : List UInt8) : Persistent fun s => Nullsploit.showsWord s word := by
  intro a b hab h
  exact decide_eq_true ((of_decide_eq_true h).trans (hab.map toLower))

theorem showsAny (words : List (List UInt8)) : Persistent (Nullsploit.showsAny words) := by
  intro a b hab h
  obtain ⟨word, hword, hshows⟩ := List.any_eq_true.mp h
  exact List.any_eq_true.mpr ⟨word, hword, showsWord word a b hab hshows⟩

/-- Points for such a sign. -/
theorem points (hp : Persistent p) {a b : List UInt8} (hab : a <:+: b) (n : Nat) :
    (if p a then n else 0) ≤ if p b then n else 0 := by
  by_cases ha : p a = true
  · rw [if_pos ha, if_pos (hp a b hab ha)]
  · rw [if_neg ha]
    exact Nat.zero_le _

end Persistent

theorem persistent_showsMeta : Persistent showsMeta := by
  have hchars : Persistent fun s => (str ";|`><").any (s.contains ·) := by
    intro a b hab h
    obtain ⟨c, hc, hmem⟩ := List.any_eq_true.mp h
    rw [List.contains_iff_mem] at hmem
    exact List.any_eq_true.mpr ⟨c, hc, List.contains_iff_mem.mpr (hab.subset hmem)⟩
  exact (hchars.or (.substring _)).or (.substring _)

theorem signPoints_mono {a b : List UInt8} (h : a <:+: b) : signPoints a ≤ signPoints b := by
  have hcommands : commands.countP (showsWord a) ≤ commands.countP (showsWord b) :=
    List.countP_mono_left fun word _ hword => Persistent.showsWord word a b h hword
  have hmeta := persistent_showsMeta.points h 15
  have hetc := (Persistent.showsAny [str "/etc/passwd", str "/etc/shadow"]).points h 35
  have hbin := (Persistent.showsAny [str "/bin/sh", str "/bin/bash"]).points h 30
  have hdev := (Persistent.showsAny [str "/dev/tcp/"]).points h 40
  have hboost := (persistent_showsMeta.and (.showsAny commands)).points h 25
  have hrev := (Persistent.showsAny [str "bash -i", str "sh -i"]).points h 50
  unfold signPoints
  omega

/-! ### Bytes in front of a payload -/

/-- **When bytes in front keep the score** of a payload: there is no NUL among
them, or the signs before the first NUL are worth as much as those hidden. -/
theorem prefix_keeps_score_iff (maxPatternLen maxDetailsLen : Nat) {u v : List UInt8}
    (hlen : (u ++ v).length ≤ 2048) (hpercent : ch '%' ∉ u ++ v) (hplus : ch '+' ∉ u ++ v) :
    (detectCmdi maxPatternLen maxDetailsLen v).score
        ≤ (detectCmdi maxPatternLen maxDetailsLen (u ++ v)).score
      ↔ (0 : UInt8) ∉ u ∨ signPoints (cstr v) ≤ signPoints (cstr u) := by
  have hv : decodedPayload v = v := by
    rw [List.length_append] at hlen
    refine decodedPayload_of_plain (by omega) ?_ ?_
    · exact fun h => hpercent (List.mem_append_right u h)
    · exact fun h => hplus (List.mem_append_right u h)
  have huv : decodedPayload (u ++ v) = u ++ v :=
    decodedPayload_of_plain (by omega) hpercent hplus
  rw [score_detectCmdi, score_detectCmdi, hv, huv, Int.ofNat_le]
  by_cases h0 : (0 : UInt8) ∈ u
  · rw [cstr_append_of_mem h0, or_iff_right (not_not_intro h0)]
  · refine iff_of_true (signPoints_mono ?_) (Or.inl h0)
    rw [cstr_append_of_not_mem h0]
    exact (List.suffix_append u (cstr v)).isInfix

/-- A form field in front of a command. -/
theorem field_keeps_score :
    (str "q=" ++ str ";id").length ≤ 2048 ∧ ch '%' ∉ str "q=" ++ str ";id" ∧
      ch '+' ∉ str "q=" ++ str ";id" ∧
      (detectCmdi 128 256 (str ";id")).score ≤ (detectCmdi 128 256 (str "q=" ++ str ";id")).score :=
  ⟨by decide, by decide, by decide,
    (prefix_keeps_score_iff 128 256 (by decide) (by decide) (by decide)).mpr (Or.inl (by decide))⟩

/-- A NUL byte hides it: alone the payload is flagged with 60 points, behind the
NUL it scores nothing. -/
theorem nul_hides_command :
    ([0] ++ str ";id").length ≤ 2048 ∧ ch '%' ∉ [0] ++ str ";id" ∧ ch '+' ∉ [0] ++ str ";id" ∧
      (detectCmdi 128 256 (str ";id")).score = 60 ∧
      (detectCmdi 128 256 ([0] ++ str ";id")).score = 0 := by
  decide +kernel

end Nullsploit
