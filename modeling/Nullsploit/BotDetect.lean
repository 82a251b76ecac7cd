/-
Nullsploit/BotDetect.lean

The bot detector, kernel/bot_detect.c.  It works on a copy of the first 1023
bytes: two words are scanned off the front for the path, the user agent is
looked up by name, and each is compared with a list.

The name is searched in the text as it stands, and the value starts at the next
byte that is no white space.  Where the first occurrence of the name begins a
header line, the value read is that of the line exactly if it is in the copy as
far as it is kept, or blank with nothing but white space behind it
(`userAgent_exact_iff`).
-/
import Mathlib.Data.List.DropRight
import Nullsploit.CaseFold
import Nullsploit.DetectText

namespace Nullsploit

open CText CaseFold

/-! ### The detector -/

/-- `scanner_uas`. -/
def scannerUas : List (List UInt8) :=
  [str "sqlmap", str "nikto", str "dirbuster", str "gobuster", str "burpsuite", str "arachni",
    str "w3af", str "hydra", str "nmap", str "masscan", str "nessus", str "acunetix",
    str "netsparker", str "owasp", str "python-urllib", str "python-requests", str "curl/",
    str "wget", str "go-http-client", str "libwww-perl", str "lwp-trivial", str "perl", str "ruby",
    str "httpx", str "zjgr"]

/-- `honeypot_paths`. -/
def honeypotPaths : List (List UInt8) :=
  [str "/wp-login.php", str "/wp-admin", str "/xmlrpc.php", str "/phpmyadmin", str "/pma/",
    str "/dbadmin/", str "/.env", str "/config.php", str "/database.yml", str "/credentials",
    str "/.git/config", str "/.git/HEAD", str "/admin/login", str "/admin/config",
    str "/administrator/", str "/shell.php", str "/cmd.php", str "/upload.php"]

/-- `headers_copy`, as the string functions see it. -/
def headersCopy (payload : List UInt8) : List UInt8 := cstr (payload.take 1023)

/-- `sscanf(headers_copy, "%15s %511s", method, path)`: the path if both are found. -/
def requestPath (headers : List UInt8) : Option (List UInt8) :=
  (scanWord 15 headers).bind fun method => (scanWord 511 method.2).map Prod.fst

/-- A byte of a value: no line end. -/
def inLine (b : UInt8) : Bool := b ≠ 13 ∧ b ≠ 10

/-- `user_agent`. -/
def userAgent (headers : List UInt8) : List UInt8 :=
  match strcasestr (str "User-Agent:") headers with
  | none => []
  | some uaHdr => (((uaHdr.drop 11).dropWhile isSpace).takeWhile inLine).take 255

/-- `matched_ua`; an empty user agent is not looked up. -/
def matchedUa (agent : List UInt8) : Option (List UInt8) :=
  if agent = [] then none else scannerUas.find? (strcaseContains agent)

/-- `matched_honeypot`. -/
def matchedHoneypot (path : Option (List UInt8)) : Option (List UInt8) :=
  path.bind fun path => honeypotPaths.find? (strcaseContains path)

/-- The scores in source order. -/
def botTally (maxPatternLen : Nat) (headers : List UInt8) : Tally :=
  let agent := userAgent headers
  let uaMatch := (matchedUa agent).isSome
  let honeypotMatch := (matchedHoneypot (requestPath headers)).isSome
  let note := Tally.note maxPatternLen
  (⟨0, []⟩ : Tally)
    |> note (agent = []) 20 (str "EMPTY_UA; ")
    |> note uaMatch 45 (str "SCANNER_UA; ")
    |> note honeypotMatch 45 (str "HONEYPOT_PATH; ")
    |> note (uaMatch && honeypotMatch) 10 []

/-- `detect_bot`. -/
def detectBot (maxPatternLen maxDetailsLen : Nat) (payload : List UInt8) : Detection :=
  let headers := headersCopy payload
  let t := botTally maxPatternLen headers
  let agent := userAgent headers
  let ua := (matchedUa agent).getD (if agent = [] then str "None" else str "Browser/Other")
  let path := (matchedHoneypot (requestPath headers)).getD (str "None")
  ⟨t.score, t.matchedPattern,
    snprintfCut maxDetailsLen (str "Bot Score: " ++ decimalInt t.score ++ str ". Matches: " ++
      t.matchedPattern ++ str ". UA: " ++ ua ++ str ", Path: " ++ path)⟩

/-! ### Requests -/

/-- The line end of HTTP. -/
def crlf : List UInt8 := [13, 10]

/-- Lines as they are sent. -/
def sendLines (lines : List (List UInt8)) : List UInt8 := lines.flatMap (· ++ crlf)

/-- A request: its first line, its header lines, and whether the blank line
behind them is there. -/
structure RequestText where
  requestLine : List UInt8
  headers : List (List UInt8)
  ended : Bool
  clean : ∀ line ∈ requestLine :: headers, ∀ b ∈ line, b ≠ 0 ∧ inLine b = true
  nonempty : ∀ line ∈ headers, line ≠ []

namespace RequestText

variable (r : RequestText)

/-- The request on the wire. -/
def text : List UInt8 :=
  sendLines (r.requestLine :: r.headers) ++ if r.ended then crlf else []

/-- The line is a user agent header. -/
def IsAgentLine (line : List UInt8) : Prop :=
  (str "User-Agent:").map toLower <+: line.map toLower

instance (line : List UInt8) : Decidable (IsAgentLine line) :=
  inferInstanceAs (Decidable ((str "User-Agent:").map toLower <+: line.map toLower))

/-- The value of a user agent line. -/
def agentValue (line : List UInt8) : List UInt8 := (line.drop 11).dropWhile isSpace

/-- The user agent of the request: the value of the first such line, up to 255
bytes of it. -/
def agent : List UInt8 :=
  match r.headers.find? fun line => decide (IsAgentLine line) with
  | none => []
  | some line => (agentValue line).take 255

/-- The first user agent line, with the text in front of it. -/
def AgentLineAt (front line : List UInt8) : Prop :=
  ∃ before after, r.headers = before ++ line :: after ∧ IsAgentLine line ∧
    (∀ l ∈ before, ¬ IsAgentLine l) ∧ front = sendLines (r.requestLine :: before)

/-- The first occurrence of the name in the copy, if there is one, begins a
header line. -/
def NameAnchored : Prop :=
  ∀ found, strcasestr (str "User-Agent:") (r.text.take 1023) = some found →
    ∃ before line after, r.headers = before ++ line :: after ∧
      r.text.take 1023 = sendLines (r.requestLine :: before) ++ found

/-- What is kept of the value is in the copy; or it is blank, and only white space
follows there. -/
def AgentInCopy (front line : List UInt8) : Prop :=
  if agentValue line = [] then ∀ b ∈ (r.text.take 1023).drop (front.length + 11), isSpace b = true
  else front.length + (line.length - (agentValue line).length) + min 255 (agentValue line).length
    ≤ 1023

/-! ### The first user agent line -/

theorem zero_not_mem_text : (0 : UInt8) ∉ r.text := by
  intro h
  have hcrlf : (0 : UInt8) ∉ crlf := by decide
  rcases List.mem_append.mp h with h | h
  · obtain ⟨line, hline, h⟩ := List.mem_flatMap.mp h
    rcases List.mem_append.mp h with h | h
    · exact (r.clean line hline 0 h).1 rfl
    · exact hcrlf h
  · split at h
    · exact hcrlf h
    · cases h

theorem headersCopy_text : headersCopy r.text = r.text.take 1023 :=
  cstr_of_not_mem fun h => r.zero_not_mem_text (List.mem_of_mem_take h)

variable {r} {front line : List UInt8}

/-- The first line is found at its place. -/
theorem AgentLineAt.spec (h : r.AgentLineAt front line) :
    r.agent = (agentValue line).take 255 ∧ line ∈ r.headers ∧ IsAgentLine line ∧
      front = sendLines (r.requestLine :: r.headers.takeWhile fun l => ¬ IsAgentLine l) ∧
      ∃ tail, r.text = front ++ (line ++ 13 :: tail) := by
  obtain ⟨before, after, hsplit, hline, hbefore, rfl⟩ := h
  have htake : r.headers.takeWhile (fun l => ¬ IsAgentLine l) = before := by
    rw [hsplit, List.takeWhile_append_of_pos (by simpa using hbefore),
      List.takeWhile_cons_of_neg (by simpa using hline), List.append_nil]
  have hfind : r.headers.find? (fun line => decide (IsAgentLine line)) = some line := by
    rw [hsplit, List.find?_append, List.find?_eq_none.mpr (by simpa using hbefore),
      List.find?_cons_of_pos (by simpa using hline)]
    rfl
  refine ⟨by rw [agent, hfind], by rw [hsplit]; simp, hline, by rw [htake], ?_⟩
  refine ⟨10 :: (sendLines after ++ if r.ended then crlf else []), ?_⟩
  rw [text, hsplit]
  simp [sendLines, crlf]

/-- There is one such line, or none and no user agent. -/
theorem agentLineAt_or (r : RequestText) :
    (∃ front line, r.AgentLineAt front line) ∨
      r.agent = [] ∧ ∀ front line, ¬ r.AgentLineAt front line := by
  rcases hfind : r.headers.find? fun line => decide (IsAgentLine line) with - | line
  · refine Or.inr ⟨by rw [agent, hfind], ?_⟩
    rintro front line ⟨before, after, hsplit, hline, -⟩
    have hno := List.find?_eq_none.mp hfind line (by rw [hsplit]; simp)
    exact hno (by simpa using hline)
  · obtain ⟨hline, before, after, hsplit, hbefore⟩ := List.find?_eq_some_iff_append.mp hfind
    exact Or.inl ⟨_, line, before, after, hsplit, by simpa using hline, by simpa using hbefore, rfl⟩

theorem AgentLineAt.unique {front' line' : List UInt8} (h : r.AgentLineAt front line)
    (h' : r.AgentLineAt front' line') : front' = front ∧ line' = line := by
  obtain ⟨-, -, -, hfront, tail, htext⟩ := h.spec
  obtain ⟨-, -, -, hfront', tail', htext'⟩ := h'.spec
  have hfronts : front' = front := by rw [hfront, hfront']
  refine ⟨hfronts, ?_⟩
  obtain ⟨before, after, hsplit, hline, hbefore, -⟩ := h
  obtain ⟨before', after', hsplit', hline', hbefore', -⟩ := h'
  have hfind : r.headers.find? (fun line => decide (IsAgentLine line)) = some line :=
    List.find?_eq_some_iff_append.mpr ⟨by simpa using hline, before, after, hsplit, by simpa using hbefore⟩
  have hfind' : r.headers.find? (fun line => decide (IsAgentLine line)) = some line' :=
    List.find?_eq_some_iff_append.mpr
      ⟨by simpa using hline', before', after', hsplit', by simpa using hbefore'⟩
  exact Option.some.inj (hfind'.symm.trans hfind)

/-! ### The value in the copy -/

theorem length_agentName : (str "User-Agent:").length = 11 := by decide

/-- The name does not cross the end of a line. -/
theorem isAgentLine_of_found {line tail : List UInt8}
    (h : (str "User-Agent:").map toLower <+: (line ++ 13 :: tail).map toLower) : IsAgentLine line := by
  have hcr : (13 : UInt8) ∉ (str "User-Agent:").map toLower := by decide
  rw [List.map_append, List.map_cons, show toLower 13 = 13 by decide] at h
  rcases Nat.lt_or_ge (line.map toLower).length ((str "User-Agent:").map toLower).length with hlt | hle
  · exfalso
    have hpre : line.map toLower ++ [13] <+: line.map toLower ++ 13 :: tail.map toLower :=
      ⟨tail.map toLower, by simp⟩
    have hle : (line.map toLower ++ [13]).length ≤ ((str "User-Agent:").map toLower).length := by
      rw [List.length_append, List.length_singleton]
      omega
    exact hcr ((List.prefix_of_prefix_length_le hpre h hle).subset (by simp))
  · exact List.prefix_of_prefix_length_le h (List.prefix_append _ _) hle

theorem length_of_isAgentLine (h : IsAgentLine line) : 11 ≤ line.length := by
  have := h.length_le
  rwa [List.length_map, List.length_map, length_agentName] at this

/-- A line is its name, blanks and the value. -/
theorem agentValue_split (h : IsAgentLine line) :
    ∃ blanks, (∀ b ∈ blanks, isSpace b = true) ∧ line.drop 11 = blanks ++ agentValue line ∧
      blanks.length + 11 + (agentValue line).length = line.length := by
  refine ⟨(line.drop 11).takeWhile isSpace, fun b hb => List.mem_takeWhile_imp hb,
    (List.takeWhile_append_dropWhile).symm, ?_⟩
  have hlen := congrArg List.length (List.takeWhile_append_dropWhile (p := isSpace) (l := line.drop 11))
  have hline := length_of_isAgentLine h
  rw [List.length_append, List.length_drop] at hlen
  unfold agentValue
  omega

theorem inLine_of_not_isSpace {b : UInt8} (h : isSpace b = false) : inLine b = true := by
  have hall : ∀ b, isSpace b = false → inLine b = true := forall_byte (by decide +kernel)
  exact hall b h

/-- Where no value is to be seen, all is white space. -/
theorem shown_eq_nil_iff (s : List UInt8) :
    ((s.dropWhile isSpace).takeWhile inLine).take 255 = [] ↔ ∀ b ∈ s, isSpace b = true := by
  rw [← List.dropWhile_eq_nil_iff (p := isSpace)]
  rcases e : s.dropWhile isSpace with - | ⟨b, t⟩
  · simp
  · have hb := inLine_of_not_isSpace (head_of_dropWhile e)
    rw [List.takeWhile_cons_of_pos hb]
    simp

/-- What is shown of a value with a line end behind it, in a copy cut at `k`. -/
theorem shown_value {blanks v : List UInt8} (hblanks : ∀ b ∈ blanks, isSpace b = true)
    (hv : ∀ b ∈ v, inLine b = true) (hhead : v.dropWhile isSpace = v) (hne : v ≠ [])
    (tail : List UInt8) (k : Nat) :
    (((((blanks ++ v) ++ 13 :: tail).take k).dropWhile isSpace).takeWhile inLine)
      = v.take (k - blanks.length) := by
  obtain ⟨c, w, rfl⟩ := List.exists_cons_of_ne_nil hne
  have hc : isSpace c = false := by
    rcases hcase : isSpace c with - | -
    · rfl
    · rw [List.dropWhile_cons_of_pos hcase] at hhead
      have hlen := congrArg List.length hhead
      have := (List.dropWhile_sublist (p := isSpace) (l := w)).length_le
      rw [List.length_cons] at hlen
      omega
  rw [List.append_assoc, List.take_append, List.dropWhile_append_of_pos
    (fun b hb => hblanks b (List.mem_of_mem_take hb))]
  generalize k - blanks.length = m
  match m with
  | 0 => rfl
  | m + 1 =>
      rw [List.cons_append, List.take_succ_cons, List.dropWhile_cons_of_neg (by simp [hc]),
        ← List.take_succ_cons, ← List.cons_append, List.take_append,
        List.takeWhile_append_of_pos (fun b hb => hv b (List.mem_of_mem_take hb))]
      generalize m + 1 - (c :: w).length = j
      match j with
      | 0 => exact List.append_nil _
      | j + 1 =>
          show List.take (m + 1) (c :: w) ++ List.takeWhile inLine (13 :: tail.take j) = _
          rw [List.takeWhile_cons_of_neg (by decide), List.append_nil]

/-! ### Exactness -/

/-- The copy from the first user agent line on. -/
theorem take_text {tail : List UInt8} (htext : r.text = front ++ (line ++ 13 :: tail))
    (hfront : front.length ≤ 1023) :
    r.text.take 1023 = front ++ (line ++ 13 :: tail).take (1023 - front.length) := by
  rw [htext, List.take_append, List.take_of_length_le hfront]

/-- A name that is in the copy is found there. -/
theorem AgentLineAt.infix_copy (h : r.AgentLineAt front line) (hfits : front.length + 11 ≤ 1023) :
    (str "User-Agent:").map toLower <:+: (r.text.take 1023).map toLower := by
  obtain ⟨-, -, hline, -, tail, htext⟩ := h.spec
  rw [take_text htext (by omega), List.map_append, List.map_take]
  refine List.IsInfix.trans ?_ (List.suffix_append _ _).isInfix
  apply List.IsPrefix.isInfix
  have hname : (str "User-Agent:").map toLower <+: (line ++ 13 :: tail).map toLower := by
    rw [List.map_append]
    exact hline.trans (List.prefix_append _ _)
  apply List.prefix_of_prefix_length_le hname
  · exact List.take_prefix _ _
  · have hlen := length_of_isAgentLine hline
    rw [List.length_map, length_agentName, List.length_take, List.length_map, List.length_append]
    omega

/-- The name is not in the copy. -/
theorem exact_of_not_found (h : strcasestr (str "User-Agent:") (r.text.take 1023) = none) :
    userAgent (headersCopy r.text) = r.agent ↔
      ∀ front line, r.AgentLineAt front line → r.AgentInCopy front line := by
  have hua : userAgent (headersCopy r.text) = [] := by
    rw [headersCopy_text, userAgent, h]
  rw [hua]
  rcases r.agentLineAt_or with ⟨front, line, hat⟩ | ⟨hagent, hnone⟩
  · obtain ⟨hagent, -, hline, -⟩ := hat.spec
    obtain ⟨blanks, -, -, hlen⟩ := agentValue_split hline
    have hfar : 1023 < front.length + 11 := by
      refine Nat.lt_of_not_le fun hfits => ?_
      have hfound := isSome_strcasestr.mpr (hat.infix_copy hfits)
      rw [h] at hfound
      cases hfound
    have hiff : ([] : List UInt8) = r.agent ↔ agentValue line = [] := by
      rw [hagent, eq_comm, List.take_eq_nil_iff]
      simp
    rw [hiff]
    constructor
    · intro hblank front' line' hat'
      obtain ⟨rfl, rfl⟩ := hat.unique hat'
      rw [AgentInCopy, if_pos hblank]
      intro b hb
      rw [List.drop_eq_nil_of_le] at hb
      · cases hb
      · exact (List.length_take_le _ _).trans (by omega)
    · intro hcopy
      by_contra hne
      have hin := hcopy front line hat
      rw [AgentInCopy, if_neg hne] at hin
      have hpos := List.length_pos_of_ne_nil hne
      omega
  · rw [hagent]
    exact iff_of_true rfl fun front line hat => absurd hat (hnone front line)

/-- Where the first occurrence begins a header line, that is the first user agent
line. -/
theorem agentLineAt_of_found {before after : List (List UInt8)} {found : List UInt8}
    (hsplit : r.headers = before ++ line :: after)
    (h : strcasestr (str "User-Agent:") (r.text.take 1023) = some found)
    (hcopy : r.text.take 1023 = sendLines (r.requestLine :: before) ++ found) :
    r.AgentLineAt (sendLines (r.requestLine :: before)) line := by
  obtain ⟨pre, hpre, hname, hfirst⟩ := strcasestr_eq_some h
  obtain rfl : pre = sendLines (r.requestLine :: before) :=
    List.append_cancel_right (hpre.symm.trans hcopy)
  refine ⟨before, after, hsplit, ?_, ?_, rfl⟩
  · -- the rest of the copy is the front of the rest of the text
    obtain ⟨tail, htext⟩ : ∃ tail, r.text
        = sendLines (r.requestLine :: before) ++ (line ++ 13 :: tail) :=
      ⟨10 :: (sendLines after ++ if r.ended then crlf else []), by
        rw [text, hsplit]
        simp [sendLines, crlf]⟩
    have hfound : found <+: line ++ 13 :: tail := by
      have hcut : r.text.take 1023 <+: r.text := List.take_prefix _ _
      rw [hcopy, htext] at hcut
      exact (List.prefix_append_right_inj _).mp hcut
    exact isAgentLine_of_found (hname.trans (hfound.map toLower))
  · intro l hl hagent
    obtain ⟨b₁, b₂, rfl⟩ := List.append_of_mem hl
    have hearlier := hfirst (sendLines (r.requestLine :: b₁)) (l ++ crlf ++ sendLines b₂ ++ found)
      (by rw [hcopy]; simp [sendLines]) ?_
    · have hlen := length_of_isAgentLine hagent
      simp only [sendLines, List.flatMap_cons, List.flatMap_append, List.length_append] at hearlier
      omega
    · rw [List.append_assoc, List.append_assoc, List.map_append]
      exact hagent.trans (List.prefix_append _ _)

/-- The name is found at the start of the first user agent line. -/
theorem exact_of_found (hat : r.AgentLineAt front line) {found : List UInt8}
    (h : strcasestr (str "User-Agent:") (r.text.take 1023) = some found)
    (hcopy : r.text.take 1023 = front ++ found) :
    userAgent (headersCopy r.text) = r.agent ↔ r.AgentInCopy front line := by
  obtain ⟨hagent, hmem, hline, -, tail, htext⟩ := hat.spec
  obtain ⟨blanks, hblanks, hdrop, hlen⟩ := agentValue_split hline
  have hfront : front.length ≤ 1023 := by
    have := congrArg List.length hcopy
    have := List.length_take_le 1023 r.text
    rw [List.length_append] at *
    omega
  have hfound : found = (line ++ 13 :: tail).take (1023 - front.length) :=
    List.append_cancel_left (hcopy.symm.trans (take_text htext hfront))
  have hshown : found.drop 11
      = ((blanks ++ agentValue line) ++ 13 :: tail).take (1023 - front.length - 11) := by
    have hline11 := length_of_isAgentLine hline
    rw [hfound, List.drop_take, List.drop_append_of_le_length hline11, hdrop]
  have hua : userAgent (headersCopy r.text)
      = (((found.drop 11).dropWhile isSpace).takeWhile inLine).take 255 := by
    rw [headersCopy_text, userAgent, h]
  rw [hua, hagent]
  unfold AgentInCopy
  by_cases hblank : agentValue line = []
  · rw [if_pos hblank, hblank, List.take_nil, shown_eq_nil_iff, hcopy, ← List.drop_drop,
      List.drop_left]
  · have hclean : ∀ b ∈ agentValue line, inLine b = true := by
      intro b hb
      have hdropped : b ∈ line.drop 11 := by rw [hdrop]; exact List.mem_append_right _ hb
      exact (r.clean line (List.mem_cons_of_mem _ hmem) b (List.mem_of_mem_drop hdropped)).2
    have hhead : (agentValue line).dropWhile isSpace = agentValue line := by
      exact List.dropWhile_idempotent _ _
    rw [if_neg hblank, hshown, shown_value hblanks hclean hhead hblank, List.take_take]
    constructor
    · intro heq
      have hlens := congrArg List.length heq
      rw [List.length_take, List.length_take] at hlens
      have := List.length_pos_of_ne_nil hblank
      omega
    · intro hfits
      rw [List.take_eq_take_iff]
      omega

end RequestText

/-- **When the user agent is exact.**  In a request whose first occurrence of the
name, if it is among the first 1023 bytes, begins a header line, the user agent
is that of the first such line exactly if it is in the copy. -/
theorem userAgent_exact_iff (r : RequestText) (hanchored : r.NameAnchored) :
    userAgent (headersCopy r.text) = r.agent ↔
      ∀ front line, r.AgentLineAt front line → r.AgentInCopy front line := by
  rcases h : strcasestr (str "User-Agent:") (r.text.take 1023) with - | found
  · exact RequestText.exact_of_not_found h
  · obtain ⟨before, line, after, hsplit, hcopy⟩ := hanchored found h
    have hat := RequestText.agentLineAt_of_found hsplit h hcopy
    rw [RequestText.exact_of_found hat h hcopy]
    constructor
    · intro hin front' line' hat'
      obtain ⟨rfl, rfl⟩ := hat.unique hat'
      exact hin
    · exact fun hall => hall _ _ hat

/-- A request of one header line. -/
def agentRequest (requestLine line : String)
    (clean : [str requestLine, str line].all fun line => line.all fun b => b ≠ 0 ∧ inLine b)
    (nonempty : str line ≠ []) : RequestText where
  requestLine := str requestLine
  headers := [str line]
  ended := true
  clean := by simpa using clean
  nonempty := by simpa using nonempty

/-- The scanner of the detector's own test. -/
theorem userAgent_exact_sqlmap :
    let r := agentRequest "GET / HTTP/1.1" "User-Agent: sqlmap/1.4.5#stable" (by decide) (by decide)
    r.NameAnchored ∧ userAgent (headersCopy r.text) = str "sqlmap/1.4.5#stable" := by
  intro r
  have hanchored : r.NameAnchored := by
    intro found hfound
    refine ⟨[], str "User-Agent: sqlmap/1.4.5#stable", [], rfl, ?_⟩
    have hfirst : strcasestr (str "User-Agent:") (r.text.take 1023)
        = some (str "User-Agent: sqlmap/1.4.5#stable" ++ crlf ++ crlf) := by decide
    obtain rfl := Option.some.inj (hfirst.symm.trans hfound)
    decide
  refine ⟨hanchored, ((userAgent_exact_iff r hanchored).mpr ?_).trans (by decide)⟩
  intro front line hat
  obtain ⟨-, hmem, -, hfront, -⟩ := hat.spec
  obtain rfl : line = str "User-Agent: sqlmap/1.4.5#stable" := List.mem_singleton.mp hmem
  rw [RequestText.AgentInCopy, hfront]
  decide

/-- The name in the path is taken for the header, and the scanner behind it is
not seen. -/
theorem agent_read_from_path :
    let r := agentRequest "GET /?User-Agent:x HTTP/1.1" "User-Agent: sqlmap" (by decide) (by decide)
    r.text.length ≤ 2048 ∧ r.agent = str "sqlmap" ∧
      userAgent (headersCopy r.text) = str "x HTTP/1.1" ∧
      userAgent (headersCopy r.text) ≠ r.agent := by
  decide

end Nullsploit
