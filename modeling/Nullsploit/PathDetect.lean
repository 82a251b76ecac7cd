/-
Nullsploit/PathDetect.lean

The detector for path traversal and file inclusion, kernel/path_detect.c, and
how deep an encoding the three scoring detectors see through.

The inspector decodes a payload once, each detector once more, and a third time
if a percent sign is left.  A text without one decodes to itself, so a payload
that is plain after three rounds looks the same as its plain form
(`scores_of_encoded`).  The path detector also looks for a NUL byte before its
own decoding: an escaped one would be a NUL one round later
(`zero_mem_of_escape`).
-/
import Nullsploit.CmdiDetect
import Nullsploit.SqliDetect

namespace Nullsploit

open CText

/-! ### The detector -/

/-- `while ((ptr = strstr(ptr, needle)) != NULL) { traversal_count++; ptr += 3; }`,
with fuel for one turn per byte. -/
def strstrCount (needle : List UInt8) : Nat → List UInt8 → Nat
  | 0, _ => 0
  | fuel + 1, ptr =>
      match strstrFrom needle ptr with
      | none => 0
      | some ptr => strstrCount needle fuel (ptr.drop 3) + 1

/-- `traversal_count`. -/
def traversalCount (decoded : List UInt8) : Nat :=
  let count needle := strstrCount needle (cstr decoded).length (cstr decoded)
  count (str "../") + count (str "..\\") + count (str "..;")

def lfiTargets : List (List UInt8) :=
  [str "/etc/passwd", str "/etc/shadow", str "/etc/hosts", str "/etc/group", str "/etc/issue",
    str "/proc/self/", str "/proc/version", str "/proc/cmdline",
    str "/var/log/apache", str "/var/log/nginx", str "/var/log/httpd", str "/var/log/auth.log",
    str "boot.ini", str "win.ini", str "system.ini", str "web.config"]

def phpWrappers : List (List UInt8) :=
  [str "php://filter", str "php://input", str "php://output", str "php://temp",
    str "data://text", str "data:text/html", str "zip://", str "phar://", str "expect://"]

/-- `rfi_match`: the first URL found, scheme by scheme, is at the start or
behind an equals sign. -/
def rfiMatch (decoded : List UInt8) : Bool :=
  let s := cstr decoded
  let httpIdx := strstrFrom (str "http://") s <|> strstrFrom (str "https://") s <|>
    strstrFrom (str "ftp://") s
  match httpIdx with
  | none => false
  | some r =>
      let idx := s.length - r.length
      idx = 0 ∨ s.getD (idx - 1) 0 = ch '='

/-- `strstr(payload, "%00") || memchr(payload, 0, payload_len)`. -/
def nullByte (payload : List UInt8) : Bool :=
  strstr (cstr payload) (str "%00") || payload.contains 0

/-- The scores in source order. -/
def pathTally (maxPatternLen : Nat) (payload decoded : List UInt8) : Tally :=
  let note := Tally.note maxPatternLen
  (⟨0, []⟩ : Tally)
    |> note (traversalCount decoded > 0) (traversalCount decoded * 15) (str "TRAVERSAL; ")
    |> note (lfiTargets.any (strcaseContains decoded)) 35 (str "LFI_TARGET; ")
    |> note (phpWrappers.any (strcaseContains decoded)) 45 (str "PHP_WRAPPER; ")
    |> note (rfiMatch decoded) 45 (str "RFI_HTTP; ")
    |> note (nullByte payload) 15 (str "NULL_BYTE; ")

/-- `detect_path_traversal`. -/
def detectPathTraversal (maxPatternLen maxDetailsLen : Nat) (payload : List UInt8) : Detection :=
  let decoded := decodedPayload payload
  let t := pathTally maxPatternLen payload decoded
  ⟨t.score, t.matchedPattern,
    snprintfCut maxDetailsLen (str "Path/LFI/RFI Score: " ++ decimalInt t.score ++
      str ". Matches: " ++ t.matchedPattern ++ str ". Decoded: " ++ cstr decoded)⟩

/-- What `inspect_http_payload` hands to the detectors for a request payload. -/
def scanBuffer (payload : List UInt8) : List UInt8 := urlDecode 4095 (payload.take 2048)

/-! ### Rounds of decoding -/

/-- `url_decode` without truncation: no byte yields more than one. -/
def urlDecoded (s : List UInt8) : List UInt8 := urlDecode s.length s

/-- An escape is three bytes long. -/
theorem urlEscape_eq_some {s rest : List UInt8} {b : UInt8} (h : urlEscape s = some (b, rest)) :
    ∃ hi lo, s = ch '%' :: hi :: lo :: rest ∧ isHexChar hi = true ∧ isHexChar lo = true ∧
      b = hexCharVal hi <<< 4 ||| hexCharVal lo := by
  unfold urlEscape at h
  split at h
  · rename_i c hi lo tail
    split at h
    · rename_i hcond
      obtain ⟨rfl, rfl⟩ := Prod.mk.inj (Option.some.inj h)
      exact ⟨hi, lo, by rw [hcond.1], hcond.2.1, hcond.2.2, rfl⟩
    · cases h
  · cases h

/-- Room to spare makes no difference. -/
theorem urlDecode_of_room {room : Nat} {s : List UInt8} (h : s.length ≤ room) :
    urlDecode room s = urlDecoded s := by
  suffices hsame : ∀ m n (s : List UInt8), s.length ≤ m → s.length ≤ n →
      urlDecode m s = urlDecode n s from hsame room s.length s h (Nat.le_refl _)
  intro m
  induction m with
  | zero =>
      intro n s hm _
      obtain rfl := List.length_eq_zero_iff.mp (Nat.le_zero.mp hm)
      cases n <;> rfl
  | succ m ih =>
      intro n s hm hn
      cases s with
      | nil => cases n <;> rfl
      | cons c s =>
          obtain ⟨n, rfl⟩ : ∃ k, n = k + 1 := Nat.exists_eq_add_one.mpr (by simp at hn; omega)
          rw [List.length_cons] at hm hn
          rw [urlDecode, urlDecode]
          rcases hescape : urlEscape (c :: s) with - | ⟨b, rest⟩
          · dsimp only
            rw [ih n s (by omega) (by omega)]
          · obtain ⟨hi, lo, hs, -⟩ := urlEscape_eq_some hescape
            obtain ⟨rfl, rfl⟩ := List.cons.inj hs
            rw [List.length_cons, List.length_cons] at hm hn
            dsimp only
            rw [ih n rest (by omega) (by omega)]

/-- The two ways a byte is decoded. -/
theorem urlDecoded_cons (c : UInt8) (s : List UInt8) :
    urlDecoded (c :: s) =
      match urlEscape (c :: s) with
      | some (b, rest) => b :: urlDecoded rest
      | none => (if c = ch '+' then ch ' ' else c) :: urlDecoded s := by
  rw [urlDecoded, List.length_cons, urlDecode]
  rcases hescape : urlEscape (c :: s) with - | ⟨b, rest⟩
  · rfl
  · obtain ⟨hi, lo, hs, -⟩ := urlEscape_eq_some hescape
    obtain ⟨rfl, rfl⟩ := List.cons.inj hs
    dsimp only
    rw [urlDecode_of_room (by simp; omega)]

/-- Induction along a decoding: one byte, or an escape, at a time. -/
theorem urlDecoded_induction {P : List UInt8 → Prop} (nil : P [])
    (plain : ∀ c s, urlEscape (c :: s) = none → P s → P (c :: s))
    (escape : ∀ s b rest, urlEscape s = some (b, rest) → P rest → P s) (s : List UInt8) : P s := by
  induction hn : s.length using Nat.strongRecOn generalizing s with
  | ind n ih =>
      subst hn
      cases s with
      | nil => exact nil
      | cons c s =>
          rcases hescape : urlEscape (c :: s) with - | ⟨b, rest⟩
          · exact plain c s hescape (ih s.length (by simp) s rfl)
          · obtain ⟨hi, lo, hs, -⟩ := urlEscape_eq_some hescape
            exact escape _ b rest hescape (ih rest.length (by rw [hs]; simp; omega) rest rfl)

theorem length_urlDecoded_le (s : List UInt8) : (urlDecoded s).length ≤ s.length := by
  induction s using urlDecoded_induction with
  | nil => exact Nat.le_refl 0
  | plain c s hescape ih =>
      rw [urlDecoded_cons, hescape]
      exact Nat.succ_le_succ ih
  | escape s b rest hescape ih =>
      obtain ⟨hi, lo, rfl, -⟩ := urlEscape_eq_some hescape
      rw [urlDecoded_cons, hescape]
      simp only [List.length_cons]
      omega

/-- An escaped NUL is decoded: its percent sign is in no other escape. -/
theorem zero_mem_of_escape {s : List UInt8} (h : str "%00" <:+: s) : (0 : UInt8) ∈ urlDecoded s := by
  have htext : str "%00" = [ch '%', ch '0', ch '0'] := by decide
  have hpercent : isHexChar (ch '%') = false := by decide
  rw [htext] at h
  induction s using urlDecoded_induction with
  | nil => exact absurd h (by simp)
  | plain c s hescape ih =>
      rw [urlDecoded_cons, hescape]
      refine List.mem_cons_of_mem _ (ih ((List.infix_cons_iff.mp h).resolve_left ?_))
      rintro ⟨rest, hrest⟩
      rw [← hrest] at hescape
      exact absurd hescape (by simp [urlEscape, show isHexChar (ch '0') = true by decide])
  | escape s b rest hescape ih =>
      obtain ⟨hi, lo, rfl, hhi, hlo, hb⟩ := urlEscape_eq_some hescape
      rw [urlDecoded_cons, hescape]
      rcases List.infix_cons_iff.mp h with ⟨tail, htail⟩ | h
      · -- this very escape
        obtain ⟨rfl, rfl, -⟩ : ch '0' = hi ∧ ch '0' = lo ∧ tail = rest := by simpa using htail
        rw [show b = 0 from hb.trans (by decide)]
        exact List.mem_cons_self
      · -- a digit is no percent sign, so it is behind this one
        refine List.mem_cons_of_mem _ (ih ?_)
        have hnot : ∀ d, isHexChar d = true → ∀ r, ¬ [ch '%', ch '0', ch '0'] <+: d :: r := by
          rintro d hd r ⟨tail, htail⟩
          rw [← (List.cons.inj htail).1, hpercent] at hd
          cases hd
        exact (List.infix_cons_iff.mp ((List.infix_cons_iff.mp h).resolve_left
          (hnot hi hhi _))).resolve_left (hnot lo hlo _)

theorem urlDecoded_of_plain {s : List UInt8} (hpercent : ch '%' ∉ s) (hplus : ch '+' ∉ s) :
    urlDecoded s = s := urlDecode_of_plain (Nat.le_refl _) hpercent hplus

/-- A detector decodes twice: where it does not, the second round would change
nothing. -/
theorem decodedPayload_eq {s : List UInt8} (hlen : s.length ≤ 4095) (hzero : (0 : UInt8) ∉ urlDecoded s)
    (hplus : ch '+' ∉ urlDecoded s) : decodedPayload s = urlDecoded (urlDecoded s) := by
  unfold decodedPayload
  rw [urlDecode_of_room hlen]
  dsimp only
  rw [cstr_of_not_mem hzero]
  rcases hfound : strchr (ch '%') (urlDecoded s) with - | p
  · -- no percent sign left
    exact (urlDecoded_of_plain (strchr_eq_none_iff.mp hfound) hplus).symm
  · exact urlDecode_of_room ((length_urlDecoded_le s).trans hlen)

/-! ### Encoded payloads -/

/-- The scores of the three detectors, as `inspect_http_payload` calls them for a
request payload. -/
def inspectorScores (stale : Nat → List UInt8) (maxPatternLen maxDetailsLen : Nat)
    (payload : List UInt8) : Int × Int × Int :=
  ((detectSqli stale maxPatternLen maxDetailsLen (scanBuffer payload)).score,
    (detectCmdi maxPatternLen maxDetailsLen (scanBuffer payload)).score,
    (detectPathTraversal maxPatternLen maxDetailsLen (scanBuffer payload)).score)

/-- The scores depend on the text after the detectors' own decoding, and on the
NUL bytes before it. -/
theorem inspectorScores_congr (stale : Nat → List UInt8) (maxPatternLen maxDetailsLen : Nat)
    {a b : List UInt8} (hdecoded : decodedPayload (scanBuffer a) = decodedPayload (scanBuffer b))
    (hnull : nullByte (scanBuffer a) = nullByte (scanBuffer b)) :
    inspectorScores stale maxPatternLen maxDetailsLen a
      = inspectorScores stale maxPatternLen maxDetailsLen b := by
  unfold inspectorScores detectSqli detectCmdi detectPathTraversal pathTally
  rw [hdecoded, hnull]

/-- **Three rounds of encoding hide nothing.**  A payload that is plain after
three rounds of decoding, with no plus sign and no NUL on the way, gets the
scores of its plain form. -/
theorem scores_of_encoded (stale : Nat → List UInt8) (maxPatternLen maxDetailsLen : Nat)
    {e : List UInt8} (hlen : e.length ≤ 2048)
    (hclean : ∀ s ∈ [e, urlDecoded e, urlDecoded (urlDecoded e),
      urlDecoded (urlDecoded (urlDecoded e))], ch '+' ∉ s ∧ (0 : UInt8) ∉ s)
    (hpercent : ch '%' ∉ urlDecoded (urlDecoded (urlDecoded e))) :
    inspectorScores stale maxPatternLen maxDetailsLen e
      = inspectorScores stale maxPatternLen maxDetailsLen
        (urlDecoded (urlDecoded (urlDecoded e))) := by
  have hone := length_urlDecoded_le e
  have htwo := length_urlDecoded_le (urlDecoded e)
  have hthree := length_urlDecoded_le (urlDecoded (urlDecoded e))
  obtain ⟨-, hzero₁⟩ := hclean (urlDecoded e) (by simp)
  obtain ⟨hplus₂, hzero₂⟩ := hclean (urlDecoded (urlDecoded e)) (by simp)
  obtain ⟨hplus, hzero⟩ := hclean (urlDecoded (urlDecoded (urlDecoded e))) (by simp)
  have hbuffer : ∀ s : List UInt8, s.length ≤ 2048 → scanBuffer s = urlDecoded s := by
    intro s hs
    rw [scanBuffer, List.take_of_length_le hs, urlDecode_of_room (by omega)]
  have hnull : ∀ s : List UInt8, (0 : UInt8) ∉ s → (0 : UInt8) ∉ urlDecoded s →
      nullByte s = false := by
    intro s hs hdecoded
    have hescape : ¬ str "%00" <:+: cstr s := by
      rw [cstr_of_not_mem hs]
      exact fun h => hdecoded (zero_mem_of_escape h)
    simp [nullByte, strstr, hescape, hs]
  generalize hp : urlDecoded (urlDecoded (urlDecoded e)) = p at *
  have hplain : urlDecoded p = p := urlDecoded_of_plain hpercent hplus
  have hbuffer' : scanBuffer p = p := (hbuffer p (by omega)).trans hplain
  apply inspectorScores_congr
  · rw [hbuffer e hlen, hbuffer', decodedPayload_eq (by omega) hzero₂ hplus₂, hp,
      decodedPayload_of_plain (by omega) hpercent hplus]
  · rw [hbuffer e hlen, hbuffer', hnull _ hzero₁ hzero₂, hnull p hzero (by rwa [hplain])]

/-- A command whose bytes are encoded once, twice and three times. -/
theorem scores_of_nested_command :
    urlDecoded (urlDecoded (urlDecoded (str "%3B%2569%252564"))) = str ";id" ∧
      inspectorScores (fun _ => []) 128 256 (str "%3B%2569%252564")
        = inspectorScores (fun _ => []) 128 256 (str ";id") := by
  have hplain : urlDecoded (urlDecoded (urlDecoded (str "%3B%2569%252564"))) = str ";id" := by decide
  refine ⟨hplain, ?_⟩
  rw [← hplain]
  exact scores_of_encoded (fun _ => []) 128 256 (by decide) (by decide) (by decide)

end Nullsploit
