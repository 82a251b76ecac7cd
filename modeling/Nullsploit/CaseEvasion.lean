/-
Nullsploit/CaseEvasion.lean

Writing a request in other letters does not change what it scores: two payloads
that differ in the case of letters only, those of percent escapes included, get
the same score from `detect_cmdi` and from `detect_bot`.

Each step on the way keeps the two texts alike (`SameFold`): a percent escape
decodes to the same byte in either case, the request line is cut at white space,
the headers at line ends, and what is compared literally has no letters in it.
-/
import Nullsploit.BotDetect
import Nullsploit.CmdiDetect

namespace Nullsploit

open CText CaseFold

variable {s t : List UInt8}

/-! ### Decoding -/

theorem isHexChar_toLower (b : UInt8) : isHexChar (toLower b) = isHexChar b :=
  forall_byte (P := fun b => isHexChar (toLower b) = isHexChar b) (by decide +kernel) b

theorem hexCharVal_toLower (b : UInt8) : hexCharVal (toLower b) = hexCharVal b :=
  forall_byte (P := fun b => hexCharVal (toLower b) = hexCharVal b) (by decide +kernel) b

/-- Digits of a percent escape in either case. -/
theorem hexChar_congr {a b : UInt8} (h : toLower a = toLower b) :
    isHexChar a = isHexChar b ∧ hexCharVal a = hexCharVal b := by
  rw [← isHexChar_toLower a, ← hexCharVal_toLower a, h, isHexChar_toLower, hexCharVal_toLower]
  exact ⟨rfl, rfl⟩

/-- Equality with a byte that is no letter. -/
theorem eq_iff_of_caseless {a b c : UInt8} (hc : Caseless c) (h : toLower a = toLower b) :
    a = c ↔ b = c := by
  constructor
  · rintro rfl
    exact hc b h.symm
  · rintro rfl
    exact hc a h

theorem caseless_percent : Caseless (ch '%') := caseless_of_not_letter (by decide) (by decide)
theorem caseless_plus : Caseless (ch '+') := caseless_of_not_letter (by decide) (by decide)

theorem sameFold_urlEscape (h : SameFold s t) :
    Option.Rel (fun a b => a.1 = b.1 ∧ SameFold a.2 b.2) (urlEscape s) (urlEscape t) := by
  rcases h.cases_on with ⟨rfl, rfl⟩ | ⟨a, s, a', t, rfl, rfl, ha, h⟩
  · exact .none
  rcases h.cases_on with ⟨rfl, rfl⟩ | ⟨b, s, b', t, rfl, rfl, hb, h⟩
  · exact .none
  rcases h.cases_on with ⟨rfl, rfl⟩ | ⟨c, s, c', t, rfl, rfl, hc, h⟩
  · exact .none
  obtain ⟨hb₁, hb₂⟩ := hexChar_congr hb
  obtain ⟨hc₁, hc₂⟩ := hexChar_congr hc
  have hcond : (a = ch '%' ∧ isHexChar b = true ∧ isHexChar c = true) ↔
      (a' = ch '%' ∧ isHexChar b' = true ∧ isHexChar c' = true) := by
    rw [eq_iff_of_caseless caseless_percent ha, hb₁, hc₁]
  rw [urlEscape, urlEscape]
  by_cases hescape : a = ch '%' ∧ isHexChar b = true ∧ isHexChar c = true
  · rw [if_pos hescape, if_pos (hcond.mp hescape), hb₂, hc₂]
    exact .some ⟨rfl, h⟩
  · rw [if_neg hescape, if_neg fun hc => hescape (hcond.mpr hc)]
    exact .none

theorem sameFold_urlDecode (room : Nat) (h : SameFold s t) :
    SameFold (urlDecode room s) (urlDecode room t) := by
  induction room generalizing s t with
  | zero => exact rfl
  | succ room ih =>
      rcases h.cases_on with ⟨rfl, rfl⟩ | ⟨a, s', b, t', rfl, rfl, hab, hst⟩
      · exact rfl
      · rw [urlDecode, urlDecode]
        rcases hs : urlEscape (a :: s') with - | ⟨x, u⟩ <;>
          rcases ht : urlEscape (b :: t') with - | ⟨y, v⟩ <;>
          have hrel := sameFold_urlEscape h <;> rw [hs, ht] at hrel
        · dsimp only
          refine SameFold.cons_iff.mpr ⟨?_, ih hst⟩
          by_cases ha : a = ch '+'
          · rw [if_pos ha, if_pos ((eq_iff_of_caseless caseless_plus hab).mp ha)]
          · rw [if_neg ha, if_neg fun hb => ha ((eq_iff_of_caseless caseless_plus hab).mpr hb), hab]
        · cases hrel
        · cases hrel
        · cases hrel with
          | some hxy =>
              dsimp only
              exact SameFold.cons_iff.mpr ⟨congrArg toLower hxy.1, ih hxy.2⟩

theorem sameFold_decodedPayload (h : SameFold s t) :
    SameFold (decodedPayload s) (decodedPayload t) := by
  have hone := sameFold_urlDecode 4095 h
  have hpercent : (strchr (ch '%') (cstr (urlDecode 4095 s))).isSome
      = (strchr (ch '%') (cstr (urlDecode 4095 t))).isSome := by
    rw [Bool.eq_iff_iff, ← Option.ne_none_iff_isSome, ← Option.ne_none_iff_isSome, ne_eq, ne_eq,
      strchr_eq_none_iff, strchr_eq_none_iff, not_not, not_not]
    exact hone.cstr.mem_iff caseless_percent
  unfold decodedPayload
  dsimp only
  rw [hpercent]
  split
  · exact sameFold_urlDecode 4095 hone
  · exact hone

/-! ### Searching -/

theorem showsWord_congr (h : SameFold s t) : showsWord s = showsWord t := by
  funext word
  unfold showsWord
  rw [show s.map toLower = t.map toLower from h]

theorem showsMeta_congr (h : SameFold s t) : showsMeta s = showsMeta t := by
  have hnone : (str ";|`><" ++ str "&&" ++ str "$(").all (fun c => ¬ (65 ≤ c ∧ c ≤ 90) ∧
      ¬ (97 ≤ c ∧ c ≤ 122)) := by decide
  have hcaseless : ∀ c ∈ str ";|`><" ++ str "&&" ++ str "$(", Caseless c := by
    intro c hc
    have hclass := of_decide_eq_true (List.all_eq_true.mp hnone c hc)
    exact caseless_of_not_letter hclass.1 hclass.2
  have hchars : (str ";|`><").any (s.contains ·) = (str ";|`><").any (t.contains ·) := by
    rw [Bool.eq_iff_iff, List.any_eq_true, List.any_eq_true]
    refine exists_congr fun c => and_congr_right fun hc => ?_
    rw [List.contains_iff_mem, List.contains_iff_mem]
    exact h.mem_iff (hcaseless c (by simp [hc]))
  have hamp : decide (str "&&" <:+: s) = decide (str "&&" <:+: t) :=
    decide_eq_decide.mpr (h.infix_iff fun c hc => hcaseless c (by simp [hc]))
  have hdollar : decide (str "$(" <:+: s) = decide (str "$(" <:+: t) :=
    decide_eq_decide.mpr (h.infix_iff fun c hc => hcaseless c (by simp [hc]))
  unfold showsMeta
  rw [hchars, hamp, hdollar]

theorem signPoints_congr (h : SameFold s t) : signPoints s = signPoints t := by
  unfold signPoints showsAny
  rw [showsMeta_congr h, showsWord_congr h]

theorem strcaseContains_congr (h : SameFold s t) : strcaseContains s = strcaseContains t := by
  funext word
  rw [strcaseContains_eq, strcaseContains_eq, showsWord_congr h.cstr]

/-! ### The headers -/

theorem sameFold_headersCopy (h : SameFold s t) : SameFold (headersCopy s) (headersCopy t) :=
  (h.take 1023).cstr

theorem sameFold_requestPath (h : SameFold s t) :
    Option.Rel SameFold (requestPath s) (requestPath t) := by
  have hmethod := h.scanWord 15
  unfold requestPath
  rcases hs : scanWord 15 s with - | m <;> rcases ht : scanWord 15 t with - | m' <;>
    rw [hs, ht] at hmethod
  · exact .none
  · cases hmethod
  · cases hmethod
  · cases hmethod with
    | some hmm =>
        have hpath := hmm.2.scanWord 511
        simp only [Option.bind_some]
        rcases hs' : scanWord 511 m.2 with - | w <;> rcases ht' : scanWord 511 m'.2 with - | w' <;>
          rw [hs', ht'] at hpath
        · exact .none
        · cases hpath
        · cases hpath
        · cases hpath with
          | some hww => exact .some hww.1

theorem sameFold_userAgent (h : SameFold s t) : SameFold (userAgent s) (userAgent t) := by
  have hfound := h.strcasestr (str "User-Agent:")
  unfold userAgent
  rcases hs : strcasestr (str "User-Agent:") s with - | u <;>
    rcases ht : strcasestr (str "User-Agent:") t with - | v <;> rw [hs, ht] at hfound
  · exact rfl
  · cases hfound
  · cases hfound
  · cases hfound with
    | some huv =>
        have hline : FoldClass inLine := forall_byte (by decide +kernel)
        exact (((huv.drop 11).dropWhile foldClass_isSpace).takeWhile hline).take 255

theorem matchedUa_congr (h : SameFold s t) : matchedUa s = matchedUa t := by
  unfold matchedUa
  rw [strcaseContains_congr h]
  simp only [h.eq_nil_iff]

theorem matchedHoneypot_congr {p q : Option (List UInt8)} (h : Option.Rel SameFold p q) :
    matchedHoneypot p = matchedHoneypot q := by
  cases h with
  | none => rfl
  | some h =>
      unfold matchedHoneypot
      simp only [Option.bind_some]
      rw [strcaseContains_congr h]

/-! ### The scores -/

/-- **Scores do not depend on case.** -/
theorem scores_ignore_case {p q : List UInt8} (h : p.map toLower = q.map toLower)
    (maxPatternLen maxDetailsLen : Nat) :
    (detectCmdi maxPatternLen maxDetailsLen p).score
        = (detectCmdi maxPatternLen maxDetailsLen q).score ∧
      (detectBot maxPatternLen maxDetailsLen p).score
        = (detectBot maxPatternLen maxDetailsLen q).score := by
  have hfold : SameFold p q := h
  constructor
  · rw [score_detectCmdi, score_detectCmdi, signPoints_congr (sameFold_decodedPayload hfold).cstr]
  · have hheaders := sameFold_headersCopy hfold
    have hagent := sameFold_userAgent hheaders
    have hpath := matchedHoneypot_congr (sameFold_requestPath hheaders)
    unfold detectBot botTally
    dsimp only
    simp only [Tally.score_note, hpath, matchedUa_congr hagent, hagent.eq_nil_iff]

/-- A command in a doubly encoded request, written in two ways. -/
theorem scores_ignore_case_whoami :
    let p := str "GET /?c=%253b%57hoami HTTP/1.1\r\nUser-Agent: SQLMap\r\n\r\n"
    let q := str "get /?c=%253B%57HOAMI http/1.1\r\nuser-agent: sqlmap\r\n\r\n"
    p.map toLower = q.map toLower ∧ (detectBot 128 256 p).score = 45 ∧
      (detectBot 128 256 q).score = 45 := by
  intro p q
  have hsame : p.map toLower = q.map toLower := by decide
  have hp : (detectBot 128 256 p).score = 45 := by decide
  exact ⟨hsame, hp, (scores_ignore_case hsame 128 256).2.symm.trans hp⟩

end Nullsploit
