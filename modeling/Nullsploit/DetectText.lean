/-
Nullsploit/DetectText.lean

What the detectors of the kernel directory share: each has its own copy of
`url_decode`, `strcase_contains` and `strcase_equals`, and adds up a score and a
text of labels, one `if` after the other.

The searches take C strings, so they end at the first NUL byte of the decoded
payload.
-/
import Nullsploit.HttpInspect

namespace Nullsploit

open CText

/-! ### The decoded payload -/

/-- The payload decoded into `char decoded[4096]`, and once more if a percent
sign is found in it. -/
def decodedPayload (payload : List UInt8) : List UInt8 :=
  let decoded := urlDecode 4095 payload
  if (strchr (ch '%') (cstr decoded)).isSome then urlDecode 4095 decoded else decoded

/-- Plain bytes are decoded to themselves. -/
theorem urlDecode_of_plain {room : Nat} {s : List UInt8} (hlen : s.length ≤ room)
    (hpercent : ch '%' ∉ s) (hplus : ch '+' ∉ s) : urlDecode room s = s := by
  induction s generalizing room with
  | nil => cases room <;> rfl
  | cons c s ih =>
      obtain ⟨room, rfl⟩ : ∃ m, room = m + 1 := ⟨room - 1, by simp at hlen; omega⟩
      have hne : c ≠ ch '%' := fun e => hpercent (by simp [e])
      have hc : c ≠ ch '+' := fun e => hplus (by simp [e])
      have hescape : urlEscape (c :: s) = none := by
        unfold urlEscape
        split
        · rename_i d h l rest heq
          obtain ⟨rfl, -⟩ := List.cons.inj heq
          exact if_neg fun hcond => hne hcond.1
        · rfl
      have hrest := ih (show s.length ≤ room by simpa using hlen)
        (fun h => hpercent (List.mem_cons_of_mem _ h)) (fun h => hplus (List.mem_cons_of_mem _ h))
      rw [urlDecode, hescape]
      dsimp only
      rw [if_neg hc, hrest]

theorem decodedPayload_of_plain {s : List UInt8} (hlen : s.length ≤ 4095) (hpercent : ch '%' ∉ s)
    (hplus : ch '+' ∉ s) : decodedPayload s = s := by
  have hcstr : ch '%' ∉ cstr s := fun h => hpercent ((List.takeWhile_sublist _).subset h)
  rw [decodedPayload, urlDecode_of_plain hlen hpercent hplus, strchr_eq_none_iff.mpr hcstr]
  rfl

/-! ### Searching without regard to case -/

/-- `strcase_equals`. -/
def strcaseEquals (s₁ s₂ : List UInt8) : Bool := s₁.map toLower = s₂.map toLower

/-- `strcase_contains(...) != NULL` on a buffer. -/
def strcaseContains (haystack needle : List UInt8) : Bool :=
  (strcasestr needle (cstr haystack)).isSome

theorem isSome_strcasestr {needle s : List UInt8} :
    (strcasestr needle s).isSome = true ↔ needle.map toLower <:+: s.map toLower := by
  induction s with
  | nil =>
      rw [strcasestr]
      split
      · rename_i h
        simp [h]
      · rename_i h
        simpa using h
  | cons b s ih =>
      rw [strcasestr, List.map_cons, List.infix_cons_iff, ← List.map_cons, ← ih]
      split
      · rename_i h
        exact iff_of_true rfl (Or.inl h)
      · rename_i h
        rw [or_iff_right h]

theorem strcaseContains_iff {haystack needle : List UInt8} :
    strcaseContains haystack needle = true
      ↔ needle.map toLower <:+: (cstr haystack).map toLower := isSome_strcasestr

/-! ### The tally -/

/-- A score, and the labels of what was found, in `matched_pattern`. -/
structure Tally where
  score : Int
  matchedPattern : List UInt8
  deriving DecidableEq, Repr

/-- `strncat(dst, src, max - strlen(dst) - 1)`. -/
def strncatRoom (max : Nat) (dst src : List UInt8) : List UInt8 :=
  dst ++ src.take (max - dst.length - 1)

/-- `if (found) { score += points; strncat(matched_pattern, label, ...); }` -/
def Tally.note (maxPatternLen : Nat) (found : Bool) (points : Int) (label : List UInt8)
    (t : Tally) : Tally :=
  if found then ⟨t.score + points, strncatRoom maxPatternLen t.matchedPattern label⟩ else t

@[simp] theorem Tally.score_note (maxPatternLen : Nat) (found : Bool) (points : Int)
    (label : List UInt8) (t : Tally) :
    (t.note maxPatternLen found points label).score = t.score + if found then points else 0 := by
  unfold Tally.note
  split <;> simp

/-- `snprintf(details, max_details_len, ...)`. -/
def snprintfCut (maxLen : Nat) (s : List UInt8) : List UInt8 := s.take (maxLen - 1)

end Nullsploit
