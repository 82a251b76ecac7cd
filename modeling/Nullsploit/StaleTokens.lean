/-
Nullsploit/StaleTokens.lean

The slots of `tokens[128][64]` that the tokenizer of kernel/sqli_detect.c does
not fill keep what an earlier call left on the stack.  The look-ahead for a
tautology is guarded by `i + 4 < token_count` and reads slot `i + 5`, so one
comparison may fall on such a slot: if the last five tokens are `or`, a quote,
x, a quote and y.

`score_steady_iff` says when the score depends on what is there, and when the
slot is looked at.
-/
import Mathlib.Tactic.Ring
import Nullsploit.SqliDetect

namespace Nullsploit

open CText

/-! ### The slots that are compared -/

/-- The slots a turn of the recognition loop calls `strcmp` and `strcase_equals`
on, in source order; `&&` and `||` stop at the first answer that decides. -/
def comparedAt (slot : Nat → List UInt8) (tokenCount i : Nat) : List Nat :=
  let admin :=
    if isWordOf [str "admin"] (slot i) ∧ i + 2 < tokenCount then
      [i + 1] ++ if slot (i + 1) = quote then [i + 2] else []
    else []
  let same := if slot (i + 2) = str "=" then [i + 1, i + 3] else []
  let quoted :=
    if slot (i + 2) = str "=" ∧ slot (i + 1) = slot (i + 3) then []
    else [i + 1] ++
      if slot (i + 1) = quote then [i + 3] ++
        if slot (i + 3) = quote then [i + 5] ++
          if slot (i + 5) = quote then [i + 2, i + 4] else []
        else []
      else []
  let tautology :=
    if isWordOf [str "or", str "and"] (slot i) ∧ i + 4 < tokenCount then
      [i + 2] ++ same ++ quoted
    else []
  let stacked := if slot i = str ";" ∧ i + 1 < tokenCount then [i + 1] else []
  [i] ++ admin ++ tautology ++ stacked

/-- The tokens end with `or`, a quote, x, a quote and one token more, and the
first shape of a tautology does not take them. -/
def OpenEnd (tokens : List (List UInt8)) : Prop :=
  ∃ before op x y, isOrAnd op = true ∧ x ≠ str "=" ∧ tokens = before ++ [op, quote, x, quote, y]

/-- Such an end with the same token behind both quotes. -/
def LooseEnd (tokens : List (List UInt8)) : Prop :=
  ∃ before op x, isOrAnd op = true ∧ tokens = before ++ [op, quote, x, quote, x]

/-- A tautology the look-ahead finds among the tokens alone. -/
def RecognisedInside (tokens : List (List UInt8)) : Prop :=
  ∃ before op x rest, isOrAnd op = true ∧
    ((∃ y, tokens = before ++ op :: x :: str "=" :: x :: y :: rest) ∨
      tokens = before ++ op :: quote :: x :: quote :: x :: quote :: rest)

/-! ### One slot too far -/

/-- All comparisons but one stay among the tokens. -/
theorem comparedAt_lt_iff (slot : Nat → List UInt8) {tokenCount i : Nat} (hi : i < tokenCount) :
    (∀ k ∈ comparedAt slot tokenCount i, k < tokenCount) ↔
      ¬ (isOrAnd (slot i) = true ∧ i + 5 = tokenCount ∧ slot (i + 1) = quote ∧
        slot (i + 2) ≠ str "=" ∧ slot (i + 3) = quote) := by
  constructor
  · rintro h ⟨hop, hlast, hfirst, hx, hsecond⟩
    have hmem : i + 5 ∈ comparedAt slot tokenCount i := by
      have hop : isWordOf [str "or", str "and"] (slot i) = true := hop
      have hlen : i + 4 < tokenCount := by omega
      simp [comparedAt, hop, hlen, hfirst, hx, hsecond]
    have := h _ hmem
    omega
  · intro h k hk
    simp only [comparedAt, List.mem_append, List.mem_ite_nil_right, List.mem_ite_nil_left,
      List.mem_cons, List.not_mem_nil, or_false] at hk
    rcases hk with ((rfl | ⟨hadmin, rfl | ⟨-, rfl⟩⟩) | ⟨⟨hop, hlen⟩, htautology⟩) | ⟨hstacked, rfl⟩
    · exact hi
    · exact Nat.lt_trans (Nat.lt_succ_self _) hadmin.2
    · exact hadmin.2
    · rcases htautology with (rfl | ⟨-, rfl | rfl⟩) | ⟨hnot, rfl | ⟨hfirst, rfl | ⟨hsecond, htail⟩⟩⟩
      iterate 5 omega
      rcases htail with rfl | ⟨-, rfl | rfl⟩
      · -- slot i + 5: the guard lets it be one past the last token
        by_contra hge
        refine h ⟨hop, by omega, hfirst, fun hx => hnot ⟨hx, ?_⟩, hsecond⟩
        rw [hfirst, hsecond]
      · omega
      · omega
    · exact hstacked.2

/-- The look-ahead leaves the tokens exactly at an open end. -/
theorem comparedAt_inside_iff (stale : Nat → List UInt8) (tokens : List (List UInt8)) :
    (∀ i < tokens.length, ∀ k ∈ comparedAt (tokenSlot stale tokens) tokens.length i,
        k < tokens.length) ↔ ¬ OpenEnd tokens := by
  have hslot : ∀ (before : List (List UInt8)) op q x r y k,
      tokenSlot stale (before ++ [op, q, x, r, y]) (before.length + k)
        = [op, q, x, r, y].getD k (stale (before.length + k)) :=
    fun before op q x r y k => tokenSlot_append stale before _ k
  constructor
  · rintro h ⟨before, op, x, y, hop, hx, rfl⟩
    have hi : before.length < (before ++ [op, quote, x, quote, y]).length := by simp
    refine (comparedAt_lt_iff _ hi).mp (h _ hi) ⟨?_, by simp, ?_, ?_, ?_⟩
    · rw [← Nat.add_zero before.length, hslot]
      exact hop
    · exact hslot ..
    · rw [hslot]
      exact hx
    · exact hslot ..
  · intro h i hi
    refine (comparedAt_lt_iff _ hi).mpr ?_
    rintro ⟨hop, hlast, hfirst, hx, hsecond⟩
    obtain ⟨op, q, x, r, y, hdrop⟩ : ∃ op q x r y, tokens.drop i = [op, q, x, r, y] := by
      have hlen : (tokens.drop i).length = 5 := by
        rw [List.length_drop]
        omega
      match tokens.drop i, hlen with
      | [op, q, x, r, y], _ => exact ⟨op, q, x, r, y, rfl⟩
    have hsplit : tokens = tokens.take i ++ [op, q, x, r, y] := by
      rw [← hdrop, List.take_append_drop]
    have hlen : (tokens.take i).length = i := by
      rw [List.length_take]
      omega
    have hat : ∀ k, tokenSlot stale tokens (i + k) = [op, q, x, r, y].getD k (stale (i + k)) := by
      intro k
      have := hslot (tokens.take i) op q x r y k
      rwa [← hsplit, hlen] at this
    rw [← Nat.add_zero i, hat] at hop
    rw [hat] at hfirst hx hsecond
    obtain rfl : q = quote := hfirst
    obtain rfl : r = quote := hsecond
    exact h ⟨_, op, x, y, hop, hx, hsplit⟩

/-! ### What the score owes to the slot -/

theorem recognised_iff (stale : Nat → List UInt8) (tokens : List (List UInt8)) :
    Recognised stale tokens ↔
      RecognisedInside tokens ∨ LooseEnd tokens ∧ stale tokens.length = quote := by
  constructor
  · rintro ⟨before, op, x, rest, hop, h | ⟨rfl, hlast⟩⟩
    · exact Or.inl ⟨before, op, x, rest, hop, Or.inl h⟩
    · cases rest with
      | nil => exact Or.inr ⟨⟨before, op, x, hop, rfl⟩, hlast⟩
      | cons q rest =>
          obtain rfl : q = quote := hlast
          exact Or.inl ⟨before, op, x, rest, hop, Or.inr rfl⟩
  · rintro (⟨before, op, x, rest, hop, h | rfl⟩ | ⟨⟨before, op, x, hop, rfl⟩, hstale⟩)
    · exact ⟨before, op, x, rest, hop, Or.inl h⟩
    · exact ⟨before, op, x, _, hop, Or.inr ⟨rfl, rfl⟩⟩
    · exact ⟨before, op, x, [], hop, Or.inr ⟨rfl, hstale⟩⟩

/-- The points for a tautology are not made up for by the search in the raw
text. -/
theorem score_rawTally_eq_iff (maxPatternLen : Nat) (decoded : List UInt8) {f g : SqliFlags}
    (hunion : (f.unionFound && f.selectFound) = (g.unionFound && g.selectFound))
    (hadmin : f.adminBypass = g.adminBypass) (hstacked : f.stackedQuery = g.stackedQuery)
    (hcomment : f.commentFound = g.commentFound) (herror : f.errorFunc = g.errorFunc)
    (htime : f.timeFunc = g.timeFunc) (hwrite : f.writeFunc = g.writeFunc) :
    (rawTally maxPatternLen decoded (flagTally maxPatternLen f)).score =
        (rawTally maxPatternLen decoded (flagTally maxPatternLen g)).score ↔
      f.tautology = g.tautology := by
  have hnonneg : ∀ (b : Bool) (n : Nat), 0 ≤ (if b = true then (n : Int) else 0) := by
    intro b n
    cases b <;> simp
  -- the points for the other flags
  obtain ⟨n, hn, hf, hg⟩ : ∃ n : Int, 0 ≤ n ∧
      (flagTally maxPatternLen f).score = n + (if f.tautology then 45 else 0) ∧
      (flagTally maxPatternLen g).score = n + (if g.tautology then 45 else 0) := by
    refine ⟨(if g.unionFound && g.selectFound then 45 else 0) + (if g.adminBypass then 45 else 0) +
      (if g.stackedQuery then 40 else 0) + (if g.errorFunc then 25 else 0) +
      (if g.timeFunc then 35 else 0) + (if g.writeFunc then 35 else 0) +
      (if g.commentFound then 10 else 0), ?_, ?_, ?_⟩
    · have hu := hnonneg (g.unionFound && g.selectFound) 45
      have ha := hnonneg g.adminBypass 45
      have hs := hnonneg g.stackedQuery 40
      have he := hnonneg g.errorFunc 25
      have ht := hnonneg g.timeFunc 35
      have hw := hnonneg g.writeFunc 35
      have hc := hnonneg g.commentFound 10
      exact add_nonneg (add_nonneg (add_nonneg (add_nonneg (add_nonneg (add_nonneg hu ha) hs) he)
        ht) hw) hc
    · simp only [flagTally, Tally.score_note, hunion, hadmin, hstacked, hcomment, herror, htime,
        hwrite]
      ring
    · simp only [flagTally, Tally.score_note]
      ring
  -- the raw search adds 40 each time, and runs only below the limit
  have hraw : ∀ b : Bool, (if b = true then (40 : Int) else 0) = 0 ∨
      (if b = true then (40 : Int) else 0) = 40 := by decide
  have hfirst := hraw (rawUnionSelect decoded)
  have hsecond := hraw (rawOrOne decoded)
  rw [rawTally, rawTally, apply_ite Tally.score, apply_ite Tally.score]
  simp only [Tally.score_note, hf, hg]
  generalize (if rawUnionSelect decoded = true then (40 : Int) else 0) = a at hfirst ⊢
  generalize (if rawOrOne decoded = true then (40 : Int) else 0) = b at hsecond ⊢
  cases f.tautology <;> cases g.tautology <;> simp <;> omega

/-- **The score and the slots behind the tokens.**  The score is the same
whatever they hold, unless the tokens end in `or 'x'x` and no other tautology is
found; and none of them is looked at, unless the tokens have an open end. -/
theorem score_steady_iff (maxPatternLen maxDetailsLen : Nat) (payload : List UInt8) :
    ((∀ stale stale', (detectSqli stale maxPatternLen maxDetailsLen payload).score
          = (detectSqli stale' maxPatternLen maxDetailsLen payload).score) ↔
        (LooseEnd (sqlTokens (decodedPayload payload)) →
          RecognisedInside (sqlTokens (decodedPayload payload)))) ∧
      ((∀ stale, ∀ i < (sqlTokens (decodedPayload payload)).length,
          ∀ k ∈ comparedAt (tokenSlot stale (sqlTokens (decodedPayload payload)))
            (sqlTokens (decodedPayload payload)).length i,
            k < (sqlTokens (decodedPayload payload)).length) ↔
        ¬ OpenEnd (sqlTokens (decodedPayload payload))) := by
  generalize hdecoded : decodedPayload payload = decoded
  generalize htokens : sqlTokens decoded = tokens
  have hscore : ∀ stale stale', (detectSqli stale maxPatternLen maxDetailsLen payload).score
      = (detectSqli stale' maxPatternLen maxDetailsLen payload).score ↔
        (Recognised stale tokens ↔ Recognised stale' tokens) := by
    intro stale stale'
    obtain ⟨hunion, hadmin, htautology, hstacked, hcomment, herror, htime, hwrite⟩ :=
      sqliFlags_spec stale tokens
    obtain ⟨hunion', hadmin', htautology', hstacked', hcomment', herror', htime', hwrite'⟩ :=
      sqliFlags_spec stale' tokens
    rw [← htautology, ← htautology', ← Bool.eq_iff_iff]
    unfold detectSqli
    rw [hdecoded]
    dsimp only
    rw [htokens]
    exact score_rawTally_eq_iff maxPatternLen decoded
      (Bool.eq_iff_iff.mpr (hunion.trans hunion'.symm))
      (Bool.eq_iff_iff.mpr (hadmin.trans hadmin'.symm))
      (Bool.eq_iff_iff.mpr (hstacked.trans hstacked'.symm)) (hcomment.trans hcomment'.symm)
      (herror.trans herror'.symm) (htime.trans htime'.symm) (hwrite.trans hwrite'.symm)
  refine ⟨⟨fun h hloose => ?_, fun h stale stale' => ?_⟩, ?_⟩
  · -- a quote there makes a tautology, nothing there does not
    have hsame := (hscore (fun _ => quote) fun _ => []).mp (h _ _)
    rw [recognised_iff, recognised_iff] at hsame
    rcases hsame.mp (Or.inr ⟨hloose, rfl⟩) with hinside | ⟨-, hnil⟩
    · exact hinside
    · exact absurd hnil (by decide)
  · rw [hscore, recognised_iff, recognised_iff]
    exact ⟨fun hr => Or.inl (hr.elim id fun hl => h hl.1),
      fun hr => Or.inl (hr.elim id fun hl => h hl.1)⟩
  · exact ⟨fun h => (comparedAt_inside_iff (fun _ => []) tokens).mp (h _),
      fun h stale => (comparedAt_inside_iff stale tokens).mpr h⟩

/-- The verdict on `or 'a'a` depends on a slot of the array that the call never
wrote. -/
theorem stale_quote_flags :
    (detectSqli (fun _ => quote) 128 256 (str "or 'a'a")).score = 45 ∧
      (detectSqli (fun _ => []) 128 256 (str "or 'a'a")).score = 0 := by
  have hplain : decodedPayload (str "or 'a'a") = str "or 'a'a" :=
    decodedPayload_of_plain (by decide) (by decide) (by decide)
  unfold detectSqli
  rw [hplain]
  exact ⟨by decide, by decide⟩

end Nullsploit
