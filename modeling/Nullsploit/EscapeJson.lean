/-
Nullsploit/EscapeJson.lean

`escape_json_str` of soc-server/db.c, which prepares the stored previews and
details for the JSON the dashboard reads: quotes, backslashes and slashes get a
backslash, newline, carriage return and tab their letters, and the other control
characters are left out.  The loop stops when fewer than five bytes of the
destination are left, so it never has to stop inside an escape.

Whatever it writes is the escaped text of a front part of the source
(`escapeLoop_spec`), and reading it back as a JSON string gives that part
without the control characters (`stringBody_escaped`).
-/
import Nullsploit.JsonText

namespace Nullsploit

open CText JsonText

/-! ### The function -/

/-- What one round of the loop writes. -/
def escapeByte (c : UInt8) : List UInt8 :=
  if c = ch '"' ∨ c = ch '\\' ∨ c = ch '/' then [ch '\\', c]
  else if c = 10 then [ch '\\', ch 'n']
  else if c = 13 then [ch '\\', ch 'r']
  else if c = 9 then [ch '\\', ch 't']
  else if c < 32 then []
  else [c]

/-- The loop; `dest` holds the bytes written so far, so its length is `j`. -/
def escapeLoop (destLen : BitVec 64) : List UInt8 → List UInt8 → List UInt8
  | [], dest => dest
  | c :: src, dest =>
      if c ≠ 0 ∧ dest.length < (destLen - 4).toNat then
        escapeLoop destLen src (dest ++ escapeByte c)
      else dest

/-- `escape_json_str`: the bytes written to `dest`, the terminator included. -/
def escapeJsonStr (src : List UInt8) (destLen : BitVec 64) : List UInt8 :=
  escapeLoop destLen src [] ++ [0]

/-- The bytes that have an escaped text: all but the control characters other
than LF, CR and TAB. -/
def kept (c : UInt8) : Bool := 32 ≤ c ∨ c = 10 ∨ c = 13 ∨ c = 9

/-! ### One byte -/

/-- The ways a byte is written. -/
theorem escapeByte_cases (c : UInt8) :
    kept c = false ∧ escapeByte c = [] ∨
      kept c = true ∧ Plain c ∧ escapeByte c = [c] ∨
      kept c = true ∧ ∃ d, escapeByte c = [ch '\\', d] ∧ d ≠ ch 'u' ∧ 32 ≤ d ∧
        shortEscape d = some c := by
  unfold escapeByte
  split_ifs with h₁ h₂ h₃ h₄ h₅
  · right; right
    rcases h₁ with rfl | rfl | rfl
    · exact ⟨by decide, ch '"', rfl, by decide⟩
    · exact ⟨by decide, ch '\\', rfl, by decide⟩
    · exact ⟨by decide, ch '/', rfl, by decide⟩
  · subst h₂
    exact Or.inr (Or.inr ⟨by decide, ch 'n', rfl, by decide⟩)
  · subst h₃
    exact Or.inr (Or.inr ⟨by decide, ch 'r', rfl, by decide⟩)
  · subst h₄
    exact Or.inr (Or.inr ⟨by decide, ch 't', rfl, by decide⟩)
  · left
    refine ⟨?_, rfl⟩
    simp only [kept, h₂, h₃, h₄, or_false]
    simpa using h₅
  · right; left
    have hle : 32 ≤ c := by simpa using h₅
    obtain ⟨hquote, hbackslash, -⟩ := not_or.mp h₁ |>.imp id not_or.mp
    exact ⟨by simp [kept, hle], ⟨hquote, hbackslash, hle⟩, rfl⟩

theorem length_escapeByte_le (c : UInt8) : (escapeByte c).length ≤ 2 := by
  rcases escapeByte_cases c with ⟨-, h⟩ | ⟨-, -, h⟩ | ⟨-, d, h, -⟩ <;> rw [h] <;> simp

theorem le_of_mem_escapeByte {b c : UInt8} (h : b ∈ escapeByte c) : 32 ≤ b := by
  rcases escapeByte_cases c with ⟨-, he⟩ | ⟨-, hplain, he⟩ | ⟨-, d, he, -, hd, -⟩
  · rw [he] at h
    cases h
  · rw [he, List.mem_singleton] at h
    rw [h]
    exact hplain.2.2
  · rw [he, List.mem_cons, List.mem_singleton] at h
    rcases h with rfl | rfl
    · decide
    · exact hd

/-- A byte that is written is read back. -/
theorem character_escapeByte {c : UInt8} (h : kept c = true) (r : List UInt8) :
    character (escapeByte c ++ r) = some ([c], r) ∧ ∃ b t, escapeByte c = b :: t ∧ b ≠ ch '"' := by
  rcases escapeByte_cases c with ⟨hnot, -⟩ | ⟨-, hplain, he⟩ | ⟨-, d, he, hu, -, hd⟩
  · rw [h] at hnot
    cases hnot
  · rw [he]
    exact ⟨character_of_plain hplain r, c, [], rfl, hplain.1⟩
  · rw [he]
    refine ⟨?_, ch '\\', [d], rfl, by decide⟩
    show character (ch '\\' :: d :: r) = some ([c], r)
    rw [character, if_pos rfl, escape, if_neg hu, hd]
    rfl

/-! ### The loop -/

/-- Everything the loop does: it writes the escaped text of a front part of the
string, goes at most one byte past its bound, and stops before the end of the
string only at the bound. -/
theorem escapeLoop_spec (destLen : BitVec 64) (src dest : List UInt8)
    (hdest : dest.length ≤ (destLen - 4).toNat + 1) :
    ∃ p q, cstr src = p ++ q ∧ escapeLoop destLen src dest = dest ++ p.flatMap escapeByte ∧
      (escapeLoop destLen src dest).length ≤ (destLen - 4).toNat + 1 ∧
      (q = [] ∨ (destLen - 4).toNat ≤ (escapeLoop destLen src dest).length) := by
  induction src generalizing dest with
  | nil => exact ⟨[], [], rfl, by simp [escapeLoop], hdest, Or.inl rfl⟩
  | cons c src ih =>
      rw [escapeLoop]
      split
      · rename_i hc
        have hcstr : cstr (c :: src) = c :: cstr src :=
          List.takeWhile_cons_of_pos (by simpa using hc.1)
        have hnext : (dest ++ escapeByte c).length ≤ (destLen - 4).toNat + 1 := by
          have := length_escapeByte_le c
          rw [List.length_append]
          omega
        obtain ⟨p, q, hpq, hout, hlen, hstop⟩ := ih _ hnext
        refine ⟨c :: p, q, by rw [hcstr, hpq]; rfl, ?_, hlen, hstop⟩
        rw [hout, List.flatMap_cons, List.append_assoc]
      · rename_i hc
        refine ⟨[], cstr (c :: src), rfl, by simp, hdest, ?_⟩
        -- the NUL, or no room
        rcases eq_or_ne c 0 with rfl | hne
        · exact Or.inl rfl
        · exact Or.inr (not_lt.mp fun hlt => hc ⟨hne, hlt⟩)

/-- The escaped text read back as the inside of a JSON string. -/
theorem stringBody_escaped (p rest : List UInt8) {fuel : Nat} (hfuel : p.length < fuel) :
    stringBody fuel (p.flatMap escapeByte ++ ch '"' :: rest) = some (p.filter kept, rest) := by
  induction p generalizing fuel with
  | nil =>
      obtain ⟨fuel, rfl⟩ := Nat.exists_eq_succ_of_ne_zero (Nat.ne_of_gt hfuel)
      rw [List.flatMap_nil, List.nil_append, stringBody, if_pos rfl]
      rfl
  | cons c p ih =>
      obtain ⟨fuel, rfl⟩ := Nat.exists_eq_succ_of_ne_zero (Nat.ne_of_gt (Nat.zero_lt_of_lt hfuel))
      have hlt : p.length < fuel := Nat.lt_of_succ_lt_succ hfuel
      rw [List.flatMap_cons, List.append_assoc]
      by_cases hc : kept c = true
      · obtain ⟨hread, b, t, hbt, hb⟩ :=
          character_escapeByte hc (p.flatMap escapeByte ++ ch '"' :: rest)
        rw [hbt, List.cons_append] at hread ⊢
        rw [stringBody, if_neg hb, hread]
        dsimp only
        rw [ih hlt, List.filter_cons_of_pos hc]
        rfl
      · -- a byte that is left out
        have hnil : escapeByte c = [] := by
          rcases escapeByte_cases c with ⟨-, h⟩ | ⟨h, -⟩ | ⟨h, -⟩
          · exact h
          · exact absurd h hc
          · exact absurd h hc
        rw [hnil, List.nil_append, List.filter_cons_of_neg hc]
        exact ih (Nat.lt_succ_of_lt hlt)

theorem filter_kept_of_flatMap_nil {q : List UInt8} (h : q.flatMap escapeByte = []) :
    q.filter kept = [] := by
  rw [List.filter_eq_nil_iff]
  intro c hc hkept
  obtain ⟨-, b, t, hbt, -⟩ := character_escapeByte hkept []
  rw [List.flatMap_eq_nil_iff.mp h c hc] at hbt
  cases hbt

/-- **Escaping round-trips.**  With room for five bytes or more, the string
written fits with its terminator, has no byte below 0x20, is the complete inside
of a JSON string, and stands for a front part of the source without its control
characters: for all of it when its escaped text leaves four bytes free. -/
theorem escapeJsonStr_roundtrips (src : List UInt8) (destLen : BitVec 64)
    (hlen : 5 ≤ destLen.toNat) :
    (escapeJsonStr src destLen).length ≤ destLen.toNat ∧
      ∃ body v, escapeJsonStr src destLen = body ++ [0] ∧ (∀ b ∈ body, 32 ≤ b) ∧ IsBody body v ∧
        v <+: (cstr src).filter kept ∧
        (((cstr src).flatMap escapeByte).length ≤ destLen.toNat - 4 →
          v = (cstr src).filter kept) := by
  have hbound : (destLen - 4).toNat = destLen.toNat - 4 := by
    rw [BitVec.toNat_sub_of_le (by rw [BitVec.le_def]; exact Nat.le_of_succ_le hlen)]
    rfl
  obtain ⟨p, q, hpq, hout, hle, hstop⟩ := escapeLoop_spec destLen src [] (Nat.zero_le _)
  rw [List.nil_append] at hout
  rw [hbound] at hle hstop
  refine ⟨?_, p.flatMap escapeByte, p.filter kept, by rw [escapeJsonStr, hout], ?_, ?_, ?_, ?_⟩
  · rw [escapeJsonStr, List.length_append, List.length_singleton]
    omega
  · intro b hb
    obtain ⟨c, -, hc⟩ := List.mem_flatMap.mp hb
    exact le_of_mem_escapeByte hc
  · exact fun rest => ⟨p.length + 1, stringBody_escaped p rest (Nat.lt_succ_self _)⟩
  · rw [hpq, List.filter_append]
    exact List.prefix_append _ _
  · intro hfits
    rcases hstop with rfl | hfull
    · rw [hpq, List.append_nil]
    · -- the bound is reached, so what is left has no text
      rw [hpq, List.flatMap_append, List.length_append] at hfits
      rw [hout] at hfull
      have hnil : q.flatMap escapeByte = [] := List.eq_nil_of_length_eq_zero (by omega)
      rw [hpq, List.filter_append, filter_kept_of_flatMap_nil hnil, List.append_nil]

/-- Seven bytes of room: the loop stops at three, right behind an escape. -/
theorem escapeJsonStr_roundtrips_seven :
    let src := str "a/\"b"
    5 ≤ (7#64).toNat ∧ escapeJsonStr src 7#64 = str "a\\/" ++ [0] ∧
      ∃ body v, escapeJsonStr src 7#64 = body ++ [0] ∧ IsBody body v ∧ v <+: src.filter kept := by
  intro src
  have hroom : 5 ≤ (7#64).toNat := by decide
  obtain ⟨-, body, v, hbody, -, hread, hfront, -⟩ := escapeJsonStr_roundtrips src 7#64 hroom
  exact ⟨hroom, by decide, body, v, hbody, hread, hfront⟩

end Nullsploit
