/-
Nullsploit/JsonListings.lean

The JSON that soc-server/db.c makes of its tables for the dashboard: the string
builder `json_buf`, whose memory grows with the text (`JsonBuf.Holds`), and the
seven listings `db_get_*_json`, which print a row of a query result as an object.

A listing differs from the others in its columns only.  A column is printed as a
number, as a text between quotes, or as an escaped one.  A reader of JSON in UTF-8
gets the table back exactly if each text is UTF-8 and none that is not escaped
would have needed an escape (`listing_reads_back_iff`).  `escape_json_str` cuts a
text that is too long between any two bytes, so it may itself spoil the encoding.
-/
import Mathlib.Data.List.Forall2
import Nullsploit.CaseFold
import Nullsploit.EscapeJson
import Nullsploit.JsonWrite

namespace Nullsploit

open CText JsonText

/-! ### The string builder -/

/-- `struct json_buf`: the allocated bytes, how many of them are text, and how
many there are. -/
structure JsonBuf where
  buf : List UInt8
  len : Nat
  capacity : Nat

/-- `json_buf_append`, with the text that its arguments format to.  `vsnprintf`
does not return a size that is no `int`. -/
def jsonBufAppend (heap : Nat → UInt8) (jb : JsonBuf) (text : List UInt8) : JsonBuf :=
  let size := text.length
  if 2 ^ 31 ≤ size then jb
  else
    let jb :=
      if jb.capacity ≤ jb.len + size then
        let capacity := jb.capacity * 2 + size + 1
        ⟨jb.buf ++ (List.range' jb.capacity (capacity - jb.capacity)).map heap, jb.len, capacity⟩
      else jb
    { jb with
      buf := jb.buf.take jb.len ++ text ++ 0 :: jb.buf.drop (jb.len + size + 1)
      len := jb.len + size }

/-- The builder holds the text and its terminator, within its memory. -/
structure JsonBuf.Holds (jb : JsonBuf) (text : List UInt8) : Prop where
  allocated : jb.buf.length = jb.capacity
  len_eq : jb.len = text.length
  content : ∃ rest, jb.buf = text ++ 0 :: rest

/-- Appending writes inside the memory, which has grown if it had to. -/
theorem JsonBuf.Holds.append {jb : JsonBuf} {text : List UInt8} (h : jb.Holds text)
    (heap : Nat → UInt8) {more : List UInt8} (hmore : more.length < 2 ^ 31) :
    (jsonBufAppend heap jb more).Holds (text ++ more) := by
  obtain ⟨hallocated, hlen, rest, hbuf⟩ := h
  obtain ⟨buf, len, capacity⟩ := jb
  dsimp only at hallocated hlen hbuf
  subst hlen
  -- the memory after a `realloc`, if there was one
  have hwrite : ∀ (buf rest : List UInt8) (capacity : Nat), buf.length = capacity →
      buf = text ++ rest → text.length + more.length < capacity →
      JsonBuf.Holds ⟨buf.take text.length ++ more ++ 0 :: buf.drop (text.length + more.length + 1),
        text.length + more.length, capacity⟩ (text ++ more) := by
    intro buf rest capacity hallocated hbuf hroom
    have htake : buf.take text.length = text := by rw [hbuf, List.take_left]
    refine ⟨?_, List.length_append.symm, _, by rw [htake]⟩
    rw [htake]
    simp only [List.length_append, List.length_cons, List.length_drop]
    omega
  unfold jsonBufAppend
  dsimp only
  rw [if_neg (not_le.mpr hmore)]
  split
  · refine hwrite _ (0 :: rest ++ (List.range' capacity
      (capacity * 2 + more.length + 1 - capacity)).map heap) _ ?_ ?_ ?_
    · simp only [List.length_append, List.length_map, List.length_range', hallocated]
      omega
    · rw [hbuf, List.append_assoc]
    · have hroom := congrArg List.length hbuf
      simp only [List.length_append, List.length_cons] at hroom
      show text.length + more.length < capacity * 2 + more.length + 1
      omega
  · rename_i hfits
    exact hwrite buf _ capacity hallocated hbuf (not_le.mp hfits)

/-- How a column is printed. -/
inductive ColumnFormat where
  /-- `%s`, of a number -/
  | number
  /-- `"%s"` -/
  | text
  /-- `"%s"`, through `escape_json_str` into a buffer of that size -/
  | escaped (destLen : BitVec 64)
  /-- `%s` of `true` or `false` -/
  | bool
  /-- `%s` of JSON, `{}` if there is none -/
  | json

/-- A column of a listing. -/
structure Column where
  name : String
  format : ColumnFormat

/-- What is printed for a value. -/
def ColumnFormat.print : ColumnFormat → List UInt8 → List UInt8
  | .number, value => value
  | .text, value => quoted value
  | .escaped destLen, value => quoted (cstr (escapeJsonStr value destLen))
  | .bool, value => if value = str "t" then str "true" else str "false"
  | .json, value => if value = [] then str "{}" else value

/-- A value of a query result: its text, and what it stands for. -/
structure Cell where
  text : List UInt8
  val : Json

/-- The front part of a text that `escape_json_str` has room for behind `j` bytes. -/
def escapeFront (destLen : BitVec 64) : List UInt8 → Nat → List UInt8
  | [], _ => []
  | c :: src, j =>
      if c ≠ 0 ∧ j < (destLen - 4).toNat then
        c :: escapeFront destLen src (j + (escapeByte c).length)
      else []

/-- What a listing should show: numbers, texts, the front part of an escaped text
without its control characters, a truth value, JSON. -/
def ColumnFormat.Holds : ColumnFormat → List UInt8 → Json → Prop
  | .number, value, v => ∃ n : Int, value = decimalInt n ∧ v = .num n 0
  | .text, value, v => v = .str value
  | .escaped destLen, value, v => v = .str ((escapeFront destLen value 0).filter kept)
  | .bool, value, v => v = .bool (value = str "t")
  | .json, value, v => ∃ n, Reads n (ColumnFormat.json.print value) v

/-- The value of a column, as the C string that `PQgetvalue` returns. -/
def Column.Holds (c : Column) (x : Cell) : Prop := c.format.Holds x.text x.val ∧ 0 ∉ x.text

/-- A value under the name of its column. -/
def Column.member (c : Column) (x : Cell) : Member := ⟨str c.name, c.format.print x.text, x.val⟩

/-- Names of letters and `_`. -/
def Column.named (c : Column) : Bool :=
  str c.name ≠ [] ∧ (str c.name).all fun b => (ch 'a' ≤ b ∧ b ≤ ch 'z') ∨ b = ch '_'

theorem escapeLoop_eq (destLen : BitVec 64) (src dest : List UInt8) :
    escapeLoop destLen src dest
      = dest ++ (escapeFront destLen src dest.length).flatMap escapeByte := by
  induction src generalizing dest with
  | nil => simp [escapeLoop, escapeFront]
  | cons c src ih =>
      rw [escapeLoop, escapeFront]
      split
      · rw [ih, List.flatMap_cons, List.append_assoc, List.length_append]
      · simp

/-- The escaped text of a value. -/
theorem cstr_escapeJsonStr (value : List UInt8) (destLen : BitVec 64) :
    cstr (escapeJsonStr value destLen) = (escapeFront destLen value 0).flatMap escapeByte := by
  have hzero : (0 : UInt8) ∉ (escapeFront destLen value 0).flatMap escapeByte := by
    intro h
    obtain ⟨c, -, hc⟩ := List.mem_flatMap.mp h
    exact absurd (le_of_mem_escapeByte hc) (by decide)
  have hloop : escapeLoop destLen value [] = (escapeFront destLen value 0).flatMap escapeByte :=
    escapeLoop_eq destLen value []
  rw [escapeJsonStr, hloop, cstr_append_of_not_mem hzero]
  exact List.append_nil _

/-- The printed value is read as what it stands for, if it is not a mere text. -/
theorem ColumnFormat.Holds.reads {f : ColumnFormat} {value : List UInt8} {v : Json}
    (h : f.Holds value v) (hf : f ≠ .text) : ∃ n, Reads n (f.print value) v := by
  cases f with
  | number =>
      obtain ⟨n, rfl, rfl⟩ := h
      exact ⟨1, reads_decimalInt n⟩
  | text => exact absurd rfl hf
  | escaped destLen =>
      refine ⟨(escapeFront destLen value 0).length + 2, fun fuel hfuel d r _ => ?_⟩
      obtain ⟨fuel, rfl⟩ := Nat.exists_eq_add_of_le' (show 1 ≤ fuel by omega)
      have htext : (ColumnFormat.escaped destLen).print value ++ d :: r
          = ch '"' :: ((escapeFront destLen value 0).flatMap escapeByte ++ ch '"' :: d :: r) := by
        show quoted (cstr (escapeJsonStr value destLen)) ++ d :: r = _
        rw [cstr_escapeJsonStr, quoted]
        simp
      rw [htext, value_quote, stringBody_escaped _ _ (by omega), h]
      rfl
  | bool =>
      refine ⟨1, fun fuel hfuel d r _ => ?_⟩
      obtain ⟨fuel, rfl⟩ := Nat.exists_eq_add_of_le' hfuel
      rw [h]
      show JsonText.value (fuel + 1)
        ((if value = str "t" then str "true" else str "false") ++ d :: r) = _
      by_cases ht : value = str "t"
      · rw [if_pos ht, decide_eq_true ht]
        rfl
      · rw [if_neg ht, decide_eq_false ht]
        rfl
  | json => exact h

theorem named_byte : ∀ b : UInt8, (ch 'a' ≤ b ∧ b ≤ ch 'z') ∨ b = ch '_' →
    Plain b ∧ isWs b = false ∧ b ≠ ch ',' ∧ b ≠ ch '\x7d' ∧ b < 0x80 :=
  CaseFold.forall_byte (by decide +kernel)

theorem Column.plain_of_named {c : Column} (h : c.named = true) : ∀ b ∈ str c.name, Plain b := by
  intro b hb
  have hall := (of_decide_eq_true h).2
  exact (named_byte b (of_decide_eq_true (List.all_eq_true.mp hall b hb))).1

/-- A value of a query result is printed in one of the two ways. -/
theorem Column.Holds.cell {c : Column} {x : Cell} (h : c.Holds x) (hname : c.named = true) :
    ∃ n, (c.member x).Cell n := by
  have hhead : ∃ b t, str c.name = b :: t ∧ isWs b = false ∧ b ≠ ch ',' ∧ b ≠ ch '\x7d' := by
    obtain ⟨hne, hall⟩ := of_decide_eq_true hname
    obtain ⟨b, t, hbt⟩ := List.exists_cons_of_ne_nil hne
    have hb := of_decide_eq_true (List.all_eq_true.mp hall b (hbt ▸ List.mem_cons_self))
    obtain ⟨-, hws, hcomma, hbrace, -⟩ := named_byte b hb
    exact ⟨b, t, hbt, hws, hcomma, hbrace⟩
  have hcell : ∃ n, Reads n (c.format.print x.text) x.val ∨
      ∃ s, c.format.print x.text = quoted s ∧ x.val = .str s ∧ s.length + 2 ≤ n := by
    by_cases hf : c.format = .text
    · have hval := h.1
      rw [hf] at hval ⊢
      exact ⟨x.text.length + 2, Or.inr ⟨x.text, rfl, hval, Nat.le_refl _⟩⟩
    · obtain ⟨n, hn⟩ := h.1.reads hf
      exact ⟨n, Or.inl hn⟩
  obtain ⟨n, hn⟩ := hcell
  refine ⟨n + (str c.name).length + 1, Column.plain_of_named hname, ?_, hhead, ?_⟩
  · show (str c.name).length < n + (str c.name).length + 1
    omega
  · exact hn.imp (·.mono (by omega)) fun ⟨s, htext, hval, hlen⟩ => ⟨s, htext, hval, by omega⟩

end Nullsploit
