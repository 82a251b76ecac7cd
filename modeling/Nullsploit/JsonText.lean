/-
Nullsploit/JsonText.lean

JSON as bytes.  A document is read by recursive descent: white space, strings
with their escapes, numbers, the three words, arrays and objects, nested as
deep as the fuel allows.  `Denotes text v` says that some fuel reads the whole
text as the value `v`.

A string may hold any byte from 0x20 on that is no quote and no backslash;
bytes from 0x80 on are passed through, whatever encoding they are of, so a text
that is exchanged must be `IsUtf8` besides.  A text is cut at an ASCII byte
without cutting a character (`isUtf8_append_cons`).  An escape is always longer
than what it stands for, so a string that is read as the very bytes it is
written with has no escape in it (`stringBody_spec`).
Members with plain keys and scalar values in front of a text are read one after
the other (`members_lead_some`, `members_of_lead`).
-/
import Nullsploit.HexText

namespace JsonText

open CText HexText

/-! ### Values -/

/-- A JSON value; a number is a mantissa and a power of ten. -/
inductive Json
  | null
  | bool (b : Bool)
  | num (mantissa exponent : Int)
  | str (bytes : List UInt8)
  | arr (items : List Json)
  | obj (members : List (List UInt8 × Json))

/-! ### Strings -/

/-- The UTF-8 bytes of a code point. -/
def utf8 (u : Nat) : List UInt8 :=
  if u < 0x80 then [UInt8.ofNat u]
  else if u < 0x800 then [UInt8.ofNat (0xc0 + u / 0x40), UInt8.ofNat (0x80 + u % 0x40)]
  else if u < 0x10000 then
    [UInt8.ofNat (0xe0 + u / 0x1000), UInt8.ofNat (0x80 + u / 0x40 % 0x40),
      UInt8.ofNat (0x80 + u % 0x40)]
  else
    [UInt8.ofNat (0xf0 + u / 0x40000), UInt8.ofNat (0x80 + u / 0x1000 % 0x40),
      UInt8.ofNat (0x80 + u / 0x40 % 0x40), UInt8.ofNat (0x80 + u % 0x40)]

/-- Four hexadecimal digits. -/
def hex4 : List UInt8 → Option (Nat × List UInt8)
  | a :: b :: c :: d :: r =>
      match hexVal a, hexVal b, hexVal c, hexVal d with
      | some a, some b, some c, some d => some (((a * 16 + b) * 16 + c) * 16 + d, r)
      | _, _, _, _ => none
  | _ => none

/-- The second half of a surrogate pair. -/
def lowSurrogate : List UInt8 → Option (Nat × List UInt8)
  | b :: c :: s =>
      if b = ch '\\' ∧ c = ch 'u' then
        match hex4 s with
        | some (u, r) => if 0xdc00 ≤ u ∧ u < 0xe000 then some (u, r) else none
        | none => none
      else none
  | _ => none

/-- A code unit behind `\u`, or two of them that make a pair. -/
def codePoint (s : List UInt8) : Option (List UInt8 × List UInt8) :=
  match hex4 s with
  | none => none
  | some (u, r) =>
      if 0xd800 ≤ u ∧ u < 0xdc00 then
        match lowSurrogate r with
        | some (l, r') => some (utf8 (0x10000 + (u - 0xd800) * 0x400 + (l - 0xdc00)), r')
        | none => some (utf8 u, r)
      else some (utf8 u, r)

/-- What the byte behind a backslash stands for, `u` apart. -/
def shortEscape (c : UInt8) : Option UInt8 :=
  if c = ch '"' ∨ c = ch '\\' ∨ c = ch '/' then some c
  else if c = ch 'b' then some 8
  else if c = ch 'f' then some 12
  else if c = ch 'n' then some 10
  else if c = ch 'r' then some 13
  else if c = ch 't' then some 9
  else none

/-- A byte that stands for itself in a string. -/
def Plain (b : UInt8) : Prop := b ≠ ch '"' ∧ b ≠ ch '\\' ∧ 32 ≤ b

instance (b : UInt8) : Decidable (Plain b) :=
  inferInstanceAs (Decidable (b ≠ ch '"' ∧ b ≠ ch '\\' ∧ 32 ≤ b))

/-- An escape from behind its backslash. -/
def escape : List UInt8 → Option (List UInt8 × List UInt8)
  | [] => none
  | c :: s => if c = ch 'u' then codePoint s else (shortEscape c).map fun d => ([d], s)

/-- One character of a string: the bytes it stands for and the text behind it. -/
def character : List UInt8 → Option (List UInt8 × List UInt8)
  | [] => none
  | b :: s => if b = ch '\\' then escape s else if Plain b then some ([b], s) else none

/-- A string from behind its opening quote: its bytes and the text behind its
closing quote. -/
def stringBody : Nat → List UInt8 → Option (List UInt8 × List UInt8)
  | 0, _ => none
  | _ + 1, [] => none
  | fuel + 1, b :: s =>
      if b = ch '"' then some ([], s)
      else
        match character (b :: s) with
        | none => none
        | some (d, r) => (stringBody fuel r).map fun p => (d ++ p.1, p.2)

/-- The text is the whole of a string between its quotes, and stands for `v`:
a quote put behind it closes the string there, whatever follows. -/
def IsBody (text v : List UInt8) : Prop :=
  ∀ rest, ∃ fuel, stringBody fuel (text ++ ch '"' :: rest) = some (v, rest)

/-! ### Values in text -/

/-- JSON white space. -/
def isWs (b : UInt8) : Bool := b = 32 ∨ b = 9 ∨ b = 10 ∨ b = 13

/-- Leave out white space. -/
def skipWs (s : List UInt8) : List UInt8 := s.dropWhile isWs

/-- The digits behind a decimal point, if there is one. -/
def fraction : List UInt8 → Option (List UInt8 × List UInt8)
  | [] => some ([], [])
  | b :: s =>
      if b = ch '.' then
        if s.takeWhile isDigit = [] then none else some (s.takeWhile isDigit, s.dropWhile isDigit)
      else some ([], b :: s)

/-- The digits of an exponent with its sign in front of them. -/
def exponentDigits (sign : Int) (s : List UInt8) : Option (Int × List UInt8) :=
  if s.takeWhile isDigit = [] then none
  else some (sign * digitsVal (s.takeWhile isDigit), s.dropWhile isDigit)

/-- The exponent, 0 if there is none. -/
def exponent : List UInt8 → Option (Int × List UInt8)
  | [] => some (0, [])
  | b :: s =>
      if b = ch 'e' ∨ b = ch 'E' then
        match s with
        | [] => none
        | c :: t =>
            if c = ch '-' then exponentDigits (-1) t
            else if c = ch '+' then exponentDigits 1 t
            else exponentDigits 1 (c :: t)
      else some (0, b :: s)

/-- A number without its sign: no leading zero, a digit on each side of the point. -/
def unsigned (sign : Int) (s : List UInt8) : Option (Json × List UInt8) :=
  let int := s.takeWhile isDigit
  if int = [] ∨ int.head? = some (ch '0') ∧ int ≠ [ch '0'] then none
  else
    match fraction (s.dropWhile isDigit) with
    | none => none
    | some (frac, r) =>
        (exponent r).map fun p => (.num (sign * digitsVal (int ++ frac)) (p.1 - frac.length), p.2)

/-- A number. -/
def number : List UInt8 → Option (Json × List UInt8)
  | [] => none
  | b :: s => if b = ch '-' then unsigned (-1) s else unsigned 1 (b :: s)

/-- One of the words `true`, `false`, `null`. -/
def word (text : List UInt8) (v : Json) (s : List UInt8) : Option (Json × List UInt8) :=
  if text.isPrefixOf s then some (v, s.drop text.length) else none

mutual

/-- A value behind any white space, and the text behind it. -/
def value : Nat → List UInt8 → Option (Json × List UInt8)
  | 0, _ => none
  | fuel + 1, s =>
      match skipWs s with
      | [] => none
      | b :: t =>
          if b = ch '"' then (stringBody fuel t).map fun p => (.str p.1, p.2)
          else if b = ch '\x7b' then
            match skipWs t with
            | [] => none
            | c :: r =>
                if c = ch '\x7d' then some (.obj [], r)
                else (members fuel (c :: r)).map fun p => (.obj p.1, p.2)
          else if b = ch '[' then
            match skipWs t with
            | [] => none
            | c :: r =>
                if c = ch ']' then some (.arr [], r)
                else (elements fuel (c :: r)).map fun p => (.arr p.1, p.2)
          else if b = ch 't' then word (str "true") (.bool true) (b :: t)
          else if b = ch 'f' then word (str "false") (.bool false) (b :: t)
          else if b = ch 'n' then word (str "null") .null (b :: t)
          else number (b :: t)

/-- The members of an object from its next key on, and the text behind its
closing brace. -/
def members : Nat → List UInt8 → Option (List (List UInt8 × Json) × List UInt8)
  | 0, _ => none
  | fuel + 1, s =>
      match skipWs s with
      | [] => none
      | b :: t =>
          if b = ch '"' then
            match stringBody fuel t with
            | none => none
            | some (key, r) =>
                match skipWs r with
                | [] => none
                | c :: r =>
                    if c = ch ':' then
                      match value fuel r with
                      | none => none
                      | some (v, r) =>
                          match skipWs r with
                          | [] => none
                          | d :: r =>
                              if d = ch ',' then
                                (members fuel r).map fun p => ((key, v) :: p.1, p.2)
                              else if d = ch '\x7d' then some ([(key, v)], r)
                              else none
                    else none
          else none

/-- The items of an array from its next item on, and the text behind its
closing bracket. -/
def elements : Nat → List UInt8 → Option (List Json × List UInt8)
  | 0, _ => none
  | fuel + 1, s =>
      match value fuel s with
      | none => none
      | some (v, r) =>
          match skipWs r with
          | [] => none
          | d :: r =>
              if d = ch ',' then (elements fuel r).map fun p => (v :: p.1, p.2)
              else if d = ch ']' then some ([v], r)
              else none

end

/-- The text is the value, with white space around it at most. -/
def Denotes (text : List UInt8) (v : Json) : Prop :=
  ∃ fuel rest, value fuel text = some (v, rest) ∧ ∀ b ∈ rest, isWs b = true

/-! ### Characters and strings -/

theorem length_utf8_le (u : Nat) : (utf8 u).length ≤ 4 := by
  unfold utf8
  split_ifs <;> simp

theorem hex4_eq_some {s r : List UInt8} {u : Nat} (h : hex4 s = some (u, r)) :
    ∃ t, s = t ++ r ∧ t.length = 4 ∧ ch '"' ∉ t := by
  match s with
  | a :: b :: c :: d :: s =>
      rw [hex4] at h
      rcases ha : hexVal a with - | a' <;> rcases hb : hexVal b with - | b' <;>
        rcases hc : hexVal c with - | c' <;> rcases hd : hexVal d with - | d' <;>
        simp only [ha, hb, hc, hd, reduceCtorEq, Option.some.injEq, Prod.mk.injEq] at h
      refine ⟨[a, b, c, d], by rw [← h.2]; rfl, rfl, ?_⟩
      -- a quote is no digit
      have hquote : hexVal (ch '"') = none := by decide
      intro hmem
      simp only [List.mem_cons, List.not_mem_nil, or_false] at hmem
      rcases hmem with hq | hq | hq | hq <;> simp [← hq, hquote] at ha hb hc hd
  | [] => cases h
  | [_] => cases h
  | [_, _] => cases h
  | [_, _, _] => cases h

theorem lowSurrogate_eq_some {s r : List UInt8} {u : Nat} (h : lowSurrogate s = some (u, r)) :
    ∃ t, s = t ++ r ∧ ch '"' ∉ t := by
  match s with
  | [] => cases h
  | [_] => cases h
  | b :: c :: s =>
      rw [lowSurrogate] at h
      split at h
      · rename_i hbc
        rcases e : hex4 s with - | ⟨u', r'⟩
        · rw [e] at h
          cases h
        · rw [e] at h
          dsimp only at h
          split at h
          · obtain ⟨rfl, rfl⟩ := Prod.mk.inj (Option.some.inj h)
            obtain ⟨t, rfl, -, hquote⟩ := hex4_eq_some e
            refine ⟨b :: c :: t, rfl, ?_⟩
            rw [hbc.1, hbc.2, List.mem_cons, List.mem_cons, not_or, not_or]
            exact ⟨by decide, by decide, hquote⟩
          · cases h
      · cases h

/-- A `\u` escape: at least four bytes, none of them a quote, for at most four. -/
theorem codePoint_eq_some {s r d : List UInt8} (h : codePoint s = some (d, r)) :
    ∃ t, s = t ++ r ∧ 4 ≤ t.length ∧ ch '"' ∉ t ∧ d.length ≤ 4 := by
  unfold codePoint at h
  rcases e : hex4 s with - | ⟨u, r'⟩
  · rw [e] at h
    cases h
  · obtain ⟨t, rfl, ht, hquote⟩ := hex4_eq_some e
    rw [e] at h
    dsimp only at h
    -- one code unit, unless a pair is complete
    have hone : some (utf8 u, r') = some (d, r) →
        ∃ t', t ++ r' = t' ++ r ∧ 4 ≤ t'.length ∧ ch '"' ∉ t' ∧ d.length ≤ 4 := by
      intro h
      obtain ⟨rfl, rfl⟩ := Prod.mk.inj (Option.some.inj h)
      exact ⟨t, rfl, ht.ge, hquote, length_utf8_le u⟩
    split at h
    · rcases e' : lowSurrogate r' with - | ⟨l, r''⟩
      · rw [e'] at h
        exact hone h
      · obtain ⟨t', rfl, hquote'⟩ := lowSurrogate_eq_some e'
        rw [e'] at h
        obtain ⟨rfl, rfl⟩ := Prod.mk.inj (Option.some.inj h)
        refine ⟨t ++ t', (List.append_assoc ..).symm, ?_, ?_, length_utf8_le _⟩
        · rw [List.length_append]
          omega
        · rw [List.mem_append, not_or]
          exact ⟨hquote, hquote'⟩
    · exact hone h

/-- One character: the text it is written with, which is longer than what it
stands for unless it is that byte itself. -/
theorem character_eq_some {s r d : List UInt8} (h : character s = some (d, r)) :
    ∃ t, s = t ++ r ∧ t ≠ [] ∧
      (d.length < t.length ∧ (t = [ch '\\', ch '"'] ∨ ch '"' ∉ t) ∨
        ∃ b, Plain b ∧ t = [b] ∧ d = [b]) := by
  match s with
  | [] => cases h
  | b :: s =>
      rw [character] at h
      split at h
      · rename_i hb
        match s with
        | [] => cases h
        | c :: s =>
            rw [escape] at h
            split at h
            · rename_i hc
              obtain ⟨t, rfl, ht, hquote, hd⟩ := codePoint_eq_some h
              refine ⟨b :: c :: t, rfl, List.cons_ne_nil _ _, Or.inl ⟨?_, Or.inr ?_⟩⟩
              · rw [List.length_cons, List.length_cons]
                omega
              · rw [hb, hc, List.mem_cons, List.mem_cons, not_or, not_or]
                exact ⟨by decide, by decide, hquote⟩
            · obtain ⟨e, -, he⟩ := Option.map_eq_some_iff.mp h
              obtain ⟨rfl, rfl⟩ := Prod.mk.inj he
              refine ⟨[b, c], rfl, List.cons_ne_nil _ _, Or.inl ⟨by simp, ?_⟩⟩
              rw [hb]
              by_cases hc : c = ch '"'
              · exact Or.inl (by rw [hc])
              · refine Or.inr ?_
                rw [List.mem_cons, List.mem_singleton, not_or]
                exact ⟨by decide, Ne.symm hc⟩
      · split at h
        · rename_i hplain
          obtain ⟨rfl, rfl⟩ := Prod.mk.inj (Option.some.inj h)
          exact ⟨[b], rfl, List.cons_ne_nil _ _, Or.inr ⟨b, hplain, rfl, rfl⟩⟩
        · cases h

theorem character_of_plain {b : UInt8} (h : Plain b) (s : List UInt8) :
    character (b :: s) = some ([b], s) := by
  rw [character, if_neg h.2.1, if_pos h]

/-- What a string is read from: a stretch of text before a quote, at least as
long as the string, and the string itself when it is as long. -/
theorem stringBody_spec {fuel : Nat} {s v r : List UInt8} (h : stringBody fuel s = some (v, r)) :
    ∃ t, s = t ++ ch '"' :: r ∧ v.length ≤ t.length ∧
      (v.length = t.length → v = t ∧ ∀ b ∈ t, Plain b) := by
  induction fuel generalizing s v with
  | zero => cases h
  | succ fuel ih =>
      match s with
      | [] => cases h
      | b :: s =>
          rw [stringBody] at h
          split at h
          · rename_i hb
            obtain ⟨rfl, rfl⟩ := Prod.mk.inj (Option.some.inj h)
            exact ⟨[], by rw [hb]; rfl, Nat.le_refl _, fun _ => ⟨rfl, by simp⟩⟩
          · rcases e : character (b :: s) with - | ⟨d, r'⟩
            · rw [e] at h
              cases h
            · rw [e] at h
              obtain ⟨⟨v', r''⟩, hrest, hv⟩ := Option.map_eq_some_iff.mp h
              obtain ⟨rfl, rfl⟩ := Prod.mk.inj hv
              obtain ⟨t, rfl, hle, heq⟩ := ih hrest
              obtain ⟨t', hs, -, hchar⟩ := character_eq_some e
              rw [hs]
              refine ⟨t' ++ t, (List.append_assoc ..).symm, ?_⟩
              simp only [List.length_append]
              rcases hchar with ⟨hlt, -⟩ | ⟨c, hc, rfl, rfl⟩
              · exact ⟨by omega, fun h => by omega⟩
              · refine ⟨by omega, fun h => ?_⟩
                obtain ⟨rfl, hplain⟩ := heq (by omega)
                exact ⟨rfl, List.forall_mem_cons.mpr ⟨hc, hplain⟩⟩

/-- A plain string. -/
theorem stringBody_plain {t : List UInt8} (h : ∀ b ∈ t, Plain b) (r : List UInt8) {fuel : Nat}
    (hfuel : t.length < fuel) : stringBody fuel (t ++ ch '"' :: r) = some (t, r) := by
  induction t generalizing fuel with
  | nil =>
      obtain ⟨fuel, rfl⟩ := Nat.exists_eq_succ_of_ne_zero (Nat.ne_of_gt hfuel)
      rw [List.nil_append, stringBody, if_pos rfl]
  | cons b t ih =>
      obtain ⟨fuel, rfl⟩ := Nat.exists_eq_succ_of_ne_zero (Nat.ne_of_gt (Nat.zero_lt_of_lt hfuel))
      obtain ⟨hb, ht⟩ := List.forall_mem_cons.mp h
      rw [List.cons_append, stringBody, if_neg hb.1, character_of_plain hb]
      dsimp only
      rw [ih ht (Nat.lt_of_succ_lt_succ hfuel)]
      rfl

/-- A string that does not end at a quote, nor before it, goes on right behind it. -/
theorem stringBody_runs_on {fuel : Nat} {s tail v r : List UInt8}
    (h : stringBody fuel (s ++ ch '"' :: tail) = some (v, r)) (hr : r.length < tail.length) :
    ∃ fuel' v', stringBody fuel' tail = some (v', r) := by
  induction fuel generalizing s v with
  | zero => cases h
  | succ fuel ih =>
      match s with
      | [] =>
          rw [List.nil_append, stringBody, if_pos rfl] at h
          obtain ⟨-, rfl⟩ := Prod.mk.inj (Option.some.inj h)
          exact absurd hr (Nat.lt_irrefl _)
      | b :: s =>
          rw [List.cons_append, stringBody] at h
          split at h
          · obtain ⟨-, rfl⟩ := Prod.mk.inj (Option.some.inj h)
            simp only [List.length_append, List.length_cons] at hr
            omega
          · rcases e : character (b :: (s ++ ch '"' :: tail)) with - | ⟨d, r'⟩
            · rw [e] at h
              cases h
            · rw [e] at h
              obtain ⟨⟨v', r''⟩, hrest, hv⟩ := Option.map_eq_some_iff.mp h
              obtain ⟨rfl, rfl⟩ := Prod.mk.inj hv
              obtain ⟨t, hs, hne, hchar⟩ := character_eq_some e
              have hs' : (b :: s) ++ ch '"' :: tail = t ++ r' := hs
              -- the character ends before the quote, or it is the escaped quote
              rcases List.append_eq_append_iff.mp hs' with ⟨c, rfl, hc⟩ | ⟨c, hc, rfl⟩
              · match c with
                | [] =>
                    rw [List.nil_append] at hc
                    rw [← hc] at hrest
                    exact ih (s := []) hrest
                | q :: c =>
                    obtain ⟨rfl, rfl⟩ := List.cons_eq_cons.mp hc
                    rcases hchar with ⟨-, htwo | hno⟩ | ⟨_, -, hone, -⟩
                    · have hlen := congrArg List.length htwo
                      simp only [List.length_append, List.length_cons, List.length_nil] at hlen
                      obtain rfl : c = [] := List.eq_nil_of_length_eq_zero (by omega)
                      exact ⟨fuel, v', hrest⟩
                    · exact absurd (by simp) hno
                    · have hlen := congrArg List.length hone
                      simp only [List.length_append, List.length_cons, List.length_nil] at hlen
                      omega
              · exact ih hrest

/-- A string read back as the bytes in front of a quote: they are plain and the
quote closes it, or it runs on behind that quote. -/
theorem stringBody_self {fuel : Nat} {s tail r : List UInt8}
    (h : stringBody fuel (s ++ ch '"' :: tail) = some (s, r)) :
    (∀ b ∈ s, Plain b) ∧ r = tail ∨ ∃ fuel' v', stringBody fuel' tail = some (v', r) := by
  obtain ⟨t, htext, hle, heq⟩ := stringBody_spec h
  rcases Nat.lt_or_eq_of_le hle with hlt | hlen
  · right
    have hlens := congrArg List.length htext
    simp only [List.length_append, List.length_cons] at hlens
    exact stringBody_runs_on h (by omega)
  · left
    obtain ⟨rfl, hplain⟩ := heq hlen
    exact ⟨hplain, (List.cons_eq_cons.mp (List.append_cancel_left htext)).2.symm⟩

/-! ### Fuel -/

/-- `b` knows what `a` knows. -/
def Extends {α : Type*} (a b : Option α) : Prop := ∀ x, a = some x → b = some x

theorem Extends.map {α β : Type*} {a b : Option α} (h : Extends a b) (f : α → β) :
    Extends (a.map f) (b.map f) := by
  intro y hy
  obtain ⟨x, hx, rfl⟩ := Option.map_eq_some_iff.mp hy
  rw [h x hx]
  rfl

theorem stringBody_succ (fuel : Nat) (s : List UInt8) :
    Extends (stringBody fuel s) (stringBody (fuel + 1) s) := by
  induction fuel generalizing s with
  | zero =>
      intro x hx
      cases hx
  | succ fuel ih =>
      match s with
      | [] => exact fun x hx => hx
      | b :: s =>
          rw [stringBody, stringBody]
          split
          · exact fun x hx => hx
          · rcases character (b :: s) with - | ⟨d, r⟩
            · exact fun x hx => hx
            · exact (ih r).map _

/-- One more unit of fuel, for the three readers at once. -/
theorem value_members_elements_succ (fuel : Nat) :
    (∀ s, Extends (value fuel s) (value (fuel + 1) s)) ∧
      (∀ s, Extends (members fuel s) (members (fuel + 1) s)) ∧
      ∀ s, Extends (elements fuel s) (elements (fuel + 1) s) := by
  induction fuel with
  | zero =>
      refine ⟨?_, ?_, ?_⟩ <;> intro s x hx <;> cases hx
  | succ fuel ih =>
      obtain ⟨hvalue, hmembers, helements⟩ := ih
      have hid : ∀ {α : Type} (a : Option α), Extends a a := fun _ _ hx => hx
      refine ⟨fun s => ?_, fun s => ?_, fun s => ?_⟩
      · rw [value, value]
        rcases skipWs s with - | ⟨b, t⟩
        · exact hid _
        · dsimp only
          split_ifs
          · exact (stringBody_succ fuel t).map _
          · rcases skipWs t with - | ⟨c, r⟩
            · exact hid _
            · dsimp only
              split_ifs
              · exact hid _
              · exact (hmembers _).map _
          · rcases skipWs t with - | ⟨c, r⟩
            · exact hid _
            · dsimp only
              split_ifs
              · exact hid _
              · exact (helements _).map _
          all_goals exact hid _
      · rw [members, members]
        rcases skipWs s with - | ⟨b, t⟩
        · exact hid _
        · dsimp only
          split_ifs
          · -- the key, then the value: each is read the same or not at all
            rcases hkey : stringBody fuel t with - | ⟨key, r⟩
            · intro x hx
              cases hx
            · rw [stringBody_succ fuel t _ hkey]
              dsimp only
              rcases skipWs r with - | ⟨c, r⟩
              · exact hid _
              · dsimp only
                split_ifs
                · rcases hv : value fuel r with - | ⟨v, r'⟩
                  · intro x hx
                    cases hx
                  · rw [hvalue r _ hv]
                    dsimp only
                    rcases skipWs r' with - | ⟨d, r'⟩
                    · exact hid _
                    · dsimp only
                      split_ifs
                      · exact (hmembers r').map _
                      · exact hid _
                      · exact hid _
                · exact hid _
          · exact hid _
      · rw [elements, elements]
        rcases hv : value fuel s with - | ⟨v, r⟩
        · intro x hx
          cases hx
        · rw [hvalue s _ hv]
          dsimp only
          rcases skipWs r with - | ⟨d, r⟩
          · exact hid _
          · dsimp only
            split_ifs
            · exact (helements r).map _
            · exact hid _
            · exact hid _

/-- What some fuel reads, more fuel reads the same way. -/
theorem value_mono {fuel fuel' : Nat} (h : fuel ≤ fuel') (s : List UInt8) :
    Extends (value fuel s) (value fuel' s) := by
  induction h with
  | refl => exact fun x hx => hx
  | step _ ih => exact fun x hx => (value_members_elements_succ _).1 s x (ih x hx)

/-- A text is one value at most. -/
theorem Denotes.unique {text : List UInt8} {v w : Json} (hv : Denotes text v)
    (hw : Denotes text w) : v = w := by
  obtain ⟨f, r, hf, -⟩ := hv
  obtain ⟨g, r', hg, -⟩ := hw
  have hf' := value_mono (Nat.le_max_left f g) text _ hf
  have hg' := value_mono (Nat.le_max_right f g) text _ hg
  rw [hf'] at hg'
  exact (Prod.mk.inj (Option.some.inj hg')).1

/-! ### Scalars -/

/-- The text is read as the value in front of a comma or a closing brace. -/
def Reads (n : Nat) (text : List UInt8) (v : Json) : Prop :=
  ∀ fuel, n ≤ fuel → ∀ d r, d = ch ',' ∨ d = ch '\x7d' →
    value fuel (text ++ d :: r) = some (v, d :: r)

theorem Reads.mono {n m : Nat} {text : List UInt8} {v : Json} (h : Reads n text v) (hnm : n ≤ m) :
    Reads m text v :=
  fun fuel hfuel => h fuel (hnm.trans hfuel)

/-- A string between its quotes. -/
def quoted (s : List UInt8) : List UInt8 := ch '"' :: (s ++ [ch '"'])

theorem value_quote (fuel : Nat) (t : List UInt8) :
    value (fuel + 1) (ch '"' :: t) = (stringBody fuel t).map fun p => (.str p.1, p.2) := by
  rw [value]
  show (if ch '"' = ch '"' then _ else _) = _
  rw [if_pos rfl]

theorem reads_quoted {s : List UInt8} (h : ∀ b ∈ s, Plain b) :
    Reads (s.length + 2) (quoted s) (.str s) := by
  intro fuel hfuel d r _
  obtain ⟨fuel, rfl⟩ := Nat.exists_eq_add_of_le hfuel
  have htext : quoted s ++ d :: r = ch '"' :: (s ++ ch '"' :: d :: r) := by simp [quoted]
  have hlt : s.length < s.length + 1 + fuel := by omega
  rw [htext, show s.length + 2 + fuel = s.length + 1 + fuel + 1 by omega, value_quote,
    stringBody_plain h _ hlt]
  rfl

/-- What the first byte of a number is not. -/
theorem numeric_head {b : UInt8} (h : isDigit b = true ∨ b = ch '-') :
    isWs b = false ∧ b ≠ ch '"' ∧ b ≠ ch '\x7b' ∧ b ≠ ch '[' ∧ b ≠ ch 't' ∧ b ≠ ch 'f' ∧
      b ≠ ch 'n' := by
  rcases h with h | rfl
  · have hall : ∀ d < 10, isWs (digit d) = false ∧ digit d ≠ ch '"' ∧ digit d ≠ ch '\x7b' ∧
        digit d ≠ ch '[' ∧ digit d ≠ ch 't' ∧ digit d ≠ ch 'f' ∧ digit d ≠ ch 'n' := by decide
    rw [eq_digit h]
    rw [isDigit_iff] at h
    exact hall _ (by omega)
  · decide

theorem value_numeric {b : UInt8} (h : isDigit b = true ∨ b = ch '-') (fuel : Nat)
    (t : List UInt8) : value (fuel + 1) (b :: t) = number (b :: t) := by
  obtain ⟨hws, h1, h2, h3, h4, h5, h6⟩ := numeric_head h
  have hskip : skipWs (b :: t) = b :: t := List.dropWhile_cons_of_neg (by simp [hws])
  rw [value, hskip]
  dsimp only
  rw [if_neg h1, if_neg h2, if_neg h3, if_neg h4, if_neg h5, if_neg h6]

theorem head_decimal_ne {n : Nat} (h : 0 < n) : (decimal n).head? ≠ some (ch '0') := by
  induction n using decimal_induction with
  | single d hd =>
      have hall : ∀ d < 10, 0 < d → [digit d].head? ≠ some (ch '0') := by decide
      rw [decimal_of_lt hd]
      exact hall d hd h
  | snoc n d hn hd ih =>
      rw [decimal_snoc hn hd, List.head?_append_of_ne_nil _ (decimal_ne_nil n)]
      exact ih hn

theorem unsigned_decimal (sign : Int) (n : Nat) {d : UInt8} (hd : d = ch ',' ∨ d = ch '\x7d')
    (r : List UInt8) : unsigned sign (decimal n ++ d :: r) = some (.num (sign * n) 0, d :: r) := by
  have hdigit : isDigit d = false := by rcases hd with rfl | rfl <;> decide
  have htake : (decimal n ++ d :: r).takeWhile isDigit = decimal n := by
    rw [List.takeWhile_append_of_pos (isDigit_of_mem_decimal n),
      List.takeWhile_cons_of_neg (by simp [hdigit]), List.append_nil]
  have hdrop : (decimal n ++ d :: r).dropWhile isDigit = d :: r := by
    rw [List.dropWhile_append_of_pos (isDigit_of_mem_decimal n),
      List.dropWhile_cons_of_neg (by simp [hdigit])]
  have hzero : ¬ (decimal n = [] ∨ (decimal n).head? = some (ch '0') ∧ decimal n ≠ [ch '0']) := by
    rintro (hnil | ⟨hhead, hne⟩)
    · exact decimal_ne_nil n hnil
    · rcases Nat.eq_zero_or_pos n with rfl | hn
      · exact hne (by decide)
      · exact head_decimal_ne hn hhead
  -- neither a point nor an exponent follows
  have hfrac : fraction (d :: r) = some ([], d :: r) := by
    rcases hd with rfl | rfl <;> rfl
  have hexp : exponent (d :: r) = some (0, d :: r) := by
    rcases hd with rfl | rfl <;> rfl
  unfold unsigned
  dsimp only
  rw [htake, if_neg hzero, hdrop, hfrac]
  dsimp only
  rw [hexp, List.append_nil, digitsVal_decimal]
  rfl

theorem reads_decimalInt (n : Int) : Reads 1 (decimalInt n) (.num n 0) := by
  intro fuel hfuel d r hd
  obtain ⟨fuel, rfl⟩ := Nat.exists_eq_add_of_le hfuel
  rw [Nat.add_comm, decimalInt]
  split
  · rename_i hneg
    rw [List.cons_append, value_numeric (Or.inr rfl), number, if_pos rfl, unsigned_decimal _ _ hd,
      show (-1 : Int) * n.natAbs = n by omega]
  · rename_i hpos
    obtain ⟨b, t, hbt⟩ := List.exists_cons_of_ne_nil (decimal_ne_nil n.natAbs)
    have hb : isDigit b = true := isDigit_of_mem_decimal n.natAbs b (by rw [hbt]; exact List.mem_cons_self)
    have hminus : b ≠ ch '-' := (not_blank_not_sign hb).2.1
    have hread := unsigned_decimal 1 n.natAbs hd r
    rw [hbt, List.cons_append] at hread ⊢
    rw [value_numeric (Or.inl hb), number, if_neg hminus, hread,
      show (1 : Int) * n.natAbs = n by omega]

/-! ### Objects -/

/-- A member of an object: its key, the text of its value, and the value. -/
structure Member where
  key : List UInt8
  text : List UInt8
  val : Json

namespace Member

/-- The member as text. -/
def render (m : Member) : List UInt8 := quoted m.key ++ ch ':' :: m.text

/-- The member as the reader returns it. -/
def pair (m : Member) : List UInt8 × Json := (m.key, m.val)

/-- The key is plain and the text is read as the value, with fuel `n`. -/
structure Ok (n : Nat) (m : Member) : Prop where
  plain : ∀ b ∈ m.key, Plain b
  key_lt : m.key.length < n
  reads : Reads n m.text m.val

end Member

/-- An object starts with its first key. -/
theorem value_object (fuel : Nat) (t : List UInt8) :
    value (fuel + 1) (ch '\x7b' :: ch '"' :: t)
      = (members fuel (ch '"' :: t)).map fun p => (.obj p.1, p.2) := by
  rw [value]
  rfl

/-- Behind a plain key: what the rest of the object is read from. -/
theorem members_key {key : List UInt8} (hkey : ∀ b ∈ key, Plain b) {fuel : Nat}
    (hfuel : key.length < fuel) (s : List UInt8) :
    members (fuel + 1) (quoted key ++ ch ':' :: s)
      = match value fuel s with
        | none => none
        | some (v, r) =>
            match skipWs r with
            | [] => none
            | d :: r =>
                if d = ch ',' then (members fuel r).map fun p => ((key, v) :: p.1, p.2)
                else if d = ch '\x7d' then some ([(key, v)], r)
                else none := by
  have htext : quoted key ++ ch ':' :: s = ch '"' :: (key ++ ch '"' :: ch ':' :: s) := by
    simp [quoted]
  rw [htext, members]
  show (if ch '"' = ch '"' then _ else _) = _
  rw [if_pos rfl, stringBody_plain hkey _ hfuel]
  rfl

/-- A member in front of a comma. -/
theorem members_comma {n : Nat} {m : Member} (h : m.Ok n) {fuel : Nat} (hfuel : n ≤ fuel)
    (r : List UInt8) :
    members (fuel + 1) (m.render ++ ch ',' :: r)
      = (members fuel r).map fun p => (m.pair :: p.1, p.2) := by
  have htext : m.render ++ ch ',' :: r = quoted m.key ++ ch ':' :: (m.text ++ ch ',' :: r) := by
    simp [Member.render]
  rw [htext, members_key h.plain (h.key_lt.trans_le hfuel),
    h.reads fuel hfuel _ _ (Or.inl rfl)]
  rfl

/-- The last member. -/
theorem members_brace {n : Nat} {m : Member} (h : m.Ok n) {fuel : Nat} (hfuel : n ≤ fuel)
    (r : List UInt8) :
    members (fuel + 1) (m.render ++ ch '\x7d' :: r) = some ([m.pair], r) := by
  have htext : m.render ++ ch '\x7d' :: r = quoted m.key ++ ch ':' :: (m.text ++ ch '\x7d' :: r) := by
    simp [Member.render]
  rw [htext, members_key h.plain (h.key_lt.trans_le hfuel),
    h.reads fuel hfuel _ _ (Or.inr rfl)]
  rfl

/-- Members one after the other, each with a comma behind it. -/
theorem members_lead {n : Nat} {lead : List Member} (h : ∀ m ∈ lead, m.Ok n) {fuel : Nat}
    (hfuel : n ≤ fuel) (r : List UInt8) :
    members (fuel + lead.length) (lead.flatMap (fun m => m.render ++ [ch ',']) ++ r)
      = (members fuel r).map fun p => (lead.map Member.pair ++ p.1, p.2) := by
  induction lead with
  | nil => simp
  | cons m lead ih =>
      obtain ⟨hm, hlead⟩ := List.forall_mem_cons.mp h
      have htext : (m :: lead).flatMap (fun m => m.render ++ [ch ',']) ++ r
          = m.render ++ ch ',' :: (lead.flatMap (fun m => m.render ++ [ch ',']) ++ r) := by
        simp
      have hle : n ≤ fuel + lead.length := hfuel.trans (Nat.le_add_right _ _)
      rw [htext, List.length_cons, ← Nat.add_assoc, members_comma hm hle, ih hlead,
        Option.map_map]
      rfl

/-! ### UTF-8 -/

/-- The bytes are the UTF-8 text of some characters. -/
def IsUtf8 (s : List UInt8) : Prop := s.toByteArray.IsValidUTF8

instance (s : List UInt8) : Decidable (IsUtf8 s) :=
  inferInstanceAs (Decidable s.toByteArray.IsValidUTF8)

theorem isUtf8_iff {s : List UInt8} :
    IsUtf8 s ↔ ∃ cs : List Char, s = cs.flatMap String.utf8EncodeChar := by
  constructor
  · rintro ⟨cs, hcs⟩
    refine ⟨cs, ?_⟩
    have hdata := congrArg (fun b : ByteArray => b.data.toList) hcs
    simpa [List.utf8Encode] using hdata
  · rintro ⟨cs, rfl⟩
    exact ⟨cs, rfl⟩

theorem le_byte_ofNat {n : Nat} (h : 0x80 ≤ n) (h' : n < 0x100) :
    (0x80 : UInt8) ≤ UInt8.ofNat n := by
  rw [UInt8.le_iff_toNat_le, UInt8.toNat_ofNat', Nat.mod_eq_of_lt h']
  exact h

/-- A character is one ASCII byte, or has no such byte. -/
theorem utf8EncodeChar_cases (c : Char) :
    (∃ b : UInt8, b < 0x80 ∧ String.utf8EncodeChar c = [b]) ∨
      ∀ b ∈ String.utf8EncodeChar c, 0x80 ≤ b := by
  unfold String.utf8EncodeChar
  extract_lets v
  by_cases h : v ≤ 0x7f
  · refine Or.inl ⟨UInt8.ofNat v, ?_, if_pos h⟩
    rw [UInt8.lt_iff_toNat_lt, UInt8.toNat_ofNat', Nat.mod_eq_of_lt (by omega)]
    exact Nat.lt_succ_of_le h
  · right
    rw [if_neg h]
    -- a lead byte and what follows it are marked in their upper bits
    intro b hb
    split_ifs at hb <;> simp only [List.mem_cons, List.not_mem_nil, or_false] at hb
    · rcases hb with rfl | rfl <;> apply le_byte_ofNat <;> omega
    · rcases hb with rfl | rfl | rfl <;> apply le_byte_ofNat <;> omega
    · rcases hb with rfl | rfl | rfl | rfl <;> apply le_byte_ofNat <;> omega

theorem utf8EncodeChar_eq_append_cons {c : Char} {a s : List UInt8} {b : UInt8} (hb : b < 0x80)
    (h : String.utf8EncodeChar c = a ++ b :: s) : a = [] ∧ s = [] := by
  rcases utf8EncodeChar_cases c with ⟨d, -, hd⟩ | hmarked
  · rw [hd] at h
    rcases List.singleton_eq_append_iff.mp h with ⟨ha, hs⟩ | ⟨-, hs⟩
    · exact ⟨ha, (List.cons_eq_cons.mp hs).2⟩
    · cases hs
  · refine absurd (hmarked b ?_) (UInt8.not_le.mpr hb)
    rw [h]
    exact List.mem_append_right a List.mem_cons_self

/-- The character of an ASCII byte. -/
theorem utf8EncodeChar_ofNat {b : UInt8} (hb : b < 0x80) :
    String.utf8EncodeChar (Char.ofNat b.toNat) = [b] := by
  have hlt : b.toNat < 0x80 := UInt8.lt_iff_toNat_lt.mp hb
  have hval : (Char.ofNat b.toNat).val.toNat = b.toNat := by
    rw [Char.ofNat, dif_pos (Or.inl (by omega))]
    rfl
  unfold String.utf8EncodeChar
  rw [hval, if_pos (Nat.le_of_lt_succ hlt), UInt8.ofNat_toNat]

theorem IsUtf8.nil : IsUtf8 [] := isUtf8_iff.mpr ⟨[], rfl⟩

theorem IsUtf8.append {s t : List UInt8} (hs : IsUtf8 s) (ht : IsUtf8 t) : IsUtf8 (s ++ t) := by
  obtain ⟨cs, rfl⟩ := isUtf8_iff.mp hs
  obtain ⟨ds, rfl⟩ := isUtf8_iff.mp ht
  exact isUtf8_iff.mpr ⟨cs ++ ds, List.flatMap_append.symm⟩

/-- A text is cut at an ASCII byte without cutting a character. -/
theorem isUtf8_append_cons {a s : List UInt8} {b : UInt8} (hb : b < 0x80) :
    IsUtf8 (a ++ b :: s) ↔ IsUtf8 a ∧ IsUtf8 s := by
  constructor
  · intro h
    obtain ⟨cs, hcs⟩ := isUtf8_iff.mp h
    clear h
    induction cs generalizing a with
    | nil => exact absurd hcs (by simp)
    | cons c cs ih =>
        rw [List.flatMap_cons] at hcs
        -- the byte stands behind the first character, or is the first character
        rcases List.append_eq_append_iff.mp hcs with ⟨a', hc, hrest⟩ | ⟨a', rfl, hrest⟩
        · rcases a' with - | ⟨d, r⟩
          · rw [List.append_nil] at hc
            rw [List.nil_append] at hrest
            exact ⟨isUtf8_iff.mpr ⟨[c], by rw [← hc]; simp⟩, (ih (a := []) hrest).2⟩
          · obtain ⟨rfl, rfl⟩ := List.cons_eq_cons.mp hrest
            obtain ⟨rfl, rfl⟩ := utf8EncodeChar_eq_append_cons hb hc
            exact ⟨IsUtf8.nil, isUtf8_iff.mpr ⟨cs, rfl⟩⟩
        · obtain ⟨ha, hs⟩ := ih hrest.symm
          exact ⟨(isUtf8_iff.mpr ⟨[c], by simp⟩ : IsUtf8 (String.utf8EncodeChar c)).append ha, hs⟩
  · rintro ⟨ha, hs⟩
    have hbyte : IsUtf8 [b] := isUtf8_iff.mpr ⟨[Char.ofNat b.toNat], by
      simp [utf8EncodeChar_ofNat hb]⟩
    exact ha.append (hbyte.append hs)

/-- ASCII in front of a text. -/
theorem isUtf8_ascii_append {a : List UInt8} (ha : ∀ b ∈ a, b < 0x80) (s : List UInt8) :
    IsUtf8 (a ++ s) ↔ IsUtf8 s := by
  induction a with
  | nil => rw [List.nil_append]
  | cons b a ih =>
      rw [List.cons_append, ← ih fun c hc => ha c (List.mem_cons_of_mem b hc)]
      refine (isUtf8_append_cons (a := []) (ha b List.mem_cons_self)).trans ?_
      exact and_iff_right IsUtf8.nil

theorem isUtf8_of_ascii {s : List UInt8} (h : ∀ b ∈ s, b < 0x80) : IsUtf8 s := by
  rw [← List.append_nil s, isUtf8_ascii_append h]
  exact IsUtf8.nil

end JsonText
