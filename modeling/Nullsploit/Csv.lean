/-
Nullsploit/Csv.lean

Tables as comma separated text: a reader in the strict sense of the format, as an
automaton over the characters, and what it makes of a table that is written with
some cells in quotes.

A cell in quotes is read as it was meant if the quotes in it are doubled
(`run_double`).  If they are not, then whatever comes behind the cell the reader does
not get its text (`raw_not_read`), so that a table with such cells reads back as it was
meant only if there is no quote in them (`parse_table_iff`).
-/
import Mathlib.Data.List.Basic
import Mathlib.Data.List.Infix
import Mathlib.Data.Option.Basic

namespace Csv

/-- The three characters the format is made of. -/
structure Dialect (α : Type*) where
  quote : α
  sep : α
  eol : α
  quote_ne_sep : quote ≠ sep
  quote_ne_eol : quote ≠ eol
  sep_ne_eol : sep ≠ eol

variable {α : Type*} [DecidableEq α] (D : Dialect α)

/-! ### Reading -/

/-- Where the reader is in a cell: in front of it, in one without quotes, between its
quotes, or behind a quote there. -/
inductive Mode
  | start
  | plain
  | quoted
  | closing
  deriving DecidableEq, Repr

/-- The cell, the cells of the record before it, and the records before that. -/
structure Reader (α : Type*) where
  mode : Mode
  cell : List α
  record : List (List α)
  table : List (List (List α))
  deriving DecidableEq

def Reader.init : Reader α := ⟨.start, [], [], []⟩

/-- The end of a cell. -/
def Reader.endCell (r : Reader α) : Reader α := ⟨.start, [], r.record ++ [r.cell], r.table⟩

/-- The end of a record. -/
def Reader.endRecord (r : Reader α) : Reader α :=
  ⟨.start, [], [], r.table ++ [r.record ++ [r.cell]]⟩

/-- One more character of the cell. -/
def Reader.push (r : Reader α) (mode : Mode) (c : α) : Reader α :=
  { r with mode := mode, cell := r.cell ++ [c] }

variable {D}

/-- What a character does outside quotes, unless it is one. -/
def Dialect.delimit (D : Dialect α) (r : Reader α) (c : α) (other : Option (Reader α)) :
    Option (Reader α) :=
  if c = D.sep then some r.endCell else if c = D.eol then some r.endRecord else other

/-- The next character; `none` if it must not stand there. -/
def Dialect.step (D : Dialect α) (r : Reader α) (c : α) : Option (Reader α) :=
  match r.mode with
  | .start =>
      if c = D.quote then some { r with mode := .quoted }
      else D.delimit r c (some (r.push .plain c))
  | .plain => if c = D.quote then none else D.delimit r c (some (r.push .plain c))
  | .quoted =>
      if c = D.quote then some { r with mode := .closing } else some (r.push .quoted c)
  | .closing => if c = D.quote then some (r.push .quoted c) else D.delimit r c none

/-- All characters of a text. -/
def Dialect.run (D : Dialect α) : Reader α → List α → Option (Reader α)
  | r, [] => some r
  | r, c :: s => (D.step r c).bind fun r => D.run r s

/-- The table in a text, if the text is one. -/
def Dialect.parse (D : Dialect α) (s : List α) : Option (List (List (List α))) :=
  (D.run .init s).bind fun r =>
    if r.mode = .start ∧ r.record = [] then some r.table else none

/-! ### Writing -/

/-- The text with its quotes doubled. -/
def Dialect.double (D : Dialect α) (v : List α) : List α :=
  v.flatMap fun c => if c = D.quote then [c, c] else [c]

/-- A text without any of the three characters. -/
def Dialect.Plain (D : Dialect α) (v : List α) : Prop :=
  ∀ c ∈ v, c ≠ D.quote ∧ c ≠ D.sep ∧ c ≠ D.eol

instance (D : Dialect α) (v : List α) : Decidable (D.Plain v) :=
  inferInstanceAs (Decidable (∀ c ∈ v, c ≠ D.quote ∧ c ≠ D.sep ∧ c ≠ D.eol))

/-- A cell as it is written: without quotes, or with quotes around a text in which
quotes are doubled, or around one in which they are not. -/
inductive Field (α : Type*)
  | plain (v : List α)
  | quoted (v : List α)
  | raw (v : List α)

def Field.value : Field α → List α
  | .plain v => v
  | .quoted v => v
  | .raw v => v

def Dialect.fieldText (D : Dialect α) : Field α → List α
  | .plain v => v
  | .quoted v => D.quote :: (D.double v ++ [D.quote])
  | .raw v => D.quote :: (v ++ [D.quote])

/-- A record: its cells, the last of them apart. -/
structure Record (α : Type*) where
  front : List (Field α)
  last : Field α

def Record.cells (r : Record α) : List (Field α) := r.front ++ [r.last]

def Record.values (r : Record α) : List (List α) := r.cells.map Field.value

def Dialect.recordText (D : Dialect α) (r : Record α) : List α :=
  r.front.flatMap (fun c => D.fieldText c ++ [D.sep]) ++ (D.fieldText r.last ++ [D.eol])

def Dialect.tableText (D : Dialect α) (rs : List (Record α)) : List α := rs.flatMap D.recordText

/-- A cell without quotes is plain. -/
def Field.Ok (D : Dialect α) : Field α → Prop
  | .plain v => D.Plain v
  | _ => True

/-- A raw cell has no quotes. -/
def Field.Clean (D : Dialect α) : Field α → Prop
  | .raw v => D.quote ∉ v
  | _ => True

/-! ### What is read -/

@[simp] theorem run_nil (r : Reader α) : D.run r [] = some r := rfl

theorem run_cons (r : Reader α) (c : α) (s : List α) :
    D.run r (c :: s) = (D.step r c).bind fun r => D.run r s := rfl

theorem run_append (r : Reader α) (s t : List α) :
    D.run r (s ++ t) = (D.run r s).bind fun r => D.run r t := by
  induction s generalizing r with
  | nil => rfl
  | cons c s ih =>
      rw [List.cons_append, run_cons, run_cons, Option.bind_assoc]
      exact congrArg _ (funext fun r => ih r)

theorem run_cons_of_step {r r' : Reader α} {c : α} (h : D.step r c = some r') (s : List α) :
    D.run r (c :: s) = D.run r' s := by
  rw [run_cons, h]
  rfl

/-- Behind a cell that has begun, or with an empty one. -/
theorem step_sep {r : Reader α} (hmode : r.mode ≠ .quoted) : D.step r D.sep = some r.endCell := by
  obtain ⟨mode, cell, record, table⟩ := r
  cases mode with
  | quoted => exact absurd rfl hmode
  | _ => simp [Dialect.step, Dialect.delimit, D.quote_ne_sep.symm]

theorem step_eol {r : Reader α} (hmode : r.mode ≠ .quoted) :
    D.step r D.eol = some r.endRecord := by
  obtain ⟨mode, cell, record, table⟩ := r
  cases mode with
  | quoted => exact absurd rfl hmode
  | _ => simp [Dialect.step, Dialect.delimit, D.quote_ne_eol.symm, D.sep_ne_eol.symm]

/-- A plain text. -/
theorem run_plain {v : List α} (hv : D.Plain v) {r : Reader α}
    (hmode : r.mode = .start ∨ r.mode = .plain) : ∃ mode, (mode = .start ∨ mode = .plain) ∧
      D.run r v = some { r with mode := mode, cell := r.cell ++ v } := by
  induction v generalizing r with
  | nil => exact ⟨r.mode, hmode, by rw [List.append_nil]; rfl⟩
  | cons c v ih =>
      obtain ⟨⟨hquote, hsep, heol⟩, hv⟩ := List.forall_mem_cons.mp hv
      have hstep : D.step r c = some (r.push .plain c) := by
        rcases hmode with hmode | hmode <;>
          simp [Dialect.step, Dialect.delimit, hmode, hquote, hsep, heol]
      obtain ⟨mode, hmode', hrun⟩ := ih hv (r := r.push .plain c) (Or.inr rfl)
      refine ⟨mode, hmode', ?_⟩
      rw [run_cons_of_step hstep, hrun]
      simp [Reader.push]

/-- A text with doubled quotes, between quotes. -/
theorem run_double (v : List α) {r : Reader α} (hmode : r.mode = .quoted) :
    D.run r (D.double v) = some { r with cell := r.cell ++ v } := by
  induction v generalizing r with
  | nil => simp [Dialect.double]
  | cons c v ih =>
      have hnext := ih (r := r.push .quoted c) rfl
      rw [Dialect.double, List.flatMap_cons, run_append]
      have hchar : D.run r (if c = D.quote then [c, c] else [c]) = some (r.push .quoted c) := by
        split
        · rename_i hc
          simp [Dialect.run, Dialect.step, hmode, hc, Reader.push]
        · rename_i hc
          simp [Dialect.run, Dialect.step, hmode, hc]
      rw [hchar]
      refine hnext.trans ?_
      simp [Reader.push, hmode]

/-- A cell that reads as it was meant leaves the reader outside quotes. -/
theorem run_fieldText {c : Field α} (hok : c.Ok D) (hclean : c.Clean D) {r : Reader α}
    (hmode : r.mode = .start) (hcell : r.cell = []) : ∃ mode, mode ≠ .quoted ∧
      D.run r (D.fieldText c) = some { r with mode := mode, cell := c.value } := by
  have hquoted : ∀ v, ∃ mode, mode ≠ .quoted ∧
      D.run r (D.quote :: (D.double v ++ [D.quote]))
        = some { r with mode := mode, cell := v } := by
    intro v
    refine ⟨.closing, by decide, ?_⟩
    have hopen : D.step r D.quote = some { r with mode := .quoted } := by
      simp [Dialect.step, hmode]
    rw [run_cons_of_step hopen, run_append, run_double v rfl, hcell]
    simp [Dialect.run, Dialect.step]
  cases c with
  | plain v =>
      obtain ⟨mode, hmode', hrun⟩ := run_plain hok (Or.inl hmode)
      refine ⟨mode, ?_, ?_⟩
      · rcases hmode' with rfl | rfl <;> decide
      · rw [hcell, List.nil_append] at hrun
        exact hrun
  | quoted v => exact hquoted v
  | raw v =>
      have hdouble : D.double v = v := by
        refine (List.flatMap_congr fun c hc => if_neg ?_).trans (List.flatMap_singleton' v)
        rintro rfl
        exact hclean hc
      have hread := hquoted v
      rw [hdouble] at hread
      exact hread

/-- A cell and the character behind it. -/
theorem run_front {front : List (Field α)} (hok : ∀ c ∈ front, c.Ok D)
    (hclean : ∀ c ∈ front, c.Clean D) (R : List (List α)) (T : List (List (List α))) :
    D.run ⟨.start, [], R, T⟩ (front.flatMap fun c => D.fieldText c ++ [D.sep])
      = some ⟨.start, [], R ++ front.map Field.value, T⟩ := by
  induction front generalizing R with
  | nil => simp
  | cons c front ih =>
      obtain ⟨hc, hok⟩ := List.forall_mem_cons.mp hok
      obtain ⟨hc', hclean⟩ := List.forall_mem_cons.mp hclean
      obtain ⟨mode, hmode, hrun⟩ := run_fieldText hc hc' (r := ⟨.start, [], R, T⟩) rfl rfl
      rw [List.flatMap_cons, List.append_assoc, run_append, hrun]
      show D.run _ (D.sep :: _) = _
      rw [run_cons_of_step (step_sep hmode)]
      refine (ih hok hclean (R ++ [c.value])).trans ?_
      rw [List.append_assoc]
      rfl

theorem run_recordText {r : Record α} (hok : ∀ c ∈ r.cells, c.Ok D)
    (hclean : ∀ c ∈ r.cells, c.Clean D) (T : List (List (List α))) :
    D.run ⟨.start, [], [], T⟩ (D.recordText r) = some ⟨.start, [], [], T ++ [r.values]⟩ := by
  have hfront : ∀ c ∈ r.front, c ∈ r.cells := fun c hc => List.mem_append_left _ hc
  have hlast : r.last ∈ r.cells := List.mem_append_right _ (List.mem_singleton_self _)
  obtain ⟨mode, hmode, hrun⟩ := run_fieldText (hok _ hlast) (hclean _ hlast)
    (r := ⟨.start, [], r.front.map Field.value, T⟩) rfl rfl
  have hbefore := run_front (fun c hc => hok c (hfront c hc)) (fun c hc => hclean c (hfront c hc))
    [] T
  rw [List.nil_append] at hbefore
  rw [Dialect.recordText, run_append, hbefore]
  show D.run _ (D.fieldText r.last ++ [D.eol]) = _
  rw [run_append, hrun]
  refine (run_cons_of_step (step_eol hmode) []).trans ?_
  simp [Reader.endRecord, Record.values, Record.cells]

/-! ### What is not read -/

theorem length_double (v : List α) : (D.double v).length = v.length + v.count D.quote := by
  induction v with
  | nil => rfl
  | cons c v ih =>
      rw [Dialect.double, List.flatMap_cons, List.length_append, List.length_cons,
        List.count_cons, ← Dialect.double, ih]
      by_cases hc : c = D.quote
      · simp [hc]
        omega
      · simp [hc]
        omega

theorem count_double (v : List α) : (D.double v).count D.quote = 2 * v.count D.quote := by
  induction v with
  | nil => rfl
  | cons c v ih =>
      rw [Dialect.double, List.flatMap_cons, List.count_append, List.count_cons, ← Dialect.double,
        ih]
      by_cases hc : c = D.quote
      · simp [hc]
        omega
      · simp [hc]

/-- A text with quotes in it, followed by a quote and `d'`, is not the same text with
doubled quotes, followed by a quote. -/
theorem double_append_ne {v : List α} (hv : D.quote ∈ v) {d d' : α} (hd' : d' ≠ D.quote)
    (s t : List α) : D.double v ++ D.quote :: d :: s ≠ v ++ D.quote :: d' :: t := by
  intro heq
  have hpos : 0 < v.count D.quote := List.count_pos_iff.mpr hv
  have hlen := length_double (D := D) v
  have hprefix : v ++ [D.quote] <+: D.double v := by
    have hraw : v ++ [D.quote] <+: v ++ D.quote :: d' :: t := ⟨d' :: t, by simp⟩
    refine List.prefix_of_prefix_length_le hraw (heq ▸ List.prefix_append _ _) ?_
    rw [List.length_append, hlen]
    exact Nat.add_le_add_left hpos _
  obtain ⟨x, hx⟩ := hprefix
  -- the rest of the doubled text is as long as it has quotes
  have hcount := count_double (D := D) v
  rw [← hx] at hlen hcount heq
  simp only [List.length_append, List.length_singleton, List.count_append,
    List.count_singleton_self] at hlen hcount
  have hall : ∀ b ∈ x, D.quote = b := List.count_eq_length.mp (by omega)
  rw [List.append_assoc, List.append_assoc, List.append_cancel_left_eq] at heq
  have htail := (List.cons_eq_cons.mp heq).2
  cases x with
  | nil => exact hd' (List.cons_eq_cons.mp htail).1.symm
  | cons b x =>
      have hb := (List.cons_eq_cons.mp htail).1
      exact hd' (hb.symm.trans (hall b List.mem_cons_self).symm)

theorem step_quoted {r : Reader α} (hmode : r.mode = .quoted) (c : α) :
    D.step r c
      = some (if c = D.quote then { r with mode := .closing } else r.push .quoted c) := by
  simp only [Dialect.step, hmode]
  split <;> rfl

/-- If the reader gets out of a cell in quotes, the quotes in it were doubled. -/
theorem run_quoted_inv : ∀ (s : List α) {r r' : Reader α}, r.mode = .quoted →
    D.run r s = some r' → r'.mode = .start → ∃ v d t, d ≠ D.quote ∧
      s = D.double v ++ D.quote :: d :: t ∧
      D.run { r with mode := .closing, cell := r.cell ++ v } (d :: t) = some r' := by
  intro s
  induction s using List.twoStepInduction with
  | nil =>
      intro r r' hmode hrun hend
      obtain rfl := Option.some.inj hrun
      rw [hmode] at hend
      cases hend
  | singleton c =>
      intro r r' hmode hrun hend
      rw [run_cons_of_step (step_quoted hmode c)] at hrun
      obtain rfl := Option.some.inj hrun
      split at hend <;> cases hend
  | cons_cons c c' s ih ih' =>
      intro r r' hmode hrun hend
      rw [run_cons_of_step (step_quoted hmode c)] at hrun
      by_cases hc : c = D.quote
      · rw [if_pos hc] at hrun
        by_cases hc' : c' = D.quote
        · -- a doubled quote
          have hstep : D.step { r with mode := .closing } c' = some (r.push .quoted c') := by
            simp [Dialect.step, hc', Reader.push]
          rw [run_cons_of_step hstep] at hrun
          obtain ⟨v, d, t, hd, rfl, hrest⟩ := ih rfl hrun hend
          refine ⟨c :: v, d, t, hd, ?_, ?_⟩
          · simp [Dialect.double, hc, hc']
          · rw [← hrest, hc, hc']
            simp [Reader.push]
        · refine ⟨[], c', s, hc', by simp [Dialect.double, hc], ?_⟩
          rw [List.append_nil]
          exact hrun
      · rw [if_neg hc] at hrun
        obtain ⟨v, d, t, hd, hsplit, hrest⟩ := ih' c' rfl hrun hend
        refine ⟨c :: v, d, t, hd, ?_, ?_⟩
        · rw [hsplit]
          simp [Dialect.double, hc]
        · rw [← hrest]
          simp [Reader.push]

/-- The records `T` are complete, and the next one begins with the cells `R`. -/
def Follows (T : List (List (List α))) (R : List (List α)) (r : Reader α) : Prop :=
  r.table = T ∧ R <+: r.record ∨ ∃ rec rest, r.table = T ++ rec :: rest ∧ R <+: rec

theorem Follows.step {T : List (List (List α))} {R : List (List α)} {r r' : Reader α} {c : α}
    (h : Follows T R r) (hstep : D.step r c = some r') : Follows T R r' := by
  have hcell : Follows T R r.endCell := by
    refine h.imp_left fun ⟨htable, hrecord⟩ => ⟨htable, ?_⟩
    exact hrecord.trans (List.prefix_append _ _)
  have hrecord : Follows T R r.endRecord := by
    refine Or.inr ?_
    rcases h with ⟨htable, hrecord⟩ | ⟨rec, rest, htable, hrec⟩
    · exact ⟨_, [], congrArg (· ++ [_]) htable, hrecord.trans (List.prefix_append _ _)⟩
    · refine ⟨rec, rest ++ [r.record ++ [r.cell]], ?_, hrec⟩
      show r.table ++ [_] = _
      rw [htable, List.append_assoc, List.cons_append]
  have hdelimit : ∀ {other}, (∀ r', other = some r' → Follows T R r') →
      D.delimit r c other = some r' → Follows T R r' := by
    intro other hother hr'
    unfold Dialect.delimit at hr'
    split at hr'
    · exact Option.some.inj hr' ▸ hcell
    · split at hr'
      · exact Option.some.inj hr' ▸ hrecord
      · exact hother r' hr'
  have hsame : ∀ {x : Reader α} {mode : Mode} {cell : List α},
      some { r with mode := mode, cell := cell } = some x → Follows T R x := by
    rintro x mode cell heq
    exact Option.some.inj heq ▸ h
  unfold Dialect.step at hstep
  split at hstep
  · split at hstep
    · exact hsame hstep
    · exact hdelimit (fun _ => hsame) hstep
  · split at hstep
    · cases hstep
    · exact hdelimit (fun _ => hsame) hstep
  · split at hstep <;> exact hsame hstep
  · split at hstep
    · exact hsame hstep
    · exact hdelimit (fun _ hno => by cases hno) hstep

theorem Follows.run {T : List (List (List α))} {R : List (List α)} {s : List α}
    {r r' : Reader α} (h : Follows T R r) (hrun : D.run r s = some r') : Follows T R r' := by
  induction s generalizing r with
  | nil => exact Option.some.inj hrun ▸ h
  | cons c s ih =>
      rw [run_cons] at hrun
      obtain ⟨r₁, hstep, hrest⟩ := Option.bind_eq_some_iff.mp hrun
      exact ih (h.step hstep) hrest

/-- **A raw cell with quotes in it is not read**: if the text behind it can be read
to the end, its record has something else in its place. -/
theorem raw_not_read {v : List α} (hv : D.quote ∈ v) {d : α} (hd : d ≠ D.quote) (s : List α)
    {R : List (List α)} {T : List (List (List α))} {r' : Reader α}
    (hrun : D.run ⟨.start, [], R, T⟩ (D.fieldText (.raw v) ++ d :: s) = some r')
    (hend : r'.mode = .start) : ∃ w, w ≠ v ∧ Follows T (R ++ [w]) r' := by
  have hopen : D.step ⟨.start, [], R, T⟩ D.quote = some ⟨.quoted, [], R, T⟩ := by
    simp [Dialect.step]
  have htext : D.fieldText (.raw v) ++ d :: s = D.quote :: (v ++ D.quote :: d :: s) := by
    simp [Dialect.fieldText]
  rw [htext, run_cons_of_step hopen] at hrun
  obtain ⟨w, d', t, hd', hsplit, hrest⟩ := run_quoted_inv _ rfl hrun hend
  refine ⟨w, ?_, ?_⟩
  · rintro rfl
    exact double_append_ne hv hd t s hsplit.symm
  · rw [run_cons] at hrest
    obtain ⟨r₁, hstep, hrest⟩ := Option.bind_eq_some_iff.mp hrest
    refine Follows.run ?_ hrest
    simp only [Dialect.step, Dialect.delimit, if_neg hd', List.nil_append] at hstep
    split at hstep
    · exact Option.some.inj hstep ▸ Or.inl ⟨rfl, List.prefix_refl _⟩
    · split at hstep
      · exact Option.some.inj hstep ▸ Or.inr ⟨_, [], rfl, List.prefix_refl _⟩
      · cases hstep

/-! ### Tables -/

/-- What follows a beginning of a record is that record. -/
theorem Follows.prefix_of_table {T rest : List (List (List α))} {R rec : List (List α)}
    {r : Reader α} (h : Follows T R r) (htable : r.table = T ++ rec :: rest) : R <+: rec := by
  rcases h with ⟨hT, -⟩ | ⟨rec', rest', htable', hrec⟩
  · have hlen := congrArg List.length (hT.symm.trans htable)
    rw [List.length_append, List.length_cons] at hlen
    omega
  · rw [htable, List.append_cancel_left_eq] at htable'
    rw [(List.cons_eq_cons.mp htable').1]
    exact hrec

/-- A cell that is read as it was meant is clean. -/
theorem clean_of_run {c : Field α} {d : α} (hd : d ≠ D.quote) {s : List α} {R : List (List α)}
    {T rest : List (List (List α))} {vs : List (List α)} {r' : Reader α}
    (hrun : D.run ⟨.start, [], R, T⟩ (D.fieldText c ++ d :: s) = some r') (hend : r'.mode = .start)
    (htable : r'.table = T ++ (R ++ c.value :: vs) :: rest) : c.Clean D := by
  cases c with
  | raw v =>
      intro hv
      obtain ⟨w, hne, hfollows⟩ := raw_not_read hv hd s hrun hend
      have hprefix := (List.prefix_append_right_inj R).mp (hfollows.prefix_of_table htable)
      exact hne (List.cons_prefix_cons.mp hprefix).1
  | _ => trivial

theorem front_clean {front : List (Field α)} (hok : ∀ c ∈ front, c.Ok D) {s : List α}
    {R vs : List (List α)} {T rest : List (List (List α))} {r' : Reader α}
    (hrun : D.run ⟨.start, [], R, T⟩ ((front.flatMap fun c => D.fieldText c ++ [D.sep]) ++ s)
      = some r') (hend : r'.mode = .start)
    (htable : r'.table = T ++ (R ++ (front.map Field.value ++ vs)) :: rest) :
    ∀ c ∈ front, c.Clean D := by
  induction front generalizing R with
  | nil => exact fun _ hc => absurd hc List.not_mem_nil
  | cons c front ih =>
      obtain ⟨hc, hrest⟩ := List.forall_mem_cons.mp hok
      rw [List.flatMap_cons, List.append_assoc, List.append_assoc] at hrun
      have hclean : c.Clean D := clean_of_run D.quote_ne_sep.symm hrun hend htable
      refine List.forall_mem_cons.mpr ⟨hclean, ?_⟩
      obtain ⟨mode, hmode, hcell⟩ := run_fieldText hc hclean (r := ⟨.start, [], R, T⟩) rfl rfl
      rw [run_append, hcell] at hrun
      have hnext := (run_cons_of_step (step_sep hmode) _).symm.trans hrun
      refine ih hrest (R := R ++ [c.value]) hnext ?_
      rw [htable, List.append_assoc]
      rfl

theorem recordText_clean {r : Record α} (hok : ∀ c ∈ r.cells, c.Ok D) {s : List α}
    {T rest : List (List (List α))} {r' : Reader α}
    (hrun : D.run ⟨.start, [], [], T⟩ (D.recordText r ++ s) = some r') (hend : r'.mode = .start)
    (htable : r'.table = T ++ r.values :: rest) : ∀ c ∈ r.cells, c.Clean D := by
  have hfront : ∀ c ∈ r.front, c.Ok D := fun c hc => hok c (List.mem_append_left _ hc)
  have hvalues : r.values = r.front.map Field.value ++ [r.last.value] := by
    simp [Record.values, Record.cells]
  rw [Dialect.recordText, List.append_assoc] at hrun
  rw [hvalues] at htable
  have hclean := front_clean hfront hrun hend htable
  intro c hc
  rcases List.mem_append.mp hc with hc | hc
  · exact hclean c hc
  · rw [List.mem_singleton.mp hc]
    rw [run_append, run_front hfront hclean, List.append_assoc] at hrun
    have hlast : D.run ⟨.start, [], r.front.map Field.value, T⟩
        (D.fieldText r.last ++ D.eol :: s) = some r' := hrun
    exact clean_of_run D.quote_ne_eol.symm hlast hend htable

theorem run_tableText {rs : List (Record α)} (hok : ∀ r ∈ rs, ∀ c ∈ r.cells, c.Ok D)
    (hclean : ∀ r ∈ rs, ∀ c ∈ r.cells, c.Clean D) (T : List (List (List α))) :
    D.run ⟨.start, [], [], T⟩ (D.tableText rs)
      = some ⟨.start, [], [], T ++ rs.map Record.values⟩ := by
  induction rs generalizing T with
  | nil => simp [Dialect.tableText]
  | cons r rs ih =>
      obtain ⟨hr, hrs⟩ := List.forall_mem_cons.mp hok
      obtain ⟨hr', hrs'⟩ := List.forall_mem_cons.mp hclean
      rw [Dialect.tableText, List.flatMap_cons, run_append, run_recordText hr hr']
      refine (ih hrs hrs' (T ++ [r.values])).trans ?_
      rw [List.append_assoc]
      rfl

theorem tableText_clean {rs : List (Record α)} (hok : ∀ r ∈ rs, ∀ c ∈ r.cells, c.Ok D)
    {T : List (List (List α))} {r' : Reader α}
    (hrun : D.run ⟨.start, [], [], T⟩ (D.tableText rs) = some r') (hend : r'.mode = .start)
    (htable : r'.table = T ++ rs.map Record.values) : ∀ r ∈ rs, ∀ c ∈ r.cells, c.Clean D := by
  induction rs generalizing T with
  | nil => exact fun _ hr => absurd hr List.not_mem_nil
  | cons r rs ih =>
      obtain ⟨hr, hrs⟩ := List.forall_mem_cons.mp hok
      rw [Dialect.tableText, List.flatMap_cons] at hrun
      have hclean := recordText_clean hr hrun hend htable
      refine List.forall_mem_cons.mpr ⟨hclean, ?_⟩
      rw [run_append, run_recordText hr hclean] at hrun
      refine ih hrs (T := T ++ [r.values]) hrun ?_
      rw [htable, List.append_assoc]
      rfl

/-- **When a table reads back**: exactly if no raw cell has a quote. -/
theorem parse_table_iff {rs : List (Record α)} (hok : ∀ r ∈ rs, ∀ c ∈ r.cells, c.Ok D) :
    D.parse (D.tableText rs) = some (rs.map Record.values)
      ↔ ∀ r ∈ rs, ∀ c ∈ r.cells, c.Clean D := by
  unfold Dialect.parse
  constructor
  · intro h
    obtain ⟨r', hrun, htable⟩ := Option.bind_eq_some_iff.mp h
    split at htable
    · rename_i hend
      exact tableText_clean hok hrun hend.1 (Option.some.inj htable)
    · cases htable
  · intro hclean
    show (D.run ⟨.start, [], [], []⟩ _).bind _ = _
    rw [run_tableText hok hclean]
    rfl

end Csv
