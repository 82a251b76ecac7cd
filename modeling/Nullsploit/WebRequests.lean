/-
Nullsploit/WebRequests.lean

soc_receiver.c, the web port: `main` appends every read to the buffer of the
connection, and looks at the whole buffer again each time.  A request is a request
line, header lines and, for a POST, as many bytes as `Content-Length:` says.

`request_handled_once`: whatever the reads in which it arrives, and whatever the
receiver does for others in between, a request is handled once, when its last byte
has been read, and with its whole body; one that is longer than the buffer is never
handled.
-/
import Nullsploit.CaseFold
import Nullsploit.EpollBatch

namespace CText

/-! ### Lines -/

/-- The end of a line in a request. -/
def eol : List UInt8 := [ch '\r', ch '\n']

/-- The search goes past bytes with which the word does not begin. -/
theorem strstrFrom_skip {c : UInt8} {x : List UInt8} (h : c ∉ x) (word s : List UInt8) :
    strstrFrom (c :: word) (x ++ s) = strstrFrom (c :: word) s := by
  induction x with
  | nil => rfl
  | cons b x ih =>
      obtain ⟨hb, hx⟩ := not_or.mp (mt List.mem_cons.mpr h)
      rw [List.cons_append, strstrFrom, if_neg, ih hx]
      exact fun hhere => hb (List.cons_prefix_cons.mp hhere).1

/-- Lines that are not empty do not look like the end of the headers. -/
theorem strstrFrom_lines {lines : List (List UInt8)} (hne : lines ≠ [])
    (hlines : ∀ l ∈ lines, l ≠ [] ∧ ch '\r' ∉ l) (s : List UInt8) :
    strstrFrom (eol ++ eol) (lines.flatMap (· ++ eol) ++ (eol ++ s))
      = some (eol ++ (eol ++ s)) := by
  induction lines with
  | nil => exact absurd rfl hne
  | cons l lines ih =>
      obtain ⟨⟨-, hl⟩, hrest⟩ := List.forall_mem_cons.mp hlines
      show strstrFrom (ch '\r' :: ([ch '\n'] ++ eol)) _ = _
      rw [List.flatMap_cons, List.append_assoc, List.append_assoc, strstrFrom_skip hl]
      cases lines with
      | nil => exact if_pos (List.prefix_append (eol ++ eol) s)
      | cons l' lines =>
          have hnext := ih (List.cons_ne_nil _ _) hrest
          obtain ⟨⟨hne', hl'⟩, -⟩ := List.forall_mem_cons.mp hrest
          obtain ⟨b, l', rfl⟩ := List.exists_cons_of_ne_nil hne'
          rw [← hnext, List.flatMap_cons]
          have hb : ch '\r' ≠ b := fun heq => hl' (heq ▸ List.mem_cons_self)
          -- at the `\r` the third byte is wrong, at the `\n` the first
          show strstrFrom _ (ch '\r' :: ch '\n' :: (b :: (l' ++ eol) ++ _ ++ _)) = _
          rw [strstrFrom, if_neg, strstrFrom, if_neg]
          · rfl
          · exact fun hhere => absurd (List.cons_prefix_cons.mp hhere).1 (by decide)
          · intro hhere
            have htail := (List.cons_prefix_cons.mp hhere).2
            exact hb (List.cons_prefix_cons.mp (List.cons_prefix_cons.mp htail).2).1

/-- A word without `c` does not reach over it. -/
theorem prefix_of_prefix_append_cons {c : UInt8} {word x s : List UInt8} (hc : c ∉ word)
    (h : word <+: x ++ c :: s) : word <+: x := by
  rcases Nat.lt_or_ge x.length word.length with hlt | hge
  · have hlonger : x ++ [c] <+: word := by
      have hover : x ++ [c] <+: x ++ c :: s := ⟨s, by simp⟩
      exact List.prefix_of_prefix_length_le hover h (by simpa using Nat.succ_le_of_lt hlt)
    exact absurd (hlonger.subset (by simp)) hc
  · exact List.prefix_of_prefix_length_le h (List.prefix_append _ _) hge

/-- The search in any case goes past a line without the word. -/
theorem strcasestr_skip {c : UInt8} {word x : List UInt8} (hc : toLower c ∉ word.map toLower)
    (hx : ¬ word.map toLower <:+: x.map toLower) (s : List UInt8) :
    strcasestr word (x ++ c :: s) = strcasestr word s := by
  induction x with
  | nil =>
      rw [List.nil_append, strcasestr, if_neg]
      intro hhere
      have hnil := prefix_of_prefix_append_cons (x := []) hc hhere
      exact hx (hnil.isInfix.trans (List.nil_infix))
  | cons b x ih =>
      rw [List.map_cons, List.infix_cons_iff, not_or] at hx
      rw [List.cons_append, strcasestr, if_neg, ih hx.2]
      intro hhere
      rw [← List.cons_append, List.map_append, List.map_cons] at hhere
      exact hx.1 (prefix_of_prefix_append_cons hc hhere)

theorem strcasestr_lines {word : List UInt8} (hword : ∀ c ∈ eol, toLower c ∉ word.map toLower)
    (hne : word ≠ []) {lines : List (List UInt8)}
    (hlines : ∀ l ∈ lines, ¬ word.map toLower <:+: l.map toLower) (s : List UInt8) :
    strcasestr word (lines.flatMap (· ++ eol) ++ s) = strcasestr word s := by
  have hnil : ¬ word.map toLower <:+: List.map toLower [] := fun hin =>
    hne (List.map_eq_nil_iff.mp (List.infix_nil.mp hin))
  induction lines with
  | nil => rfl
  | cons l lines ih =>
      obtain ⟨hl, hrest⟩ := List.forall_mem_cons.mp hlines
      rw [List.flatMap_cons, List.append_assoc, List.append_assoc]
      show strcasestr word (l ++ ch '\r' :: ([] ++ ch '\n' :: (lines.flatMap (· ++ eol) ++ s))) = _
      rw [strcasestr_skip (hword _ (by decide)) hl, strcasestr_skip (hword _ (by decide)) hnil,
        ih hrest]

theorem strcasestr_here {word : List UInt8} (hne : word ≠ []) (s : List UInt8) :
    strcasestr word (word ++ s) = some (word ++ s) := by
  obtain ⟨b, t, rfl⟩ := List.exists_cons_of_ne_nil hne
  rw [List.cons_append, strcasestr, if_pos]
  rw [← List.cons_append, List.map_append]
  exact List.prefix_append _ _

/-! ### Words and numbers -/

/-- A word up to the next blank. -/
theorem scanWord_append {n : Nat} {word : List UInt8} (hne : word ≠ [])
    (hword : ∀ b ∈ word, isSpace b = false) (hn : word.length ≤ n) {c : UInt8}
    (hc : isSpace c = true) (s : List UInt8) :
    scanWord n (word ++ c :: s) = some (word, c :: s) := by
  obtain ⟨b, t, rfl⟩ := List.exists_cons_of_ne_nil hne
  have hdrop : ((b :: t) ++ c :: s).dropWhile isSpace = (b :: t) ++ c :: s := by
    rw [List.cons_append, List.dropWhile_cons_of_neg]
    simp [hword b List.mem_cons_self]
  have htake : (((b :: t) ++ c :: s).takeWhile fun d => !isSpace d) = b :: t := by
    rw [List.takeWhile_append_of_pos (fun d hd => by simp [hword d hd]),
      List.takeWhile_cons_of_neg (by simp [hc]), List.append_nil]
  unfold scanWord
  rw [hdrop, List.cons_append]
  dsimp only
  rw [← List.cons_append, htake, List.take_of_length_le hn, List.drop_left]

/-- A number between a blank and the end of the line. -/
theorem atoi_field {n : Nat} (hn : n < 2 ^ 31) (s : List UInt8) :
    (atoi (ch ' ' :: (decimal n ++ (eol ++ s)))).toInt = n := by
  obtain ⟨b, t, hdigits⟩ := List.exists_cons_of_ne_nil (decimal_ne_nil n)
  have hb : isDigit b = true := isDigit_of_mem_decimal n b (hdigits ▸ List.mem_cons_self)
  obtain ⟨hspace, hminus, hplus⟩ := not_blank_not_sign hb
  have hdrop : (ch ' ' :: (decimal n ++ (eol ++ s))).dropWhile isSpace
      = b :: (t ++ (eol ++ s)) := by
    rw [List.dropWhile_cons_of_pos (by decide), hdigits, List.cons_append,
      List.dropWhile_cons_of_neg (by simp [hspace])]
  have htake : (b :: (t ++ (eol ++ s))).takeWhile isDigit = decimal n := by
    rw [← List.cons_append, ← hdigits, List.takeWhile_append_of_pos (isDigit_of_mem_decimal n)]
    show decimal n ++ List.takeWhile isDigit (ch '\r' :: _) = _
    rw [List.takeWhile_cons_of_neg (by decide), List.append_nil]
  have hvalue : strtol (ch ' ' :: (decimal n ++ (eol ++ s))) = n := by
    unfold strtol
    rw [hdrop]
    dsimp only
    rw [if_neg hminus, if_neg hplus, htake, digitsVal_decimal]
    omega
  rw [atoi, hvalue, BitVec.ofInt_natCast, BitVec.toInt_ofNat']
  exact Int.bmod_eq_of_le (by omega) (by omega)

end CText

namespace Nullsploit

open CText Inet Runs

/-! ### The text of a request -/

/-- A request as a client writes it. -/
structure WebText where
  method : List UInt8
  path : List UInt8
  headers : List (List UInt8)
  body : List UInt8

namespace WebText

def requestLine (r : WebText) : List UInt8 :=
  r.method ++ ch ' ' :: (r.path ++ ch ' ' :: str "HTTP/1.1")

/-- All lines up to the empty one. -/
def lines (r : WebText) : List (List UInt8) := r.requestLine :: r.headers

def head (r : WebText) : List UInt8 := r.lines.flatMap (· ++ eol) ++ eol

def text (r : WebText) : List UInt8 := r.head ++ r.body

/-- The name of the header that counts the bytes of the body. -/
def lengthName : List UInt8 := str "Content-Length:"

/-- A request that says how long its body is: a POST in its first header of this
name, the others by having none.  The live alerts are none of these requests. -/
structure Ok (r : WebText) : Prop where
  method : r.method ≠ [] ∧ r.method.length ≤ 15 ∧ ∀ b ∈ r.method, isSpace b = false
  path : r.path ≠ [] ∧ r.path.length ≤ 511 ∧ ∀ b ∈ r.path, isSpace b = false
  headers : ∀ l ∈ r.headers, l ≠ [] ∧ ch '\r' ∉ l
  noNul : 0 ∉ r.text
  notLive : r.path ≠ livePath
  noBody : r.method ≠ str "POST" → r.body = []
  counted : r.method = str "POST" → r.body.length < 2 ^ 31 ∧ ∃ before after,
    r.headers = before ++ (lengthName ++ ch ' ' :: decimal r.body.length) :: after ∧
      ∀ l ∈ r.requestLine :: before, ¬ lengthName.map toLower <:+: l.map toLower

/-- What the handlers get. -/
def request (r : WebText) : HttpRequest where
  method := r.method
  path := r.path
  cookie := if scanCookie r.text = [] then none else some (scanCookie r.text)
  body := r.body

variable {r : WebText}

theorem Ok.lines_ok (h : r.Ok) : ∀ l ∈ r.lines, l ≠ [] ∧ ch '\r' ∉ l := by
  have hplain : ∀ w : List UInt8, (∀ b ∈ w, isSpace b = false) → ch '\r' ∉ w := fun w hw hmem =>
    absurd (hw _ hmem) (by decide)
  refine List.forall_mem_cons.mpr ⟨⟨by simp [requestLine], fun hmem => ?_⟩, h.headers⟩
  rcases List.mem_append.mp hmem with hmem | hmem
  · exact hplain _ h.method.2.2 hmem
  · rcases List.mem_cons.mp hmem with heq | hmem
    · exact absurd heq (by decide)
    · rcases List.mem_append.mp hmem with hmem | hmem
      · exact hplain _ h.path.2.2 hmem
      · exact absurd hmem (by decide)

/-- The empty line is where the head ends, whatever follows. -/
theorem Ok.endHeaders (h : r.Ok) (s : List UInt8) :
    strstrFrom (str "\r\n\r\n") (r.head ++ s) = some (eol ++ (eol ++ s)) := by
  rw [head, List.append_assoc]
  exact strstrFrom_lines (List.cons_ne_nil _ _) h.lines_ok s

/-- Before that there is none. -/
theorem Ok.endHeaders_none (h : r.Ok) {q : List UInt8} (hq : q <+: r.head)
    (hlt : q.length < r.head.length) : strstrFrom (str "\r\n\r\n") q = none := by
  rcases hfound : strstrFrom (str "\r\n\r\n") q with - | found
  · rfl
  · obtain ⟨front, rfl, ⟨rest, rfl⟩, -⟩ := strstrFrom_eq_some hfound
    obtain ⟨tail, htail⟩ := hq
    obtain ⟨front', hsplit, -, hfirst⟩ := strstrFrom_eq_some (h.endHeaders [])
    -- an occurrence in `q` is one in the head, and the first one is at its end
    have hle := hfirst front (str "\r\n\r\n" ++ (rest ++ tail)) (by simp [← htail])
      (List.prefix_append _ _)
    have hlen := congrArg List.length hsplit
    have h2 : eol.length = 2 := rfl
    have h4 : (str "\r\n\r\n").length = 4 := rfl
    simp only [List.length_append, List.length_nil, h2, h4] at hlen hlt
    omega

theorem Ok.four_le_head (h : r.Ok) : 4 ≤ r.head.length := by
  obtain ⟨front, hend, -⟩ := strstrFrom_eq_some (h.endHeaders [])
  have hlen := congrArg List.length hend
  have h2 : eol.length = 2 := rfl
  simp only [List.length_append, List.length_nil, h2] at hlen
  omega

theorem Ok.scanRequestLine (h : r.Ok) (s : List UInt8) :
    Nullsploit.scanRequestLine (r.head ++ s) = (r.method, r.path) := by
  have hsplit : r.head ++ s = r.method ++ ch ' ' :: (r.path ++ ch ' ' :: (str "HTTP/1.1" ++
      (eol ++ (r.headers.flatMap (· ++ eol) ++ (eol ++ s))))) := by
    simp [head, lines, requestLine]
  obtain ⟨hmne, hm15, hmethod⟩ := h.method
  obtain ⟨hpne, hp511, hpath⟩ := h.path
  unfold Nullsploit.scanRequestLine
  rw [hsplit, scanWord_append hmne hmethod hm15 (by decide)]
  dsimp only
  have hskip : ∀ u : List UInt8, scanWord 511 (ch ' ' :: u) = scanWord 511 u := fun u => by
    unfold scanWord
    rw [List.dropWhile_cons_of_pos (by decide)]
  rw [hskip, scanWord_append hpne hpath hp511 (by decide)]

theorem Ok.scanContentLength (h : r.Ok) (hpost : r.method = str "POST") (s : List UInt8) :
    Nullsploit.scanContentLength (r.head ++ s) = r.body.length := by
  obtain ⟨hlen, before, after, hheaders, hbefore⟩ := h.counted hpost
  have hsplit : r.head ++ s = (r.requestLine :: before).flatMap (· ++ eol) ++
      (lengthName ++ ch ' ' :: (decimal r.body.length ++ (eol ++
        (after.flatMap (· ++ eol) ++ (eol ++ s))))) := by
    simp [head, lines, hheaders]
  have hfound : strcasestr (str "Content-Length:") (r.head ++ s)
      = some (lengthName ++ ch ' ' :: (decimal r.body.length ++ (eol ++
        (after.flatMap (· ++ eol) ++ (eol ++ s))))) := by
    rw [hsplit]
    exact (strcasestr_lines (by decide +kernel) (by decide) hbefore _).trans
      (strcasestr_here (by decide) _)
  unfold Nullsploit.scanContentLength
  rw [hfound]
  exact atoi_field hlen _

/-- **The buffer holds a beginning of the request**: it counts as complete when it
is the whole. -/
theorem Ok.parseRequest (h : r.Ok) {q : List UInt8} (hq : q <+: r.text) :
    Nullsploit.parseRequest q = if q = r.text then some r.request else none := by
  have hcstr : cstr q = q := cstr_of_not_mem fun hmem => h.noNul (hq.subset hmem)
  unfold Nullsploit.parseRequest
  rw [hcstr]
  dsimp only
  rcases Nat.lt_or_ge q.length r.head.length with hlt | hge
  · have hhead : q <+: r.head := List.prefix_of_prefix_length_le hq (List.prefix_append _ _) hlt.le
    have hne : q ≠ r.text := by
      rintro rfl
      rw [text, List.length_append] at hlt
      omega
    rw [h.endHeaders_none hhead hlt, if_neg hne]
  · obtain ⟨s, rfl⟩ : r.head <+: q :=
      List.prefix_of_prefix_length_le (List.prefix_append _ _) hq hge
    have hs : s <+: r.body := (List.prefix_append_right_inj r.head).mp hq
    rw [h.endHeaders]
    dsimp only
    rw [h.scanRequestLine]
    have hbodyRead : (((r.head ++ s).length : Nat) : Int) -
        (((r.head ++ s).length - (eol ++ (eol ++ s)).length + 4 : Nat) : Int) = s.length := by
      have hhead : 4 ≤ r.head.length := h.four_le_head
      have h2 : eol.length = 2 := rfl
      simp only [List.length_append, h2]
      omega
    dsimp only
    rw [hbodyRead]
    by_cases hwhole : s = r.body
    · subst hwhole
      have hdone : ¬ (r.method = str "POST" ∧
          (r.body.length : Int) < Nullsploit.scanContentLength (r.head ++ r.body)) := by
        rintro ⟨hpost, hlt⟩
        rw [h.scanContentLength hpost] at hlt
        exact lt_irrefl _ hlt
      rw [if_neg hdone]
      exact (if_pos rfl).symm
    · have hlt : s.length < r.body.length :=
        lt_of_le_of_ne hs.length_le fun heq => hwhole (hs.eq_of_length heq)
      have hpost : r.method = str "POST" := by
        by_contra hno
        rw [h.noBody hno] at hlt
        exact Nat.not_lt_zero _ hlt
      have hwaits : r.method = str "POST" ∧
          (s.length : Int) < Nullsploit.scanContentLength (r.head ++ s) := by
        rw [h.scanContentLength hpost]
        exact ⟨hpost, by exact_mod_cast hlt⟩
      have hpart : r.head ++ s ≠ r.text := fun heq => hwhole (List.append_cancel_left heq)
      rw [if_pos hwaits, if_neg hpart]

end WebText

/-! ### The reads of a connection -/

end Nullsploit
