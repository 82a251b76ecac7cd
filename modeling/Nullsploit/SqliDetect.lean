/-
Nullsploit/SqliDetect.lean

The SQL injection detector, kernel/sqli_detect.c: a tokenizer with room for
128 tokens of 63 bytes, then one pass over the tokens that looks for phrases of
an injection, and points for each.

Two of its loops do less than they seem to.  A word stops before '/' and '*',
but outside of the comment marks no branch consumes them, so a lone one is
recorded as an empty token over and over until all slots are used
(`tokenizer_covers_iff`).  And the look-ahead for a tautology asks for a token
too many and compares the wrong ones in its second shape
(`tautology_scores_iff`).
-/
import Nullsploit.DetectText

namespace Nullsploit

open CText

/-! ### The tokenizer -/

/-- `MAX_TOKENS`. -/
def maxTokens : Nat := 128

/-- `strchr(set, c) != NULL` for a literal; the terminator is found too. -/
def inSet (set : List UInt8) (c : UInt8) : Bool := c ∈ set ∨ c = 0

/-- The operators and special characters. -/
def sqlOperators : List UInt8 := str "=><!();#',\""

/-- A dash with another one behind it. -/
def startsDashes (s : List UInt8) : Bool := (str "--").isPrefixOf s

/-- Does the word end before this text? -/
def endsWord (s : List UInt8) : Bool :=
  match s with
  | [] => true
  | c :: _ => isSpace c || inSet (sqlOperators ++ str "/*") c || startsDashes s

/-- The word at the front, of so many bytes at most, and what follows it. -/
def wordToken : Nat → List UInt8 → List UInt8 × List UInt8
  | 0, s => ([], s)
  | _ + 1, [] => ([], [])
  | n + 1, c :: s =>
      if endsWord (c :: s) then ([], c :: s)
      else
        let (word, rest) := wordToken n s
        (c :: word, rest)

/-- The token at the front of a text that does not begin with a blank. -/
def nextToken (s : List UInt8) : List UInt8 × List UInt8 :=
  if startsDashes s then (str "--", s.drop 2)
  else if (str "/*").isPrefixOf s then (str "/*", s.drop 2)
  else if (str "*/").isPrefixOf s then (str "*/", s.drop 2)
  else
    match s with
    | [] => ([], [])
    | c :: rest =>
        -- the operator as a C string: empty for NUL
        if inSet sqlOperators c then (cstr [c], rest)
        else wordToken 63 s

/-- One turn of the outer loop that records a token: the text it finds behind
the blanks, the token, and what is left. -/
structure TokenTurn where
  found : List UInt8
  token : List UInt8
  rest : List UInt8
  deriving DecidableEq, Repr

/-- A turn, or `none` if only blanks are left. -/
def tokenizerTurn (s : List UInt8) : Option TokenTurn :=
  match s.dropWhile isSpace with
  | [] => none
  | c :: r => some ⟨c :: r, (nextToken (c :: r)).1, (nextToken (c :: r)).2⟩

/-- The outer loop with so many slots left: its turns, and the text from `idx`
on at the end. -/
def tokenizerLoop : Nat → List UInt8 → List TokenTurn × List UInt8
  | 0, s => ([], s)
  | n + 1, s =>
      match tokenizerTurn s with
      | none => ([], [])
      | some turn =>
          (turn :: (tokenizerLoop n turn.rest).1, (tokenizerLoop n turn.rest).2)

/-- `tokens`. -/
def sqlTokens (decoded : List UInt8) : List (List UInt8) :=
  (tokenizerLoop maxTokens decoded).1.map TokenTurn.token

/-! ### The pass over the tokens -/

/-- The flags of the pass. -/
structure SqliFlags where
  unionFound : Bool
  selectFound : Bool
  adminBypass : Bool
  tautology : Bool
  commentFound : Bool
  errorFunc : Bool
  timeFunc : Bool
  stackedQuery : Bool
  writeFunc : Bool
  deriving DecidableEq, Repr

def SqliFlags.none : SqliFlags := ⟨false, false, false, false, false, false, false, false, false⟩

/-- One of these words, in any case. -/
def isWordOf (words : List (List UInt8)) (token : List UInt8) : Bool :=
  words.any fun word => strcaseEquals token word

/-- `--`, `#` or the beginning of a comment. -/
def isCommentMark (token : List UInt8) : Bool :=
  token = str "--" ∨ token = str "#" ∨ token = str "/*"

def quote : List UInt8 := str "'"

/-- "Check for Admin Bypass". -/
def adminAt (slot : Nat → List UInt8) (tokenCount i : Nat) : Bool :=
  isWordOf [str "admin"] (slot i) ∧ i + 2 < tokenCount ∧
    slot (i + 1) = quote ∧ isCommentMark (slot (i + 2))

/-- "Check for tautology OR/AND 1=1 or 'a'='a'". -/
def tautologyAt (slot : Nat → List UInt8) (tokenCount i : Nat) : Bool :=
  isWordOf [str "or", str "and"] (slot i) ∧ i + 4 < tokenCount ∧
    (slot (i + 2) = str "=" ∧ slot (i + 1) = slot (i + 3) ∨
      slot (i + 1) = quote ∧ slot (i + 3) = quote ∧ slot (i + 5) = quote ∧
        slot (i + 2) = slot (i + 4))

/-- "Stacked queries". -/
def stackedAt (slot : Nat → List UInt8) (tokenCount i : Nat) : Bool :=
  slot i = str ";" ∧ i + 1 < tokenCount ∧
    isWordOf [str "drop", str "delete", str "insert", str "update", str "exec", str "select"]
      (slot (i + 1))

def isErrorFunc : List UInt8 → Bool :=
  isWordOf [str "updatexml", str "extractvalue", str "convert", str "cast"]

def isTimeFunc : List UInt8 → Bool := isWordOf [str "sleep", str "benchmark", str "pg_sleep"]

def isWriteFunc : List UInt8 → Bool := isWordOf [str "outfile", str "load_file", str "dumpfile"]

/-- The body of the loop over the tokens. -/
def checkToken (slot : Nat → List UInt8) (tokenCount : Nat) (f : SqliFlags) (i : Nat) : SqliFlags :=
  let unionFound := f.unionFound || isWordOf [str "union"] (slot i)
  { unionFound := unionFound
    selectFound := f.selectFound || (unionFound && isWordOf [str "select"] (slot i))
    adminBypass := f.adminBypass || adminAt slot tokenCount i
    tautology := f.tautology || tautologyAt slot tokenCount i
    commentFound := f.commentFound || isCommentMark (slot i)
    errorFunc := f.errorFunc || isErrorFunc (slot i)
    timeFunc := f.timeFunc || isTimeFunc (slot i)
    stackedQuery := f.stackedQuery || stackedAt slot tokenCount i
    writeFunc := f.writeFunc || isWriteFunc (slot i) }

/-- The slots of `tokens[MAX_TOKENS][64]`: those that were not filled, and what
is behind the array, hold whatever was there. -/
def tokenSlot (stale : Nat → List UInt8) (tokens : List (List UInt8)) (i : Nat) : List UInt8 :=
  tokens.getD i (stale i)

def sqliFlags (stale : Nat → List UInt8) (tokens : List (List UInt8)) : SqliFlags :=
  (List.range tokens.length).foldl (checkToken (tokenSlot stale tokens) tokens.length) .none

/-! ### The detector -/

/-- The points for the flags, in source order. -/
def flagTally (maxPatternLen : Nat) (f : SqliFlags) : Tally :=
  let note := Tally.note maxPatternLen
  (⟨0, []⟩ : Tally)
    |> note (f.unionFound && f.selectFound) 45 (str "UNION SELECT; ")
    |> note f.tautology 45 (str "TAUTOLOGY (OR 1=1); ")
    |> note f.adminBypass 45 (str "ADMIN BYPASS; ")
    |> note f.stackedQuery 40 (str "STACKED QUERIES; ")
    |> note f.errorFunc 25 (str "ERROR SQLI FUNC; ")
    |> note f.timeFunc 35 (str "TIME SQLI FUNC; ")
    |> note f.writeFunc 35 (str "FILE WRITE; ")
    |> note f.commentFound 10 (str "SQL COMMENT; ")

def rawUnionSelect (decoded : List UInt8) : Bool :=
  strcaseContains decoded (str "union select") || strcaseContains decoded (str "union all select")

def rawOrOne (decoded : List UInt8) : Bool :=
  strcaseContains decoded (str "or 1=1") || strcaseContains decoded (str "or '1'='1'")

/-- Below 40 points the raw text is searched too. -/
def rawTally (maxPatternLen : Nat) (decoded : List UInt8) (t : Tally) : Tally :=
  if t.score < 40 then
    t |> Tally.note maxPatternLen (rawUnionSelect decoded) 40 (str "RAW UNION SELECT; ")
      |> Tally.note maxPatternLen (rawOrOne decoded) 40 (str "RAW OR 1=1; ")
  else t

/-- `detect_sqli`. -/
def detectSqli (stale : Nat → List UInt8) (maxPatternLen maxDetailsLen : Nat)
    (payload : List UInt8) : Detection :=
  let decoded := decodedPayload payload
  let t := rawTally maxPatternLen decoded
    (flagTally maxPatternLen (sqliFlags stale (sqlTokens decoded)))
  ⟨t.score, t.matchedPattern,
    snprintfCut maxDetailsLen (str "SQLi Score: " ++ decimalInt t.score ++ str ". Matches: " ++
      t.matchedPattern ++ str ". Decoded Payload: " ++ cstr decoded)⟩

/-! ### What a turn consumes -/

/-- The bytes that end up in tokens. -/
def isTokenByte (b : UInt8) : Bool := !isSpace b && b ≠ 0

theorem filter_isTokenByte {s : List UInt8} (h : ∀ b ∈ s, isTokenByte b = true) :
    s.filter isTokenByte = s := List.filter_eq_self.mpr h

theorem isTokenByte_of_not_endsWord {c : UInt8} {s : List UInt8} (h : endsWord (c :: s) = false) :
    isTokenByte c = true := by
  simp only [endsWord, Bool.or_eq_false_iff, inSet, decide_eq_false_iff_not, not_or] at h
  simp [isTokenByte, h.1.1, h.1.2.2]

theorem wordToken_spec (n : Nat) (s : List UInt8) :
    s = (wordToken n s).1 ++ (wordToken n s).2 ∧ ∀ b ∈ (wordToken n s).1, isTokenByte b = true := by
  induction n generalizing s with
  | zero => simp [wordToken]
  | succ n ih =>
      cases s with
      | nil => simp [wordToken]
      | cons c s =>
          rw [wordToken]
          split
          · -- the word is empty, nothing was consumed
            simp
          · rename_i hends
            obtain ⟨hsplit, hbytes⟩ := ih s
            refine ⟨?_, ?_⟩
            · show c :: s = c :: (wordToken n s).1 ++ (wordToken n s).2
              rw [List.cons_append, ← hsplit]
            · intro b hb
              rcases List.mem_cons.mp hb with rfl | hb
              · exact isTokenByte_of_not_endsWord (Bool.eq_false_iff.mpr hends)
              · exact hbytes b hb

/-- A token is what its turn consumed, NUL apart. -/
theorem nextToken_spec (s : List UInt8) :
    ∃ used, s = used ++ (nextToken s).2 ∧ (nextToken s).1 = used.filter isTokenByte := by
  have hmarks : ∀ mark ∈ [str "--", str "/*", str "*/"],
      mark.length = 2 ∧ mark = mark.filter isTokenByte := by decide
  have hmark : ∀ mark ∈ [str "--", str "/*", str "*/"], mark.isPrefixOf s = true →
      s = mark ++ s.drop 2 ∧ mark = mark.filter isTokenByte := by
    intro mark hmem hpre
    obtain ⟨rest, rfl⟩ := List.isPrefixOf_iff_prefix.mp hpre
    obtain ⟨hlen, hfilter⟩ := hmarks mark hmem
    rw [← hlen, List.drop_left]
    exact ⟨rfl, hfilter⟩
  have hops : ∀ c ∈ 0 :: sqlOperators, cstr [c] = [c].filter isTokenByte := by decide +kernel
  unfold nextToken
  -- the three marks, then an operator, then a word
  split
  · rename_i h
    exact ⟨_, hmark _ (by simp) h⟩
  · split
    · rename_i h
      exact ⟨_, hmark _ (by simp) h⟩
    · split
      · rename_i h
        exact ⟨_, hmark _ (by simp) h⟩
      · split
        · exact ⟨[], rfl, rfl⟩
        · rename_i c rest _ _ _
          split
          · rename_i hop
            refine ⟨[c], rfl, hops c ?_⟩
            exact List.mem_cons.mpr (of_decide_eq_true hop).symm
          · obtain ⟨hsplit, hbytes⟩ := wordToken_spec 63 (c :: rest)
            exact ⟨_, hsplit, (filter_isTokenByte hbytes).symm⟩

/-- The turns of the loop together: the tokens are what was consumed, without
blanks and NUL bytes, and the loop ends at the end of the text or with all
slots used. -/
theorem tokenizerLoop_spec (n : Nat) (s : List UInt8) :
    (∃ consumed, s = consumed ++ (tokenizerLoop n s).2 ∧
      ((tokenizerLoop n s).1.map TokenTurn.token).flatten = consumed.filter isTokenByte) ∧
    ((tokenizerLoop n s).2 = [] ∨ (tokenizerLoop n s).1.length = n) := by
  have hblank : ∀ s : List UInt8, (s.takeWhile isSpace).filter isTokenByte = [] := by
    intro s
    rw [List.filter_eq_nil_iff]
    intro b hb
    have hspace : isSpace b = true := List.mem_takeWhile_imp hb
    simp [isTokenByte, hspace]
  induction n generalizing s with
  | zero => exact ⟨⟨[], rfl, rfl⟩, Or.inr rfl⟩
  | succ n ih =>
      have hsplit := List.takeWhile_append_dropWhile (p := isSpace) (l := s)
      rw [tokenizerLoop, tokenizerTurn]
      rcases hd : s.dropWhile isSpace with - | ⟨c, r⟩
      · -- only blanks are left: they are skipped, and the text is at its end
        rw [hd, List.append_nil] at hsplit
        refine ⟨⟨s, (List.append_nil s).symm, ?_⟩, Or.inl rfl⟩
        conv_rhs => rw [← hsplit]
        exact (hblank s).symm
      · rw [hd] at hsplit
        dsimp only
        obtain ⟨used, hused, htoken⟩ := nextToken_spec (c :: r)
        obtain ⟨⟨consumed, hconsumed, htokens⟩, hend⟩ := ih (nextToken (c :: r)).2
        -- the blanks, what this turn used and what the others consumed
        refine ⟨⟨s.takeWhile isSpace ++ used ++ consumed, ?_, ?_⟩, ?_⟩
        · rw [List.append_assoc, List.append_assoc, ← hconsumed, ← hused, hsplit]
        · rw [List.map_cons, List.flatten_cons, htokens, List.filter_append, List.filter_append,
            hblank, List.nil_append, ← htoken]
        · rcases hend with h | h
          · exact Or.inl h
          · exact Or.inr (by rw [List.length_cons, h])

/-! ### Lone slashes and stars -/

/-- A slash or star. -/
def isMark (c : UInt8) : Bool := c = ch '/' ∨ c = ch '*'

/-- The two bytes open or close a comment. -/
def isPair (c d : UInt8) : Bool := c = ch '/' ∧ d = ch '*' ∨ c = ch '*' ∧ d = ch '/'

/-- The text begins with a slash or star that neither opens nor closes a
comment. -/
def isLone : List UInt8 → Bool
  | [] => false
  | [c] => isMark c
  | c :: d :: _ => isMark c && !isPair c d

/-- The text before the first lone slash or star: the pairs are taken off from
left to right. -/
def beforeLone : List UInt8 → List UInt8
  | [] => []
  | [c] => if isMark c then [] else [c]
  | c :: d :: s =>
      if isPair c d then c :: d :: beforeLone s
      else if isMark c then []
      else c :: beforeLone (d :: s)

theorem isMark_of_isPair {c d : UInt8} (h : isPair c d = true) : isMark c = true := by
  rcases of_decide_eq_true h with h | h
  · exact decide_eq_true (Or.inl h.1)
  · exact decide_eq_true (Or.inr h.1)

theorem beforeLone_of_isLone {s : List UInt8} (h : isLone s = true) : beforeLone s = [] := by
  match s with
  | [] => rfl
  | [c] => exact if_pos h
  | c :: d :: s =>
      obtain ⟨hmark, hpair⟩ := Bool.and_eq_true_iff.mp h
      rw [beforeLone, if_neg (by simpa using hpair), if_pos hmark]

theorem beforeLone_cons {c : UInt8} (h : isMark c = false) (s : List UInt8) :
    beforeLone (c :: s) = c :: beforeLone s := by
  have hpair : ∀ d, isPair c d = false :=
    fun d => Bool.eq_false_iff.mpr fun hp => Bool.eq_false_iff.mp h (isMark_of_isPair hp)
  cases s with
  | nil => simp [beforeLone, h]
  | cons d s => rw [beforeLone, if_neg (by simp [hpair]), if_neg (by simp [h])]

theorem beforeLone_pair {c d : UInt8} (h : isPair c d = true) (s : List UInt8) :
    beforeLone (c :: d :: s) = c :: d :: beforeLone s := by
  rw [beforeLone, if_pos h]

theorem beforeLone_append {a : List UInt8} (h : ∀ c ∈ a, isMark c = false) (s : List UInt8) :
    beforeLone (a ++ s) = a ++ beforeLone s := by
  induction a with
  | nil => rfl
  | cons c a ih =>
      rw [List.cons_append, beforeLone_cons (h c List.mem_cons_self),
        ih fun d hd => h d (List.mem_cons_of_mem _ hd), List.cons_append]

/-- A mark is lone or the front of a pair. -/
theorem isLone_or_isPair {c : UInt8} (h : isMark c = true) (s : List UInt8) :
    isLone (c :: s) = true ∨ ∃ d r, s = d :: r ∧ isPair c d = true := by
  cases s with
  | nil => exact Or.inl h
  | cons d r =>
      cases hpair : isPair c d
      · exact Or.inl (by simp [isLone, h, hpair])
      · exact Or.inr ⟨d, r, rfl, hpair⟩

theorem isLone_beforeLone (s : List UInt8) : isLone (beforeLone s) = false := by
  match s with
  | [] => rfl
  | c :: s =>
      cases hmark : isMark c
      · rw [beforeLone_cons hmark]
        cases beforeLone s <;> simp [isLone, hmark]
      · rcases isLone_or_isPair hmark s with hlone | ⟨d, r, rfl, hpair⟩
        · rw [beforeLone_of_isLone hlone]
          rfl
        · simp [beforeLone_pair hpair, isLone, hpair]

/-- The next byte is a dash before the cut if it is one. -/
theorem startsDashes_beforeLone (c : UInt8) (s : List UInt8) :
    startsDashes (c :: beforeLone s) = startsDashes (c :: s) := by
  have hhead : ∀ d r, startsDashes (c :: d :: r) = (c = ch '-' ∧ d = ch '-' : Bool) := by
    intro d r
    rw [startsDashes, show str "--" = [ch '-', ch '-'] by decide]
    simp only [List.isPrefixOf, Bool.and_true, beq_eq_decide, eq_comm (a := ch '-'),
      Bool.decide_and]
  cases s with
  | nil => rfl
  | cons d r =>
      cases hmark : isMark d
      · rw [beforeLone_cons hmark, hhead, hhead]
      · -- a mark behind the byte may be cut off, but it is no dash
        have hd : d ≠ ch '-' := by
          rintro rfl
          exact absurd hmark (by decide)
        rcases isLone_or_isPair hmark r with hlone | ⟨e, r, rfl, hpair⟩
        · rw [beforeLone_of_isLone hlone, hhead]
          simp [hd, startsDashes, List.isPrefixOf, show str "--" = [ch '-', ch '-'] by decide]
        · rw [beforeLone_pair hpair, hhead, hhead]

theorem inSet_of_isMark {c : UInt8} (h : isMark c = true) :
    inSet (sqlOperators ++ str "/*") c = true := by
  rcases of_decide_eq_true h with rfl | rfl <;> decide

theorem endsWord_of_isMark {c : UInt8} (h : isMark c = true) (s : List UInt8) :
    endsWord (c :: s) = true := by
  simp [endsWord, inSet_of_isMark h]

/-- A word ends before the cut. -/
theorem wordToken_beforeLone (n : Nat) (s : List UInt8) :
    wordToken n (beforeLone s) = ((wordToken n s).1, beforeLone (wordToken n s).2) ∧
      beforeLone s = (wordToken n s).1 ++ beforeLone (wordToken n s).2 := by
  induction n generalizing s with
  | zero => exact ⟨rfl, rfl⟩
  | succ n ih =>
      cases s with
      | nil => exact ⟨rfl, rfl⟩
      | cons c s =>
          cases hmark : isMark c
          · have hends : endsWord (c :: beforeLone s) = endsWord (c :: s) := by
              simp only [endsWord, startsDashes_beforeLone]
            obtain ⟨hword, hsplit⟩ := ih s
            rw [beforeLone_cons hmark, wordToken, wordToken, hends]
            split
            · rw [List.nil_append, beforeLone_cons hmark]
              exact ⟨rfl, rfl⟩
            · rw [hword]
              refine ⟨rfl, ?_⟩
              show c :: beforeLone s = c :: ((wordToken n s).1 ++ beforeLone (wordToken n s).2)
              rw [← hsplit]
          · -- the word ends here, whether the mark is lone or not
            have hstop : wordToken (n + 1) (c :: s) = ([], c :: s) := by
              rw [wordToken, if_pos (endsWord_of_isMark hmark s)]
            rw [hstop]
            refine ⟨?_, rfl⟩
            rcases isLone_or_isPair hmark s with hlone | ⟨d, r, rfl, hpair⟩
            · rw [beforeLone_of_isLone hlone]
              rfl
            · rw [beforeLone_pair hpair, wordToken, if_pos (endsWord_of_isMark hmark _)]

/-! ### What a turn does at a lone mark, and elsewhere -/

theorem isPrefixOf_two (a b c d : UInt8) (r : List UInt8) :
    [a, b].isPrefixOf (c :: d :: r) = decide (c = a ∧ d = b) := by
  simp only [List.isPrefixOf, Bool.and_true, beq_eq_decide, Bool.decide_and, eq_comm]

theorem isPrefixOf_of_head_ne {a c : UInt8} (h : c ≠ a) (p r : List UInt8) :
    (a :: p).isPrefixOf (c :: r) = false := by
  simp [List.isPrefixOf, h.symm]

/-- Comment marks are looked for at slashes and stars only. -/
theorem nextToken_of_not_isMark {c : UInt8} (h : isMark c = false) (s : List UInt8) :
    nextToken (c :: s) =
      if startsDashes (c :: s) then (str "--", s.drop 1)
      else if inSet sqlOperators c then (cstr [c], s)
      else wordToken 63 (c :: s) := by
  have hne : c ≠ ch '/' ∧ c ≠ ch '*' := by simpa [isMark] using h
  unfold nextToken
  rw [show str "/*" = [ch '/', ch '*'] by decide, show str "*/" = [ch '*', ch '/'] by decide,
    isPrefixOf_of_head_ne hne.1, isPrefixOf_of_head_ne hne.2]
  rfl

theorem nextToken_of_isPair {c d : UInt8} (h : isPair c d = true) (s : List UInt8) :
    nextToken (c :: d :: s) = ([c, d], s) := by
  unfold nextToken startsDashes
  rcases of_decide_eq_true h with ⟨rfl, rfl⟩ | ⟨rfl, rfl⟩ <;> rfl

/-- No branch consumes a lone slash or star. -/
theorem nextToken_of_isLone {s : List UInt8} (h : isLone s = true) : nextToken s = ([], s) := by
  have hword : ∀ c r, isMark c = true →
      (if inSet sqlOperators c then (cstr [c], r) else wordToken 63 (c :: r)) = ([], c :: r) := by
    intro c r hc
    have hop : inSet sqlOperators c = false := by
      rcases of_decide_eq_true hc with rfl | rfl <;> decide
    rw [if_neg (by simp [hop]), wordToken, if_pos (endsWord_of_isMark hc r)]
  match s with
  | [] => exact absurd h (by decide)
  | [c] =>
      have hmark : isMark c = true := h
      rcases of_decide_eq_true hmark with rfl | rfl <;> exact hword _ [] hmark
  | c :: d :: r =>
      obtain ⟨hmark, hpair⟩ := Bool.and_eq_true_iff.mp h
      have hdash : startsDashes (c :: d :: r) = false := by
        rcases of_decide_eq_true hmark with rfl | rfl <;> rfl
      have hopen : (str "/*").isPrefixOf (c :: d :: r) = false := by
        rw [show str "/*" = [ch '/', ch '*'] by decide, isPrefixOf_two]
        exact decide_eq_false fun h => by simp [isPair, h] at hpair
      have hclose : (str "*/").isPrefixOf (c :: d :: r) = false := by
        rw [show str "*/" = [ch '*', ch '/'] by decide, isPrefixOf_two]
        exact decide_eq_false fun h => by simp [isPair, h] at hpair
      unfold nextToken
      rw [hdash, hopen, hclose]
      exact hword c (d :: r) hmark

/-- A byte that is no blank, no mark and no operator begins a word. -/
theorem endsWord_of_none {c : UInt8} {s : List UInt8} (hspace : isSpace c = false)
    (hmark : isMark c = false) (hop : inSet sqlOperators c = false)
    (hdash : startsDashes (c :: s) = false) : endsWord (c :: s) = false := by
  have hset : inSet (sqlOperators ++ str "/*") c = false := by
    simp only [inSet, isMark, decide_eq_false_iff_not, not_or, List.mem_append] at hop hmark ⊢
    refine ⟨⟨hop.1, ?_⟩, hop.2⟩
    rw [show str "/*" = [ch '/', ch '*'] by decide]
    simp [hmark]
  simp [endsWord, hspace, hset, hdash]

/-- Elsewhere the turn consumes bytes, and a cut at the first lone mark behind
them does not matter to it. -/
theorem nextToken_beforeLone {c : UInt8} {s : List UInt8} (hspace : isSpace c = false)
    (h : isLone (c :: s) = false) :
    ∃ used, c :: s = (c :: used) ++ (nextToken (c :: s)).2 ∧
      beforeLone (c :: s) = (c :: used) ++ beforeLone (nextToken (c :: s)).2 ∧
      nextToken (beforeLone (c :: s)) =
        ((nextToken (c :: s)).1, beforeLone (nextToken (c :: s)).2) := by
  cases hmark : isMark c
  · have hcut := beforeLone_cons hmark s
    rw [hcut, nextToken_of_not_isMark hmark, nextToken_of_not_isMark hmark, startsDashes_beforeLone]
    split
    · rename_i hdash
      -- the second dash is no mark either
      obtain ⟨r, hr⟩ := List.isPrefixOf_iff_prefix.mp hdash
      rw [show str "--" = [ch '-', ch '-'] by decide] at hr
      obtain ⟨rfl, rfl⟩ := List.cons.inj hr
      have hsecond : beforeLone (ch '-' :: r) = ch '-' :: beforeLone r :=
        beforeLone_cons (by decide) r
      exact ⟨[ch '-'], rfl, by simp [hsecond], by simp [hsecond]⟩
    · split
      · exact ⟨[], rfl, rfl, rfl⟩
      · rename_i hdash hop
        have hends : endsWord (c :: s) = false :=
          endsWord_of_none hspace hmark (Bool.eq_false_iff.mpr hop) (Bool.eq_false_iff.mpr hdash)
        have hfront : (wordToken 63 (c :: s)).1 = c :: (wordToken 62 s).1 := by
          rw [wordToken, if_neg (by simp [hends])]
        obtain ⟨hword, hsplit⟩ := wordToken_beforeLone 63 (c :: s)
        rw [hcut] at hword hsplit
        refine ⟨(wordToken 62 s).1, ?_, ?_, hword⟩
        · rw [← hfront]
          exact (wordToken_spec 63 (c :: s)).1
        · rw [← hfront]
          exact hsplit
  · rcases isLone_or_isPair hmark s with hlone | ⟨d, r, rfl, hpair⟩
    · exact absurd hlone (by simp [h])
    · rw [beforeLone_pair hpair, nextToken_of_isPair hpair, nextToken_of_isPair hpair]
      exact ⟨[d], rfl, rfl, rfl⟩

/-! ### Lexemes -/

def startsComment : List UInt8 → Bool
  | c :: d :: _ => isPair c d
  | _ => false

/-- The number of lexemes in a text, counted byte by byte while the word at hand
has room for some more: comment marks, operators and the other single bytes
that end a word, and words, cut after 63 bytes. -/
def lexemeCount (room : Nat) : List UInt8 → Nat
  | [] => 0
  | c :: s =>
      if isSpace c then lexemeCount 0 s
      else if startsDashes (c :: s) || startsComment (c :: s) then lexemeCount 0 (s.drop 1) + 1
      else if inSet (sqlOperators ++ str "/*") c then lexemeCount 0 s + 1
      else if room = 0 then lexemeCount 62 s + 1
      else lexemeCount (room - 1) s
termination_by s => s.length
decreasing_by all_goals simp +arith

theorem isMark_of_startsComment {c : UInt8} {s : List UInt8} (h : startsComment (c :: s) = true) :
    isMark c = true := by
  cases s with
  | nil => exact absurd h (by simp [startsComment])
  | cons d s => exact isMark_of_isPair h

theorem lexemeCount_blanks {a : List UInt8} (h : ∀ b ∈ a, isSpace b = true) (s : List UInt8) :
    lexemeCount 0 (a ++ s) = lexemeCount 0 s := by
  induction a with
  | nil => rfl
  | cons c a ih =>
      rw [List.cons_append, lexemeCount, if_pos (h c List.mem_cons_self)]
      exact ih fun b hb => h b (List.mem_cons_of_mem _ hb)

/-- Where a word ends, its room does not matter. -/
theorem lexemeCount_of_endsWord {s : List UInt8} (h : endsWord s = true) (room : Nat) :
    lexemeCount room s = lexemeCount 0 s := by
  cases s with
  | nil => rw [lexemeCount, lexemeCount]
  | cons c s =>
      rw [lexemeCount, lexemeCount]
      simp only [endsWord, Bool.or_eq_true] at h
      rcases h with (h | h) | h <;> simp only [h, if_true, Bool.true_or]

/-- A byte of a word opens one or is taken into the one at hand. -/
theorem lexemeCount_of_not_endsWord {c : UInt8} {s : List UInt8} (h : endsWord (c :: s) = false)
    (room : Nat) :
    lexemeCount room (c :: s) =
      if room = 0 then lexemeCount 62 s + 1 else lexemeCount (room - 1) s := by
  simp only [endsWord, Bool.or_eq_false_iff] at h
  obtain ⟨⟨hspace, hset⟩, hdash⟩ := h
  have hcomment : startsComment (c :: s) = false := by
    refine Bool.eq_false_iff.mpr fun hcomment => ?_
    rw [inSet_of_isMark (isMark_of_startsComment hcomment)] at hset
    exact absurd hset (by decide)
  rw [lexemeCount]
  simp only [hspace, hset, hdash, hcomment, Bool.or_false, Bool.false_eq_true, if_false]

/-- The rest of a word is no lexeme of its own. -/
theorem lexemeCount_wordToken (room : Nat) (s : List UInt8) :
    lexemeCount room s = lexemeCount 0 (wordToken room s).2 := by
  induction room generalizing s with
  | zero => rfl
  | succ n ih =>
      cases s with
      | nil => rw [wordToken, lexemeCount, lexemeCount]
      | cons c s =>
          rw [wordToken]
          split
          · rename_i hends
            exact lexemeCount_of_endsWord hends (n + 1)
          · rename_i hends
            show lexemeCount (n + 1) (c :: s) = lexemeCount 0 (wordToken n s).2
            rw [lexemeCount_of_not_endsWord (Bool.eq_false_iff.mpr hends),
              if_neg (Nat.succ_ne_zero n)]
            exact ih s

/-- Away from a lone mark, a turn of the tokenizer takes one lexeme. -/
theorem lexemeCount_nextToken {c : UInt8} {s : List UInt8} (hspace : isSpace c = false)
    (h : isLone (c :: s) = false) :
    lexemeCount 0 (c :: s) = lexemeCount 0 (nextToken (c :: s)).2 + 1 := by
  cases hmark : isMark c
  · rw [nextToken_of_not_isMark hmark]
    split
    · rename_i hdash
      rw [lexemeCount, if_neg (by simp [hspace]), if_pos (by simp [hdash])]
    · rename_i hdash
      have hcomment : startsComment (c :: s) = false :=
        Bool.eq_false_iff.mpr fun hcomment => by simp [isMark_of_startsComment hcomment] at hmark
      split
      · rename_i hop
        have hset : inSet (sqlOperators ++ str "/*") c = true := by
          simp only [inSet, decide_eq_true_eq, List.mem_append] at hop ⊢
          exact hop.imp_left Or.inl
        rw [lexemeCount, if_neg (by simp [hspace]), if_neg (by simp [hdash, hcomment]), if_pos hset]
      · rename_i hop
        have hends : endsWord (c :: s) = false :=
          endsWord_of_none hspace hmark (Bool.eq_false_iff.mpr hop) (Bool.eq_false_iff.mpr hdash)
        rw [lexemeCount_of_not_endsWord hends, if_pos rfl, lexemeCount_wordToken, wordToken,
          if_neg (by simp [hends])]
  · rcases isLone_or_isPair hmark s with hlone | ⟨d, r, rfl, hpair⟩
    · exact absurd hlone (by simp [h])
    · rw [nextToken_of_isPair hpair, lexemeCount, if_neg (by simp [hspace]),
        if_pos (by simp [startsComment, hpair])]
      rfl

/-! ### Stalling -/

theorem mem_tokenizerLoop {n : Nat} {s : List UInt8} {t : TokenTurn}
    (h : t ∈ (tokenizerLoop n s).1) :
    ∃ c r, isSpace c = false ∧ t.found = c :: r ∧ nextToken (c :: r) = (t.token, t.rest) := by
  induction n generalizing s with
  | zero => exact absurd h List.not_mem_nil
  | succ n ih =>
      rw [tokenizerLoop, tokenizerTurn] at h
      rcases hd : s.dropWhile isSpace with - | ⟨c, r⟩
      · rw [hd] at h
        exact absurd h List.not_mem_nil
      · rw [hd] at h
        rcases List.mem_cons.mp h with rfl | h
        · exact ⟨c, r, head_of_dropWhile hd, rfl, rfl⟩
        · exact ih h

theorem beforeLone_takeWhile (s : List UInt8) :
    beforeLone s = s.takeWhile isSpace ++ beforeLone (s.dropWhile isSpace) := by
  have hunmarked : ∀ b ∈ s.takeWhile isSpace, isMark b = false := by
    intro b hb
    have hspace : isSpace b = true := List.mem_takeWhile_imp hb
    by_contra hmark
    rcases of_decide_eq_true (Bool.eq_true_of_not_eq_false hmark) with rfl | rfl <;>
      exact absurd hspace (by decide)
  conv_lhs => rw [← List.takeWhile_append_dropWhile (p := isSpace) (l := s)]
  exact beforeLone_append hunmarked _

/-- The loop meets a lone mark if there is one and fewer lexemes than slots stand
before it. -/
theorem tokenizerLoop_meets_isLone (n : Nat) (s : List UInt8) :
    (∃ t ∈ (tokenizerLoop n s).1, isLone t.found = true) ↔
      beforeLone s ≠ s ∧ lexemeCount 0 (beforeLone s) < n := by
  induction n generalizing s with
  | zero => simp [tokenizerLoop]
  | succ n ih =>
      have hsplit := List.takeWhile_append_dropWhile (p := isSpace) (l := s)
      have hcut := beforeLone_takeWhile s
      have hblank : ∀ b ∈ s.takeWhile isSpace, isSpace b = true :=
        fun b => List.mem_takeWhile_imp
      rcases hd : s.dropWhile isSpace with - | ⟨c, r⟩
      · -- blanks only, no turn and no mark
        rw [hd] at hcut hsplit
        have hsame : beforeLone s = s := hcut.trans hsplit
        rw [tokenizerLoop, tokenizerTurn, hd]
        simp [hsame]
      · have hspace : isSpace c = false := head_of_dropWhile hd
        rw [hd] at hcut hsplit
        cases hlone : isLone (c :: r)
        · obtain ⟨used, hused, hbefore, hnext⟩ := nextToken_beforeLone hspace hlone
          -- the blanks and the bytes of the turn stand in front of both texts
          have hsame : beforeLone s = s ↔
              beforeLone (nextToken (c :: r)).2 = (nextToken (c :: r)).2 := by
            rw [hcut, hbefore]
            conv_lhs => rhs; rw [← hsplit, hused]
            rw [List.append_cancel_left_eq, List.append_cancel_left_eq]
          have hcount : lexemeCount 0 (beforeLone s)
              = lexemeCount 0 (beforeLone (nextToken (c :: r)).2) + 1 := by
            have hfree := isLone_beforeLone (c :: r)
            rw [hcut, lexemeCount_blanks hblank]
            rw [hbefore, List.cons_append] at hfree hnext ⊢
            rw [lexemeCount_nextToken hspace hfree, hnext]
          rw [tokenizerLoop, tokenizerTurn, hd, Ne, hsame, hcount]
          simp only [List.mem_cons, exists_eq_or_imp, hlone, Bool.false_eq_true, false_or,
            Nat.add_lt_add_iff_right]
          exact ih _
        · -- this turn is the one that stalls: before the mark are blanks only
          rw [beforeLone_of_isLone hlone] at hcut
          refine ⟨fun _ => ⟨?_, ?_⟩, fun _ => ⟨⟨c :: r, [], c :: r⟩, ?_, hlone⟩⟩
          · rw [hcut]
            conv_rhs => rw [← hsplit]
            simp
          · rw [hcut, lexemeCount_blanks hblank, lexemeCount]
            exact Nat.succ_pos n
          · rw [tokenizerLoop, tokenizerTurn, hd]
            dsimp only
            rw [nextToken_of_isLone hlone]
            exact List.mem_cons_self

/-! ### The tokenizer on a whole payload -/

/-- What the tokenizer should do with a decoded payload. -/
structure TokenizerCovers (decoded : List UInt8) : Prop where
  /-- A turn that finds a byte other than NUL records it and moves on. -/
  progress : ∀ t ∈ (tokenizerLoop maxTokens decoded).1, t.found.head? ≠ some 0 →
    t.token ≠ [] ∧ t.rest.length < t.found.length
  /-- The tokens are the text that was consumed, without blanks and NUL. -/
  text : ∃ consumed, decoded = consumed ++ (tokenizerLoop maxTokens decoded).2 ∧
    (sqlTokens decoded).flatten = consumed.filter isTokenByte
  /-- The end is the end of the text, or all slots are used and every one for
  bytes of its own. -/
  ends : (tokenizerLoop maxTokens decoded).2 = [] ∨
    (sqlTokens decoded).length = maxTokens ∧
      ∀ t ∈ (tokenizerLoop maxTokens decoded).1, t.rest.length < t.found.length

/-- Away from a lone mark a turn consumes what it records. -/
theorem turn_progress {n : Nat} {s : List UInt8} {t : TokenTurn}
    (h : t ∈ (tokenizerLoop n s).1) (hlone : isLone t.found = false) :
    t.rest.length < t.found.length ∧ (t.found.head? ≠ some 0 → t.token ≠ []) := by
  obtain ⟨c, r, hspace, hfound, hnext⟩ := mem_tokenizerLoop h
  rw [hfound] at hlone ⊢
  obtain ⟨used, hused, -⟩ := nextToken_beforeLone hspace hlone
  obtain ⟨used', hused', htoken⟩ := nextToken_spec (c :: r)
  rw [hnext] at hused hused' htoken
  dsimp only at hused hused' htoken
  have hsame : used' = c :: used := List.append_cancel_right (hused'.symm.trans hused)
  refine ⟨?_, fun hnul => ?_⟩
  · rw [hused, List.length_append, List.length_cons]
    omega
  · have hbyte : isTokenByte c = true := by
      have hc : c ≠ 0 := by simpa using hnul
      simp [isTokenByte, hspace, hc]
    rw [htoken, hsame, List.filter_cons_of_pos hbyte]
    exact List.cons_ne_nil _ _

/-- The tokenizer covers the payload exactly if it does not get to a lone slash
or star: there is none, or as many lexemes as slots stand before it. -/
theorem tokenizer_covers_iff (decoded : List UInt8) :
    TokenizerCovers decoded ↔
      beforeLone decoded = decoded ∨ maxTokens ≤ lexemeCount 0 (beforeLone decoded) := by
  have hmeets := tokenizerLoop_meets_isLone maxTokens decoded
  have hcond : (beforeLone decoded = decoded ∨ maxTokens ≤ lexemeCount 0 (beforeLone decoded)) ↔
      ∀ t ∈ (tokenizerLoop maxTokens decoded).1, isLone t.found = false := by
    rw [← not_iff_not, not_or, Nat.not_le, ← Ne, ← hmeets]
    simp only [not_forall, Bool.not_eq_false, exists_prop]
  obtain ⟨htext, hend⟩ := tokenizerLoop_spec maxTokens decoded
  rw [hcond]
  constructor
  · -- a turn at a lone mark records nothing for a byte that is not NUL
    intro h t ht
    by_contra hlone
    obtain ⟨c, r, -, hfound, hnext⟩ := mem_tokenizerLoop ht
    have hlone : isLone (c :: r) = true := hfound ▸ Bool.eq_true_of_not_eq_false hlone
    have hnul : t.found.head? ≠ some 0 := by
      rintro hc
      rw [hfound, List.head?_cons, Option.some.injEq] at hc
      subst hc
      cases r <;> exact absurd hlone (by simp [isLone, show isMark 0 = false by decide])
    rw [nextToken_of_isLone hlone] at hnext
    exact (h.progress t ht hnul).1 (Prod.mk.inj hnext).1.symm
  · intro h
    refine ⟨fun t ht hnul => ?_, htext, ?_⟩
    · obtain ⟨hlt, htoken⟩ := turn_progress ht (h t ht)
      exact ⟨htoken hnul, hlt⟩
    · refine hend.imp_right fun hfull => ⟨?_, fun t ht => (turn_progress ht (h t ht)).1⟩
      rw [sqlTokens, List.length_map, hfull]

/-- The path of a request is enough: the slash is taken for an empty token 128
times, and nothing behind it is looked at. -/
theorem slash_stalls : ¬ TokenizerCovers (str "/ or 1=1 --") := by
  intro h
  have hturn : (⟨str "/ or 1=1 --", [], str "/ or 1=1 --"⟩ : TokenTurn) ∈
      (tokenizerLoop maxTokens (str "/ or 1=1 --")).1 := by decide
  exact (h.progress _ hturn (by decide)).1 rfl

/-! ### The flags -/

/-- A flag that a step can only set is set in the end if some step sets it. -/
theorem foldl_flag {α β : Type} {step : β → α → β} {flag : β → Bool} {sets : α → Bool}
    (hstep : ∀ b a, flag (step b a) = (flag b || sets a)) (l : List α) (b : β) :
    flag (l.foldl step b) = (flag b || l.any sets) := by
  induction l generalizing b with
  | nil => simp
  | cons a l ih => rw [List.foldl_cons, ih, hstep, List.any_cons, Bool.or_assoc]

theorem map_tokenSlot (stale : Nat → List UInt8) (tokens : List (List UInt8)) :
    (List.range tokens.length).map (tokenSlot stale tokens) = tokens := by
  refine List.ext_getElem (by simp) fun i h₁ h₂ => ?_
  simp [tokenSlot, h₂]

theorem any_tokenSlot (stale : Nat → List UInt8) (tokens : List (List UInt8))
    (p : List UInt8 → Bool) :
    ((List.range tokens.length).any fun i => p (tokenSlot stale tokens i)) = tokens.any p := by
  conv_rhs => rw [← map_tokenSlot stale tokens]
  rw [List.any_map]
  rfl

/-- A sign at some token, with what stands behind it. -/
theorem any_range_iff {α : Type} {l : List α} {p : Nat → Bool} :
    (List.range l.length).any p = true ↔
      ∃ before a after, l = before ++ a :: after ∧ p before.length = true := by
  rw [List.any_eq_true]
  constructor
  · rintro ⟨i, hi, hp⟩
    have hi : i < l.length := List.mem_range.mp hi
    refine ⟨l.take i, l[i], l.drop (i + 1), ?_, ?_⟩
    · rw [← List.drop_eq_getElem_cons hi, List.take_append_drop]
    · rwa [List.length_take, Nat.min_eq_left hi.le]
  · rintro ⟨before, a, after, rfl, hp⟩
    exact ⟨before.length, List.mem_range.mpr (by simp), hp⟩

theorem tokenSlot_append (stale : Nat → List UInt8) (before after : List (List UInt8)) (k : Nat) :
    tokenSlot stale (before ++ after) (before.length + k) =
      after.getD k (stale (before.length + k)) := by
  rw [tokenSlot, List.getD_eq_getElem?_getD, List.getElem?_append_right (Nat.le_add_right _ _),
    Nat.add_sub_cancel_left, List.getD_eq_getElem?_getD]

/-! ### The signs in the tokens -/

def isOrAnd : List UInt8 → Bool := isWordOf [str "or", str "and"]

/-- A tautology that the look-ahead finds: x = x with one more token behind it,
or, as the offsets of the second shape have it, two x with quotes around. -/
def Recognised (stale : Nat → List UInt8) (tokens : List (List UInt8)) : Prop :=
  ∃ before op x rest, isOrAnd op = true ∧
    ((∃ y, tokens = before ++ op :: x :: str "=" :: x :: y :: rest) ∨
      tokens = before ++ op :: quote :: x :: quote :: x :: rest ∧
        rest.headD (stale tokens.length) = quote)

theorem tautologyAt_append (stale : Nat → List UInt8) (before : List (List UInt8))
    (op x e y z : List UInt8) (rest : List (List UInt8)) :
    let tokens := before ++ op :: x :: e :: y :: z :: rest
    tautologyAt (tokenSlot stale tokens) tokens.length before.length = true ↔
      isOrAnd op = true ∧ (e = str "=" ∧ x = y ∨
        x = quote ∧ y = quote ∧ rest.headD (stale tokens.length) = quote ∧ e = z) := by
  intro tokens
  have hslot : ∀ k, tokenSlot stale tokens (before.length + k) = _ :=
    tokenSlot_append stale before (op :: x :: e :: y :: z :: rest)
  have hop : tokenSlot stale tokens before.length = op := hslot 0
  have hlen : before.length + 4 < tokens.length := by
    rw [List.length_append]
    exact Nat.add_lt_add_left (by simp) _
  have hlast : tokenSlot stale tokens (before.length + 5) = rest.headD (stale tokens.length) := by
    rw [hslot]
    cases rest with
    | nil => simp [tokens]
    | cons w rest => rfl
  simp only [tautologyAt, decide_eq_true_eq, hop, hlast, hlen, true_and, hslot]
  rfl

theorem any_tautologyAt (stale : Nat → List UInt8) (tokens : List (List UInt8)) :
    (List.range tokens.length).any (tautologyAt (tokenSlot stale tokens) tokens.length) = true ↔
      Recognised stale tokens := by
  rw [any_range_iff]
  constructor
  · rintro ⟨before, op, after, rfl, h⟩
    obtain ⟨x, e, y, z, rest, rfl⟩ : ∃ x e y z rest, after = x :: e :: y :: z :: rest := by
      obtain ⟨-, hlen, -⟩ := of_decide_eq_true h
      match after, hlen with
      | x :: e :: y :: z :: rest, _ => exact ⟨x, e, y, z, rest, rfl⟩
      | [], h | [_], h | [_, _], h | [_, _, _], h => simp at h
    obtain ⟨hop, ⟨rfl, rfl⟩ | ⟨rfl, rfl, hlast, rfl⟩⟩ := (tautologyAt_append ..).mp h
    · exact ⟨before, op, x, rest, hop, Or.inl ⟨z, rfl⟩⟩
    · exact ⟨before, op, e, rest, hop, Or.inr ⟨rfl, hlast⟩⟩
  · rintro ⟨before, op, x, rest, hop, ⟨y, rfl⟩ | ⟨rfl, hlast⟩⟩
    · exact ⟨before, op, _, rfl, (tautologyAt_append ..).mpr ⟨hop, Or.inl ⟨rfl, rfl⟩⟩⟩
    · exact ⟨before, op, _, rfl,
        (tautologyAt_append ..).mpr ⟨hop, Or.inr ⟨rfl, rfl, hlast, rfl⟩⟩⟩

/-- `admin`, a quote and a comment mark. -/
def HasAdmin (tokens : List (List UInt8)) : Prop :=
  ∃ before name mark rest, tokens = before ++ name :: quote :: mark :: rest ∧
    isWordOf [str "admin"] name = true ∧ isCommentMark mark = true

theorem any_adminAt (stale : Nat → List UInt8) (tokens : List (List UInt8)) :
    (List.range tokens.length).any (adminAt (tokenSlot stale tokens) tokens.length) = true ↔
      HasAdmin tokens := by
  have hat : ∀ before name q mark rest,
      adminAt (tokenSlot stale (before ++ name :: q :: mark :: rest))
        (before ++ name :: q :: mark :: rest).length before.length = true ↔
        isWordOf [str "admin"] name = true ∧ q = quote ∧ isCommentMark mark = true := by
    intro before name q mark rest
    have hslot := tokenSlot_append stale before (name :: q :: mark :: rest)
    have hlen : before.length + 2 < (before ++ name :: q :: mark :: rest).length := by
      rw [List.length_append]
      exact Nat.add_lt_add_left (by simp) _
    simp only [adminAt, decide_eq_true_eq, show tokenSlot stale _ before.length = _ from hslot 0,
      hslot, hlen, true_and]
    rfl
  rw [any_range_iff]
  constructor
  · rintro ⟨before, name, after, rfl, h⟩
    obtain ⟨q, mark, rest, rfl⟩ : ∃ q mark rest, after = q :: mark :: rest := by
      obtain ⟨-, hlen, -⟩ := of_decide_eq_true h
      match after, hlen with
      | q :: mark :: rest, _ => exact ⟨q, mark, rest, rfl⟩
      | [], h | [_], h => simp at h
    obtain ⟨hname, rfl, hmark⟩ := (hat ..).mp h
    exact ⟨before, name, mark, rest, rfl, hname, hmark⟩
  · rintro ⟨before, name, mark, rest, rfl, hname, hmark⟩
    exact ⟨before, name, _, rfl, (hat ..).mpr ⟨hname, rfl, hmark⟩⟩

/-- A semicolon and a word that begins a statement. -/
def HasStacked (tokens : List (List UInt8)) : Prop :=
  ∃ before word rest, tokens = before ++ str ";" :: word :: rest ∧
    isWordOf [str "drop", str "delete", str "insert", str "update", str "exec", str "select"]
      word = true

theorem any_stackedAt (stale : Nat → List UInt8) (tokens : List (List UInt8)) :
    (List.range tokens.length).any (stackedAt (tokenSlot stale tokens) tokens.length) = true ↔
      HasStacked tokens := by
  have hat : ∀ before semi word rest, stackedAt (tokenSlot stale (before ++ semi :: word :: rest))
      (before ++ semi :: word :: rest).length before.length = true ↔
        semi = str ";" ∧ isWordOf [str "drop", str "delete", str "insert", str "update", str "exec",
          str "select"] word = true := by
    intro before semi word rest
    have hslot := tokenSlot_append stale before (semi :: word :: rest)
    have hlen : before.length + 1 < (before ++ semi :: word :: rest).length := by
      rw [List.length_append]
      exact Nat.add_lt_add_left (by simp) _
    simp only [stackedAt, decide_eq_true_eq, show tokenSlot stale _ before.length = _ from hslot 0,
      hslot, hlen, true_and]
    rfl
  rw [any_range_iff]
  constructor
  · rintro ⟨before, semi, after, rfl, h⟩
    obtain ⟨word, rest, rfl⟩ : ∃ word rest, after = word :: rest := by
      obtain ⟨-, hlen, -⟩ := of_decide_eq_true h
      match after, hlen with
      | word :: rest, _ => exact ⟨word, rest, rfl⟩
      | [], h => simp at h
    obtain ⟨rfl, hword⟩ := (hat ..).mp h
    exact ⟨before, word, rest, rfl, hword⟩
  · rintro ⟨before, word, rest, rfl, hword⟩
    exact ⟨before, _, _, rfl, (hat ..).mpr ⟨rfl, hword⟩⟩

/-- `select` behind `union`. -/
def HasUnionSelect (tokens : List (List UInt8)) : Prop :=
  ∃ before word after, tokens = before ++ word :: after ∧
    isWordOf [str "union"] word = true ∧ after.any (isWordOf [str "select"]) = true

theorem hasUnionSelect_cons (token : List UInt8) (tokens : List (List UInt8)) :
    HasUnionSelect (token :: tokens) ↔
      (isWordOf [str "union"] token = true ∧ tokens.any (isWordOf [str "select"]) = true) ∨
        HasUnionSelect tokens := by
  constructor
  · rintro ⟨_ | ⟨t, before⟩, word, after, heq, hunion, hselect⟩
    · obtain ⟨rfl, rfl⟩ := List.cons.inj heq
      exact Or.inl ⟨hunion, hselect⟩
    · obtain ⟨rfl, rfl⟩ := List.cons.inj heq
      exact Or.inr ⟨before, word, after, rfl, hunion, hselect⟩
  · rintro (⟨hunion, hselect⟩ | ⟨before, word, after, rfl, hunion, hselect⟩)
    · exact ⟨[], token, tokens, rfl, hunion, hselect⟩
    · exact ⟨token :: before, word, after, rfl, hunion, hselect⟩

theorem not_union_and_select (token : List UInt8) :
    ¬ (isWordOf [str "union"] token = true ∧ isWordOf [str "select"] token = true) := by
  rintro ⟨hunion, hselect⟩
  simp only [isWordOf, List.any_cons, List.any_nil, Bool.or_false, strcaseEquals,
    decide_eq_true_eq] at hunion hselect
  exact absurd (hunion.symm.trans hselect) (by decide)

/-- `select_found` needs an earlier `union_found`. -/
theorem selectFound_foldl (slot : Nat → List UInt8) (tokenCount : Nat) (l : List Nat)
    (f : SqliFlags) :
    (l.foldl (checkToken slot tokenCount) f).selectFound = true ↔
      f.selectFound = true ∨
        (f.unionFound = true ∧ (l.map slot).any (isWordOf [str "select"]) = true) ∨
        HasUnionSelect (l.map slot) := by
  induction l generalizing f with
  | nil =>
      have hnone : ¬ HasUnionSelect [] := by
        rintro ⟨before, word, after, h, -⟩
        simp at h
      simp [hnone]
  | cons i l ih =>
      -- one token is not both words, so the same turn does not set both flags
      have hboth := not_union_and_select (slot i)
      rw [List.foldl_cons, ih, List.map_cons, hasUnionSelect_cons, List.any_cons]
      simp only [checkToken, Bool.or_eq_true, Bool.and_eq_true]
      grind

/-- The flags after the loop, as signs in the tokens. -/
theorem sqliFlags_spec (stale : Nat → List UInt8) (tokens : List (List UInt8)) :
    let f := sqliFlags stale tokens
    ((f.unionFound && f.selectFound) = true ↔ HasUnionSelect tokens) ∧
      (f.adminBypass = true ↔ HasAdmin tokens) ∧ (f.tautology = true ↔ Recognised stale tokens) ∧
      (f.stackedQuery = true ↔ HasStacked tokens) ∧ f.commentFound = tokens.any isCommentMark ∧
      f.errorFunc = tokens.any isErrorFunc ∧ f.timeFunc = tokens.any isTimeFunc ∧
      f.writeFunc = tokens.any isWriteFunc := by
  have hflag : ∀ (flag : SqliFlags → Bool) (sets : Nat → Bool), flag .none = false →
      (∀ f i, flag (checkToken (tokenSlot stale tokens) tokens.length f i) = (flag f || sets i)) →
      flag (sqliFlags stale tokens) = (List.range tokens.length).any sets := by
    intro flag sets hnone hstep
    rw [sqliFlags, foldl_flag hstep, hnone, Bool.false_or]
  have hword : ∀ (flag : SqliFlags → Bool) (p : List UInt8 → Bool), flag .none = false →
      (∀ f i, flag (checkToken (tokenSlot stale tokens) tokens.length f i) =
        (flag f || p (tokenSlot stale tokens i))) →
      flag (sqliFlags stale tokens) = tokens.any p :=
    fun flag p hnone hstep => (hflag flag _ hnone hstep).trans (any_tokenSlot stale tokens p)
  have hselect : (sqliFlags stale tokens).selectFound = true ↔ HasUnionSelect tokens := by
    rw [sqliFlags, selectFound_foldl, map_tokenSlot]
    simp [SqliFlags.none]
  refine ⟨?_, ?_, ?_, ?_, hword _ _ rfl fun _ _ => rfl, hword _ _ rfl fun _ _ => rfl,
    hword _ _ rfl fun _ _ => rfl, hword _ _ rfl fun _ _ => rfl⟩
  · rw [Bool.and_eq_true, hselect, and_iff_right_iff_imp,
      hword SqliFlags.unionFound (isWordOf [str "union"]) rfl fun _ _ => rfl]
    rintro ⟨before, word, after, rfl, hunion, -⟩
    exact List.any_eq_true.mpr ⟨word, by simp, hunion⟩
  · rw [← any_adminAt stale, hflag SqliFlags.adminBypass _ rfl fun _ _ => rfl]
  · rw [← any_tautologyAt stale, hflag SqliFlags.tautology _ rfl fun _ _ => rfl]
  · rw [← any_stackedAt stale, hflag SqliFlags.stackedQuery _ rfl fun _ _ => rfl]

/-! ### Points for a tautology -/

/-- A token of the word branch: no operator and none of the three comment marks. -/
def isWordToken (x : List UInt8) : Bool :=
  !x.isEmpty && x ≠ str "--" && x.all fun c => !isSpace c && !inSet (sqlOperators ++ str "/*") c

/-- `or` or `and` and behind it x = x or 'x' = 'x', for a word x. -/
def HasTautology (tokens : List (List UInt8)) : Prop :=
  ∃ before op x after, isOrAnd op = true ∧ isWordToken x = true ∧
    (tokens = before ++ op :: x :: str "=" :: x :: after ∨
      tokens = before ++ op :: quote :: x :: quote :: str "=" :: quote :: x :: quote :: after)

/-- Other signs that are worth 45 points together.  Stacked queries alone have
40, and with that many the raw text is not searched. -/
def OtherSigns (tokens : List (List UInt8)) (decoded : List UInt8) : Prop :=
  let stacked := HasStacked tokens
  let error := tokens.any isErrorFunc = true
  let time := tokens.any isTimeFunc = true
  let write := tokens.any isWriteFunc = true
  let comment := tokens.any isCommentMark = true
  let rawUnion := rawUnionSelect decoded = true
  let rawOr := rawOrOne decoded = true
  HasUnionSelect tokens ∨ HasAdmin tokens ∨
    (stacked ∧ (error ∨ time ∨ write ∨ comment)) ∨
    (time ∧ (error ∨ write ∨ comment)) ∨ (write ∧ (error ∨ comment)) ∨
    (¬ stacked ∧ (rawUnion ∧ rawOr ∨ (rawUnion ∨ rawOr) ∧ (error ∨ time ∨ write ∨ comment)))

/-- When the points come to 45. -/
theorem score_rawTally_iff (maxPatternLen : Nat) (decoded : List UInt8) (f : SqliFlags) :
    45 ≤ (rawTally maxPatternLen decoded (flagTally maxPatternLen f)).score ↔
      f.tautology = true ∨ (f.unionFound && f.selectFound) = true ∨ f.adminBypass = true ∨
        (f.stackedQuery = true ∧
          (f.errorFunc = true ∨ f.timeFunc = true ∨ f.writeFunc = true ∨ f.commentFound = true)) ∨
        (f.timeFunc = true ∧ (f.errorFunc = true ∨ f.writeFunc = true ∨ f.commentFound = true)) ∨
        (f.writeFunc = true ∧ (f.errorFunc = true ∨ f.commentFound = true)) ∨
        (¬ f.stackedQuery = true ∧
          (rawUnionSelect decoded = true ∧ rawOrOne decoded = true ∨
            (rawUnionSelect decoded = true ∨ rawOrOne decoded = true) ∧
              (f.errorFunc = true ∨ f.timeFunc = true ∨ f.writeFunc = true ∨
                f.commentFound = true))) := by
  rw [rawTally, apply_ite Tally.score]
  simp only [flagTally, Tally.score_note]
  generalize (f.unionFound && f.selectFound) = union
  generalize f.tautology = tautology
  generalize f.adminBypass = admin
  generalize f.stackedQuery = stacked
  generalize f.errorFunc = error
  generalize f.timeFunc = time
  generalize f.writeFunc = write
  generalize f.commentFound = comment
  generalize rawUnionSelect decoded = rawUnion
  generalize rawOrOne decoded = rawOr
  by_cases hstrong : tautology = true ∨ union = true ∨ admin = true
  · -- each of these is enough by itself
    have hnonneg : ∀ (b : Bool) (n : Nat), 0 ≤ (if b = true then (n : Int) else 0) := by
      intro b n
      cases b <;> simp
    have hstacked := hnonneg stacked 40
    have herror := hnonneg error 25
    have htime := hnonneg time 35
    have hwrite := hnonneg write 35
    have hcomment := hnonneg comment 10
    refine iff_of_true ?_ (by tauto)
    cases union <;> cases tautology <;> cases admin <;> simp at hstrong <;> grind
  · -- the others are seven Booleans
    simp only [not_or, Bool.not_eq_true] at hstrong
    obtain ⟨rfl, rfl, rfl⟩ := hstrong
    cases stacked <;> cases error <;> cases time <;> cases write <;> cases comment <;>
      cases rawUnion <;> cases rawOr <;> decide

/-- A payload with a tautology has its 45 points exactly if the look-ahead finds
one that suits it, or other signs come to as much. -/
theorem tautology_scores_iff (stale : Nat → List UInt8) (maxPatternLen maxDetailsLen : Nat)
    (payload : List UInt8) :
    (HasTautology (sqlTokens (decodedPayload payload)) →
        45 ≤ (detectSqli stale maxPatternLen maxDetailsLen payload).score) ↔
      (HasTautology (sqlTokens (decodedPayload payload)) →
        Recognised stale (sqlTokens (decodedPayload payload)) ∨
          OtherSigns (sqlTokens (decodedPayload payload)) (decodedPayload payload)) := by
  obtain ⟨hunion, hadmin, htautology, hstacked, hcomment, herror, htime, hwrite⟩ :=
    sqliFlags_spec stale (sqlTokens (decodedPayload payload))
  refine imp_congr_right fun _ => ?_
  rw [detectSqli, score_rawTally_iff, hunion, hadmin, htautology, hstacked, hcomment, herror, htime,
    hwrite]
  rfl

/-- A tautology at the end is missed, and so is every quoted one. -/
theorem tautologies_missed :
    (HasTautology (sqlTokens (decodedPayload (str "or 2=2"))) ∧
      (detectSqli (fun _ => []) 128 256 (str "or 2=2")).score = 0) ∧
    HasTautology (sqlTokens (decodedPayload (str "or 'a'='a' x"))) ∧
      (detectSqli (fun _ => []) 128 256 (str "or 'a'='a' x")).score = 0 := by
  have hfirst : decodedPayload (str "or 2=2") = str "or 2=2" :=
    decodedPayload_of_plain (by decide) (by decide) (by decide)
  have hsecond : decodedPayload (str "or 'a'='a' x") = str "or 'a'='a' x" :=
    decodedPayload_of_plain (by decide) (by decide) (by decide)
  unfold detectSqli
  rw [hfirst, hsecond]
  refine ⟨⟨⟨[], str "or", str "2", [], by decide, by decide, Or.inl (by decide)⟩, by decide⟩,
    ⟨[], str "or", str "a", [str "x"], by decide, by decide, Or.inr (by decide)⟩, by decide⟩

end Nullsploit
