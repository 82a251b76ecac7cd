/-
Nullsploit/UserLogin.lean

The two readers of users.conf: `auth_verify_login` (soc-server/auth.c) and
`verifyUser` (DashboardController.java).  Both look for the first line of a user
and check the password against the hash on it, but they do not agree on what a
line of a user is.

The receiver takes a line apart with `strtok`: leading colons are skipped, also
those of no name, blanks before the hash are skipped, and the hash ends at the
next blank.  There are no comments.  The dashboard ends lines at carriage returns
too, trims them, leaves out comments and takes everything behind the first colon
for the hash.  `ReceiverEntry` and `DashboardEntry` are the two formats, and the
logins agree on a file exactly if the first entry of the user is the same in both
(`logins_agree_iff`).

`crypt` and `BCrypt.checkpw` are one parameter, `accepts`.  The dashboard reads
characters; all that it looks for is ASCII, so bytes will do for both.
-/
import Nullsploit.CText

namespace Nullsploit

open CText

/-! ### The loop -/

/-- The hash on the first line with an entry of the user. -/
def firstHash (entry : List UInt8 → Option (List UInt8 × List UInt8)) (username : List UInt8) :
    List (List UInt8) → Option (List UInt8)
  | [] => none
  | line :: lines =>
      match entry line with
      | none => firstHash entry username lines
      | some (user, hash) => if user = username then some hash else firstHash entry username lines

/-! ### The receiver -/

/-- The delimiters of the hash. -/
def hashDelims : List UInt8 := str " \t\r\n"

/-- `user_part` and `hash_part` of a line. -/
def loginEntry (line : List UInt8) : Option (List UInt8 × List UInt8) :=
  match strtokNext (str ":") (cstr line) with
  | none => none
  | some (userPart, rest) =>
      match strtokNext hashDelims rest with
      | none => none
      | some (hashPart, _) => some (userPart, hashPart)

/-- `auth_verify_login(...) == 0` on the text of the file; user name and password
are C strings. -/
def authVerifyLogin (accepts : List UInt8 → List UInt8 → Bool)
    (file username password : List UInt8) : Bool :=
  match firstHash loginEntry username (fileLines 255 file) with
  | some hashPart => accepts password hashPart
  | none => false

/-! ### The dashboard -/

/-- `BufferedReader.readLine` to the end: lines end at LF, CR or both.  `skipLf`
holds after a CR, and `line` is what was read of the current line. -/
def readLines : Bool → List UInt8 → List UInt8 → List (List UInt8)
  | _, line, [] => pending line
  | skipLf, line, b :: s =>
      if skipLf ∧ b = nl then readLines false line s
      else if b = nl then line :: readLines false [] s
      else if b = ch '\r' then line :: readLines true [] s
      else readLines false (line ++ [b]) s

/-- `String.trim`. -/
def trim (s : List UInt8) : List UInt8 :=
  ((s.dropWhile (· ≤ 32)).reverse.dropWhile (· ≤ 32)).reverse

/-- `line.split(":", 2)` of a line that is not left out, if it has two parts. -/
def userEntry (line : List UInt8) : Option (List UInt8 × List UInt8) :=
  let line := trim line
  if line.head? = some (ch '#') ∨ line = [] then none else strchr (ch ':') line

/-- `verifyUser` on the text of the file. -/
def verifyUser (accepts : List UInt8 → List UInt8 → Bool)
    (file username password : List UInt8) : Bool :=
  match firstHash userEntry username (readLines false [] file) with
  | some hash => accepts password hash
  | none => false

/-! ### The formats -/

/-- A line of the user for the receiver. -/
structure ReceiverEntry (user hash line : List UInt8) : Prop where
  shape : ∃ colons gap tail, cstr line = colons ++ (user ++ ch ':' :: (gap ++ (hash ++ tail))) ∧
    (∀ c ∈ colons, c = ch ':') ∧ (∀ c ∈ gap, c ∈ hashDelims) ∧ ∀ c ∈ tail.head?, c ∈ hashDelims
  user : user ≠ [] ∧ ch ':' ∉ user
  hash : hash ≠ [] ∧ ∀ c ∈ hash, c ∉ hashDelims

/-- A line of the user for the dashboard. -/
structure DashboardEntry (user hash line : List UInt8) : Prop where
  shape : trim line = user ++ ch ':' :: hash
  user : ch ':' ∉ user
  comment : (trim line).head? ≠ some (ch '#')

/-- The first entry of the user in the lines has this hash. -/
def FirstEntry (Entry : List UInt8 → List UInt8 → List UInt8 → Prop) (lines : List (List UInt8))
    (user hash : List UInt8) : Prop :=
  ∃ before line after, lines = before ++ line :: after ∧ Entry user hash line ∧
    ∀ l ∈ before, ∀ h, ¬ Entry user h l

/-- The first entry of a user is on the first line, or there is none on it and it
is the first on the others. -/
theorem firstEntry_cons {Entry : List UInt8 → List UInt8 → List UInt8 → Prop} {line : List UInt8}
    {lines : List (List UInt8)} {username hash : List UInt8} :
    FirstEntry Entry (line :: lines) username hash ↔
      Entry username hash line ∨
        (∀ h, ¬ Entry username h line) ∧ FirstEntry Entry lines username hash := by
  constructor
  · rintro ⟨before, l, after, hsplit, hl, hbefore⟩
    cases before with
    | nil =>
        obtain ⟨rfl, -⟩ := List.cons.inj hsplit
        exact Or.inl hl
    | cons b before =>
        obtain ⟨rfl, rfl⟩ := List.cons.inj hsplit
        exact Or.inr ⟨hbefore _ List.mem_cons_self,
          before, l, after, rfl, hl, fun b hb => hbefore b (List.mem_cons_of_mem _ hb)⟩
  · rintro (hl | ⟨hnot, before, l, after, rfl, hl, hbefore⟩)
    · exact ⟨[], line, lines, rfl, hl, by simp⟩
    · refine ⟨line :: before, l, after, rfl, hl, ?_⟩
      intro b hb
      rcases List.mem_cons.mp hb with rfl | hb
      · exact hnot
      · exact hbefore b hb

/-- The loop finds the first entry, if it reads lines by their format. -/
theorem firstHash_eq_some_iff {entry : List UInt8 → Option (List UInt8 × List UInt8)}
    {Entry : List UInt8 → List UInt8 → List UInt8 → Prop}
    (hentry : ∀ line user hash, entry line = some (user, hash) ↔ Entry user hash line)
    (lines : List (List UInt8)) (username hash : List UInt8) :
    firstHash entry username lines = some hash ↔ FirstEntry Entry lines username hash := by
  induction lines with
  | nil =>
      refine iff_of_false (by simp [firstHash]) ?_
      rintro ⟨before, line, after, h, -⟩
      simp at h
  | cons line lines ih =>
      rw [firstEntry_cons, ← hentry, ← ih]
      by_cases hline : ∃ h, entry line = some (username, h)
      · -- the loop ends on this line
        obtain ⟨h, hline⟩ := hline
        have hfirst : firstHash entry username (line :: lines) = some h := by
          rw [firstHash, hline]
          exact if_pos rfl
        have hnone : ¬ ∀ h, ¬ Entry username h line := fun hnot => hnot h ((hentry _ _ _).mp hline)
        rw [hfirst, hline, or_iff_left fun hright => hnone hright.1]
        simp
      · -- the line is of another user or of none
        have hnext : firstHash entry username (line :: lines) = firstHash entry username lines := by
          rw [firstHash]
          rcases e : entry line with - | ⟨user, h⟩
          · rfl
          · refine if_neg ?_
            rintro rfl
            exact hline ⟨h, e⟩
        have hnot : ∀ h, ¬ Entry username h line :=
          fun h hl => hline ⟨h, (hentry _ _ _).mpr hl⟩
        rw [hnext, or_iff_right fun hleft => hline ⟨hash, hleft⟩, and_iff_right hnot]

theorem userEntry_eq_some_iff (line user hash : List UInt8) :
    userEntry line = some (user, hash) ↔ DashboardEntry user hash line := by
  unfold userEntry
  dsimp only
  constructor
  · intro h
    split at h
    · cases h
    · rename_i hkeep
      rw [not_or] at hkeep
      obtain ⟨hsplit, huser⟩ := strchr_eq_some h
      exact ⟨hsplit, huser, hkeep.1⟩
  · rintro ⟨hshape, huser, hcomment⟩
    have hne : trim line ≠ [] := by simp [hshape]
    rw [if_neg (not_or.mpr ⟨hcomment, hne⟩), hshape]
    exact strchr_append huser

theorem loginEntry_eq_some_iff (line user hash : List UInt8) :
    loginEntry line = some (user, hash) ↔ ReceiverEntry user hash line := by
  have hcolon : ∀ c, c ∈ str ":" ↔ c = ch ':' := by simp [str]
  unfold loginEntry
  constructor
  · intro h
    rcases hfirst : strtokNext (str ":") (cstr line) with - | ⟨userPart, rest⟩
    · rw [hfirst] at h
      cases h
    · rw [hfirst] at h
      dsimp only at h
      rcases hsecond : strtokNext hashDelims rest with - | ⟨hashPart, left⟩
      · rw [hsecond] at h
        cases h
      · rw [hsecond] at h
        obtain ⟨rfl, rfl⟩ := Prod.mk.inj (Option.some.inj h)
        obtain ⟨⟨hne, huser⟩, colons, hcolons, hline⟩ := strtokNext_eq_some_iff.mp hfirst
        obtain ⟨hhash, gap, hgap, hrest⟩ := strtokNext_eq_some_iff.mp hsecond
        obtain ⟨tail, rfl, htail⟩ : ∃ tail, rest = gap ++ (hashPart ++ tail) ∧
            ∀ c ∈ tail.head?, c ∈ hashDelims := by
          rcases hrest with ⟨rfl, -⟩ | ⟨d, hd, rfl⟩
          · exact ⟨[], by simp, by simp⟩
          · exact ⟨d :: left, rfl, by simpa using hd⟩
        rcases hline with ⟨-, hnil⟩ | ⟨d, hd, hline⟩
        · -- no colon behind the name, so nothing is left for the hash
          obtain ⟨-, hnil⟩ := List.append_eq_nil_iff.mp hnil
          exact absurd (List.append_eq_nil_iff.mp hnil).1 hhash.1
        · obtain rfl := (hcolon d).mp hd
          exact ⟨⟨colons, gap, tail, hline, fun c hc => (hcolon c).mp (hcolons c hc), hgap, htail⟩,
            ⟨hne, fun hmem => huser _ hmem ((hcolon _).mpr rfl)⟩, hhash⟩
  · rintro ⟨⟨colons, gap, tail, hline, hcolons, hgap, htail⟩, ⟨hne, huser⟩, hhash⟩
    have hname : ∀ c ∈ user, c ∉ str ":" := by
      intro c hc hmem
      rw [(hcolon c).mp hmem] at hc
      exact huser hc
    have hfirst : strtokNext (str ":") (cstr line) = some (user, gap ++ (hash ++ tail)) :=
      strtokNext_eq_some_iff.mpr ⟨⟨hne, hname⟩, colons, fun c hc => (hcolon c).mpr (hcolons c hc),
        Or.inr ⟨ch ':', (hcolon _).mpr rfl, hline⟩⟩
    have hsecond : strtokNext hashDelims (gap ++ (hash ++ tail)) = some (hash, tail.drop 1) := by
      refine strtokNext_eq_some_iff.mpr ⟨hhash, gap, hgap, ?_⟩
      cases tail with
      | nil => exact Or.inl ⟨by rw [List.append_nil], rfl⟩
      | cons d tail => exact Or.inr ⟨d, htail d rfl, rfl⟩
    rw [hfirst]
    dsimp only
    rw [hsecond]

/-- The lines of a file that `fgets` reads whole. -/
theorem fileLines_of_short {n : Nat} (hn : 0 < n) {file : List UInt8}
    (h : ∀ line ∈ textLines file, line.length ≤ n) : fileLines n file = textLines file := by
  have hpieces := pieces_take_textLines n (textLines file).length file
  rw [List.take_length, flatten_textLines] at hpieces
  rw [fileLines_eq_pieces hn, hpieces]
  have hsingle : ∀ line ∈ textLines file, pieces n line = [line] := by
    intro line hline
    obtain ⟨hne, hnl⟩ := mem_textLines hline
    exact pieces_of_fits hne hnl (h line hline)
  rw [List.flatMap_congr hsingle, List.flatMap_singleton']

/-- **Logins.**  On a file with lines of less than 255 bytes the two checks
accept the same passwords of a user, whatever `crypt` does, exactly if the first
entry of the user for the receiver is the first one for the dashboard. -/
theorem logins_agree_iff (file username : List UInt8)
    (hlines : ∀ line ∈ textLines file, (line.takeWhile (· ≠ nl)).length < 255) :
    (∀ accepts password, authVerifyLogin accepts file username password = true ↔
        verifyUser accepts file username password = true) ↔
      ∀ hash, FirstEntry ReceiverEntry (textLines file) username hash ↔
        FirstEntry DashboardEntry (readLines false [] file) username hash := by
  have hfile : fileLines 255 file = textLines file := by
    refine fileLines_of_short (by decide) fun line hline => ?_
    obtain ⟨hne, hnl⟩ := mem_textLines hline
    have hbody : line.dropLast.length ≤ (line.takeWhile (· ≠ nl)).length := by
      have hkeep : ∀ b ∈ line.dropLast, decide (b ≠ nl) = true :=
        fun b hb => decide_eq_true fun e => hnl (e ▸ hb)
      conv_rhs => rw [← List.dropLast_append_getLast hne, List.takeWhile_append_of_pos hkeep]
      simp
    have hlen := hlines line hline
    rw [List.length_dropLast] at hbody
    omega
  simp only [← firstHash_eq_some_iff loginEntry_eq_some_iff,
    ← firstHash_eq_some_iff userEntry_eq_some_iff, ← hfile]
  constructor
  · intro h hash
    -- a check that accepts this hash only
    have hsame := h (fun _ x => x = hash) []
    have haccepts : ∀ found : Option (List UInt8),
        (match found with | some x => decide (x = hash) | none => false) = true ↔
          found = some hash := by
      intro found
      cases found <;> simp
    unfold authVerifyLogin verifyUser at hsame
    rwa [haccepts, haccepts] at hsame
  · intro h accepts password
    have hsame : firstHash loginEntry username (fileLines 255 file)
        = firstHash userEntry username (readLines false [] file) := Option.ext h
    rw [authVerifyLogin, verifyUser, hsame]

/-- The hash in soc-config/users.conf. -/
def defaultHash : List UInt8 := str "$2a$10$vI8aWBnW3fID.1FlF/i4m.H/eafjqyypbkQJCgFBGDAvVBHWbSXrm"

/-- It is a hash of "password". -/
def acceptsDefault (password hash : List UInt8) : Bool :=
  password = str "password" ∧ hash = defaultHash

/-- A comment and an account in the documented format. -/
theorem logins_agree_on_account :
    let file := str "# SOC Server Users\nadmin:" ++ defaultHash ++ [nl]
    authVerifyLogin acceptsDefault file (str "admin") (str "password") = true ↔
      verifyUser acceptsDefault file (str "admin") (str "password") = true := by
  intro file
  have hshort : ∀ line ∈ textLines file, (line.takeWhile (· ≠ nl)).length < 255 := by decide
  refine (logins_agree_iff file (str "admin") hshort).mpr (fun hash => ?_) _ _
  have hsame : firstHash loginEntry (str "admin") (textLines file)
      = firstHash userEntry (str "admin") (readLines false [] file) := by decide
  rw [← firstHash_eq_some_iff loginEntry_eq_some_iff,
    ← firstHash_eq_some_iff userEntry_eq_some_iff, hsame]

/-- An account that is commented out can be used at the receiver, under its
name with the `#`. -/
theorem commented_account_logs_in :
    let file := str "#admin:" ++ defaultHash ++ [nl]
    (∀ line ∈ textLines file, (line.takeWhile (· ≠ nl)).length < 255) ∧
      authVerifyLogin acceptsDefault file (str "#admin") (str "password") = true ∧
      verifyUser acceptsDefault file (str "#admin") (str "password") = false := by
  decide

end Nullsploit
