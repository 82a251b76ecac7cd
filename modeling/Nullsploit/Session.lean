/-
Nullsploit/Session.lean

Session tokens of the SOC server (soc-server/auth.c).  A token is
"username:expiry:digest", the digest an HMAC of "username:expiry".

The verifier splits the text it gets with `strtok`, which joins delimiters,
reads the expiry with `atoll`, which takes blanks, signs and leading zeros, and
prints both again into a buffer of 256 bytes before it computes the digest.
`sessionMessage_inj` says that for the messages the server signs none of this
matters: they are short, so the same text can only come from the same name and
the same expiry.  `session_tokens_unforgeable` follows for an ideal HMAC.
-/
import Nullsploit.CText
import Nullsploit.HexText

namespace Nullsploit

open CText HexText

/-! ### Making tokens -/

/-- `time_t`, a signed number of seconds. -/
abbrev TimeT := BitVec 64

/-- HMAC-SHA256 under `session_secret`. -/
abbrev Hmac := List UInt8 → Vector UInt8 32

/-- A session lasts eight hours. -/
def sessionSeconds : TimeT := 8 * 3600

/-- The text that is signed: `snprintf(message, 256, "%s:%lld", username, expiry)`. -/
def sessionMessage (username : List UInt8) (expiry : TimeT) : List UInt8 :=
  (username ++ ch ':' :: decimalInt expiry.toInt).take 255

/-- The digest of a message in hexadecimal. -/
def hmacHex (hmac : Hmac) (message : List UInt8) : List UInt8 := hexText (hmac message).toList

/-- `auth_generate_session_token`, into a buffer of `maxLen` bytes. -/
def authGenerateSessionToken (hmac : Hmac) (now : TimeT) (username : List UInt8) (maxLen : Nat) :
    List UInt8 :=
  let expiry := now + sessionSeconds
  let message := sessionMessage (cstr username) expiry
  (cstr username ++ ch ':' :: (decimalInt expiry.toInt ++ ch ':' :: hmacHex hmac message)).take
    (maxLen - 1)

/-! ### Verifying tokens -/

/-- `atoll`. -/
def atoll (s : List UInt8) : BitVec 64 := BitVec.ofInt 64 (strtol s)

/-- What the three calls of `strtok` return. -/
structure SessionFields where
  username : List UInt8
  expiryStr : List UInt8
  tokenHmac : List UInt8

/-- The fields in `token_copy`, the first 511 bytes of the token; the last one
ends at a blank. -/
def sessionFields (token : List UInt8) : Option SessionFields := do
  let (username, rest) ← strtokNext [ch ':'] ((cstr token).take 511)
  let (expiryStr, rest) ← strtokNext [ch ':'] rest
  let (tokenHmac, _) ← strtokNext (str " \t\r\n") rest
  return ⟨username, expiryStr, tokenHmac⟩

/-- `auth_verify_session_token`: the name it reports into a buffer of `maxLen`
bytes, or -1. -/
def authVerifySessionToken (hmac : Hmac) (now : TimeT) (token : List UInt8) (maxLen : Nat) :
    Option (List UInt8) :=
  match sessionFields token with
  | none => none
  | some fields =>
      let expiry := atoll fields.expiryStr
      if expiry.toInt ≤ now.toInt then none
      else if hmacHex hmac (sessionMessage fields.username expiry) ≠ fields.tokenHmac then none
      else some (fields.username.take (maxLen - 1))

/-! ### What was signed -/

/-- A name that tokens are made for. -/
structure SessionUser where
  name : List UInt8
  nonempty : name ≠ []
  short : name.length < 64
  colon_not_mem : ch ':' ∉ name
  zero_not_mem : (0 : UInt8) ∉ name

/-- A call of `auth_generate_session_token`. -/
structure SessionIssue where
  user : SessionUser
  now : TimeT

/-- The expiry it puts into the token. -/
def SessionIssue.expiry (i : SessionIssue) : TimeT := i.now + sessionSeconds

/-- The message it signs. -/
def SessionIssue.message (i : SessionIssue) : List UInt8 :=
  sessionMessage (cstr i.user.name) i.expiry

/-- An ideal HMAC: the digest in the token is that of a message only if the
message was signed. -/
def Unforged (hmac : Hmac) (issued : List SessionIssue) (token : List UInt8) : Prop :=
  ∀ fields, sessionFields token = some fields →
    ∀ message, hmacHex hmac message = fields.tokenHmac → ∃ i ∈ issued, i.message = message

/-! ### One message, one name and expiry -/

theorem length_decimalInt_toInt (t : TimeT) : (decimalInt t.toInt).length ≤ 20 := by
  apply length_decimalInt_le (by decide)
  have hlt := BitVec.two_mul_toInt_lt (x := t)
  have hge := BitVec.le_two_mul_toInt (x := t)
  omega

/-- The name in a token has no colon. -/
theorem colon_not_mem_username {token : List UInt8} {fields : SessionFields}
    (h : sessionFields token = some fields) : ch ':' ∉ fields.username := by
  obtain ⟨⟨username, rest⟩, hname, h⟩ := Option.bind_eq_some_iff.mp h
  obtain ⟨⟨expiryStr, rest'⟩, -, h⟩ := Option.bind_eq_some_iff.mp h
  obtain ⟨⟨tokenHmac, rest''⟩, -, h⟩ := Option.bind_eq_some_iff.mp h
  obtain rfl := Option.some.inj h
  intro hmem
  exact not_mem_of_strtokNext hname _ hmem (List.mem_singleton_self _)

/-- A message about a short name is like no other: not one about a longer name
that was cut, nor one with another expiry. -/
theorem sessionMessage_inj {u v : List UInt8} {s t : TimeT} (hu : ch ':' ∉ u) (hv : ch ':' ∉ v)
    (hshort : u.length < 64) (h : sessionMessage u s = sessionMessage v t) : u = v ∧ s = t := by
  have hlen : (u ++ ch ':' :: decimalInt s.toInt).length < 255 := by
    have hdigits := length_decimalInt_toInt s
    rw [List.length_append, List.length_cons]
    omega
  unfold sessionMessage at h
  rw [List.take_of_length_le hlen.le] at h
  -- shorter than the buffer, so the other one was not cut either
  have hlen' : (v ++ ch ':' :: decimalInt t.toInt).length < 255 := by
    have htake := congrArg List.length h
    rw [List.length_take] at htake
    omega
  rw [List.take_of_length_le hlen'.le] at h
  have hsplit := congrArg (strchr (ch ':')) h
  rw [strchr_append hu, strchr_append hv] at hsplit
  obtain ⟨rfl, hexpiry⟩ := Prod.mk.inj (Option.some.inj hsplit)
  exact ⟨rfl, BitVec.eq_of_toInt_eq (decimalInt_injective hexpiry)⟩

/-! ### Sessions -/

/-- **Tokens cannot be forged.**  With an ideal HMAC, a token is accepted only if
it was issued to the name that is reported, and has not expired. -/
theorem session_tokens_unforgeable (hmac : Hmac) (issued : List SessionIssue) (token : List UInt8)
    (now : TimeT) {maxLen : Nat} (hmax : 64 ≤ maxLen) (hideal : Unforged hmac issued token)
    {username : List UInt8} (h : authVerifySessionToken hmac now token maxLen = some username) :
    ∃ i ∈ issued, i.user.name = username ∧ now.toInt < i.expiry.toInt := by
  unfold authVerifySessionToken at h
  rcases hfields : sessionFields token with - | fields
  · rw [hfields] at h
    cases h
  rw [hfields] at h
  dsimp only at h
  split at h
  · cases h
  rename_i hexpiry
  split at h
  · cases h
  rename_i hdigest
  obtain rfl := Option.some.inj h
  obtain ⟨i, hi, hmessage⟩ := hideal fields hfields _ (not_not.mp hdigest)
  have hname : cstr i.user.name = i.user.name := cstr_of_not_mem i.user.zero_not_mem
  rw [SessionIssue.message, hname] at hmessage
  obtain ⟨hsame, hsameExpiry⟩ := sessionMessage_inj i.user.colon_not_mem
    (colon_not_mem_username hfields) i.user.short hmessage
  refine ⟨i, hi, ?_, ?_⟩
  · rw [← hsame, List.take_of_length_le]
    have hshort := i.user.short
    omega
  · rw [hsameExpiry]
    exact not_le.mp hexpiry

/-- A session of the user "admin", opened at some time in 2023. -/
def adminSession : SessionIssue where
  user := ⟨str "admin", by decide, by decide, by decide, by decide⟩
  now := 1700000000

/-- A digest that only the message of that session has. -/
def adminHmac : Hmac := fun message =>
  if message = adminSession.message then Vector.replicate 32 171 else Vector.replicate 32 0

/-- The token of the session. -/
def adminToken : List UInt8 := authGenerateSessionToken adminHmac 1700000000 (str "admin") 512

/-- An hour later it is still good. -/
theorem admin_session_verified :
    authVerifySessionToken adminHmac 1700003600 adminToken 128 = some (str "admin") ∧
      ∃ i ∈ [adminSession], i.user.name = str "admin" ∧
        (1700003600 : TimeT).toInt < i.expiry.toInt := by
  have hverify : authVerifySessionToken adminHmac 1700003600 adminToken 128
      = some (str "admin") := by
    decide +kernel
  have hdigest : (sessionFields adminToken).map SessionFields.tokenHmac
      = some (hexText (List.replicate 32 171)) := by
    decide +kernel
  refine ⟨hverify, session_tokens_unforgeable adminHmac [adminSession] _ _ (by decide) ?_ hverify⟩
  intro fields hfields message hmessage
  rw [hfields] at hdigest
  by_cases hsigned : message = adminSession.message
  · exact ⟨adminSession, List.mem_singleton_self _, hsigned.symm⟩
  · -- every other message has the digest of zeros
    rw [hmacHex, adminHmac, if_neg hsigned, Option.some.inj hdigest] at hmessage
    exact absurd hmessage (by decide)

end Nullsploit
