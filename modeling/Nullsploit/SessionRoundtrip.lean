/-
Nullsploit/SessionRoundtrip.lean

A session token on its way through the browser: printed by
`auth_generate_session_token`, sent back somewhere in a cookie header, cut out of
it by `handle_api_request` and taken apart by `auth_verify_session_token`
(soc-server/auth.c, soc_receiver.c).

`sessionFields_token` says that the parser gets back what the printer was given,
and `cookieToken_append` that the extractor gets back the token.  Together they
leave the expiry as the only reason to refuse an issued token
(`issued_tokens_accepted_until_expiry`).
-/
import Nullsploit.ApiAccess

namespace Nullsploit

open CText HexText

/-! ### What the parser gets back -/

theorem atoll_decimalInt (t : TimeT) : atoll (decimalInt t.toInt) = t := by
  have hlt := BitVec.toInt_lt (x := t)
  have hge := BitVec.le_toInt (x := t)
  rw [atoll, strtol_decimalInt hge hlt, BitVec.ofInt_toInt]

theorem not_mem_hmacHex {c : UInt8} (hc : hexVal c = none) (hmac : Hmac) (message : List UInt8) :
    c ∉ hmacHex hmac message := by
  intro h
  obtain ⟨d, hd, rfl⟩ := mem_hexText h
  rw [(hexDigit_spec hd).1] at hc
  cases hc

theorem length_hmacHex (hmac : Hmac) (message : List UInt8) :
    (hmacHex hmac message).length = 64 := by
  rw [hmacHex, length_hexText, Vector.length_toList]

namespace SessionIssue

variable (hmac : Hmac) (i : SessionIssue)

/-- The token as it is printed. -/
def token : List UInt8 := authGenerateSessionToken hmac i.now i.user.name sessionTokenSize

/-- It fits, and nothing of it is cut off. -/
theorem token_eq :
    i.token hmac = i.user.name ++ ch ':' :: (decimalInt i.expiry.toInt ++
      ch ':' :: hmacHex hmac (sessionMessage i.user.name i.expiry)) := by
  have hlen := i.user.short
  have hdigits := length_decimalInt_toInt i.expiry
  unfold token authGenerateSessionToken
  rw [cstr_of_not_mem i.user.zero_not_mem]
  apply List.take_of_length_le
  show (_ ++ ch ':' :: (decimalInt i.expiry.toInt ++ ch ':' :: _)).length ≤ 511
  rw [List.length_append, List.length_cons, List.length_append, List.length_cons, length_hmacHex]
  omega

theorem length_token_le : (i.token hmac).length ≤ 511 := List.length_take_le _ _

/-- A byte that is not in the name nor in what is printed behind it. -/
theorem not_mem_token {c : UInt8} (hname : c ∉ i.user.name) (hcolon : c ≠ ch ':')
    (hdash : c ≠ ch '-') (hdigit : isDigit c = false) (hhex : hexVal c = none) :
    c ∉ i.token hmac := by
  rw [token_eq]
  simp only [List.mem_append, List.mem_cons, not_or]
  exact ⟨hname, hcolon, not_mem_decimalInt hdash hdigit _, hcolon, not_mem_hmacHex hhex hmac _⟩

/-- The three calls of `strtok` find the three fields. -/
theorem sessionFields_token :
    sessionFields (i.token hmac) = some ⟨i.user.name, decimalInt i.expiry.toInt,
      hmacHex hmac (sessionMessage i.user.name i.expiry)⟩ := by
  have htext : (cstr (i.token hmac)).take 511 = i.token hmac := by
    rw [cstr_of_not_mem (i.not_mem_token hmac i.user.zero_not_mem (by decide) (by decide)
      (by decide) (by decide)), List.take_of_length_le (i.length_token_le hmac)]
  have hcolon : ∀ f : List UInt8, ch ':' ∉ f → ∀ c ∈ f, c ∉ [ch ':'] := by
    intro f hf c hc hmem
    obtain rfl := List.mem_singleton.mp hmem
    exact hf hc
  have hname := strtokNext_append i.user.nonempty (hcolon _ i.user.colon_not_mem)
    (List.mem_singleton_self (ch ':')) (decimalInt i.expiry.toInt ++
      ch ':' :: hmacHex hmac (sessionMessage i.user.name i.expiry))
  have hexpiry := strtokNext_append (decimalInt_ne_nil i.expiry.toInt)
    (hcolon _ (not_mem_decimalInt (by decide) (by decide) _)) (List.mem_singleton_self (ch ':'))
    (hmacHex hmac (sessionMessage i.user.name i.expiry))
  -- the third field is taken up to a blank, and there is none
  have hblank : ∀ c ∈ str " \t\r\n", hexVal c = none := by decide +kernel
  have hne : hmacHex hmac (sessionMessage i.user.name i.expiry) ≠ [] := by
    rw [ne_eq, ← List.length_eq_zero_iff, length_hmacHex]
    decide
  have hdigest := strtokNext_last hne
    (fun c hc hmem => not_mem_hmacHex (hblank c hmem) hmac _ hc)
  rw [sessionFields, htext, token_eq, hname]
  dsimp only [Option.bind_eq_bind, Option.bind_some]
  rw [hexpiry]
  dsimp only [Option.bind_some]
  rw [hdigest]
  rfl

/-- Before the expiry the verifier reports the name, from then on nothing. -/
theorem authVerifySessionToken_token (now : TimeT) {maxLen : Nat} (hmax : 64 ≤ maxLen) :
    authVerifySessionToken hmac now (i.token hmac) maxLen
      = if now.toInt < i.expiry.toInt then some i.user.name else none := by
  have hshort := i.user.short
  rw [authVerifySessionToken, sessionFields_token]
  dsimp only
  rw [atoll_decimalInt, if_neg (not_not.mpr rfl), List.take_of_length_le (by omega)]
  by_cases hnow : now.toInt < i.expiry.toInt
  · rw [if_neg (not_le.mpr hnow), if_pos hnow]
  · rw [if_pos (not_lt.mp hnow), if_neg hnow]

end SessionIssue

/-! ### The way through the cookie -/

/-- The text of a cookie header with the token right after the first
`session_token=`, up to the end or to a semicolon. -/
def TokenCookie (token cookie : List UInt8) : Prop :=
  ∃ front tail, cookie = front ++ (str "session_token=" ++ (token ++ tail)) ∧
    ¬ str "session_token=" <:+: front ∧ (tail = [] ∨ ∃ rest, tail = ch ';' :: rest)

/-- `handle_api_request` cuts out the token. -/
theorem cookieToken_of_tokenCookie {token cookie : List UInt8} (hsemicolon : ch ';' ∉ token)
    (hlen : token.length ≤ 511) (h : TokenCookie token cookie) :
    cookieToken cookie = some token := by
  obtain ⟨front, tail, rfl, hfront, htail⟩ := h
  have hdrop : (str "session_token=" ++ (token ++ tail)).drop 14 = token ++ tail :=
    List.drop_left' (by decide)
  rw [cookieToken, strstrFrom_append (by decide) (by decide) hfront]
  dsimp only
  rw [hdrop]
  -- both branches of the extractor have room for the whole token
  rcases htail with rfl | ⟨rest, rfl⟩
  · rw [List.append_nil, strchr_eq_none_iff.mpr hsemicolon]
    dsimp only
    rw [List.take_of_length_le hlen]
  · rw [strchr_append hsemicolon]
    dsimp only
    rw [List.take_of_length_le hlen]

/-- `authenticated_user` after the look at the cookie, if `auth_ok` is 0. -/
def authenticatedUser (hmac : Hmac) (now : TimeT) (r : HttpRequest) : Option (List UInt8) := do
  let cookie ← r.cookie
  let token ← cookieToken cookie
  authVerifySessionToken hmac now token authenticatedUserSize

/-- The routes know only whether there is one. -/
theorem cookieOk_withSessions_eq (env : ApiEnv) (hmac : Hmac) (now : TimeT) (r : HttpRequest) :
    (env.withSessions hmac now).cookieOk r = (authenticatedUser hmac now r).isSome := by
  unfold ApiEnv.cookieOk authenticatedUser
  rcases r.cookie with - | cookie
  · rfl
  · dsimp only [Option.bind_eq_bind, Option.bind_some]
    rcases cookieToken cookie with - | token
    · rfl
    · rfl

/-! ### Sessions -/

/-- The expiry of a token, as long as it is a `time_t`. -/
theorem SessionIssue.toInt_expiry (i : SessionIssue) (h : i.now.toInt + 28800 < 2 ^ 63) :
    i.expiry.toInt = i.now.toInt + 28800 := by
  have hge := BitVec.le_toInt (x := i.now)
  have hseconds : sessionSeconds.toInt = 28800 := by decide
  rw [SessionIssue.expiry, BitVec.toInt_add, hseconds]
  apply Int.bmod_eq_of_le
  · show -(((2 ^ 64 : Nat) : Int) / 2) ≤ _
    omega
  · show _ < (((2 ^ 64 : Nat) : Int) + 1) / 2
    omega

/-- **An issued token is good until it expires.**  Sent back in a cookie, it lets a
request through as a request of its user for eight hours, and then no more. -/
theorem issued_tokens_accepted_until_expiry (hmac : Hmac) (user : SessionUser)
    (hsemicolon : ch ';' ∉ user.name) (issued now : TimeT)
    -- the expiry is a `time_t`
    (hexpiry : issued.toInt + 28800 < 2 ^ 63) (r : HttpRequest) {cookie : List UInt8}
    (hcookie : r.cookie = some cookie)
    (htoken : TokenCookie (authGenerateSessionToken hmac issued user.name sessionTokenSize) cookie)
    (env : ApiEnv) :
    authenticatedUser hmac now r
        = (if now.toInt < issued.toInt + 28800 then some user.name else none) ∧
      ((env.withSessions hmac now).cookieOk r = true ↔ now.toInt < issued.toInt + 28800) := by
  let i : SessionIssue := ⟨user, issued⟩
  have hextracted := cookieToken_of_tokenCookie (i.not_mem_token hmac hsemicolon (by decide)
    (by decide) (by decide) (by decide)) (i.length_token_le hmac) htoken
  have huser : authenticatedUser hmac now r
      = if now.toInt < issued.toInt + 28800 then some user.name else none := by
    rw [authenticatedUser, hcookie]
    show (cookieToken cookie).bind _ = _
    rw [hextracted]
    show authVerifySessionToken hmac now (i.token hmac) authenticatedUserSize = _
    rw [i.authVerifySessionToken_token hmac now (by decide), i.toInt_expiry hexpiry]
  refine ⟨huser, ?_⟩
  rw [cookieOk_withSessions_eq, huser]
  split
  · rename_i hnow
    exact ⟨fun _ => hnow, fun _ => rfl⟩
  · rename_i hnow
    exact ⟨fun h => absurd h (by decide), fun h => absurd h hnow⟩

/-- A request with the token of `adminSession` between two other cookies. -/
def adminCookieRequest : HttpRequest where
  method := str "GET"
  path := str "/api/stats"
  cookie := some (str "theme=dark; " ++ (str "session_token=" ++ (adminToken ++ str "; lang=en")))
  body := []

/-- An hour after the login it is a request of "admin". -/
theorem admin_cookie_accepted :
    authenticatedUser adminHmac 1700003600 adminCookieRequest = some (str "admin") ∧
      (bareEnv.withSessions adminHmac 1700003600).cookieOk adminCookieRequest = true := by
  have htoken : TokenCookie adminToken _ :=
    ⟨str "theme=dark; ", str "; lang=en", rfl, by decide, Or.inr ⟨str " lang=en", by decide⟩⟩
  have h := issued_tokens_accepted_until_expiry adminHmac adminSession.user (by decide) 1700000000
    1700003600 (by decide) adminCookieRequest rfl htoken bareEnv
  have hnow : (1700003600 : TimeT).toInt < (1700000000 : TimeT).toInt + 28800 := by decide
  rw [if_pos hnow] at h
  exact ⟨h.1, h.2.mpr hnow⟩

end Nullsploit
