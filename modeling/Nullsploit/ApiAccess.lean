/-
Nullsploit/ApiAccess.lean

Who may use the API.  `handle_api_request` checks the cookie's token once, lets
the paths for live alerts through without it, and then goes down its routes.

`no_api_effect_without_session`: without a good token in the cookie nothing
behind the routes is reached, since no other route shares a path with the live
alerts.  `live_access_by_own_token_iff` is about the live alerts themselves,
whose handler looks for a second token in the path: it may find the parameter
but no text, and then verifies a buffer it has not written to.
-/
import Nullsploit.HttpApi
import Nullsploit.Session

namespace Nullsploit

open CText

/-! ### Handlers with the sessions of the server -/

/-- `sizeof(authenticated_user)`. -/
def authenticatedUserSize : Nat := 128

/-- `sizeof(session_token)` in the login. -/
def sessionTokenSize : Nat := 512

/-- What the handlers learn about tokens comes from `auth_verify_session_token`
and `auth_generate_session_token`. -/
def ApiEnv.withSessions (env : ApiEnv) (hmac : Hmac) (now : TimeT) : ApiEnv :=
  { env with
    verifySessionToken := fun token =>
      (authVerifySessionToken hmac now token authenticatedUserSize).isSome
    sessionToken := fun user => authGenerateSessionToken hmac now user sessionTokenSize }

/-- The token is accepted at this time. -/
def Accepted (hmac : Hmac) (now : TimeT) (token : List UInt8) : Prop :=
  authVerifySessionToken hmac now token authenticatedUserSize ≠ none

/-- The cookie carries a token that is accepted. -/
def CookieAccepted (hmac : Hmac) (now : TimeT) (r : HttpRequest) : Prop :=
  ∃ cookie token, r.cookie = some cookie ∧ cookieToken cookie = some token ∧
    Accepted hmac now token

theorem verifySessionToken_withSessions (env : ApiEnv) {hmac : Hmac} {now : TimeT}
    {token : List UInt8} :
    (env.withSessions hmac now).verifySessionToken token = true ↔ Accepted hmac now token :=
  Option.isSome_iff_ne_none

theorem cookieOk_withSessions (env : ApiEnv) {hmac : Hmac} {now : TimeT} {r : HttpRequest} :
    (env.withSessions hmac now).cookieOk r = true ↔ CookieAccepted hmac now r := by
  unfold ApiEnv.cookieOk CookieAccepted
  rcases r.cookie with - | cookie
  · simp
  · dsimp only
    rcases htoken : cookieToken cookie with - | token
    · simp [htoken]
    · dsimp only
      rw [verifySessionToken_withSessions]
      simp [htoken]

/-! ### Nothing without a session -/

/-- Effects outside the connection of the request. -/
def ApiEffect.Reaches : ApiEffect → Prop
  | .db _ => True
  | .sendCommand _ _ _ => True
  | .feedFetch => True
  | .respond _ => False
  | .sseAdd => False

theorem not_reaches_respond (r : Response) : ∀ e ∈ [ApiEffect.respond r], ¬ e.Reaches := by
  intro e he
  obtain rfl := List.mem_singleton.mp he
  exact id

theorem not_reaches_ite {c : Prop} [Decidable c] {l m : List ApiEffect}
    (hl : ∀ e ∈ l, ¬ e.Reaches) (hm : ∀ e ∈ m, ¬ e.Reaches) :
    ∀ e ∈ if c then l else m, ¬ e.Reaches := by
  split
  · exact hl
  · exact hm

theorem not_reaches_handleLive (env : ApiEnv) (r : HttpRequest) :
    ∀ e ∈ handleLive env r, ¬ e.Reaches := by
  unfold handleLive
  apply not_reaches_ite
  · intro e he
    obtain rfl := List.mem_singleton.mp he
    exact id
  · exact not_reaches_respond _

theorem not_reaches_handleLogin (env : ApiEnv) (body : List UInt8) :
    ∀ e ∈ handleLogin env body, ¬ e.Reaches := by
  unfold handleLogin
  apply not_reaches_ite
  · exact not_reaches_respond _
  · exact not_reaches_respond _

/-- Without a good cookie, whatever the rest of the request. -/
theorem not_reaches_of_cookie (env : ApiEnv) {r : HttpRequest} (h : env.cookieOk r = false) :
    ∀ e ∈ handleApiRequest env r, ¬ e.Reaches := by
  unfold handleApiRequest
  split
  · exact not_reaches_respond _
  split
  · exact not_reaches_handleLogin env r.body
  split
  · exact not_reaches_respond _
  rename_i hpath
  -- past the check, so the path is one for live alerts
  have hlive : livePath <+: r.path := by
    by_contra hno
    exact hpath ⟨h, hno⟩
  rw [routeRequest_of_live env hlive]
  apply not_reaches_ite
  · exact not_reaches_handleLive env r
  · exact not_reaches_respond _

/-- **No effect without a session.**  A request whose cookie carries no token
that is accepted calls no database function, sends no command and fetches no
feed, whatever its method, path and body. -/
theorem no_api_effect_without_session (hmac : Hmac) (now : TimeT) (env : ApiEnv) (r : HttpRequest)
    (h : ¬ CookieAccepted hmac now r) :
    ∀ e ∈ handleApiRequest (env.withSessions hmac now) r, ¬ e.Reaches := by
  apply not_reaches_of_cookie
  rw [← Bool.not_eq_true, cookieOk_withSessions]
  exact h

/-- A server without users, agents or data. -/
def bareEnv : ApiEnv where
  verifySessionToken _ := false
  verifyLogin _ _ := false
  sessionToken _ := []
  dbOk _ := false
  dbJson _ := []
  commandOk _ _ _ := false
  junk := []

/-- A change of the configuration, without a cookie. -/
def strangerRequest : HttpRequest :=
  ⟨str "POST", str "/api/v2/config", none, str "\x7b\"key\":\"block_local_ips\",\"value\":0\x7d"⟩

/-- It is turned away. -/
theorem stranger_changes_no_config :
    .db (.setConfig (str "block_local_ips") (str "0") [] (str "Updated via dashboard"))
      ∉ handleApiRequest (bareEnv.withSessions adminHmac 1700003600) strangerRequest := by
  intro hmem
  have hcookie : ¬ CookieAccepted adminHmac 1700003600 strangerRequest := by
    rintro ⟨cookie, token, hnone, -⟩
    cases hnone
  exact no_api_effect_without_session adminHmac 1700003600 bareEnv strangerRequest hcookie _ hmem
    trivial

/-! ### Live alerts -/

/-- The request is registered for live alerts, when `clean_token` begins with
these contents. -/
def Registered (hmac : Hmac) (now : TimeT) (env : ApiEnv) (junk : List UInt8) (r : HttpRequest) :
    Prop :=
  .sseAdd ∈ handleApiRequest (ApiEnv.withSessions { env with junk := junk } hmac now) r

/-- The text after the first "token=" in the path is an accepted token. -/
def PathAccepted (hmac : Hmac) (now : TimeT) (r : HttpRequest) : Prop :=
  ∃ p token rest, strstrFrom (str "token=") r.path = some p ∧
    scanWord 511 (p.drop 6) = some (token, rest) ∧ Accepted hmac now token

/-- The path has the parameter, without any text. -/
def EmptyParameter (r : HttpRequest) : Prop :=
  ∃ p, strstrFrom (str "token=") r.path = some p ∧ scanWord 511 (p.drop 6) = none

/-- Registration depends on the request's own token: it is the same whatever the
buffer held, and it takes a token in the cookie or in the path. -/
structure ByOwnToken (hmac : Hmac) (now : TimeT) (env : ApiEnv) (r : HttpRequest) : Prop where
  same : ∀ junk junk', Registered hmac now env junk r ↔ Registered hmac now env junk' r
  carries : ∀ junk, Registered hmac now env junk r →
    CookieAccepted hmac now r ∨ PathAccepted hmac now r

theorem pathTokenOk_withSessions (env : ApiEnv) {hmac : Hmac} {now : TimeT} {r : HttpRequest} :
    (env.withSessions hmac now).pathTokenOk r.path = true
      ↔ PathAccepted hmac now r ∨ EmptyParameter r ∧ Accepted hmac now env.junk := by
  unfold ApiEnv.pathTokenOk PathAccepted EmptyParameter
  rcases hp : strstrFrom (str "token=") r.path with - | p
  · simp
  · dsimp only
    rcases hword : scanWord 511 (p.drop 6) with - | ⟨token, rest⟩
    · dsimp only
      rw [verifySessionToken_withSessions]
      simp [hword, ApiEnv.withSessions]
    · dsimp only
      rw [verifySessionToken_withSessions]
      simp [hword]

theorem liveAccess_withSessions (env : ApiEnv) {hmac : Hmac} {now : TimeT} {r : HttpRequest} :
    LiveAccess (env.withSessions hmac now) r
      ↔ r.method = str "GET" ∧ livePath <+: r.path ∧
        (CookieAccepted hmac now r ∨ PathAccepted hmac now r ∨
          EmptyParameter r ∧ Accepted hmac now env.junk) := by
  rw [← cookieOk_withSessions env, ← pathTokenOk_withSessions env]
  exact ⟨fun h => ⟨h.method, h.path, h.authenticated⟩, fun h => ⟨h.1, h.2.1, h.2.2⟩⟩

/-- Three ways to be registered: a cookie, a token in the path, and a token left
in the buffer where the path has none. -/
theorem registered_iff {hmac : Hmac} {now : TimeT} (env : ApiEnv) {r : HttpRequest}
    (hlive : livePath <+: r.path) (junk : List UInt8) :
    Registered hmac now env junk r
      ↔ r.method = str "GET" ∧ (CookieAccepted hmac now r ∨ PathAccepted hmac now r ∨
          EmptyParameter r ∧ Accepted hmac now junk) := by
  have hapi : str "/api/" <+: r.path := List.IsPrefix.trans (by decide) hlive
  have haccess := sseAdd_mem_iff (ApiEnv.withSessions { env with junk := junk } hmac now)
    (fun _ => .missing) r
  rw [handleRequest, if_pos (Or.inl hapi)] at haccess
  refine (haccess.trans (liveAccess_withSessions _)).trans ?_
  exact and_congr_right fun _ => and_iff_right hlive

theorem not_pathAccepted_of_empty {hmac : Hmac} {now : TimeT} {r : HttpRequest}
    (h : EmptyParameter r) : ¬ PathAccepted hmac now r := by
  rintro ⟨p, token, rest, hp, hword, -⟩
  obtain ⟨p', hp', hnone⟩ := h
  obtain rfl := Option.some.inj (hp.symm.trans hp')
  rw [hnone] at hword
  cases hword

/-- **When live access depends on the request's own token.**  Exactly if it is
not the case that a GET without a good cookie has the parameter "token=" with no
text after it while some token is accepted. -/
theorem live_access_by_own_token_iff (hmac : Hmac) (now : TimeT) (env : ApiEnv) (r : HttpRequest)
    (hlive : livePath <+: r.path) :
    ByOwnToken hmac now env r
      ↔ (r.method = str "GET" → EmptyParameter r →
          CookieAccepted hmac now r ∨ ∀ token, ¬ Accepted hmac now token) := by
  constructor
  · intro h hget hempty
    by_cases hcookie : CookieAccepted hmac now r
    · exact Or.inl hcookie
    · -- any accepted token would do, left in the buffer
      refine Or.inr fun token htoken => ?_
      have hreg := (registered_iff env hlive token).mpr
        ⟨hget, Or.inr (Or.inr ⟨hempty, htoken⟩)⟩
      rcases h.carries token hreg with hcarried | hcarried
      · exact hcookie hcarried
      · exact not_pathAccepted_of_empty hempty hcarried
  · intro h
    have hown : ∀ junk, Registered hmac now env junk r
        ↔ r.method = str "GET" ∧ (CookieAccepted hmac now r ∨ PathAccepted hmac now r) := by
      intro junk
      rw [registered_iff env hlive]
      apply and_congr_right
      intro hget
      constructor
      · rintro (hcookie | hpath | ⟨hempty, hjunk⟩)
        · exact Or.inl hcookie
        · exact Or.inr hpath
        · exact Or.inl ((h hget hempty).resolve_right fun hnone => hnone junk hjunk)
      · exact Or.imp_right Or.inl
    refine ⟨fun junk junk' => ?_, fun junk hreg => ((hown junk).mp hreg).2⟩
    exact (hown junk).trans (hown junk').symm

/-- A request that carries the administrator's token in its path. -/
theorem admin_live_by_own_token :
    ByOwnToken adminHmac 1700003600 bareEnv
      ⟨str "GET", str "/api/events/live?token=" ++ adminToken, none, []⟩ := by
  refine (live_access_by_own_token_iff adminHmac 1700003600 bareEnv _ (by decide)).mpr ?_
  rintro - ⟨p, hp, hnone⟩
  have hword : (strstrFrom (str "token=") (str "/api/events/live?token=" ++ adminToken)).bind
      (fun p => scanWord 511 (p.drop 6)) ≠ none := by
    decide +kernel
  refine absurd ?_ hword
  rw [show strstrFrom (str "token=") (str "/api/events/live?token=" ++ adminToken) = some p from hp]
  exact hnone

/-- A request with the parameter and no token. -/
def emptyTokenRequest : HttpRequest := ⟨str "GET", str "/api/events/live?token=", none, []⟩

/-- What is left of the administrator's request opens the live alerts to one that
carries nothing. -/
theorem leftover_token_opens_live :
    Registered adminHmac 1700003600 bareEnv adminToken emptyTokenRequest ∧
      ¬ Registered adminHmac 1700003600 bareEnv [] emptyTokenRequest ∧
      ¬ ByOwnToken adminHmac 1700003600 bareEnv emptyTokenRequest := by
  have hleft : Registered adminHmac 1700003600 bareEnv adminToken emptyTokenRequest := by
    unfold Registered
    decide +kernel
  have hclean : ¬ Registered adminHmac 1700003600 bareEnv [] emptyTokenRequest := by
    unfold Registered
    decide +kernel
  exact ⟨hleft, hclean, fun h => hclean ((h.same _ _).mp hleft)⟩

end Nullsploit
