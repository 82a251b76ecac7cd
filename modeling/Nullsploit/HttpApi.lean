/-
Nullsploit/HttpApi.lean

The HTTP side of the receiver (soc-server/soc_receiver.c): how the bytes of a
web connection become a request (`parseRequest`), and what `handle_api_request`
and `serve_static_file` do with it.

A handler is a list of effects in the order the code has them: responses,
database calls, commands to agents, the fetch of a feed, and the registration
for live alerts.  What others decide (whether a token or a login is valid, what
the database returns, whether an agent takes a command) is in `ApiEnv`.

`sseAdd_mem_iff` says which requests are registered for live alerts: those
whose path starts with /api/events/live and that are authenticated.
-/
import Nullsploit.Protocol
import Nullsploit.HexText
import Nullsploit.Inet

namespace Nullsploit

open CText Inet Bytes HexText

/-! ### Requests -/

/-- A request as `main` takes it from the buffer of a web connection. -/
structure HttpRequest where
  method : List UInt8
  path : List UInt8
  cookie : Option (List UInt8)
  body : List UInt8
  deriving DecidableEq, Repr

/-- `sscanf(conn->buf, "%15s %511s", method, path)` into zeroed buffers. -/
def scanRequestLine (text : List UInt8) : List UInt8 × List UInt8 :=
  match scanWord 15 text with
  | none => ([], [])
  | some (method, rest) =>
      match scanWord 511 rest with
      | none => (method, [])
      | some (path, _) => (method, path)

/-- The text after "Cookie:"; the header is searched in any case, but scanned
in this one. -/
def scanCookie (text : List UInt8) : List UInt8 :=
  match strcasestr (str "Cookie:") text with
  | none => []
  | some header =>
      if str "Cookie:" <+: header then
        scanUntil 511 (str "\r\n") ((header.drop 7).dropWhile isSpace)
      else []

/-- `content_length`. -/
def scanContentLength (text : List UInt8) : Int :=
  match strcasestr (str "Content-Length:") text with
  | none => 0
  | some header => (atoi (header.drop 15)).toInt

/-- The request in a buffer, once its headers are complete and, for a POST,
its body has arrived. -/
def parseRequest (buf : List UInt8) : Option HttpRequest :=
  let text := cstr buf
  match strstrFrom (str "\r\n\r\n") text with
  | none => none
  | some endHeaders =>
      let (method, path) := scanRequestLine text
      let cookie := scanCookie text
      let bodyStart := text.length - endHeaders.length + 4
      let bodyRead : Int := (buf.length : Int) - bodyStart
      if method = str "POST" ∧ bodyRead < scanContentLength text then none
      else some ⟨method, path, if cookie = [] then none else some cookie, endHeaders.drop 4⟩

/-! ### Effects -/

/-- The database calls of the handlers. -/
inductive DbCall
  | getStats
  | getAgents
  | removeAgent (uuid : List UInt8)
  | addToBlocklist (ipCidr kind reason : List UInt8)
  | getBlocklist (kind : List UInt8)
  | removeFromBlocklist (ipCidr kind : List UInt8)
  | getReputation
  | getYaraRules
  | addYaraRule (name content : List UInt8)
  | deleteYaraRule (name : List UInt8)
  | getConfig
  | setConfig (key val category description : List UInt8)
  | getThreatIntel
  | getEvents (limit offset : BitVec 32) (agentFilter : Option (List UInt8))
  deriving DecidableEq, Repr

/-- `send_http_response`; a response without body has an empty one. -/
structure Response where
  status : Nat
  statusText : List UInt8
  contentType : List UInt8
  extraHeaders : List UInt8
  body : List UInt8
  deriving DecidableEq, Repr

/-- What a handler does. -/
inductive ApiEffect
  | respond (r : Response)
  | db (call : DbCall)
  | sendCommand (uuidHex : List UInt8) (commandType : UInt8) (data : List UInt8)
  | feedFetch
  /-- The event-stream headers, `sse_add`, and removal from the epoll set. -/
  | sseAdd
  deriving DecidableEq, Repr

/-- What a handler learns from the rest of the program: valid tokens and
logins at the time, the token for a new session, the results of database calls
(0 or not, or a JSON text), whether an agent takes a command, and what an
uninitialised `clean_token` holds. -/
structure ApiEnv where
  verifySessionToken : List UInt8 → Bool
  verifyLogin : List UInt8 → List UInt8 → Bool
  sessionToken : List UInt8 → List UInt8
  dbOk : DbCall → Bool
  dbJson : DbCall → List UInt8
  commandOk : List UInt8 → UInt8 → List UInt8 → Bool
  junk : List UInt8

/-- A response in JSON without extra headers. -/
def respondJson (status : Nat) (statusText body : List UInt8) : ApiEffect :=
  .respond ⟨status, statusText, str "application/json", [], body⟩

/-- A query, and its result as the response. -/
def ApiEnv.query (env : ApiEnv) (call : DbCall) : List ApiEffect :=
  [.db call, respondJson 200 (str "OK") (cstr (env.dbJson call))]

/-- A call that is made if its arguments are valid, and the response. -/
def ApiEnv.update (env : ApiEnv) (valid : Bool) (call : DbCall) (done failed : List UInt8) :
    List ApiEffect :=
  if valid then
    [.db call,
      if env.dbOk call then respondJson 200 (str "OK") done
      else respondJson 400 (str "Bad Request") failed]
  else [respondJson 400 (str "Bad Request") failed]

def invalidInput : List UInt8 := str "\x7b\"error\":\"invalid_input\"\x7d"

/-! ### Arguments of the routes -/

/-- The text between the quotes after `"name":"`, at most `n` bytes of it. -/
def jsonText (n : Nat) (name body : List UInt8) : List UInt8 :=
  let key := str "\"" ++ name ++ str "\":\""
  match strstrFrom key body with
  | none => []
  | some p => scanUntil n (str "\"") (p.drop key.length)

/-- The text after `"value":` up to a comma or a closing brace. -/
def jsonValue (body : List UInt8) : List UInt8 :=
  match strstrFrom (str "\"value\":") body with
  | none => []
  | some p => scanUntil 255 (str "\x7d,") (p.drop 8)

/-- `sscanf(path, "<route>%ns", ...)` for a path that starts with the route. -/
def pathWord (n : Nat) (route path : List UInt8) : List UInt8 :=
  match scanWord n (path.drop route.length) with
  | none => []
  | some (word, _) => word

/-- The number after a parameter's name, or its default. -/
def pathNumber (name path : List UInt8) (default : Nat) : BitVec 32 :=
  match strstrFrom name path with
  | none => BitVec.ofNat 32 default
  | some p => atoi (p.drop name.length)

/-- The sixteen bytes of a UUID, two characters each; `none` if one of them is
not a number. -/
def parseAgentUuid (uuidStr : List UInt8) : Option (List UInt8) :=
  (List.range 16).mapM fun i =>
    (sscanf02x ((uuidStr.drop (2 * i)).take 2)).map fun val => UInt8.ofNat val.toNat

/-! ### Authentication -/

/-- The token in the cookie header. -/
def cookieToken (cookie : List UInt8) : Option (List UInt8) :=
  match strstrFrom (str "session_token=") cookie with
  | none => none
  | some p =>
      let token := p.drop 14
      match strchr (ch ';') token with
      | some (before, _) => some (before.take 511)
      | none => some (token.take 511)

/-- `auth_ok == 0` before the routes. -/
def ApiEnv.cookieOk (env : ApiEnv) (r : HttpRequest) : Bool :=
  match r.cookie with
  | none => false
  | some cookie =>
      match cookieToken cookie with
      | none => false
      | some token => env.verifySessionToken token

/-- `auth_ok == 0` after a look at the token in the path; a parameter without
text leaves `clean_token` as it was. -/
def ApiEnv.pathTokenOk (env : ApiEnv) (path : List UInt8) : Bool :=
  match strstrFrom (str "token=") path with
  | none => false
  | some p =>
      match scanWord 511 (p.drop 6) with
      | none => env.verifySessionToken env.junk
      | some (token, _) => env.verifySessionToken token

/-! ### The handlers -/

def livePath : List UInt8 := str "/api/events/live"

/-- POST /auth. -/
def handleLogin (env : ApiEnv) (body : List UInt8) : List ApiEffect :=
  let bothKeys := (strstrFrom (str "\"username\":\"") body).isSome ∧
    (strstrFrom (str "\"password\":\"") body).isSome
  let user := if bothKeys then jsonText 63 (str "username") body else []
  let pass := if bothKeys then jsonText 63 (str "password") body else []
  if user ≠ [] ∧ pass ≠ [] ∧ env.verifyLogin user pass = true then
    let cookieHeader := (str "Set-Cookie: session_token=" ++ env.sessionToken user ++
      str "; Path=/; HttpOnly; SameSite=Strict; Max-Age=28800\r\n").take 1023
    [.respond ⟨200, str "OK", str "application/json", cookieHeader,
      str "\x7b\"status\":\"success\"\x7d"⟩]
  else [respondJson 401 (str "Unauthorized") (str "\x7b\"status\":\"failed\"\x7d")]

/-- DELETE /api/v2/agents/<uuid>. -/
def handleRemoveAgent (env : ApiEnv) (path : List UInt8) : List ApiEffect :=
  let failed := str "\x7b\"error\":\"invalid_uuid\"\x7d"
  match parseAgentUuid (pathWord 63 (str "/api/v2/agents/") path) with
  | none => [respondJson 400 (str "Bad Request") failed]
  | some uuid => env.update true (.removeAgent uuid) (str "\x7b\"status\":\"removed\"\x7d") failed

/-- POST /api/v2/agents/<uuid>/block-ip. -/
def handleBlockIpCommand (env : ApiEnv) (path body : List UInt8) : List ApiEffect :=
  let uuidStr := scanUntil 63 (str "/") (path.drop 15)
  let ipToBlock := jsonText 63 (str "ip") body
  match if ipToBlock = [] then none else inetPton ipToBlock with
  | none => [respondJson 400 (str "Bad Request") (str "\x7b\"error\":\"invalid_ip\"\x7d")]
  | some addr =>
      let data := leBytes 4 addr.toNat
      [.db (.addToBlocklist ipToBlock (str "block") (str "Dashboard manual block")),
        .sendCommand uuidStr msgTypeBlockIp data,
        if env.commandOk uuidStr msgTypeBlockIp data then
          respondJson 200 (str "OK") (str "\x7b\"status\":\"blocked\"\x7d")
        else respondJson 404 (str "Not Found") (str "\x7b\"error\":\"agent_offline\"\x7d")]

/-- GET /api/events with its parameters. -/
def handleEvents (env : ApiEnv) (path : List UInt8) : List ApiEffect :=
  let agentFilter :=
    match strstrFrom (str "agent=") path with
    | none => []
    | some p => pathWord 63 (str "agent=") p
  env.query (.getEvents (pathNumber (str "limit=") path 50) (pathNumber (str "offset=") path 0)
    (if agentFilter = [] then none else some agentFilter))

/-- GET /api/events/live: the handshake for live alerts. -/
def handleLive (env : ApiEnv) (r : HttpRequest) : List ApiEffect :=
  if env.cookieOk r || env.pathTokenOk r.path then [.sseAdd]
  else [.respond ⟨401, str "Unauthorized", str "text/plain", [], str "Unauthorized"⟩]

/-- POST /api/v2/blocklist. -/
def handleAddToBlocklist (env : ApiEnv) (body : List UInt8) : List ApiEffect :=
  let ipCidr := jsonText 63 (str "ip_cidr") body
  env.update (ipCidr ≠ []) (.addToBlocklist ipCidr (str "block") (jsonText 127 (str "reason") body))
    (str "\x7b\"status\":\"added\"\x7d") invalidInput

/-- DELETE /api/v2/blocklist/<cidr>. -/
def handleRemoveFromBlocklist (env : ApiEnv) (path : List UInt8) : List ApiEffect :=
  let ipCidr := pathWord 63 (str "/api/v2/blocklist/") path
  env.update (ipCidr ≠ []) (.removeFromBlocklist ipCidr (str "block"))
    (str "\x7b\"status\":\"removed\"\x7d") invalidInput

/-- POST /api/v2/yara/rules. -/
def handleAddYaraRule (env : ApiEnv) (body : List UInt8) : List ApiEffect :=
  let name := jsonText 127 (str "name") body
  env.update (name ≠ []) (.addYaraRule name (jsonText 4095 (str "content") body))
    (str "\x7b\"status\":\"added\"\x7d") invalidInput

/-- DELETE /api/v2/yara/rules/<name>. -/
def handleDeleteYaraRule (env : ApiEnv) (path : List UInt8) : List ApiEffect :=
  let name := pathWord 127 (str "/api/v2/yara/rules/") path
  env.update (name ≠ []) (.deleteYaraRule name)
    (str "\x7b\"status\":\"removed\"\x7d") invalidInput

/-- POST /api/v2/config. -/
def handleSetConfig (env : ApiEnv) (body : List UInt8) : List ApiEffect :=
  let key := jsonText 63 (str "key") body
  env.update (key ≠ []) (.setConfig key (jsonValue body) (jsonText 63 (str "category") body)
    (str "Updated via dashboard")) (str "\x7b\"status\":\"saved\"\x7d") invalidInput

/-- The routes behind the session check, in their order. -/
def routeRequest (env : ApiEnv) (r : HttpRequest) : List ApiEffect :=
  if r.method = str "GET" ∧
      (r.path = str "/api/stats" ∨ r.path = str "/api/v2/dashboard/stats") then
    env.query .getStats
  else if r.method = str "GET" ∧ (r.path = str "/api/agents" ∨ r.path = str "/api/v2/agents") then
    env.query .getAgents
  else if r.method = str "DELETE" ∧ str "/api/v2/agents/" <+: r.path then
    handleRemoveAgent env r.path
  else if r.method = str "POST" ∧ str "/api/v2/agents/" <+: r.path ∧
      strstr r.path (str "/block-ip") = true then
    handleBlockIpCommand env r.path r.body
  else if r.method = str "GET" ∧ r.path = str "/api/v2/blocklist" then
    env.query (.getBlocklist (str "block"))
  else if r.method = str "POST" ∧ r.path = str "/api/v2/blocklist" then
    handleAddToBlocklist env r.body
  else if r.method = str "DELETE" ∧ str "/api/v2/blocklist/" <+: r.path then
    handleRemoveFromBlocklist env r.path
  else if r.method = str "GET" ∧ r.path = str "/api/v2/reputation" then
    env.query .getReputation
  else if r.method = str "GET" ∧ r.path = str "/api/v2/yara/rules" then
    env.query .getYaraRules
  else if r.method = str "POST" ∧ r.path = str "/api/v2/yara/rules" then
    handleAddYaraRule env r.body
  else if r.method = str "DELETE" ∧ str "/api/v2/yara/rules/" <+: r.path then
    handleDeleteYaraRule env r.path
  else if r.method = str "GET" ∧ r.path = str "/api/v2/config" then
    env.query .getConfig
  else if r.method = str "POST" ∧ r.path = str "/api/v2/config" then
    handleSetConfig env r.body
  else if r.method = str "GET" ∧ r.path = str "/api/v2/threat-intel" then
    env.query .getThreatIntel
  else if r.method = str "POST" ∧ r.path = str "/api/v2/threat-intel/fetch" then
    [.feedFetch, respondJson 200 (str "OK") (str "\x7b\"status\":\"fetching\"\x7d")]
  else if r.method = str "GET" ∧ str "/api/events" <+: r.path ∧ ¬ livePath <+: r.path then
    handleEvents env r.path
  else if r.method = str "GET" ∧ livePath <+: r.path then
    handleLive env r
  else
    -- the length passed for this body counts its terminator
    [respondJson 404 (str "Not Found") (str "\x7b\"error\":\"not_found\"\x7d" ++ [0])]

/-- `handle_api_request`. -/
def handleApiRequest (env : ApiEnv) (r : HttpRequest) : List ApiEffect :=
  if r.method = str "OPTIONS" then
    [.respond ⟨204, str "No Content", str "text/plain", [], []⟩]
  else if r.method = str "POST" ∧ r.path = str "/auth" then handleLogin env r.body
  else if env.cookieOk r = false ∧ ¬ livePath <+: r.path then
    [respondJson 401 (str "Unauthorized") (str "\x7b\"error\":\"unauthenticated\"\x7d")]
  else routeRequest env r

/-! ### Static files -/

/-- What opening a file and reading it yields: it cannot be opened, there is no
memory for it, or its content. -/
inductive FileRead
  | missing
  | noMemory
  | content (bytes : List UInt8)

/-- The content type by the first of the endings that occurs in the path. -/
def contentTypeOf (filePath : List UInt8) : List UInt8 :=
  if strstr filePath (str ".html") then str "text/html"
  else if strstr filePath (str ".css") then str "text/css"
  else if strstr filePath (str ".js") then str "application/javascript"
  else if strstr filePath (str ".png") then str "image/png"
  else if strstr filePath (str ".svg") then str "image/svg+xml"
  else str "text/plain"

/-- `serve_static_file`. -/
def serveStaticFile (openFile : List UInt8 → FileRead) (urlPath : List UInt8) : Response :=
  if strstr urlPath (str "..") then
    ⟨403, str "Forbidden", str "text/plain", [], str "Access Denied"⟩
  else
    let targetPath := 
      if urlPath = str "/" ∨ urlPath = str "/index.html" then str "/index.html" else urlPath
    let filePath := (str "/usr/local/share/soc/dashboard" ++ targetPath).take 511
    match openFile filePath with
    | .missing => ⟨404, str "Not Found", str "text/plain", [], str "File Not Found"⟩
    | .noMemory => ⟨500, str "Internal Error", str "text/plain", [], str "OOM"⟩
    | .content bytes => ⟨200, str "OK", contentTypeOf filePath, [], bytes⟩

/-- What `main` does with a complete request. -/
def handleRequest (env : ApiEnv) (openFile : List UInt8 → FileRead) (r : HttpRequest) :
    List ApiEffect :=
  if str "/api/" <+: r.path ∨ r.path = str "/auth" then handleApiRequest env r
  else [.respond (serveStaticFile openFile r.path)]

/-! ### Registration for live alerts -/

/-- The request asks for live alerts and is authenticated. -/
structure LiveAccess (env : ApiEnv) (r : HttpRequest) : Prop where
  method : r.method = str "GET"
  path : livePath <+: r.path
  authenticated : env.cookieOk r = true ∨ env.pathTokenOk r.path = true

/-- A path for live alerts is none of the fixed ones. -/
theorem ne_of_live {path fixed : List UInt8} (h : livePath <+: path)
    (hfixed : ¬ livePath <+: fixed) : path ≠ fixed := by
  rintro rfl
  exact hfixed h

/-- And starts with none of the others. -/
theorem not_prefix_of_live {path route : List UInt8} (h : livePath <+: path)
    (hlonger : ¬ livePath <+: route) (hshorter : ¬ route <+: livePath) : ¬ route <+: path :=
  fun hroute => (List.prefix_or_prefix_of_prefix h hroute).elim hlonger hshorter

def notFound : List ApiEffect :=
  [respondJson 404 (str "Not Found") (str "\x7b\"error\":\"not_found\"\x7d" ++ [0])]

/-- The routes of a path for live alerts: the handshake, and nothing else. -/
theorem routeRequest_of_live (env : ApiEnv) {r : HttpRequest} (hlive : livePath <+: r.path) :
    routeRequest env r = if r.method = str "GET" then handleLive env r else notFound := by
  have hne : ∀ fixed, ¬ livePath <+: fixed → r.path ≠ fixed := fun _ => ne_of_live hlive
  have hprefix : ∀ route, ¬ livePath <+: route → ¬ route <+: livePath → ¬ route <+: r.path :=
    fun _ => not_prefix_of_live hlive
  unfold routeRequest notFound
  simp only [hlive, not_true_eq_false, and_true, and_false, false_and, or_self, if_false,
    hne (str "/api/stats") (by decide), hne (str "/api/v2/dashboard/stats") (by decide),
    hne (str "/api/agents") (by decide), hne (str "/api/v2/agents") (by decide),
    hprefix (str "/api/v2/agents/") (by decide) (by decide),
    hne (str "/api/v2/blocklist") (by decide),
    hprefix (str "/api/v2/blocklist/") (by decide) (by decide),
    hne (str "/api/v2/reputation") (by decide), hne (str "/api/v2/yara/rules") (by decide),
    hprefix (str "/api/v2/yara/rules/") (by decide) (by decide),
    hne (str "/api/v2/config") (by decide), hne (str "/api/v2/threat-intel") (by decide),
    hne (str "/api/v2/threat-intel/fetch") (by decide)]

theorem routeRequest_live {env : ApiEnv} {r : HttpRequest} (hget : r.method = str "GET")
    (hlive : livePath <+: r.path) : routeRequest env r = handleLive env r := by
  rw [routeRequest_of_live env hlive, if_pos hget]

theorem not_mem_ite {c : Prop} [Decidable c] {e : ApiEffect} {l m : List ApiEffect} (hl : e ∉ l)
    (hm : e ∉ m) : e ∉ if c then l else m := by
  split
  · exact hl
  · exact hm

theorem sseAdd_not_mem_respond (r : Response) : .sseAdd ∉ [ApiEffect.respond r] := by
  simp

theorem sseAdd_not_mem_query (env : ApiEnv) (call : DbCall) : .sseAdd ∉ env.query call := by
  simp [ApiEnv.query, respondJson]

theorem sseAdd_not_mem_update (env : ApiEnv) (valid : Bool) (call : DbCall)
    (done failed : List UInt8) : .sseAdd ∉ env.update valid call done failed := by
  unfold ApiEnv.update
  apply not_mem_ite
  · rcases env.dbOk call with - | - <;> simp [respondJson]
  · exact sseAdd_not_mem_respond _

theorem sseAdd_not_mem_removeAgent (env : ApiEnv) (path : List UInt8) :
    .sseAdd ∉ handleRemoveAgent env path := by
  unfold handleRemoveAgent
  rcases parseAgentUuid (pathWord 63 (str "/api/v2/agents/") path) with - | uuid
  · exact sseAdd_not_mem_respond _
  · exact sseAdd_not_mem_update env _ _ _ _

theorem sseAdd_not_mem_blockIpCommand (env : ApiEnv) (path body : List UInt8) :
    .sseAdd ∉ handleBlockIpCommand env path body := by
  intro h
  unfold handleBlockIpCommand at h
  dsimp only at h
  split at h
  · exact sseAdd_not_mem_respond _ h
  · split at h <;> simp [respondJson] at h

/-- The other routes register nobody. -/
theorem sseAdd_mem_routeRequest {env : ApiEnv} {r : HttpRequest}
    (h : .sseAdd ∈ routeRequest env r) : r.method = str "GET" ∧ livePath <+: r.path := by
  by_contra hnot
  revert h
  unfold routeRequest
  rw [if_neg hnot]
  have hfetch : ∀ r, .sseAdd ∉ [ApiEffect.feedFetch, .respond r] := by simp
  -- route by route; a leaf is closed before its own branches are looked at
  repeat' first
    | exact sseAdd_not_mem_respond _
    | exact sseAdd_not_mem_query env _
    | exact sseAdd_not_mem_update env _ _ _ _
    | exact sseAdd_not_mem_removeAgent env _
    | exact sseAdd_not_mem_blockIpCommand env _ _
    | exact hfetch _
    | apply not_mem_ite

theorem sseAdd_mem_handleLive {env : ApiEnv} {r : HttpRequest} :
    .sseAdd ∈ handleLive env r ↔ env.cookieOk r = true ∨ env.pathTokenOk r.path = true := by
  unfold handleLive
  split
  · rename_i h
    simpa using h
  · rename_i h
    simpa using h

theorem sseAdd_not_mem_login (env : ApiEnv) (body : List UInt8) :
    .sseAdd ∉ handleLogin env body := by
  unfold handleLogin
  apply not_mem_ite
  · exact sseAdd_not_mem_respond _
  · exact sseAdd_not_mem_respond _

/-- The requests that are registered for live alerts. -/
theorem sseAdd_mem_iff (env : ApiEnv) (openFile : List UInt8 → FileRead) (r : HttpRequest) :
    .sseAdd ∈ handleRequest env openFile r ↔ LiveAccess env r := by
  constructor
  · intro h
    have hapi : .sseAdd ∈ handleApiRequest env r := by
      unfold handleRequest at h
      split at h
      · exact h
      · simp at h
    -- neither OPTIONS, nor a login, nor a 401 registers anyone
    have hroute : .sseAdd ∈ routeRequest env r := by
      unfold handleApiRequest at hapi
      split at hapi
      · simp at hapi
      · split at hapi
        · exact absurd hapi (sseAdd_not_mem_login env _)
        · split at hapi
          · simp [respondJson] at hapi
          · exact hapi
    obtain ⟨hget, hlive⟩ := sseAdd_mem_routeRequest hroute
    rw [routeRequest_live hget hlive, sseAdd_mem_handleLive] at hroute
    exact ⟨hget, hlive, hroute⟩
  · intro h
    have hapi : str "/api/" <+: r.path := List.IsPrefix.trans (by decide) h.path
    have hoptions : r.method ≠ str "OPTIONS" := by rw [h.method]; decide
    have hpost : r.method ≠ str "POST" := by rw [h.method]; decide
    rw [handleRequest, if_pos (Or.inl hapi), handleApiRequest, if_neg hoptions,
      if_neg (fun hp => hpost hp.1), if_neg (fun hp => hp.2 h.path),
      routeRequest_live h.method h.path, sseAdd_mem_handleLive]
    exact h.authenticated

end Nullsploit
