/-
Nullsploit/AgentRemoval.lean

DELETE /api/v2/agents/<id> on the receiver (soc-server/soc_receiver.c): which UUID
`db_remove_agent` is called with, and which identifiers are refused.

The handler cuts the identifier into sixteen pairs of characters, without looking
for the dashes of the text under which `db_get_agents_json` lists an agent, and
scans each pair with `%2x`, which takes a sign and stops at the first character
that is no digit.  `misreadUuid` is what becomes of a dashed text.

`remove_agent_by_id_iff` says for which UUIDs that is the right one (four bytes of
one's choice, and twelve zeros or one odd sequence behind them), and which of the
other identifiers are refused: those with a pair that is no number.
-/
import Nullsploit.ApiAccess
import Nullsploit.CaseFold
import Nullsploit.Dashboard

namespace Nullsploit

open CText HexText CaseFold

/-! ### Pairs of characters -/

/-- `%2x` finds a number in these characters: a digit, or a sign before one. -/
def pairScans : List UInt8 → Bool
  | [] => false
  | c :: t =>
      (hexVal c).isSome || (c = ch '-' || c = ch '+') && t.head?.any fun d => (hexVal d).isSome

theorem isSome_hexRun (s : List UInt8) :
    (hexRun s).isSome = s.head?.any fun d => (hexVal d).isSome := by
  cases s with
  | nil => rfl
  | cons d s =>
      rcases hd : hexVal d with - | x
      · simp [hexRun, hd]
      · simp [hexRun, hd]

/-- Without blanks in it, a pair is scanned or not by its characters. -/
theorem isSome_sscanf02x {pair : List UInt8} (hlen : pair.length ≤ 2)
    (hblank : ∀ c ∈ pair, isSpace c = false) : (sscanf02x pair).isSome = pairScans pair := by
  cases pair with
  | nil => rfl
  | cons c t =>
      -- a sign is no digit, so the two ways to start a number exclude each other
      have hsign : (c = ch '-' ∨ c = ch '+') → (hexVal c).isSome = false := by
        rintro (rfl | rfl)
        · decide
        · decide
      have hdrop : ((c :: t).dropWhile isSpace).take 2 = c :: t := by
        rw [List.dropWhile_cons_of_neg (by simp [hblank c List.mem_cons_self]),
          List.take_of_length_le hlen]
      rw [sscanf02x, hdrop, pairScans]
      dsimp only
      by_cases hminus : c = ch '-'
      · rw [if_pos hminus, Option.isSome_map, isSome_hexRun, hsign (Or.inl hminus)]
        simp [hminus]
      · by_cases hplus : c = ch '+'
        · rw [if_neg hminus, if_pos hplus, Option.isSome_map, isSome_hexRun,
            hsign (Or.inr hplus)]
          simp [hplus]
        · rw [if_neg hminus, if_neg hplus, Option.isSome_map, isSome_hexRun]
          simp [hminus, hplus]

/-- The byte scanned from a pair. -/
def scannedByte (pair : List UInt8) : Option UInt8 :=
  (sscanf02x pair).map fun val => UInt8.ofNat val.toNat

/-- Both digits of a byte. -/
theorem scannedByte_byte (a : UInt8) :
    scannedByte [hexDigit (a.toNat / 16), hexDigit (a.toNat % 16)] = some a := by
  have h := sscanf02x_sprintf02x a []
  have hlt : a.toNat < 2 ^ 32 := Nat.lt_trans a.toNat_lt (by decide)
  rw [scannedByte]
  show (sscanf02x (sprintf02x a ++ [])).map _ = _
  rw [h, Option.map_some, BitVec.toNat_ofNat, Nat.mod_eq_of_lt hlt, UInt8.ofNat_toNat]

/-- The second digit of one byte and the first of the next. -/
theorem scannedByte_across (a b : UInt8) :
    scannedByte [hexDigit (a.toNat % 16), hexDigit (b.toNat / 16)]
      = some (16 * (a % 16) + b / 16) := by
  have key : ∀ x < 16, ∀ y < 16,
      scannedByte [hexDigit x, hexDigit y] = some (UInt8.ofNat (16 * x + y)) := by
    decide +kernel
  have hb := b.toNat_lt
  rw [key _ (Nat.mod_lt _ (by decide)) _ (by omega)]
  congr 1
  apply UInt8.toNat_inj.mp
  simp [UInt8.toNat_add, UInt8.toNat_mul, UInt8.toNat_mod, UInt8.toNat_div]

/-- A dash and a digit are a negative number. -/
theorem scannedByte_dash_digit (a : UInt8) :
    scannedByte [ch '-', hexDigit (a.toNat / 16)] = some (-(a / 16)) :=
  forall_byte (P := fun a => scannedByte [ch '-', hexDigit (a.toNat / 16)] = some (-(a / 16)))
    (by decide +kernel) a

/-- A digit and a dash are a number of one digit. -/
theorem scannedByte_digit_dash (a : UInt8) :
    scannedByte [hexDigit (a.toNat % 16), ch '-'] = some (a % 16) :=
  forall_byte (P := fun a => scannedByte [hexDigit (a.toNat % 16), ch '-'] = some (a % 16))
    (by decide +kernel) a

/-- The sixteen pairs of an identifier. -/
def hexPairs (id : List UInt8) : List (List UInt8) :=
  (List.range 16).map fun i => (id.drop (2 * i)).take 2

theorem parseAgentUuid_eq_mapM (id : List UInt8) :
    parseAgentUuid id = (hexPairs id).mapM scannedByte := by
  rw [hexPairs, List.mapM_map]
  rfl

/-- They are among the first 32 characters. -/
theorem hexPairs_take (id : List UInt8) : hexPairs (id.take 63) = hexPairs id := by
  apply List.map_congr_left
  intro i hi
  have hi := List.mem_range.mp hi
  rw [List.drop_take, List.take_take, Nat.min_eq_left (by omega)]

theorem isSome_mapM {α β : Type} (f : α → Option β) (l : List α) :
    (l.mapM f).isSome = l.all fun x => (f x).isSome := by
  induction l with
  | nil => rfl
  | cons x l ih =>
      rw [List.mapM_cons, List.all_cons, ← ih]
      rcases f x with - | y
      · rfl
      · rcases l.mapM f with - | ys
        · rfl
        · rfl

/-- An identifier is parsed if each pair is scanned. -/
theorem isSome_parseAgentUuid {id : List UInt8} (hblank : ∀ c ∈ id, isSpace c = false) :
    (parseAgentUuid id).isSome = (hexPairs id).all pairScans := by
  rw [parseAgentUuid_eq_mapM, isSome_mapM, Bool.eq_iff_iff, List.all_eq_true, List.all_eq_true]
  apply forall₂_congr
  intro pair hpair
  obtain ⟨i, -, rfl⟩ := List.mem_map.mp hpair
  have hmem : ∀ c ∈ (id.drop (2 * i)).take 2, isSpace c = false := fun c hc =>
    hblank c (List.mem_of_mem_drop (List.mem_of_mem_take hc))
  rw [scannedByte, Option.isSome_map, isSome_sscanf02x (List.length_take_le _ _) hmem]

/-! ### The dashed text -/

/-- What the handler makes of the dashed text of a UUID. -/
def misreadUuid (uuid : List UInt8) : List UInt8 :=
  let u i := uuid.getD i 0
  [u 0, u 1, u 2, u 3, -(u 4 / 16), 16 * (u 4 % 16) + u 5 / 16, u 5 % 16, u 6, u 7,
    -(u 8 / 16), 16 * (u 8 % 16) + u 9 / 16, u 9 % 16, u 10, u 11, u 12, u 13]

theorem mapM_eq_some_map {α β : Type} {f : α → Option β} {g : α → β} {l : List α}
    (h : ∀ x ∈ l, f x = some (g x)) : l.mapM f = some (l.map g) := by
  induction l with
  | nil => rfl
  | cons x l ih =>
      rw [List.mapM_cons, h x List.mem_cons_self, ih fun y hy => h y (List.mem_cons_of_mem x hy)]
      rfl

theorem parseAgentUuid_uuidToStr {uuid : List UInt8} (h : uuid.length = 16) :
    parseAgentUuid (uuidToStr uuid) = some (misreadUuid uuid) := by
  have hbyte : ∀ i ∈ List.range 16,
      scannedByte (((uuidToStr uuid).drop (2 * i)).take 2)
        = some ((misreadUuid uuid).getD i 0) := by
    match uuid, h with
    | [u0, u1, u2, u3, u4, u5, u6, u7, u8, u9, u10, u11, u12, u13, u14, u15], _ =>
      -- the dashes at 8 and 18 start a pair, those at 13 and 23 end one
      intro i hi
      match i, List.mem_range.mp hi with
      | 0, _ => exact scannedByte_byte u0
      | 1, _ => exact scannedByte_byte u1
      | 2, _ => exact scannedByte_byte u2
      | 3, _ => exact scannedByte_byte u3
      | 4, _ => exact scannedByte_dash_digit u4
      | 5, _ => exact scannedByte_across u4 u5
      | 6, _ => exact scannedByte_digit_dash u5
      | 7, _ => exact scannedByte_byte u6
      | 8, _ => exact scannedByte_byte u7
      | 9, _ => exact scannedByte_dash_digit u8
      | 10, _ => exact scannedByte_across u8 u9
      | 11, _ => exact scannedByte_digit_dash u9
      | 12, _ => exact scannedByte_byte u10
      | 13, _ => exact scannedByte_byte u11
      | 14, _ => exact scannedByte_byte u12
      | 15, _ => exact scannedByte_byte u13
      | n + 16, hn => exact absurd hn (by omega)
  exact mapM_eq_some_map hbyte

/-- The twelve bytes that survive besides zeros. -/
def oddTail : List UInt8 := [0xF1, 0x11, 0x01, 0x01, 0x01, 0x00, 0x10, 0x00, 0x10, 0x00, 0x10, 0x00]

/-- Each byte but the first four is determined by the ones before it, up to the
choice of the fifth. -/
theorem misreadUuid_eq_self_iff {uuid : List UInt8} (h : uuid.length = 16) :
    misreadUuid uuid = uuid ↔ uuid.drop 4 = List.replicate 12 0 ∨ uuid.drop 4 = oddTail := by
  match uuid, h with
  | [u0, u1, u2, u3, u4, u5, u6, u7, u8, u9, u10, u11, u12, u13, u14, u15], _ =>
    constructor
    · intro hsame
      -- the fifth byte is the negative of its own first digit
      have hfifth : ∀ b : UInt8, -(b / 16) = b → b = 0 ∨ b = 0xF1 :=
        forall_byte (by decide +kernel)
      have hzero : ∀ b : UInt8, 16 * (0 % 16) + b / 16 = b → b = 0 :=
        forall_byte (by decide +kernel)
      have hodd : ∀ b : UInt8, 16 * (0xF1 % 16) + b / 16 = b → b = 0x11 :=
        forall_byte (by decide +kernel)
      simp only [misreadUuid, List.getD_cons_zero, List.getD_cons_succ, List.cons.injEq, true_and,
        and_true] at hsame
      -- from the sixth on each byte is made of the digits before it
      obtain ⟨h4, h5, h6, h7, h8, h9, h10, h11, h12, h13, h14, h15⟩ := hsame
      rcases hfifth u4 h4 with rfl | rfl
      · obtain rfl := hzero u5 h5
        subst h6 h7 h8 h9 h10 h11 h12 h13 h14 h15
        exact Or.inl rfl
      · obtain rfl := hodd u5 h5
        subst h6 h7 h8 h9 h10 h11 h12 h13 h14 h15
        exact Or.inr rfl
    · -- the first four bytes are in nobody's way
      have hfront : ∀ tail, misreadUuid (u0 :: u1 :: u2 :: u3 :: tail)
          = u0 :: u1 :: u2 :: u3 :: (misreadUuid (0 :: 0 :: 0 :: 0 :: tail)).drop 4 := fun _ => rfl
      have hkeep : ∀ tail, tail = List.replicate 12 0 ∨ tail = oddTail →
          misreadUuid (u0 :: u1 :: u2 :: u3 :: tail) = u0 :: u1 :: u2 :: u3 :: tail := by
        rintro tail (rfl | rfl)
        · rw [hfront]
          rfl
        · rw [hfront]
          rfl
      exact hkeep [u4, u5, u6, u7, u8, u9, u10, u11, u12, u13, u14, u15]

/-! ### Requests -/

def agentsRoute : List UInt8 := str "/api/v2/agents/"

/-- An authenticated request to remove the agent with this identifier. -/
structure RemovalRequest (env : ApiEnv) (id : List UInt8) (r : HttpRequest) : Prop where
  method : r.method = str "DELETE"
  path : r.path = agentsRoute ++ id
  -- the path is a word of the request line
  no_blank : ∀ c ∈ id, isSpace c = false
  authenticated : env.cookieOk r = true

/-- The identifier, as far as it fits into `uuid_str`. -/
theorem pathWord_agentsRoute {id : List UInt8} (hblank : ∀ c ∈ id, isSpace c = false) :
    pathWord 63 agentsRoute (agentsRoute ++ id) = id.take 63 := by
  unfold pathWord scanWord
  rw [List.drop_left]
  cases id with
  | nil => rfl
  | cons c t =>
      have hword : (c :: t).takeWhile (fun c => !isSpace c) = c :: t :=
        List.takeWhile_eq_self_iff.mpr fun b hb => by simp [hblank b hb]
      rw [List.dropWhile_cons_of_neg (by simp [hblank c List.mem_cons_self])]
      dsimp only
      rw [hword]

/-- The response to an identifier that is refused. -/
def invalidUuid : ApiEffect :=
  respondJson 400 (str "Bad Request") (str "\x7b\"error\":\"invalid_uuid\"\x7d")

/-- The database calls of a handler. -/
def dbCalls (effects : List ApiEffect) : List DbCall :=
  effects.filterMap fun e => match e with
    | .db call => some call
    | _ => none

/-- What becomes of the request. -/
theorem handleApiRequest_removal {env : ApiEnv} {id : List UInt8} {r : HttpRequest}
    (h : RemovalRequest env id r) :
    handleApiRequest env r =
      match parseAgentUuid id with
      | none => [invalidUuid]
      | some uuid => [.db (.removeAgent uuid),
          if env.dbOk (.removeAgent uuid) then
            respondJson 200 (str "OK") (str "\x7b\"status\":\"removed\"\x7d")
          else invalidUuid] := by
  have hother : ∀ method, str "DELETE" ≠ method → r.method ≠ method := by
    intro method hne
    rw [h.method]
    exact hne
  have hpost : r.method ≠ str "POST" := hother _ (by decide)
  have hget : r.method ≠ str "GET" := hother _ (by decide)
  have hprefix : str "/api/v2/agents/" <+: r.path := by
    rw [h.path]
    exact List.prefix_append _ _
  have hauth : ¬ (env.cookieOk r = false ∧ ¬ livePath <+: r.path) := by
    rw [h.authenticated]
    simp
  have hroute : handleApiRequest env r = handleRemoveAgent env r.path := by
    unfold handleApiRequest routeRequest
    rw [if_neg (hother _ (by decide)), if_neg fun hc => hpost hc.1, if_neg hauth, if_neg fun hc => hget hc.1,
      if_neg fun hc => hget hc.1, if_pos ⟨h.method, hprefix⟩]
  have hid : pathWord 63 (str "/api/v2/agents/") r.path = id.take 63 := by
    rw [h.path]
    exact pathWord_agentsRoute h.no_blank
  rw [hroute, handleRemoveAgent, hid, parseAgentUuid_eq_mapM, hexPairs_take,
    ← parseAgentUuid_eq_mapM]
  rcases parseAgentUuid id with - | uuid
  · rfl
  · rfl

/-- It makes one call, if the identifier is parsed. -/
theorem dbCalls_removal {env : ApiEnv} {id : List UInt8} {r : HttpRequest}
    (h : RemovalRequest env id r) :
    dbCalls (handleApiRequest env r) = (parseAgentUuid id).toList.map DbCall.removeAgent := by
  rw [handleApiRequest_removal h]
  rcases parseAgentUuid id with - | uuid
  · rfl
  · dsimp only
    split
    · rfl
    · rfl

/-- It is refused if not. -/
theorem removal_refused_iff {env : ApiEnv} {id : List UInt8} {r : HttpRequest}
    (h : RemovalRequest env id r) :
    handleApiRequest env r = [invalidUuid] ↔ ∃ pair ∈ hexPairs id, pairScans pair = false := by
  have hpairs : (∃ pair ∈ hexPairs id, pairScans pair = false) ↔
      (parseAgentUuid id).isSome = false := by
    rw [isSome_parseAgentUuid h.no_blank, List.all_eq_false]
    simp only [Bool.not_eq_true]
  rw [handleApiRequest_removal h, hpairs]
  rcases parseAgentUuid id with - | uuid
  · exact ⟨fun _ => rfl, fun _ => rfl⟩
  · constructor
    · intro hlist
      cases hlist
    · intro hsome
      cases hsome

/-! ### Forms of identifiers -/

/-- 32 digits. -/
def HexUuid (id : List UInt8) : Prop := id.length = 32 ∧ ∀ c ∈ id, (hexVal c).isSome = true

/-- Five groups of digits with dashes between them. -/
def DashedUuid (id : List UInt8) : Prop :=
  id.length = 36 ∧ ∀ i < 36, if i ∈ [8, 13, 18, 23] then id.getD i 0 = ch '-'
    else (hexVal (id.getD i 0)).isSome = true

/-- **When the handler does what an identifier says.**  The dashed text of a UUID
removes that agent exactly if the last twelve bytes of the UUID are zeros or
`oddTail`; and an identifier in neither form is refused exactly if one of the first
sixteen pairs of characters is no number for `%2x`. -/
theorem remove_agent_by_id_iff {env : ApiEnv} {id : List UInt8} {r : HttpRequest}
    (h : RemovalRequest env id r) :
    (∀ uuid : List UInt8, uuid.length = 16 → id = uuidToStr uuid →
      (dbCalls (handleApiRequest env r) = [.removeAgent uuid] ↔
        uuid.drop 4 = List.replicate 12 0 ∨ uuid.drop 4 = oddTail)) ∧
    ((¬ DashedUuid id → ¬ HexUuid id → handleApiRequest env r = [invalidUuid]) ↔
      DashedUuid id ∨ HexUuid id ∨ ∃ pair ∈ hexPairs id, pairScans pair = false) := by
  constructor
  · rintro uuid hlen rfl
    rw [dbCalls_removal h, parseAgentUuid_uuidToStr hlen, ← misreadUuid_eq_self_iff hlen]
    constructor
    · intro hcalls
      exact DbCall.removeAgent.inj (List.cons.inj hcalls).1
    · intro hsame
      rw [hsame]
      rfl
  · rw [removal_refused_iff h]
    tauto

/-- A server with one session. -/
def sessionEnv : ApiEnv :=
  { bareEnv with verifySessionToken := fun token => token = str "admin:1700028800:00" }

/-- A request of that session to remove an agent. -/
def deleteAgent (id : List UInt8) : HttpRequest where
  method := str "DELETE"
  path := agentsRoute ++ id
  cookie := some (str "session_token=admin:1700028800:00")
  body := []

theorem removalRequest_deleteAgent {id : List UInt8} (h : ∀ c ∈ id, isSpace c = false) :
    RemovalRequest sessionEnv id (deleteAgent id) where
  method := rfl
  path := rfl
  no_blank := h
  authenticated := by
    -- only the cookie counts
    show sessionEnv.cookieOk (deleteAgent []) = true
    decide +kernel

/-- An agent that can be removed under the text it is listed under, and a word that
is refused. -/
theorem agent_one_removed :
    dbCalls (handleApiRequest sessionEnv
        (deleteAgent (uuidToStr [0, 0, 0, 1, 0, 0, 0, 0, 0, 0, 0, 0, 0, 0, 0, 0])))
      = [.removeAgent [0, 0, 0, 1, 0, 0, 0, 0, 0, 0, 0, 0, 0, 0, 0, 0]] ∧
      handleApiRequest sessionEnv (deleteAgent (str "unknown")) = [invalidUuid] := by
  constructor
  · exact ((remove_agent_by_id_iff (removalRequest_deleteAgent (by decide +kernel))).1 _ rfl
      rfl).mpr (Or.inl rfl)
  · apply (remove_agent_by_id_iff (removalRequest_deleteAgent (by decide +kernel))).2.mpr
    · exact Or.inr (Or.inr ⟨str "un", by decide, by decide⟩)
    · exact fun hform => absurd hform.1 (by decide)
    · exact fun hform => absurd hform.1 (by decide)

/-- The agent 550e8400-e29b-41d4-a716-446655440000. -/
def listedUuid : List UInt8 :=
  [0x55, 0x0e, 0x84, 0x00, 0xe2, 0x9b, 0x41, 0xd4, 0xa7, 0x16, 0x44, 0x66, 0x55, 0x44, 0x00, 0x00]

/-- Another agent is removed for it, and one for its digits with letters behind
them. -/
theorem listed_agent_misread :
    dbCalls (handleApiRequest sessionEnv (deleteAgent (uuidToStr listedUuid)))
        = [.removeAgent [0x55, 0x0e, 0x84, 0x00, 0xf2, 0x29, 0x0b, 0x41, 0xd4, 0xf6, 0x71, 0x06,
            0x44, 0x66, 0x55, 0x44]] ∧
      dbCalls (handleApiRequest sessionEnv (deleteAgent (uuidToStr listedUuid)))
        ≠ [.removeAgent listedUuid] ∧
      ¬ DashedUuid (hexText listedUuid ++ str "xyz") ∧
      ¬ HexUuid (hexText listedUuid ++ str "xyz") ∧
      dbCalls (handleApiRequest sessionEnv (deleteAgent (hexText listedUuid ++ str "xyz")))
        = [.removeAgent listedUuid] := by
  have hdashed : RemovalRequest sessionEnv (uuidToStr listedUuid) _ :=
    removalRequest_deleteAgent (by decide +kernel)
  have hjunk : RemovalRequest sessionEnv (hexText listedUuid ++ str "xyz") _ :=
    removalRequest_deleteAgent (by decide +kernel)
  rw [dbCalls_removal hdashed, dbCalls_removal hjunk]
  refine ⟨by decide +kernel, by decide +kernel, ?_, ?_, by decide +kernel⟩
  · exact fun hform => absurd hform.1 (by decide)
  · exact fun hform => absurd hform.1 (by decide)

end Nullsploit
