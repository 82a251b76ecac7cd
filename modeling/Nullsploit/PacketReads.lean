/-
Nullsploit/PacketReads.lean

The offsets of `skb->data` that `inspect_http_payload` reads.  Where the payload
is and how long it is come from the headers; up to 2048 bytes of it are decoded,
but only 1024 are asked for from `pskb_may_pull`, and the userspace build defines
that as 1.

The bytes behind the packet are a parameter (`beyond`), since the length in the
header may be larger than the packet.  `mem_urlDecodeReads` says what the decoding
reads: every byte of the stretch it is given, and nothing else.  From it the
packets whose inspection stays inside are exactly those of `reads_inside_iff`.
`inspectHttpPayload_congr` ties the offsets to the inspector: its result depends
on the bytes there and on no others.
-/
import Nullsploit.PacketPath

namespace Nullsploit

open CText

/-! ### What the helpers read -/

/-- The inner loop of `k_strstr`, from offset `i` on: it stops at the first
difference. -/
def compareReads : List UInt8 → List UInt8 → Nat → List Nat
  | h :: haystack, n :: needle, i =>
      i :: if h = n then compareReads haystack needle (i + 1) else []
  | _, _, _ => []

/-- `k_strstr` on a haystack that starts at offset `i`. -/
def kStrstrReads (needle : List UInt8) : List UInt8 → Nat → List Nat
  | [], _ => []
  | h :: haystack, i =>
      if needle.length > (h :: haystack).length then []
      else compareReads (h :: haystack) needle i ++
        if needle <+: h :: haystack then [] else kStrstrReads needle haystack (i + 1)

/-- The condition of an escape at offset `i`, tested from left to right. -/
def escapeReads (i : Nat) : List UInt8 → List Nat
  | c :: h :: _ :: _ =>
      if c = ch '%' then i :: (i + 1) :: if isHexChar h then [i + 2] else [] else [i]
  | _ => [i]

/-- `url_decode` on a source that starts at offset `i`. -/
def urlDecodeReads : Nat → List UInt8 → Nat → List Nat
  | 0, _, _ => []
  | _ + 1, [], _ => []
  | room + 1, c :: src, i =>
      escapeReads i (c :: src) ++
        match urlEscape (c :: src) with
        | some (_, rest) => urlDecodeReads room rest (i + 3)
        | none => urlDecodeReads room src (i + 1)

/-! ### The inspector -/

section Inspector

variable (beyond : Nat → UInt8) (data : List UInt8)

/-- The offset of the payload and the length of it that is scanned. -/
def scanOffset : Nat := payloadOffset (ipHdr data) (tcpHdr data)
def scanLen : Nat := min 2048 (payloadLen (ipHdr data) (tcpHdr data)).toNat

/-- The length passed to `pskb_may_pull`. -/
def pullLen : Nat := scanOffset data + min 1024 (payloadLen (ipHdr data) (tcpHdr data)).toNat

/-- The bytes scanned, wherever they are. -/
def scannedBytes : List UInt8 :=
  (List.range (scanLen data)).map fun i => data.getD (scanOffset data + i) (beyond (scanOffset data + i))

/-- The offset of the TCP header. -/
def tcpOffset : Nat := (ipHdr data).ihl.toNat * 4

/-- What is read before the pull: `ihl`, `doff` and `tot_len`. -/
def readsBefore : List Nat := [0, tcpOffset data + 12, 2, 3]

/-- What is read of the headers for an event: addresses and ports. -/
def eventReads : List Nat :=
  List.range' 12 8 ++ List.range' (tcpOffset data) 4

/-- What is read after the pull: `ihl` again for the TCP header, the source for
the TCP monitor, the payload for the end of the header and for decoding, and the
addresses and ports if there is something to report. -/
def readsAfter (det : Detectors) : List Nat :=
  let scanned := scannedBytes beyond data
  0 :: List.range' 12 4 ++ List.range' (tcpOffset data) 2 ++
    kStrstrReads headerEnd scanned (scanOffset data) ++
    urlDecodeReads 4095 scanned (scanOffset data) ++
    if (det.scan (urlDecode 4095 scanned)).isSome then eventReads data else []

/-- The offsets `inspect_http_payload` reads before and after `pskb_may_pull`. -/
def inspectReads (det : Detectors) (mayPull : Nat → Bool) : List Nat × List Nat :=
  if payloadLen (ipHdr data) (tcpHdr data) ≤ 0 then (readsBefore data, [])
  else if mayPull (pullLen data) = false then (readsBefore data, [])
  else (readsBefore data, readsAfter beyond data det)

variable {beyond data} {det : Detectors} {mayPull : Nat → Bool}

theorem inspectReads_fst : (inspectReads beyond data det mayPull).1 = readsBefore data := by
  unfold inspectReads
  split
  · rfl
  · split
    · rfl
    · rfl

/-- Without a payload, or when the pull fails, nothing more is read. -/
theorem inspectReads_of_not_pulled
    (h : payloadLen (ipHdr data) (tcpHdr data) ≤ 0 ∨ mayPull (pullLen data) = false) :
    inspectReads beyond data det mayPull = (readsBefore data, []) := by
  unfold inspectReads
  split
  · rfl
  · rename_i hpos
    rw [if_pos (h.resolve_left hpos)]

theorem inspectReads_of_pulled (hpos : ¬ payloadLen (ipHdr data) (tcpHdr data) ≤ 0)
    (hpull : ¬ mayPull (pullLen data) = false) :
    inspectReads beyond data det mayPull = (readsBefore data, readsAfter beyond data det) :=
  (if_neg hpos).trans (if_neg hpull)

end Inspector

/-! ### The stretch that is read -/

theorem mem_compareReads {haystack needle : List UInt8} {i x : Nat}
    (h : x ∈ compareReads haystack needle i) : i ≤ x ∧ x < i + haystack.length := by
  induction haystack generalizing needle i with
  | nil => cases h
  | cons b haystack ih =>
      match needle with
      | [] => cases h
      | n :: needle =>
          rw [compareReads] at h
          rw [List.length_cons]
          rcases List.mem_cons.mp h with rfl | h
          · omega
          · split at h
            · have := ih h
              omega
            · cases h

/-- The search stays in its haystack. -/
theorem mem_kStrstrReads {needle haystack : List UInt8} {i x : Nat}
    (h : x ∈ kStrstrReads needle haystack i) : i ≤ x ∧ x < i + haystack.length := by
  induction haystack generalizing i with
  | nil => cases h
  | cons b haystack ih =>
      rw [kStrstrReads] at h
      split at h
      · cases h
      · rcases List.mem_append.mp h with h | h
        · exact mem_compareReads h
        · split at h
          · cases h
          · have := ih h
            rw [List.length_cons]
            omega

theorem mem_escapeReads {s : List UInt8} {i x : Nat} (hs : s ≠ []) (h : x ∈ escapeReads i s) :
    i ≤ x ∧ x < i + s.length := by
  unfold escapeReads at h
  split at h
  · simp only [List.length_cons]
    split at h
    · simp only [List.mem_cons] at h
      rcases h with rfl | rfl | h
      · omega
      · omega
      · split at h
        · rw [List.mem_singleton] at h
          omega
        · cases h
    · rw [List.mem_singleton] at h
      omega
  · rw [List.mem_singleton] at h
    have := List.length_pos_of_ne_nil hs
    omega

theorem self_mem_escapeReads (i : Nat) (s : List UInt8) : i ∈ escapeReads i s := by
  unfold escapeReads
  split
  · split <;> simp
  · simp

/-- A complete escape is read to its end. -/
theorem escapeReads_of_escape {s rest : List UInt8} {b : UInt8} (h : urlEscape s = some (b, rest))
    (i : Nat) : escapeReads i s = [i, i + 1, i + 2] ∧ s.length = rest.length + 3 := by
  unfold urlEscape at h
  split at h
  · split at h
    · rename_i hcond
      obtain ⟨-, rfl⟩ := Prod.mk.inj (Option.some.inj h)
      refine ⟨?_, rfl⟩
      rw [escapeReads, if_pos hcond.1, if_pos hcond.2.1]
    · cases h
  · cases h

/-- **Decoding reads all of its source**, and nothing else. -/
theorem mem_urlDecodeReads {room : Nat} {src : List UInt8} (hroom : src.length ≤ room) {i x : Nat} :
    x ∈ urlDecodeReads room src i ↔ i ≤ x ∧ x < i + src.length := by
  induction room generalizing src i with
  | zero =>
      obtain rfl := List.length_eq_zero_iff.mp (Nat.le_zero.mp hroom)
      rw [List.length_nil]
      constructor
      · intro h
        cases h
      · intro h
        omega
  | succ room ih =>
      match src with
      | [] =>
          rw [List.length_nil]
          constructor
          · intro h
            cases h
          · intro h
            omega
      | c :: src =>
          rw [urlDecodeReads, List.mem_append]
          rcases hescape : urlEscape (c :: src) with - | ⟨b, rest⟩
          · dsimp only
            rw [List.length_cons] at hroom
            rw [ih (by omega)]
            constructor
            · rintro (h | h)
              · exact mem_escapeReads (List.cons_ne_nil _ _) h
              · rw [List.length_cons]
                omega
            · rintro ⟨hle, hlt⟩
              rw [List.length_cons] at hlt
              rcases Nat.eq_or_lt_of_le hle with rfl | hlt'
              · exact Or.inl (self_mem_escapeReads _ _)
              · exact Or.inr ⟨hlt', by omega⟩
          · obtain ⟨hreads, hlen⟩ := escapeReads_of_escape hescape i
            dsimp only
            rw [hreads, ih (by omega), hlen]
            simp only [List.mem_cons, List.not_mem_nil, or_false]
            omega

/-! ### Inside the packet -/

section Bounds

variable (beyond : Nat → UInt8) (data : List UInt8)

theorem length_scannedBytes : (scannedBytes beyond data).length = scanLen data := by
  rw [scannedBytes, List.length_map, List.length_range]

/-- Inside the packet, the bytes scanned are those of the payload. -/
theorem scannedBytes_eq_scannedPart (h : scanOffset data + scanLen data ≤ data.length) :
    scannedBytes beyond data = scannedPart data := by
  have hlen : (scannedPart data).length = scanLen data := by
    unfold scannedPart payloadOf scanLen
    rw [List.length_take, List.length_take, List.length_drop]
    unfold scanOffset scanLen at h
    omega
  apply List.ext_getElem
  · rw [length_scannedBytes, hlen]
  · intro i h₁ h₂
    rw [length_scannedBytes] at h₁
    have hi : scanOffset data + i < data.length := by omega
    simp only [scannedBytes, List.getElem_map, List.getElem_range, scannedPart, payloadOf,
      List.getElem_take, List.getElem_drop]
    rw [List.getD_eq_getElem?_getD, List.getElem?_eq_getElem hi]
    rfl

/-- **What is read behind the pull**: the source fields, the scanned stretch, and
the addresses and ports where something is found.  The search for the end of the
header reads no further than the decoding. -/
theorem mem_readsAfter (det : Detectors) {i : Nat} :
    i ∈ readsAfter beyond data det ↔
      i = 0 ∨ (12 ≤ i ∧ i < 16) ∨ (tcpOffset data ≤ i ∧ i < tcpOffset data + 2) ∨
        (scanOffset data ≤ i ∧ i < scanOffset data + scanLen data) ∨
        (det.scan (urlDecode 4095 (scannedBytes beyond data))).isSome = true ∧
          ((12 ≤ i ∧ i < 20) ∨ (tcpOffset data ≤ i ∧ i < tcpOffset data + 4)) := by
  have hlen := length_scannedBytes beyond data
  have hroom : (scannedBytes beyond data).length ≤ 4095 := by
    rw [hlen]
    unfold scanLen
    omega
  have hsearch : i ∈ kStrstrReads headerEnd (scannedBytes beyond data) (scanOffset data) →
      scanOffset data ≤ i ∧ i < scanOffset data + scanLen data := by
    intro h
    have := mem_kStrstrReads h
    rwa [hlen] at this
  have hevent : i ∈ (if (det.scan (urlDecode 4095 (scannedBytes beyond data))).isSome then
        eventReads data else []) ↔
      (det.scan (urlDecode 4095 (scannedBytes beyond data))).isSome = true ∧
        ((12 ≤ i ∧ i < 20) ∨ (tcpOffset data ≤ i ∧ i < tcpOffset data + 4)) := by
    split
    · rename_i hfound
      rw [eventReads, List.mem_append, List.mem_range'_1, List.mem_range'_1, and_iff_right hfound]
    · rename_i hfound
      exact iff_of_false List.not_mem_nil fun h => hfound h.1
  unfold readsAfter
  dsimp only
  rw [List.mem_append, List.mem_append, List.mem_append, List.mem_append, List.mem_cons,
    List.mem_range'_1, List.mem_range'_1, mem_urlDecodeReads hroom, hlen, hevent]
  constructor
  · rintro (((((h | h) | h) | h) | h) | h)
    · exact Or.inl h
    · exact Or.inr (Or.inl h)
    · exact Or.inr (Or.inr (Or.inl h))
    · exact Or.inr (Or.inr (Or.inr (Or.inl (hsearch h))))
    · exact Or.inr (Or.inr (Or.inr (Or.inl h)))
    · exact Or.inr (Or.inr (Or.inr (Or.inr h)))
  · rintro (h | h | h | h | h)
    · exact Or.inl (Or.inl (Or.inl (Or.inl (Or.inl h))))
    · exact Or.inl (Or.inl (Or.inl (Or.inl (Or.inr h))))
    · exact Or.inl (Or.inl (Or.inl (Or.inr h)))
    · exact Or.inl (Or.inr h)
    · exact Or.inr h

/-- The reads behind the pull stay below a bound. -/
theorem readsAfter_lt_iff (det : Detectors) (hpos : 0 < payloadLen (ipHdr data) (tcpHdr data))
    (bound : Nat) :
    (∀ i ∈ readsAfter beyond data det, i < bound) ↔
      16 ≤ bound ∧ tcpOffset data + 2 ≤ bound ∧ scanOffset data + scanLen data ≤ bound ∧
        ((det.scan (urlDecode 4095 (scannedBytes beyond data))).isSome →
          20 ≤ bound ∧ tcpOffset data + 4 ≤ bound) := by
  have hscan : 0 < scanLen data := by
    unfold scanLen
    omega
  simp only [mem_readsAfter]
  constructor
  · intro h
    refine ⟨h 15 ?_, h (tcpOffset data + 1) ?_, ?_, fun hfound => ⟨h 19 ?_, h (tcpOffset data + 3) ?_⟩⟩
    · exact Or.inr (Or.inl ⟨by omega, by omega⟩)
    · exact Or.inr (Or.inr (Or.inl ⟨by omega, by omega⟩))
    · have := h (scanOffset data + scanLen data - 1)
        (Or.inr (Or.inr (Or.inr (Or.inl ⟨by omega, by omega⟩))))
      omega
    · exact Or.inr (Or.inr (Or.inr (Or.inr ⟨hfound, by omega⟩)))
    · exact Or.inr (Or.inr (Or.inr (Or.inr ⟨hfound, by omega⟩)))
  · rintro ⟨h₁, h₂, h₃, h₄⟩ i (h | h | h | h | ⟨hfound, h⟩)
    · omega
    · omega
    · omega
    · omega
    · have := h₄ hfound
      omega

end Bounds

/-! ### Nothing else is read -/

section Local

variable {beyond : Nat → UInt8} {data data' : List UInt8}

/-- Two packets with the same bytes at the offsets of a list. -/
def AgreeOn (reads : List Nat) (data data' : List UInt8) : Prop :=
  ∀ i ∈ reads, data[i]? = data'[i]?

theorem AgreeOn.getD {reads : List Nat} (h : AgreeOn reads data data') {i : Nat} (hi : i ∈ reads) :
    data.getD i 0 = data'.getD i 0 := by
  rw [List.getD_eq_getElem?_getD, h i hi, ← List.getD_eq_getElem?_getD]

/-- A stretch whose offsets are all in the list. -/
theorem AgreeOn.slice {reads : List Nat} (h : AgreeOn reads data data') {off k : Nat}
    (hsub : ∀ i, off ≤ i → i < off + k → i ∈ reads) :
    (data.drop off).take k = (data'.drop off).take k := by
  apply List.ext_getElem?
  intro i
  rw [List.getElem?_take, List.getElem?_take]
  split
  · rw [List.getElem?_drop, List.getElem?_drop]
    exact h _ (hsub _ (by omega) (by omega))
  · rfl

theorem AgreeOn.load_eq {reads : List Nat} (h : AgreeOn reads data data') (w : Nat) {off k : Nat}
    (hsub : ∀ i, off ≤ i → i < off + k → i ∈ reads) :
    loadAt w k off data = loadAt w k off data' := by
  unfold loadAt
  rw [h.slice hsub]

/-- Packets that agree before the pull have their payload in the same place. -/
theorem AgreeOn.payload_eq (h : AgreeOn (readsBefore data) data data') :
    tcpOffset data = tcpOffset data' ∧
      payloadOffset (ipHdr data) (tcpHdr data) = payloadOffset (ipHdr data') (tcpHdr data') ∧
      payloadLen (ipHdr data) (tcpHdr data) = payloadLen (ipHdr data') (tcpHdr data') := by
  have hihl : (ipHdr data).ihl = (ipHdr data').ihl :=
    congrArg (fun b : UInt8 => BitVec.ofNat 4 b.toNat) (h.getD (by simp [readsBefore]))
  have hoffset : tcpOffset data = tcpOffset data' := by
    unfold tcpOffset
    rw [hihl]
  have hdoff : (tcpHdr data).doff = (tcpHdr data').doff := by
    show BitVec.ofNat 4 ((data.getD (tcpOffset data + 12) 0).toNat / 16)
      = BitVec.ofNat 4 ((data'.getD (tcpOffset data' + 12) 0).toNat / 16)
    rw [← hoffset, h.getD (by simp [readsBefore])]
  have htot : (ipHdr data).totLen = (ipHdr data').totLen := by
    apply h.load_eq
    intro i hle hlt
    obtain rfl | rfl : i = 2 ∨ i = 3 := by omega
    · simp [readsBefore]
    · simp [readsBefore]
  have hpayload : payloadOffset (ipHdr data) (tcpHdr data)
      = payloadOffset (ipHdr data') (tcpHdr data') := by
    unfold payloadOffset
    rw [hihl, hdoff]
  refine ⟨hoffset, hpayload, ?_⟩
  unfold payloadLen
  rw [htot, hpayload]

/-- Packets that agree behind the pull too have the same source and scanned part. -/
theorem AgreeOn.source_eq {det : Detectors} (hbefore : AgreeOn (readsBefore data) data data')
    (hafter : AgreeOn (readsAfter beyond data det) data data') :
    scannedPart data = scannedPart data' ∧ (ipHdr data).saddr = (ipHdr data').saddr ∧
      (tcpHdr data).source = (tcpHdr data').source := by
  obtain ⟨htcp, hoffset, hlen⟩ := hbefore.payload_eq
  refine ⟨?_, ?_, ?_⟩
  · unfold scannedPart payloadOf
    rw [← hoffset, ← hlen, List.take_take, List.take_take]
    apply hafter.slice
    intro i hle hlt
    rw [mem_readsAfter]
    exact Or.inr (Or.inr (Or.inr (Or.inl ⟨hle, hlt⟩)))
  · apply hafter.load_eq
    intro i hle hlt
    rw [mem_readsAfter]
    exact Or.inr (Or.inl ⟨hle, hlt⟩)
  · show loadAt 16 2 (tcpOffset data) data = loadAt 16 2 (tcpOffset data') data'
    rw [← htcp]
    apply hafter.load_eq
    intro i hle hlt
    rw [mem_readsAfter]
    exact Or.inr (Or.inr (Or.inl ⟨hle, hlt⟩))

/-- Where something is found, they have the same destination. -/
theorem AgreeOn.dest_eq {det : Detectors} (hbefore : AgreeOn (readsBefore data) data data')
    (hafter : AgreeOn (readsAfter beyond data det) data data')
    (hfound : (det.scan (urlDecode 4095 (scannedBytes beyond data))).isSome = true) :
    (ipHdr data).daddr = (ipHdr data').daddr ∧ (tcpHdr data).dest = (tcpHdr data').dest := by
  refine ⟨?_, ?_⟩
  · apply hafter.load_eq
    intro i hle hlt
    rw [mem_readsAfter]
    exact Or.inr (Or.inr (Or.inr (Or.inr ⟨hfound, by omega⟩)))
  · show loadAt 16 2 (tcpOffset data + 2) data = loadAt 16 2 (tcpOffset data' + 2) data'
    rw [← hbefore.payload_eq.1]
    apply hafter.load_eq
    intro i hle hlt
    rw [mem_readsAfter]
    exact Or.inr (Or.inr (Or.inr (Or.inr ⟨hfound, by omega⟩)))

/-- **The inspector depends on what it reads.**  A packet with the same bytes at
those offsets is inspected with the same result. -/
theorem inspectHttpPayload_congr {det : Detectors} {mayPull : Nat → Bool}
    (hinside : scanOffset data + scanLen data ≤ data.length)
    (h : AgreeOn ((inspectReads beyond data det mayPull).1 ++ (inspectReads beyond data det mayPull).2)
      data data') (clock : Clock) (s : PathState) :
    inspectHttpPayload det mayPull clock s data = inspectHttpPayload det mayPull clock s data' := by
  have hbefore : AgreeOn (readsBefore data) data data' := by
    intro i hi
    apply h i
    rw [inspectReads_fst]
    exact List.mem_append_left _ hi
  obtain ⟨-, hoffset, hlen⟩ := hbefore.payload_eq
  unfold inspectHttpPayload
  dsimp only
  rw [← hoffset, ← hlen]
  by_cases hpos : payloadLen (ipHdr data) (tcpHdr data) ≤ 0
  · rw [if_pos hpos, if_pos hpos]
  rw [if_neg hpos, if_neg hpos]
  by_cases hpull : mayPull (pullLen data) = false
  · exact (if_pos hpull).trans (if_pos hpull).symm
  refine (if_neg hpull).trans (Eq.trans ?_ (if_neg hpull).symm)
  have hafter : AgreeOn (readsAfter beyond data det) data data' := by
    intro i hi
    apply h i
    rw [inspectReads_of_pulled hpos hpull]
    exact List.mem_append_right _ hi
  obtain ⟨hscanned, hsaddr, hsource⟩ := hbefore.source_eq hafter
  have hregister : registerHttp s.pool data = registerHttp s.pool data' := by
    unfold registerHttp
    rw [hscanned, hsaddr, hsource]
  rw [← hscanned, ← hregister]
  rcases hscan : det.scan (urlDecode 4095 (scannedPart data)) with - | f
  · rfl
  · have hfound : (det.scan (urlDecode 4095 (scannedBytes beyond data))).isSome = true := by
      rw [scannedBytes_eq_scannedPart beyond data hinside, hscan]
      rfl
    obtain ⟨hdaddr, hdest⟩ := hbefore.dest_eq hafter hfound
    dsimp only
    unfold Finding.report
    rw [hsaddr, hsource, hdaddr, hdest]

end Local

/-- Every read is inside the packet. -/
def ReadsInside (data : List UInt8) (reads : List Nat × List Nat) : Prop :=
  ∀ i ∈ reads.1 ++ reads.2, i < data.length

/-- What is read behind the pull was asked for. -/
def ReadsPulled (data : List UInt8) (reads : List Nat × List Nat) : Prop :=
  ∀ i ∈ reads.2, i < pullLen data

/-- **When an inspection stays inside the packet.**  For a packet that passes the
length checks: in the userspace build, exactly if it has no payload by its
headers, or if what is scanned of it is there.  In the kernel build, where a pull
succeeds for the linear bytes, exactly if there is no payload, the pull fails, or
the payload has at most 1024 bytes and the header fields read again are among the
bytes pulled. -/
theorem reads_inside_iff (det : Detectors) (beyond : Nat → UInt8) {data : List UInt8} {linear : Nat}
    (hip : 20 ≤ data.length) (htcp : tcpOffset data + 20 ≤ data.length)
    (hlinear : linear ≤ data.length) :
    let user := inspectReads beyond data det fun _ => true
    let kernel := inspectReads beyond data det fun n => n ≤ linear
    let payloadLen := payloadLen (ipHdr data) (tcpHdr data)
    (ReadsInside data user ↔
        payloadLen ≤ 0 ∨ scanOffset data + scanLen data ≤ data.length) ∧
      (ReadsInside data kernel ∧ ReadsPulled data kernel ↔
        payloadLen ≤ 0 ∨ linear < pullLen data ∨
          payloadLen ≤ 1024 ∧ 16 ≤ pullLen data ∧ tcpOffset data + 2 ≤ pullLen data ∧
            ((det.scan (urlDecode 4095 (scannedBytes beyond data))).isSome →
              20 ≤ pullLen data ∧ tcpOffset data + 4 ≤ pullLen data)) := by
  intro user kernel payloadLen
  have hbefore : ∀ i ∈ readsBefore data, i < data.length := by
    intro i hi
    simp only [readsBefore, List.mem_cons, List.not_mem_nil, or_false] at hi
    omega
  have hinside : ∀ after, ReadsInside data (readsBefore data, after) ↔
      ∀ i ∈ after, i < data.length := by
    intro after
    unfold ReadsInside
    rw [List.forall_mem_append]
    exact ⟨fun h => h.2, fun h => ⟨hbefore, h⟩⟩
  -- a build that reads nothing behind the pull meets both conditions
  have hnothing : ReadsInside data (readsBefore data, []) ∧ ReadsPulled data (readsBefore data, []) := by
    refine ⟨(hinside []).mpr ?_, ?_⟩
    · intro i hi
      cases hi
    · intro i hi
      cases hi
  by_cases hpos : payloadLen ≤ 0
  · have huser : user = (readsBefore data, []) := inspectReads_of_not_pulled (Or.inl hpos)
    have hkernel : kernel = (readsBefore data, []) := inspectReads_of_not_pulled (Or.inl hpos)
    rw [huser, hkernel]
    exact ⟨iff_of_true hnothing.1 (Or.inl hpos), iff_of_true hnothing (Or.inl hpos)⟩
  · have hpayload : 0 < payloadLen := by omega
    have huser : user = (readsBefore data, readsAfter beyond data det) :=
      inspectReads_of_pulled hpos (by simp)
    rw [huser, hinside, readsAfter_lt_iff beyond data det hpayload]
    constructor
    · rw [or_iff_right hpos]
      exact ⟨fun h => h.2.2.1, fun h => ⟨by omega, by omega, h, fun _ => ⟨by omega, by omega⟩⟩⟩
    · rw [or_iff_right hpos]
      by_cases hpull : pullLen data ≤ linear
      · have hkernel : kernel = (readsBefore data, readsAfter beyond data det) :=
          inspectReads_of_pulled hpos (by simpa using hpull)
        have hscan : scanOffset data + scanLen data ≤ pullLen data ↔ payloadLen ≤ 1024 := by
          show _ + min 2048 payloadLen.toNat ≤ _ + min 1024 payloadLen.toNat ↔ _
          omega
        rw [hkernel, hinside, ReadsPulled, readsAfter_lt_iff beyond data det hpayload,
          readsAfter_lt_iff beyond data det hpayload, hscan, or_iff_right (by omega)]
        constructor
        · rintro ⟨-, h₁, h₂, h₃, h₄⟩
          exact ⟨h₃, h₁, h₂, h₄⟩
        · rintro ⟨h₃, h₁, h₂, h₄⟩
          have := hscan.mpr h₃
          exact ⟨⟨by omega, by omega, by omega, fun _ => ⟨by omega, by omega⟩⟩, h₁, h₂, h₃, h₄⟩
      · have hkernel : kernel = (readsBefore data, []) :=
          inspectReads_of_not_pulled (Or.inr (by simpa using hpull))
        rw [hkernel]
        exact iff_of_true hnothing (Or.inl (by omega))

/-- A segment from 8.8.8.8 to port 80, with the total length its header gives. -/
def segmentOf (totLen : UInt8 × UInt8) (payload : List UInt8) : List UInt8 :=
  [0x45, 0, totLen.1, totLen.2, 0, 0, 0, 0, 64, 6, 0, 0, 8, 8, 8, 8, 10, 0, 0, 1,
    0x30, 0x39, 0, 80, 0, 0, 0, 1, 0, 0, 0, 0, 0x50, 0x10, 0x20, 0, 0, 0, 0, 0] ++ payload

/-- A request of 44 bytes whose header says so. -/
def shortRequest : List UInt8 := segmentOf (0, 44) (str "GET ")

/-- It is read inside, and what is read was pulled. -/
theorem reads_inside_shortRequest :
    20 ≤ shortRequest.length ∧ tcpOffset shortRequest + 20 ≤ shortRequest.length ∧
      ReadsInside shortRequest (inspectReads (fun _ => 0) shortRequest noDetectors fun _ => true) ∧
      ReadsPulled shortRequest
        (inspectReads (fun _ => 0) shortRequest noDetectors fun n => n ≤ 44) := by
  have hip : 20 ≤ shortRequest.length := by decide
  have htcp : tcpOffset shortRequest + 20 ≤ shortRequest.length := by decide
  have hlinear : 44 ≤ shortRequest.length := by decide
  obtain ⟨huser, hkernel⟩ := reads_inside_iff noDetectors (fun _ => 0) hip htcp hlinear
  refine ⟨hip, htcp, huser.mpr (Or.inr (by decide)), (hkernel.mpr (Or.inr (Or.inr ?_))).2⟩
  exact ⟨by decide, by decide, by decide, fun _ => by decide⟩

/-- The same request with a header that says 1500 bytes, and a segment of 1500
bytes. -/
def longHeader : List UInt8 := segmentOf (5, 220) (str "GET ")
def longRequest : List UInt8 := segmentOf (5, 220) (List.replicate 1460 65)

/-- The first is read behind its end in the userspace build; of the second, the
kernel build reads bytes it did not ask for. -/
theorem reads_leave_packet :
    (20 ≤ longHeader.length ∧ tcpOffset longHeader + 20 ≤ longHeader.length ∧
        ¬ ReadsInside longHeader
          (inspectReads (fun _ => 0) longHeader noDetectors fun _ => true)) ∧
      20 ≤ longRequest.length ∧ tcpOffset longRequest + 20 ≤ longRequest.length ∧
        ¬ ReadsPulled longRequest
          (inspectReads (fun _ => 0) longRequest noDetectors fun n => n ≤ 1500) := by
  have hlen : longRequest.length = 1500 := by
    rw [longRequest, segmentOf, List.length_append, List.length_replicate]
    rfl
  have hoffset : tcpOffset longRequest = 20 := by decide
  refine ⟨⟨by decide, by decide, ?_⟩, by omega, by omega, ?_⟩
  · intro h
    have hreads := (readsAfter_lt_iff (fun _ => 0) longHeader noDetectors (by decide)
      longHeader.length).mp fun i hi => h i (List.mem_append_right _ hi)
    exact absurd hreads.2.2.1 (by decide)
  · intro h
    have hreads := (readsAfter_lt_iff (fun _ => 0) longRequest noDetectors (by decide)
      (pullLen longRequest)).mp h
    exact absurd hreads.2.2.1 (by decide)

end Nullsploit
