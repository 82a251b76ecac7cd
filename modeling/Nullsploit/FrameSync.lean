/-
Nullsploit/FrameSync.lean

The agent's command reader on one connection to the SOC (`main` of
agent/fw_agent.c, "Process downstream commands from SOC server"), iteration after
iteration: where the headers it interprets start.

A frame that is read to its end, or a connection that is closed, keeps the reader on
the frames.  But a header with another magic, with a length of 16 MiB or more, or
for whose payload there is no memory is only passed over: the reader goes on behind
the header, with the payload.  `reader_synchronised_iff` says that this is the whole
story, for every stream and every run.
-/
import Mathlib.Data.List.Chain
import Nullsploit.AgentCommands

namespace Nullsploit

open Bytes

/-! ### One iteration -/

/-- The reader as `readCommand`, with the result of `malloc(payload_len)`. -/
def downstreamCommand (E : Equiv.Perm AesBlock) (allocated : Bool) (stream : List UInt8) :
    Downstream :=
  match readExact stream hdrSize with
  | none => .reset
  | some (hdr, stream) =>
      if hdrMagic hdr = magicHeader ∧ 0 < hdrPayloadLen hdr ∧ hdrPayloadLen hdr < 16777216 then
        if allocated then
          match readExact stream (hdrPayloadLen hdr) with
          | none => .reset
          | some (encrypted, stream) =>
              match aesDecrypt E encrypted with
              | some decrypted => .command (hdrMsgType hdr) decrypted stream
              | none => .ignored stream
        -- `continue`, with the payload still to be read
        else .ignored stream
      else .ignored stream

theorem downstreamCommand_true (E : Equiv.Perm AesBlock) (stream : List UInt8) :
    downstreamCommand E true stream = readCommand E stream := rfl

/-- What is left of the stream, if the connection stays open. -/
def Downstream.rest : Downstream → Option (List UInt8)
  | .reset => none
  | .ignored rest => some rest
  | .command _ _ rest => some rest

/-- The bytes the iteration takes, by the header. -/
def takenBytes (allocated : Bool) (hdr : List UInt8) : Nat :=
  if hdrMagic hdr = magicHeader ∧ hdrPayloadLen hdr < 16777216 ∧ allocated = true then
    hdrSize + hdrPayloadLen hdr
  else hdrSize

/-- It takes them or closes the connection. -/
theorem rest_downstreamCommand (E : Equiv.Perm AesBlock) (allocated : Bool) {stream : List UInt8}
    (h : hdrSize ≤ stream.length) :
    (downstreamCommand E allocated stream).rest =
      if takenBytes allocated (stream.take hdrSize) ≤ stream.length then
        some (stream.drop (takenBytes allocated (stream.take hdrSize)))
      else none := by
  -- passed over: the header alone is taken
  have hskip : takenBytes allocated (stream.take hdrSize) = hdrSize →
      (Downstream.ignored (stream.drop hdrSize)).rest =
        if takenBytes allocated (stream.take hdrSize) ≤ stream.length then
          some (stream.drop (takenBytes allocated (stream.take hdrSize)))
        else none := by
    intro htaken
    rw [htaken, if_pos h]
    rfl
  unfold downstreamCommand
  rw [readExact, if_pos h]
  dsimp only
  split
  · rename_i hpass
    cases allocated with
    | false =>
        exact hskip (if_neg fun hcond => absurd hcond.2.2 (by decide))
    | true =>
        have htaken : takenBytes true (stream.take hdrSize)
            = hdrSize + hdrPayloadLen (stream.take hdrSize) :=
          if_pos ⟨hpass.1, hpass.2.2, rfl⟩
        rw [htaken, if_pos rfl, readExact]
        by_cases hpayload : hdrPayloadLen (stream.take hdrSize) ≤ (stream.drop hdrSize).length
        · have hall : hdrSize + hdrPayloadLen (stream.take hdrSize) ≤ stream.length := by
            rw [List.length_drop] at hpayload
            omega
          rw [if_pos hpayload, if_pos hall, List.drop_drop]
          dsimp only
          split
          · rfl
          · rfl
        · have hshort : ¬ hdrSize + hdrPayloadLen (stream.take hdrSize) ≤ stream.length := by
            rw [List.length_drop] at hpayload
            omega
          rw [if_neg hpayload, if_neg hshort]
          rfl
  · rename_i hpass
    apply hskip
    unfold takenBytes
    split
    · -- only the length can be what stopped it
      rename_i hcond
      have hzero : hdrPayloadLen (stream.take hdrSize) = 0 := by
        by_contra hne
        exact hpass ⟨hcond.1, Nat.pos_of_ne_zero hne, hcond.2.1⟩
      rw [hzero]
      rfl
    · rfl

/-! ### Runs -/

/-- An iteration that interprets a header: where the header starts, its bytes, the
result of `malloc`, and where the reader goes on unless it closes the connection. -/
structure CommandStep where
  offset : Nat
  hdr : List UInt8
  allocated : Bool
  next : Option Nat
  deriving DecidableEq, Repr

/-- The iterations on one connection from an offset of the stream on, with the results
of `malloc` in them. -/
def commandRun (E : Equiv.Perm AesBlock) (stream : List UInt8) :
    List Bool → Nat → List CommandStep
  | [], _ => []
  | allocated :: later, offset =>
      match readExact (stream.drop offset) hdrSize with
      | none => []
      | some (hdr, _) =>
          match (downstreamCommand E allocated (stream.drop offset)).rest with
          -- closed, and whatever comes next is another connection
          | none => [⟨offset, hdr, allocated, none⟩]
          | some rest =>
              let next := stream.length - rest.length
              ⟨offset, hdr, allocated, some next⟩ :: commandRun E stream later next

/-- What the reader does with a header at an offset. -/
def stepAt (stream : List UInt8) (allocated : Bool) (offset : Nat) : CommandStep :=
  let hdr := (stream.drop offset).take hdrSize
  let next := offset + takenBytes allocated hdr
  ⟨offset, hdr, allocated, if next ≤ stream.length then some next else none⟩

theorem commandRun_cons (E : Equiv.Perm AesBlock) (stream : List UInt8) (allocated : Bool)
    (later : List Bool) (offset : Nat) :
    commandRun E stream (allocated :: later) offset =
      if offset + hdrSize ≤ stream.length then
        let step := stepAt stream allocated offset
        step :: match step.next with
          | none => []
          | some next => commandRun E stream later next
      else [] := by
  by_cases h : offset + hdrSize ≤ stream.length
  · have hhdr : hdrSize ≤ (stream.drop offset).length := by
      rw [List.length_drop]
      omega
    rw [commandRun, readExact, if_pos hhdr, if_pos h]
    dsimp only
    rw [rest_downstreamCommand E allocated hhdr]
    unfold stepAt
    dsimp only
    generalize takenBytes allocated ((stream.drop offset).take hdrSize) = taken
    by_cases hfits : offset + taken ≤ stream.length
    · have hleft : stream.length - ((stream.drop offset).drop taken).length = offset + taken := by
        rw [List.length_drop, List.length_drop]
        omega
      rw [if_pos (by rw [List.length_drop]; omega), if_pos hfits]
      dsimp only
      rw [hleft]
    · rw [if_neg (by rw [List.length_drop]; omega), if_neg hfits]
  · have hhdr : ¬ hdrSize ≤ (stream.drop offset).length := by
      rw [List.length_drop]
      unfold hdrSize at *
      omega
    rw [commandRun, readExact, if_neg hhdr, if_neg h]

variable {E : Equiv.Perm AesBlock} {stream : List UInt8} {allocations : List Bool} {offset : Nat}

/-- Each iteration does with its header what `stepAt` says. -/
theorem eq_stepAt_of_mem {s : CommandStep} (h : s ∈ commandRun E stream allocations offset) :
    ∃ allocated o, o + hdrSize ≤ stream.length ∧ s = stepAt stream allocated o := by
  induction allocations generalizing offset with
  | nil => cases h
  | cons allocated later ih =>
      rw [commandRun_cons] at h
      split at h
      · rename_i hhdr
        rcases List.mem_cons.mp h with rfl | h
        · exact ⟨allocated, offset, hhdr, rfl⟩
        · split at h
          · cases h
          · exact ih h
      · cases h

/-- A run starts at its offset. -/
theorem offset_of_head {s : CommandStep} (h : s ∈ (commandRun E stream allocations offset).head?) :
    s.offset = offset := by
  cases allocations with
  | nil => cases h
  | cons allocated later =>
      rw [commandRun_cons] at h
      split at h
      · obtain rfl := Option.some.inj h
        rfl
      · cases h

/-- Each iteration reads on where the one before stopped. -/
theorem isChain_commandRun :
    (commandRun E stream allocations offset).IsChain fun s t => s.next = some t.offset := by
  induction allocations generalizing offset with
  | nil => exact List.IsChain.nil
  | cons allocated later ih =>
      rw [commandRun_cons]
      split
      · dsimp only
        split
        · exact List.IsChain.singleton _
        · rename_i next hnext
          rw [List.isChain_cons]
          refine ⟨?_, ih⟩
          intro t ht
          rw [hnext, offset_of_head ht]
      · exact List.IsChain.nil

/-! ### Synchronisation -/

/-- A header the protocol allows. -/
def FrameOk (hdr : List UInt8) : Prop :=
  hdrMagic hdr = magicHeader ∧ hdrPayloadLen hdr < 16777216

/-- The end of the frame that the header announces. -/
def CommandStep.frameEnd (s : CommandStep) : Nat := s.offset + hdrSize + hdrPayloadLen s.hdr

/-- The reader is on the frames: the first header is at the beginning of the stream
and each further one right behind the frame of the one before; where it goes on, it
goes on there; and another magic or an unacceptable length closes the connection. -/
structure Synchronised (run : List CommandStep) : Prop where
  starts : ∀ s ∈ run.head?, s.offset = 0
  follows : run.IsChain fun s t => t.offset = s.frameEnd
  continues : ∀ s ∈ run, ∀ next, s.next = some next → next = s.frameEnd
  closes : ∀ s ∈ run, ¬ FrameOk s.hdr → s.next = none

/-- The iteration is none of those that pass over a header. -/
def CommandStep.Regular (s : CommandStep) : Prop :=
  FrameOk s.hdr ∧ (hdrPayloadLen s.hdr = 0 ∨ s.allocated = true)

/-- A regular iteration takes the frame, any other the header. -/
theorem takenBytes_of_regular {s : CommandStep} (h : s.Regular) :
    takenBytes s.allocated s.hdr = hdrSize + hdrPayloadLen s.hdr := by
  obtain ⟨hok, hmemory⟩ := h
  rcases hmemory with hzero | hallocated
  · unfold takenBytes
    rw [hzero, Nat.add_zero, ite_self]
  · exact if_pos ⟨hok.1, hok.2, hallocated⟩

theorem takenBytes_of_not_regular {s : CommandStep} (h : ¬ s.Regular) :
    takenBytes s.allocated s.hdr = hdrSize :=
  if_neg fun hcond => h ⟨⟨hcond.1, hcond.2.1⟩, Or.inr hcond.2.2⟩

theorem next_of_regular {allocated : Bool} (h : (stepAt stream allocated offset).Regular) :
    (stepAt stream allocated offset).next =
      if (stepAt stream allocated offset).frameEnd ≤ stream.length then
        some (stepAt stream allocated offset).frameEnd
      else none := by
  have hend : offset + takenBytes (stepAt stream allocated offset).allocated
      (stepAt stream allocated offset).hdr = (stepAt stream allocated offset).frameEnd := by
    rw [takenBytes_of_regular h, ← Nat.add_assoc]
    rfl
  rw [← hend]
  rfl

theorem next_of_not_regular {allocated : Bool} (h : ¬ (stepAt stream allocated offset).Regular)
    (hhdr : offset + hdrSize ≤ stream.length) :
    (stepAt stream allocated offset).next = some (offset + hdrSize) := by
  rw [← takenBytes_of_not_regular h] at hhdr ⊢
  exact if_pos hhdr

/-- The regular iterations, and no others, keep to the frames. -/
theorem regular_iff_of_mem {s : CommandStep} (h : s ∈ commandRun E stream allocations offset) :
    s.Regular ↔ (∀ next, s.next = some next → next = s.frameEnd) ∧
      (¬ FrameOk s.hdr → s.next = none) := by
  obtain ⟨allocated, o, hhdr, rfl⟩ := eq_stepAt_of_mem h
  constructor
  · intro hregular
    refine ⟨?_, fun hbad => absurd hregular.1 hbad⟩
    rw [next_of_regular hregular]
    intro next hsome
    split at hsome
    · exact (Option.some.inj hsome).symm
    · cases hsome
  · rintro ⟨hcontinues, hcloses⟩
    by_contra hnot
    have hnext := next_of_not_regular hnot hhdr
    -- the reader goes on behind the header, so the frame must be a good one without payload
    have hok : FrameOk (stepAt stream allocated o).hdr := by
      by_contra hbad
      rw [hcloses hbad] at hnext
      cases hnext
    have hend : o + hdrSize = o + hdrSize + hdrPayloadLen (stepAt stream allocated o).hdr :=
      hcontinues _ hnext
    exact hnot ⟨hok, Or.inl (by omega)⟩

/-- A run of regular iterations is synchronised, and no other. -/
theorem synchronised_iff_regular :
    Synchronised (commandRun E stream allocations 0) ↔
      ∀ s ∈ commandRun E stream allocations 0, s.Regular := by
  constructor
  · intro hsync s hs
    exact (regular_iff_of_mem hs).mpr ⟨hsync.continues s hs, hsync.closes s hs⟩
  · intro hregular
    have hcontinues : ∀ s ∈ commandRun E stream allocations 0, ∀ next, s.next = some next →
        next = s.frameEnd := fun s hs => ((regular_iff_of_mem hs).mp (hregular s hs)).1
    refine ⟨fun s hs => offset_of_head hs, ?_, hcontinues, ?_⟩
    · exact isChain_commandRun.imp_of_mem_imp fun s t hs _ hnext => hcontinues s hs _ hnext
    · intro s hs
      exact ((regular_iff_of_mem hs).mp (hregular s hs)).2

/-! ### Streams of frames -/

/-- The stream, cut at the frame ends from an offset on, consists of frames that the
reader takes: each header has the right magic and an acceptable length, and there is
memory for its payload. -/
def FramesOk (stream : List UInt8) : List Bool → Nat → Prop
  | [], _ => True
  | allocated :: later, offset =>
      offset + hdrSize ≤ stream.length →
        let hdr := (stream.drop offset).take hdrSize
        (FrameOk hdr ∧ (hdrPayloadLen hdr = 0 ∨ allocated = true)) ∧
          FramesOk stream later (offset + hdrSize + hdrPayloadLen hdr)

theorem framesOk_of_short (h : stream.length < offset + hdrSize) :
    FramesOk stream allocations offset := by
  cases allocations with
  | nil => trivial
  | cons allocated later => exact fun hhdr => absurd hhdr (Nat.not_le.mpr h)

/-- The iterations are regular as long as the frames are. -/
theorem forall_regular_iff :
    (∀ s ∈ commandRun E stream allocations offset, s.Regular) ↔
      FramesOk stream allocations offset := by
  induction allocations generalizing offset with
  | nil => exact ⟨fun _ => trivial, fun _ s hs => absurd hs List.not_mem_nil⟩
  | cons allocated later ih =>
      rw [commandRun_cons, FramesOk]
      by_cases hhdr : offset + hdrSize ≤ stream.length
      · rw [if_pos hhdr, List.forall_mem_cons, forall_prop_of_true hhdr]
        apply and_congr_right
        intro hregular
        rw [next_of_regular hregular]
        by_cases hfits : (stepAt stream allocated offset).frameEnd ≤ stream.length
        · rw [if_pos hfits]
          exact ih
        · rw [if_neg hfits]
          refine ⟨fun _ => framesOk_of_short ?_, fun _ s hs => absurd hs List.not_mem_nil⟩
          exact Nat.lt_of_lt_of_le (Nat.not_le.mp hfits) (Nat.le_add_right _ _)
      · rw [if_neg hhdr]
        exact ⟨fun _ h => absurd h hhdr, fun _ s hs => absurd hs List.not_mem_nil⟩

/-- **When the agent keeps to the frames.**  On every stream and in every run, the
reader is synchronised exactly if the stream is one of frames that it takes. -/
theorem reader_synchronised_iff (E : Equiv.Perm AesBlock) (stream : List UInt8)
    (allocations : List Bool) :
    Synchronised (commandRun E stream allocations 0) ↔ FramesOk stream allocations 0 :=
  synchronised_iff_regular.trans forall_regular_iff

/-- Frames as the receiver sends them, one after the other, are such a stream. -/
theorem framesOk_frames (fs : List Frame) (h : ∀ f ∈ fs, f.payload.length < 16777216) (n : Nat)
    (front : List UInt8) :
    FramesOk (front ++ fs.flatMap Frame.bytes) (List.replicate n true) front.length := by
  induction fs generalizing n front with
  | nil =>
      apply framesOk_of_short
      rw [List.flatMap_nil, List.append_nil]
      show front.length < front.length + 25
      omega
  | cons f fs ih =>
      cases n with
      | zero => trivial
      | succ n =>
          have hf := h f List.mem_cons_self
          have hhdr : ((front ++ (f :: fs).flatMap Frame.bytes).drop front.length).take hdrSize
              = f.header := by
            rw [List.drop_left, List.flatMap_cons, Frame.bytes, List.append_assoc,
              List.take_left' f.length_header]
          have hrest : front ++ (f :: fs).flatMap Frame.bytes
              = (front ++ f.bytes) ++ fs.flatMap Frame.bytes := by
            rw [List.flatMap_cons, List.append_assoc]
          rw [List.replicate_succ, FramesOk]
          intro _
          rw [hhdr]
          refine ⟨⟨⟨f.hdrMagic_header, ?_⟩, Or.inr rfl⟩, ?_⟩
          · rw [f.hdrPayloadLen_header (by omega)]
            exact hf
          · have hend : front.length + hdrSize + hdrPayloadLen f.header
                = (front ++ f.bytes).length := by
              rw [f.hdrPayloadLen_header (by omega), List.length_append, f.length_bytes,
                Nat.add_assoc]
            rw [hend, hrest]
            exact ih (fun g hg => h g (List.mem_cons_of_mem f hg)) n (front ++ f.bytes)

/-- With memory for their payloads the reader keeps to them. -/
theorem synchronised_on_frames (E : Equiv.Perm AesBlock) (fs : List Frame)
    (h : ∀ f ∈ fs, f.payload.length < 16777216) (n : Nat) :
    Synchronised (commandRun E (fs.flatMap Frame.bytes) (List.replicate n true) 0) := by
  rw [synchronised_iff_regular, forall_regular_iff]
  exact framesOk_frames fs h n []

/-! ### A command in a payload -/

/-- A command to block 10.0.0.1. -/
def hiddenCommand : Frame where
  agentUuid := List.replicate 16 0
  msgType := msgTypeBlockIp
  payload := aesEncrypt (Equiv.refl AesBlock) (fun _ => 0) [10, 0, 0, 1]
  uuid_length := rfl

/-- It is the payload of a frame with no magic. -/
def hidingStream : List UInt8 :=
  (beBytes 4 0 ++ (List.replicate 16 0 ++ (msgTypeBatch :: beBytes 4 57))) ++ hiddenCommand.bytes

/-- The reader passes over the header and executes the payload. -/
theorem hidden_command_executed :
    ¬ Synchronised (commandRun (Equiv.refl _) hidingStream [true, true] 0) ∧
      (commandRun (Equiv.refl _) hidingStream [true, true] 0).map CommandStep.offset = [0, 25] ∧
      downstreamCommand (Equiv.refl _) true (hidingStream.drop 25)
        = .command msgTypeBlockIp [10, 0, 0, 1] [] := by
  refine ⟨?_, by decide +kernel, ?_⟩
  · rw [synchronised_iff_regular, forall_regular_iff]
    intro hframes
    have hmagic := (hframes (by decide +kernel)).1.1.1
    exact absurd hmagic (by decide +kernel)
  · have hcommand := readCommand_frame (Equiv.refl _) (fun _ => 0) hiddenCommand rfl (by decide) []
    rw [List.append_nil] at hcommand
    have hpayload : hidingStream.drop 25 = hiddenCommand.bytes := List.drop_left' (by decide)
    rw [downstreamCommand_true, hpayload]
    exact hcommand

end Nullsploit
