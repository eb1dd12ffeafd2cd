import CivicConnect.Library.Bytes
import CivicConnect.Library.PrefixCode

/-!
# Framing

A frame is a length of two bytes, high byte first, and as many bytes of
payload. The reader and the writer work on streams that may fail; what a
stream holds is the list of the bytes that arrive before it ends.
-/

namespace CivicConnect.Odns

inductive ErrorKind where
  | unexpectedEof
  | invalidData
  | invalidInput
  | other
  deriving DecidableEq, Repr

structure IoError where
  kind : ErrorKind
  message : String
  deriving DecidableEq, Repr

/-- The error of a read past the last byte of an orderly stream. -/
def earlyEof : IoError := ⟨.unexpectedEof, "early eof"⟩

/-- What is written so far, and how the next operations will fare. -/
structure Sink where
  written : Bytes
  faults : List (Option IoError)
  deriving DecidableEq

namespace Sink

/-- An empty sink on which nothing fails. -/
def new : Sink := ⟨[], []⟩

def answer (s : Sink) : Except IoError Sink :=
  match s.faults with
  | [] => .ok s
  | none :: faults => .ok { s with faults := faults }
  | some err :: _ => .error err

def writeAll (s : Sink) (data : Bytes) : Except IoError Sink := do
  let s ← s.answer
  return { s with written := s.written ++ data }

def flush (s : Sink) : Except IoError Sink := s.answer

theorem answer_ok {s s' : Sink} (h : s.answer = .ok s') : s'.written = s.written := by
  rw [answer] at h
  split at h
  · cases h
    rfl
  · cases h
    rfl
  · cases h

theorem writeAll_ok {s s' : Sink} {data : Bytes} (h : s.writeAll data = .ok s') :
    s'.written = s.written ++ data := by
  obtain ⟨middle, hanswer, heq⟩ := Except.bind_ok_iff.mp h
  obtain rfl := Except.ok.inj heq
  rw [answer_ok hanswer]

end Sink

def maxPayload : ℕ := 65535

/-- `AsyncReadExt::read_exact`: `n` bytes off the stream, or the error with
which the stream ends. -/
def readExact (ending : IoError) (n : ℕ) (stream : Bytes) : Except IoError (FixedBytes n × Bytes) :=
  if h : n ≤ stream.length then .ok (⟨stream.take n, by simp [h]⟩, stream.drop n)
  else .error ending

def readFramed (ending : IoError) (stream : Bytes) : Except IoError (Bytes × Bytes) := do
  let (lenBuf, stream) ← readExact ending 2 stream
  let len := (Bytes.toU16 lenBuf).toNat
  if len = 0 then .error ⟨.invalidData, "zero-length message"⟩
  else
    let (buf, stream) ← readExact ending len stream
    return (buf.val, stream)

def payloadTooLarge (size : ℕ) : IoError :=
  ⟨.invalidInput, "payload too large: " ++ toString size ++ " > " ++ toString maxPayload⟩

def writeFramed (stream : Sink) (data : Bytes) : Except IoError Sink :=
  if maxPayload < data.length then .error (payloadTooLarge data.length)
  else do
    let len := Bytes.ofU16 (UInt16.ofNat data.length)
    let stream ← stream.writeAll len.val
    let stream ← stream.writeAll data
    stream.flush

/-- Call `readFramed` until nothing is left. -/
def readFrames (ending : IoError) (stream : Bytes) : Except IoError (List Bytes × Bytes) :=
  PrefixCode.readAll (readFramed ending) stream.length stream

def writeFrames : Sink → List Bytes → Except IoError Sink
  | stream, [] => .ok stream
  | stream, data :: payloads => do
      let stream ← writeFramed stream data
      writeFrames stream payloads

/-- The frame grammar: the length of the payload, high byte first, and the
payload. -/
def frame (payload : Bytes) : Bytes :=
  [UInt8.ofNat (payload.length / 256), UInt8.ofNat (payload.length % 256)] ++ payload

def IsPayload (payload : Bytes) : Prop := 1 ≤ payload.length ∧ payload.length ≤ 65535

theorem readExact_ok_iff {ending : IoError} {n : ℕ} {stream rest : Bytes} {buf : FixedBytes n} :
    readExact ending n stream = .ok (buf, rest) ↔ stream = buf.val ++ rest := by
  rw [readExact]
  constructor
  · intro h
    split at h
    · obtain ⟨rfl, rfl⟩ := Prod.mk.inj (Except.ok.inj h)
      exact (List.take_append_drop n stream).symm
    · cases h
  · rintro rfl
    have hle : n ≤ (buf.val ++ rest).length := by
      rw [List.length_append, buf.property]
      exact Nat.le_add_right _ _
    rw [dif_pos hle, Except.ok.injEq, Prod.mk.injEq]
    exact ⟨Subtype.ext (List.take_left' buf.property), List.drop_left' buf.property⟩

theorem ofU16_length {payload : Bytes} (h : payload.length ≤ 65535) :
    (Bytes.ofU16 (UInt16.ofNat payload.length)).val ++ payload = frame payload := by
  have hnat : (UInt16.ofNat payload.length).toNat = payload.length := by
    rw [UInt16.toNat_ofNat']
    omega
  rw [Bytes.ofU16, hnat, frame]

theorem readFramed_ok_iff {ending : IoError} {stream payload rest : Bytes} :
    readFramed ending stream = .ok (payload, rest) ↔
      IsPayload payload ∧ stream = frame payload ++ rest := by
  rw [readFramed, Except.bind_ok_iff]
  constructor
  · rintro ⟨⟨lenBuf, stream'⟩, hlen, hbody⟩
    rw [readExact_ok_iff] at hlen
    dsimp only at hbody
    split at hbody
    · cases hbody
    · next hne =>
        obtain ⟨⟨buf, stream''⟩, hbuf, heq⟩ := Except.bind_ok_iff.mp hbody
        obtain ⟨rfl, rfl⟩ := Prod.mk.inj (Except.ok.inj heq)
        rw [readExact_ok_iff] at hbuf
        have hbound := (Bytes.toU16 lenBuf).toNat_lt
        have hsize : buf.val.length ≤ 65535 := by
          rw [buf.property]
          omega
        have hprefix : Bytes.ofU16 (UInt16.ofNat buf.val.length) = lenBuf := by
          rw [buf.property, UInt16.ofNat_toNat, Bytes.ofU16_toU16]
        refine ⟨⟨?_, hsize⟩, ?_⟩
        · rw [buf.property]
          exact Nat.pos_of_ne_zero hne
        · rw [hlen, hbuf, ← ofU16_length hsize, hprefix, List.append_assoc]
  · rintro ⟨⟨hpos, hsize⟩, rfl⟩
    rw [← ofU16_length hsize, List.append_assoc]
    refine ⟨(Bytes.ofU16 (UInt16.ofNat payload.length), payload ++ rest),
      readExact_ok_iff.mpr rfl, ?_⟩
    have hnat : (UInt16.ofNat payload.length).toNat = payload.length := by
      rw [UInt16.toNat_ofNat']
      omega
    dsimp only
    rw [Bytes.toU16_ofU16, hnat, if_neg (Nat.ne_of_gt hpos)]
    exact Except.bind_ok_iff.mpr ⟨(⟨payload, rfl⟩, rest), readExact_ok_iff.mpr rfl, rfl⟩

/-- Frames are a self-delimiting code, and `readFramed` reads it. -/
theorem reads_frames (ending : IoError) :
    PrefixCode.Reads IsPayload frame (readFramed ending) where
  ok_iff _ _ _ := readFramed_ok_iff
  ne_nil _ _ := List.cons_ne_nil _ _

theorem writeFramed_ok {stream stream' : Sink} {data : Bytes}
    (h : writeFramed stream data = .ok stream') :
    data.length ≤ maxPayload ∧ stream'.written = stream.written ++ frame data := by
  rw [writeFramed] at h
  split at h
  · cases h
  · next hsize =>
      obtain ⟨first, hfirst, h⟩ := Except.bind_ok_iff.mp h
      obtain ⟨second, hsecond, hflush⟩ := Except.bind_ok_iff.mp h
      refine ⟨Nat.le_of_not_lt hsize, ?_⟩
      rw [Sink.answer_ok hflush, Sink.writeAll_ok hsecond, Sink.writeAll_ok hfirst,
        List.append_assoc, ofU16_length (Nat.le_of_not_lt hsize)]

/-- On a sink without faults the writer refuses nothing but an oversized
payload. -/
theorem writeFramed_new {data : Bytes} (h : data.length ≤ maxPayload) :
    writeFramed Sink.new data = .ok ⟨frame data, []⟩ := by
  rw [writeFramed, if_neg (Nat.not_lt.mpr h), ← ofU16_length h]
  rfl

theorem writeFrames_ok {stream stream' : Sink} {payloads : List Bytes}
    (h : writeFrames stream payloads = .ok stream') :
    (∀ p ∈ payloads, p.length ≤ maxPayload) ∧
      stream'.written = stream.written ++ payloads.flatMap frame := by
  induction payloads generalizing stream with
  | nil =>
      obtain rfl := Except.ok.inj h
      simp
  | cons data payloads ih =>
      obtain ⟨middle, hdata, hrest⟩ := Except.bind_ok_iff.mp h
      obtain ⟨hsize, hmiddle⟩ := writeFramed_ok hdata
      obtain ⟨hsizes, hwritten⟩ := ih hrest
      refine ⟨List.forall_mem_cons.mpr ⟨hsize, hsizes⟩, ?_⟩
      rw [hwritten, hmiddle, List.flatMap_cons, List.append_assoc]

/-- The reader accepts the frame grammar and nothing else: it takes off one
frame, byte for byte the one that the writer makes of the payload, and a
stream that does not begin with a frame is an error. So a stream has at most
one decomposition into frames, and reading until nothing is left finds it. -/
theorem readFramed_exact (ending : IoError) (stream : Bytes) :
    (∀ payload rest, readFramed ending stream = .ok (payload, rest) ↔
      IsPayload payload ∧ stream = frame payload ++ rest) ∧
    (∀ payload rest, readFramed ending stream = .ok (payload, rest) →
      stream.drop (2 + payload.length) = rest ∧
        writeFramed Sink.new payload = .ok ⟨stream.take (2 + payload.length), []⟩) ∧
    ((¬ ∃ payload rest, IsPayload payload ∧ stream = frame payload ++ rest) →
      ∃ err, readFramed ending stream = .error err) ∧
    (∀ payloads, readFrames ending stream = .ok (payloads, []) ↔
      PrefixCode.Decomposes IsPayload frame payloads stream) ∧
    ∀ payloads payloads', PrefixCode.Decomposes IsPayload frame payloads stream →
      PrefixCode.Decomposes IsPayload frame payloads' stream → payloads = payloads' := by
  have hreads := reads_frames ending
  refine ⟨fun _ _ => readFramed_ok_iff, ?_, ?_, hreads.readAll_ok_iff (Nat.le_refl _),
    fun _ _ => hreads.decomposes_unique⟩
  · intro payload rest hread
    obtain ⟨⟨_, hsize⟩, rfl⟩ := readFramed_ok_iff.mp hread
    have hlength : (frame payload).length = 2 + payload.length := by
      rw [frame, List.length_append]
      rfl
    refine ⟨List.drop_left' hlength, ?_⟩
    rw [List.take_left' hlength]
    exact writeFramed_new hsize
  · intro hnone
    cases hread : readFramed ending stream with
    | error err => exact ⟨err, rfl⟩
    | ok result => exact absurd ⟨_, _, readFramed_ok_iff.mp hread⟩ hnone

/-- What the writer accepted is read back exactly when no payload is empty:
the writer takes empty payloads, and the reader refuses their frames. -/
theorem frames_read_back_iff (ending : IoError) (faults : List (Option IoError))
    {payloads : List Bytes} {sink : Sink} (h : writeFrames ⟨[], faults⟩ payloads = .ok sink) :
    readFrames ending sink.written = .ok (payloads, []) ↔ ∀ p ∈ payloads, p ≠ [] := by
  obtain ⟨hsizes, hwritten⟩ := writeFrames_ok h
  rw [List.nil_append] at hwritten
  rw [readFrames, (reads_frames ending).readAll_ok_iff (Nat.le_refl _)]
  constructor
  · rintro ⟨hvalid, _⟩ p hp
    exact List.length_pos_iff.mp (hvalid p hp).1
  · intro hne
    exact ⟨fun p hp => ⟨List.length_pos_iff.mpr (hne p hp), hsizes p hp⟩, hwritten⟩

theorem frames_read_back_iff_pair :
    readFrames earlyEof [0, 1, 7, 0, 2, 8, 9] = .ok ([[7], [8, 9]], []) := by
  have hwrite : writeFrames ⟨[], []⟩ [[7], [8, 9]] = .ok ⟨[0, 1, 7, 0, 2, 8, 9], []⟩ := rfl
  exact (frames_read_back_iff earlyEof [] hwrite).mpr (by decide)

/-- An empty payload is written, and its frame stops the reader before the
payload that follows. -/
theorem empty_payload_unreadable :
    ¬ ∀ (ending : IoError) (faults : List (Option IoError)) (payloads : List Bytes) (sink : Sink),
      writeFrames ⟨[], faults⟩ payloads = .ok sink →
        readFrames ending sink.written = .ok (payloads, []) := by
  intro hback
  have hread := hback earlyEof [] [[], [7]] _ rfl
  cases hread

end CivicConnect.Odns
