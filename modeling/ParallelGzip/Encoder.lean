import ParallelGzip.Checksum
import ParallelGzip.Deflate.Stream
import ParallelGzip.Member.Frame
import ParallelGzip.Stream.Sink

set_option autoImplicit false

/-! # Encoder: one member written without workers

An encoder writes the header of its member with the first request and hands what it is given to a
stream that compresses it. Compressed data is written with the next request, through a buffer:
nothing is accepted while the buffer is full. Whatever the sink has not taken stays with the encoder
and is offered again. `compress` is the case of one request in memory. -/

namespace ParallelGzip

/-- An encoder on a sink. -/
structure Encoder (ω : Type) where
  sink : ω
  /-- What the sink has not taken of the header. -/
  header : Bytes
  /-- The compressed data. -/
  body : Deflate.Stream
  /-- Compressed data to be written next. -/
  buffer : Bytes
  /-- Compressed data behind that, for which the buffer has no room. -/
  held : Bytes
  /-- What the sink has not taken of the trailer, once the last block is compressed. -/
  tail : Option Bytes
  /-- The checksum of all bytes accepted. -/
  crc : UInt32
  /-- The number of all bytes accepted. -/
  size : Nat

namespace Encoder

/-- The length of the buffer. -/
def bufferSize : Nat := 32 * 1024

variable {ω : Type}

/-- An encoder that has not been given anything. -/
def new (sink : ω) (level : Nat) : Encoder ω where
  sink := sink
  header := Frame.wholeHeader level
  body := .new (Deflate.effort level)
  buffer := []
  held := []
  tail := none
  crc := 0
  size := 0

/-- Whether the buffer is full. -/
def isFull (e : Encoder ω) : Bool := bufferSize ≤ e.buffer.length

/-- Put compressed data behind the other. -/
def put (e : Encoder ω) (bytes : Bytes) : Encoder ω :=
  let all := e.buffer ++ e.held ++ bytes
  { e with buffer := all.take bufferSize, held := all.drop bufferSize }

/-- Accept bytes. -/
def accept (e : Encoder ω) (data : Bytes) : Encoder ω :=
  match e with
  | ⟨sink, header, body, buffer, held, tail, crc, size⟩ =>
    let (bytes, body) := body.give data
    put ⟨sink, header, body, buffer, held, tail, crc32 data crc, size + data.length⟩ bytes

/-- Accept as much of `data` as there is room for before the buffer is full; the number of bytes
    accepted comes first. -/
def take (e : Encoder ω) (data : Bytes) : Nat × Encoder ω :=
  if data = [] || e.isFull then (0, e)
  else
    let n := min data.length e.body.room
    let (more, e) := (e.accept (data.take n)).take (data.drop n)
    (n + more, e)
termination_by data.length
decreasing_by
  have := e.body.room_pos
  simp_all only [Bool.or_eq_true, decide_eq_true_eq, not_or, List.length_drop]
  have : 0 < data.length := List.length_pos_iff.2 (by simp_all)
  omega

/-- Compress what is pending. A full buffer ends this early, and then the compressed data need not
    be decodable up to the last byte accepted. -/
def sync (e : Encoder ω) : Encoder ω :=
  if e.isFull then e
  else
    match _h : e.body.part with
    | (bytes, body) =>
      let e' := { e with body := body }.put bytes
      if body.pending.size = 0 then e' else e'.sync
termination_by e.body.pending.size
decreasing_by
  have hpart := e.body.size_pending_part
  have hnone := e.body.pending_part
  rw [_h] at hpart hnone
  simp only [put] at *
  omega

/-- Compress what is pending, and end the compressed data, unless that is done already. -/
def endBody (e : Encoder ω) : Encoder ω :=
  match e.tail with
  | some _ => e
  | none =>
    let (bytes, body) := e.body.finish
    { e with body := body, tail := some (Frame.trailer e.crc e.size) }.put
      (bytes ++ Frame.emptyFinalBlock)

variable [Sink ω]

/-! ## Writing what is there -/

/-- Write what is left of the header. -/
def pushHeader (e : Encoder ω) : PushResult × Encoder ω :=
  match Sink.push e.sink e.header with
  | (result, rest, sink) => (result, { e with sink := sink, header := rest })

/-- Write the buffer, and fill it again as long as more than `least` bytes are held. -/
def pushBuffer (least : Nat) (e : Encoder ω) : PushResult × Encoder ω :=
  match Sink.push e.sink e.buffer with
  | (.done, _, sink) =>
    if least < e.held.length then
      pushBuffer least
        { e with
          sink := sink, buffer := e.held.take bufferSize, held := e.held.drop bufferSize }
    else (.done, { e with sink := sink, buffer := e.held, held := [] })
  | (result, rest, sink) => (result, { e with sink := sink, buffer := rest })
termination_by e.held.length
decreasing_by
  simp only [List.length_drop, bufferSize]
  omega

/-- Write the buffer until there is room in it. -/
def makeRoom (e : Encoder ω) : PushResult × Encoder ω :=
  match e.pushHeader with
  | (.done, e) => e.pushBuffer (bufferSize - 1)
  | stopped => stopped

/-- Write all compressed data. -/
def pushBody (e : Encoder ω) : PushResult × Encoder ω := e.pushBuffer 0

/-- Write what is left of the trailer. -/
def pushTail (e : Encoder ω) : PushResult × Encoder ω :=
  match Sink.push e.sink (e.tail.getD []) with
  | (result, rest, sink) => (result, { e with sink := sink, tail := some rest })

/-! ## Requests -/

/-- Offer bytes. Some of them are accepted unless something is left that cannot be written. -/
def write (e : Encoder ω) (data : Bytes) : WriteResult × Encoder ω :=
  match e.makeRoom with
  | (.done, e) =>
    let (n, e) := e.take data
    (.wrote n, e)
  | (.interrupted cause, e) => (.interrupted cause, e)
  | (.failed cause, e) => (.failed cause, e)
  | (.panicked, e) => (.panicked, e)

/-- Pushing as part of a request that is not made again after an interruption. -/
def settled : PushResult → FlushResult
  | .done => .done
  | .interrupted cause => .failed cause
  | .failed cause => .failed cause
  | .panicked => .panicked

/-- Compress what is pending, write all compressed data, and tell the sink to pass it on. -/
def flush (e : Encoder ω) : FlushResult × Encoder ω :=
  match e.pushHeader with
  | (.done, e) =>
    match e.sync.pushBody with
    | (.done, e) =>
      let (result, sink) := Sink.flush e.sink
      (result, { e with sink := sink })
    | (result, e) => (settled result, e)
  | (result, e) => (settled result, e)

/-- Write the compressed data to its end. -/
def finishBody (e : Encoder ω) : PushResult × Encoder ω :=
  match e.pushBody with
  | (.done, e) => e.endBody.pushBody
  | stopped => stopped

/-- Write the member to its end. -/
def finish (e : Encoder ω) : FlushResult × Encoder ω :=
  match e.pushHeader with
  | (.done, e) =>
    match e.finishBody with
    | (.done, e) =>
      match e.pushTail with
      | (result, e) => (settled result, e)
    | (result, e) => (settled result, e)
  | (result, e) => (settled result, e)

/-- Write as much of the member as can be written, and let go of the sink. The compressed data is
    tried once more even if the header could not be written. -/
def release (e : Encoder ω) : Encoder ω :=
  let e := e.finish.2.finishBody.2
  { e with sink := Sink.release e.sink }

/-- Write the member to its end, tell the sink to pass it on, and let go of the sink. -/
def close (e : Encoder ω) : FlushResult × Encoder ω :=
  match e.finish with
  | (.done, e) =>
    let (result, sink) := Sink.flush e.sink
    (result, { e with sink := Sink.release sink })
  | (result, e) => (result, e.release)

/-! ## An encoder is a sink -/

/-- How many interruptions come while buffers are written. -/
def bufferInterruptions (least : Nat) (sink : ω) (buffer held : Bytes) : Nat :=
  Sink.interruptions sink buffer +
    if least < held.length then
      bufferInterruptions least (Sink.writeAll sink buffer).2 (held.take bufferSize)
        (held.drop bufferSize)
    else 0
termination_by held.length
decreasing_by
  simp only [List.length_drop, bufferSize]
  omega

/-- How many interruptions come while room is made. -/
def patience (e : Encoder ω) : Nat :=
  Sink.interruptions e.sink e.header
    + bufferInterruptions (bufferSize - 1) (Sink.writeAll e.sink e.header).2 e.buffer e.held

theorem bufferInterruptions_pushBuffer (least : Nat) (e : Encoder ω) ⦃cause : IoError⦄
    (h : (e.pushBuffer least).1 = .interrupted cause) :
    (e.pushBuffer least).2.header = e.header ∧
      bufferInterruptions least (e.pushBuffer least).2.sink (e.pushBuffer least).2.buffer
          (e.pushBuffer least).2.held
        < bufferInterruptions least e.sink e.buffer e.held := by
  fun_induction pushBuffer least e with
  | case1 e rest sink hp hl ih =>
    obtain ⟨_, hw, hn⟩ := Sink.writeAll_of_push_done hp
    rw [bufferInterruptions.eq_def least e.sink, if_pos hl, hw, hn, Nat.zero_add]
    exact ih h
  | case2 => cases h
  | case3 e result rest sink _ hp =>
    subst h
    obtain ⟨hw, hn⟩ := Sink.writeAll_of_push_interrupted hp
    refine ⟨rfl, ?_⟩
    rw [bufferInterruptions.eq_def least e.sink, bufferInterruptions.eq_def least sink, hw, hn]
    simp only
    omega

theorem patience_makeRoom (e : Encoder ω) ⦃cause : IoError⦄
    (h : e.makeRoom.1 = .interrupted cause) : e.makeRoom.2.patience < e.patience := by
  rcases hp : Sink.push e.sink e.header with ⟨result, rest, sink⟩
  have hh : e.pushHeader = (result, { e with sink := sink, header := rest }) := by
    rw [pushHeader, hp]
  rw [makeRoom, hh] at h ⊢
  cases result with
  | done =>
    obtain ⟨rfl, hw, hn⟩ := Sink.writeAll_of_push_done hp
    obtain ⟨hheader, hlt⟩ := bufferInterruptions_pushBuffer _ _ h
    have hz (w : ω) : Sink.interruptions w [] = 0 := by rw [Sink.interruptions, if_pos rfl]
    have he (w : ω) : Sink.writeAll w [] = (.done, w) := by rw [Sink.writeAll, if_pos rfl]
    simp only at hheader hlt ⊢
    simp only [patience, hheader, hz, he, hw, hn]
    exact Nat.add_lt_add_left hlt 0
  | interrupted =>
    obtain ⟨hw, hn⟩ := Sink.writeAll_of_push_interrupted hp
    simp only [patience, hw, hn]
    omega
  | failed _ | panicked => cases h

theorem patience_write (e : Encoder ω) (data : Bytes) ⦃cause : IoError⦄
    (h : (e.write data).1 = .interrupted cause) :
    (e.write data).2.patience < e.patience := by
  have hp := @patience_makeRoom ω _ e cause
  rw [write] at h ⊢
  split at h
  · cases h
  · next cause' e' he =>
    rw [he] at hp
    cases h
    exact hp rfl
  · cases h
  · cases h

instance : Sink (Encoder ω) where
  write := write
  flush := flush
  release := release
  patience := patience
  patience_write := patience_write

end Encoder

/-! ## Whole values in memory -/

/-- Compress into one member. -/
def compress (data : Bytes) (level : Nat) : Except Error Bytes := do
  let level ← validateLevel level
  match Sink.writeAll (Encoder.new (#[] : Array UInt8) level) data with
  | (.done, e) =>
    match e.finish with
    | (.done, e) => return e.sink.toList
    | (.failed cause, _) => throw (.ofIo cause)
    | (.panicked, _) => throw (.internal "memory cannot panic")
  | (.failed cause, _) => throw (.ofIo cause)
  | (.panicked, _) => throw (.internal "memory cannot panic")

end ParallelGzip
