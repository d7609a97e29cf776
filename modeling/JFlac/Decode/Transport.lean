import JFlac.Decode.Machine

/-!
# Transport callbacks

How libFLAC reads from a `java.io.InputStream` or a `SeekableByteChannel`. Byte offsets given to
libFLAC are relative to the channel position captured at open.
-/

namespace JFlac.Decode

open Machine

/-- `decode_channel_read_callback`. -/
def decodeChannelReadCallback (J : Jvm) (bytes : ℕ) (m : Machine) (calls : List TransportCall) :
    ReadReply × Machine × List TransportCall :=
  if m.exceptionCheck then (.abort, m, calls)
  else if !m.context.source.seekableChannel || bytes == 0 then (.abort, m, calls)
  else if intMax < bytes then
    (.abort, m.throwDecode "SeekableByteChannel read request is too large for one ByteBuffer.",
      calls)
  else
    match m.callTransport J (.newDirectByteBuffer bytes) calls with
    | (none, m, calls) => (.abort, m, calls)
    | (some _, m, calls) =>
      match m.callTransport J (.channelRead bytes) calls with
      | (none, m, calls) => (.abort, m, calls)
      | (some read, m, calls) =>
        if read.value < 0 then (.endOfStream, m, calls)
        else if read.value = 0 then
          -- no progress on a blocking read would make libFLAC spin
          (.abort,
            m.throwDecode "SeekableByteChannel returned zero bytes for a non-empty read request.",
            calls)
        else (.cont read.value.toNat read.bytes, m, calls)

/-- `decode_read_callback`, which hands over to the channel when there is one. -/
def decodeReadCallback (J : Jvm) (bytes : ℕ) (m : Machine) (calls : List TransportCall) :
    ReadReply × Machine × List TransportCall :=
  if m.context.source.seekableChannel then decodeChannelReadCallback J bytes m calls
  else if m.exceptionCheck then (.abort, m, calls)
  else if !m.context.source.inputStream || bytes == 0 then (.abort, m, calls)
  else if intMax < bytes then
    (.abort, m.throwDecode "InputStream read request is too large for one JVM ByteArray.", calls)
  else
    match m.callTransport J (.newByteArray bytes) calls with
    | (none, m, calls) => (.abort, m, calls)
    | (some _, m, calls) =>
      match m.callTransport J (.inputRead bytes) calls with
      | (none, m, calls) => (.abort, m, calls)
      | (some read, m, calls) =>
        if read.value < 0 then (.endOfStream, m, calls)
        else if read.value = 0 then
          (.abort, m.throwDecode "InputStream returned zero bytes for a non-empty read request.",
            calls)
        else
          -- raises when the stream claims more bytes than the array holds
          match m.callTransport J (.getByteArrayRegion read.value) calls with
          | (none, m, calls) => (.abort, m, calls)
          | (some _, m, calls) => (.cont read.value.toNat read.bytes, m, calls)

/-- `decode_channel_seek_callback`; the flag is `SEEK_STATUS_OK`. -/
def decodeChannelSeekCallback (J : Jvm) (absoluteByteOffset : ℕ) (m : Machine)
    (calls : List TransportCall) : Bool × Machine × List TransportCall :=
  let base := m.context.source.channelBaseOffset
  if !m.context.source.seekableChannel || (longMax - base).toNat < absoluteByteOffset then
    (false, m, calls)
  else
    match m.callTransport J (.setPosition (base + absoluteByteOffset)) calls with
    | (none, m, calls) => (false, m, calls)
    | (some _, m, calls) => (true, m, calls)

/-- The common body of the tell and length callbacks: a position of the channel relative to the
base offset. -/
def channelOffset (J : Jvm) (call : TransportCall) (m : Machine) (calls : List TransportCall) :
    OffsetReply × Machine × List TransportCall :=
  if !m.context.source.seekableChannel then (none, m, calls)
  else
    match m.callTransport J call calls with
    | (none, m, calls) => (none, m, calls)
    | (some position, m, calls) =>
      if position.value < m.context.source.channelBaseOffset then (none, m, calls)
      else (some (position.value - m.context.source.channelBaseOffset).toNat, m, calls)

/-- `decode_channel_tell_callback`. -/
def decodeChannelTellCallback (J : Jvm) : Machine → List TransportCall →
    OffsetReply × Machine × List TransportCall :=
  channelOffset J .position

/-- `decode_channel_length_callback`. -/
def decodeChannelLengthCallback (J : Jvm) : Machine → List TransportCall →
    OffsetReply × Machine × List TransportCall :=
  channelOffset J .size

/-- `decode_channel_eof_callback`: an exception is reported as the end, so that libFLAC unwinds. -/
def decodeChannelEofCallback (J : Jvm) (m : Machine) (calls : List TransportCall) :
    Bool × Machine × List TransportCall :=
  if !m.context.source.seekableChannel then (true, m, calls)
  else
    match m.callTransport J .position calls with
    | (none, m, calls) => (true, m, calls)
    | (some position, m, calls) =>
      match m.callTransport J .size calls with
      | (none, m, calls) => (true, m, calls)
      | (some size, m, calls) => (decide (size.value ≤ position.value), m, calls)

/-- Dispatches a transport callback. -/
def handleTransport (J : Jvm) : (callback : TransportCallback) → Machine → List TransportCall →
    TransportReply callback × Machine × List TransportCall
  | .read bytes => decodeReadCallback J bytes
  | .seek offset => decodeChannelSeekCallback J offset
  | .tell => decodeChannelTellCallback J
  | .length => decodeChannelLengthCallback J
  | .eof => decodeChannelEofCallback J

/-! ## What a transport callback can do -/

/-- The effect of a transport callback on the machine: nothing, or an exception where none was
pending before. -/
inductive TransportStep : Machine → Machine → Prop
  | unchanged (m : Machine) : TransportStep m m
  | threw (m : Machine) (exception : Throwable) (hnone : m.pending = none) :
      TransportStep m
        { m with pending := some exception, history := m.history ++ [.transportThrew exception] }
  | raised (m : Machine) (exception : Throwable) (hnone : m.pending = none) :
      TransportStep m (m.raise exception)

/-- The result of a transport call: it succeeded without touching the machine, or it failed. -/
theorem callTransport_cases (J : Jvm) (call : TransportCall) (m : Machine)
    (calls : List TransportCall) :
    (∃ value, m.callTransport J call calls = (some value, m, calls ++ [call])) ∨
    ∃ m' calls', m.callTransport J call calls = (none, m', calls') ∧ TransportStep m m' := by
  unfold callTransport
  cases hp : m.pending with
  | some exception =>
    rw [if_pos (by simp [exceptionCheck, hp])]
    exact .inr ⟨m, calls, rfl, .unchanged m⟩
  | none =>
    rw [if_neg (by simp [exceptionCheck, hp])]
    cases J.transport calls call with
    | ok value => exact .inl ⟨value, rfl⟩
    | error exception => exact .inr ⟨_, _, rfl, .threw m exception hp⟩

theorem pending_eq_none {m : Machine} (h : ¬ m.exceptionCheck = true) : m.pending = none := by
  simpa [exceptionCheck] using h

theorem decodeChannelReadCallback_step (J : Jvm) (bytes : ℕ) (m : Machine)
    (calls : List TransportCall) :
    TransportStep m (decodeChannelReadCallback J bytes m calls).2.1 := by
  unfold decodeChannelReadCallback
  split
  · exact .unchanged m
  rename_i hcheck
  have hnone := pending_eq_none hcheck
  split
  · exact .unchanged m
  split
  · exact .raised m _ hnone
  obtain ⟨_, hbuffer⟩ | ⟨m', calls', hbuffer, hstep⟩ :=
    callTransport_cases J (.newDirectByteBuffer bytes) m calls
  · simp only [hbuffer]
    obtain ⟨read, hread⟩ | ⟨m', calls', hread, hstep⟩ :=
      callTransport_cases J (.channelRead bytes) m (calls ++ [.newDirectByteBuffer bytes])
    · simp only [hread]
      split
      · exact .unchanged m
      · split
        · exact .raised m _ hnone
        · exact .unchanged m
    · simpa only [hread] using hstep
  · simpa only [hbuffer] using hstep

theorem decodeReadCallback_step (J : Jvm) (bytes : ℕ) (m : Machine) (calls : List TransportCall) :
    TransportStep m (decodeReadCallback J bytes m calls).2.1 := by
  unfold decodeReadCallback
  split
  · exact decodeChannelReadCallback_step J bytes m calls
  split
  · exact .unchanged m
  rename_i hcheck
  have hnone := pending_eq_none hcheck
  split
  · exact .unchanged m
  split
  · exact .raised m _ hnone
  obtain ⟨_, harray⟩ | ⟨m', calls', harray, hstep⟩ :=
    callTransport_cases J (.newByteArray bytes) m calls
  · simp only [harray]
    obtain ⟨read, hread⟩ | ⟨m', calls', hread, hstep⟩ :=
      callTransport_cases J (.inputRead bytes) m (calls ++ [.newByteArray bytes])
    · simp only [hread]
      split
      · exact .unchanged m
      split
      · exact .raised m _ hnone
      obtain ⟨_, hregion⟩ | ⟨m', calls', hregion, hstep⟩ :=
        callTransport_cases J (.getByteArrayRegion read.value) m
          (calls ++ [.newByteArray bytes] ++ [.inputRead bytes])
      · simpa only [hregion] using .unchanged m
      · simpa only [hregion] using hstep
    · simpa only [hread] using hstep
  · simpa only [harray] using hstep

theorem decodeChannelSeekCallback_step (J : Jvm) (offset : ℕ) (m : Machine)
    (calls : List TransportCall) :
    TransportStep m (decodeChannelSeekCallback J offset m calls).2.1 := by
  unfold decodeChannelSeekCallback
  dsimp only
  split
  · exact .unchanged m
  obtain ⟨_, hseek⟩ | ⟨m', calls', hseek, hstep⟩ :=
    callTransport_cases J (.setPosition (m.context.source.channelBaseOffset + offset)) m calls
  · simpa only [hseek] using .unchanged m
  · simpa only [hseek] using hstep

theorem channelOffset_step (J : Jvm) (call : TransportCall) (m : Machine)
    (calls : List TransportCall) : TransportStep m (channelOffset J call m calls).2.1 := by
  unfold channelOffset
  split
  · exact .unchanged m
  obtain ⟨position, hcall⟩ | ⟨m', calls', hcall, hstep⟩ := callTransport_cases J call m calls
  · simp only [hcall]
    split <;> exact .unchanged m
  · simpa only [hcall] using hstep

theorem decodeChannelEofCallback_step (J : Jvm) (m : Machine) (calls : List TransportCall) :
    TransportStep m (decodeChannelEofCallback J m calls).2.1 := by
  unfold decodeChannelEofCallback
  split
  · exact .unchanged m
  obtain ⟨position, hposition⟩ | ⟨m', calls', hposition, hstep⟩ :=
    callTransport_cases J .position m calls
  · simp only [hposition]
    obtain ⟨size, hsize⟩ | ⟨m', calls', hsize, hstep⟩ :=
      callTransport_cases J .size m (calls ++ [.position])
    · simpa only [hsize] using .unchanged m
    · simpa only [hsize] using hstep
  · simpa only [hposition] using hstep

/-- Whatever libFLAC asks of the transport, the decode context stays as it is and a pending
exception stays pending. -/
theorem handleTransport_step (J : Jvm) (callback : TransportCallback) (m : Machine)
    (calls : List TransportCall) :
    TransportStep m (handleTransport J callback m calls).2.1 := by
  cases callback with
  | read bytes => exact decodeReadCallback_step J bytes m calls
  | seek offset => exact decodeChannelSeekCallback_step J offset m calls
  | tell => exact channelOffset_step J .position m calls
  | length => exact channelOffset_step J .size m calls
  | eof => exact decodeChannelEofCallback_step J m calls

end JFlac.Decode
