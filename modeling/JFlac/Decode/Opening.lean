import JFlac.Decode.Effects

/-!
# Opening a source

Everything an operation does before libFLAC runs callbacks: lookups, allocations, the transport
reference and the decoder settings. Each step only adds internal events. When it succeeds, nothing
is pending and the context is known; when it fails, its events explain why.
-/

namespace JFlac.Decode

open Machine

variable {D : Type}

/-- The record grew by internal events. -/
abbrev AddsInternal : Machine → Machine → Prop := Adds fun e => e.isInternal = true

/-- The record grew by internal events, one of which explains the exception now pending. -/
structure Rejected (m m' : Machine) : Prop where
  explained : ∃ extra, m'.history = m.history ++ extra ∧ (∀ e ∈ extra, e.isInternal = true) ∧
    ∃ e ∈ extra, e.isFailure = true
  raised : m'.pending ≠ none

namespace Rejected

variable {m m' m'' : Machine}

theorem adds (h : Rejected m m') : AddsInternal m m' := by
  obtain ⟨extra, hhistory, hinternal, -⟩ := h.explained
  exact ⟨extra, hhistory, hinternal⟩

theorem single {event : Event} (hhistory : m'.history = m.history ++ [event])
    (hinternal : event.isInternal = true) (hfailure : event.isFailure = true)
    (hraised : m'.pending ≠ none) : Rejected m m' :=
  ⟨⟨[event], hhistory, by simpa using hinternal, by simpa using hfailure⟩, hraised⟩

theorem throwDecode (message : String) : Rejected m (m.throwDecode message) :=
  .single (throwDecode_history _ _) rfl rfl (by simp)

theorem throwIllegalArgument (message : String) : Rejected m (m.throwIllegalArgument message) :=
  .single (throwIllegalArgument_history _ _) rfl rfl (by simp)

theorem after (h : Rejected m' m'') (hadds : AddsInternal m m') : Rejected m m'' := by
  obtain ⟨extra, hhistory, hinternal⟩ := hadds
  obtain ⟨extra', hhistory', hinternal', e, he, hfailure⟩ := h.explained
  exact ⟨⟨extra ++ extra', by rw [hhistory', hhistory, List.append_assoc],
    fun e he => (List.mem_append.mp he).elim (hinternal e) (hinternal' e), e,
    List.mem_append_right _ he, hfailure⟩, h.raised⟩

theorem before (h : Rejected m m') (hadds : AddsInternal m' m'') (hraised : m''.pending ≠ none) :
    Rejected m m'' := by
  obtain ⟨extra, hhistory, hinternal, e, he, hfailure⟩ := h.explained
  obtain ⟨extra', hhistory', hinternal'⟩ := hadds
  exact ⟨⟨extra ++ extra', by rw [hhistory', hhistory, List.append_assoc],
    fun e he => (List.mem_append.mp he).elim (hinternal e) (hinternal' e), e,
    List.mem_append_left _ he, hfailure⟩, hraised⟩

theorem withContext (h : Rejected m m') (c : DecodeContext) : Rejected m (m'.withContext c) :=
  ⟨h.explained, h.raised⟩

end Rejected

/-- As long as nothing is pending, nothing has failed. -/
def Machine.Calm (m : Machine) : Prop := m.pending = none → ∀ e ∈ m.history, e.isFailure = false

theorem Machine.Calm.callJava {m : Machine} (h : m.Calm) (J : Jvm) (call : JavaCall) :
    (m.callJava J call).Calm := by
  intro hnone e he
  cases hpending : m.pending with
  | some exception =>
    rw [callJava_skipped J call hpending, record_pending, hpending] at hnone
    cases hnone
  | none =>
    rcases callJava_cases J call hpending with heq | ⟨exception, heq⟩
    · rw [heq, record_history] at he
      refine (List.mem_append.mp he).elim (h hpending e) fun he => ?_
      rw [List.mem_singleton.mp he]
      rfl
    · rw [heq] at hnone
      cases hnone

/-- A step of the opening: on success nothing is pending and the context is `c`. -/
structure Prepares (m : Machine) (success : Bool) (m' : Machine) (c : DecodeContext) : Prop where
  adds : AddsInternal m m'
  pending : success = true → m'.pending = none
  context : success = true → m'.context = c
  rejected : success = false → Rejected m m'
  calm : m.Calm → m'.Calm

theorem Prepares.of_rejected {m m' : Machine} {c : DecodeContext} (h : Rejected m m') :
    Prepares m false m' c := ⟨h.adds, nofun, nofun, fun _ => h, fun _ hnone => absurd hnone h.raised⟩

/-! ## Lookups and references -/

theorem resolve_prepares (J : Jvm) (calls : List JavaCall)
    (hcalls : ∀ call ∈ calls, ∀ outcome, (Event.java call outcome).isInternal = true)
    {m : Machine} (hnone : m.pending = none) :
    Prepares m (m.resolve J calls).1 (m.resolve J calls).2 m.context := by
  have hfold : ∀ m : Machine,
      let m' := calls.foldl (fun m call => m.callJava J call) m
      AddsInternal m m' ∧ m'.context = m.context ∧
        (m.pending = none → m'.pending ≠ none → Rejected m m') ∧ (m.Calm → m'.Calm) := by
    induction calls with
    | nil => exact fun m => ⟨.refl m, rfl, fun h h' => absurd h h', id⟩
    | cons call calls ih =>
      intro m
      obtain ⟨hadds, hcontext, hrejected, hcalm⟩ :=
        ih (fun c hc => hcalls c (List.mem_cons_of_mem _ hc)) (m.callJava J call)
      have hfirst : AddsInternal m (m.callJava J call) :=
        .callJava J (hcalls call List.mem_cons_self) m
      refine ⟨hfirst.trans hadds, hcontext.trans (callJava_context J call m), ?_,
        fun h => hcalm (h.callJava J call)⟩
      intro hm hpending
      rcases callJava_cases J call hm with heq | ⟨exception, heq⟩
      · exact (hrejected (by rw [heq]; exact hm) hpending).after hfirst
      · have hthrew : Rejected m (m.callJava J call) := by
          rw [heq]
          exact .single rfl (hcalls call List.mem_cons_self (.threw exception)) rfl (by simp)
        exact hthrew.before hadds hpending
  obtain ⟨hadds, hcontext, hrejected, hcalm⟩ := hfold m
  refine ⟨hadds, fun h => by simpa [resolve, exceptionCheck] using h, fun _ => hcontext, ?_, hcalm⟩
  intro h
  refine hrejected hnone fun hm => ?_
  rw [resolve, exceptionCheck_eq_false.mpr hm] at h
  cases h

theorem callJavaObject_prepares (J : Jvm) (call : JavaCall)
    (hcall : ∀ outcome, (Event.java call outcome).isInternal = true) {m : Machine}
    (hnone : m.pending = none) :
    Prepares m (m.callJavaObject J call).1 (m.callJavaObject J call).2 m.context :=
  resolve_prepares J [call] (by simpa using hcall) hnone

theorem prepareDecodeContext_prepares (J : Jvm) {m : Machine} (hnone : m.pending = none) :
    Prepares m (prepareDecodeContext J m).1 (prepareDecodeContext J m).2 m.context.prepared := by
  unfold prepareDecodeContext
  have hclass := callJavaObject_prepares J .getObjectClass (fun _ => rfl) hnone
  generalize m.callJavaObject J .getObjectClass = consumerClass at hclass
  dsimp only
  split
  · rename_i hfailed
    exact .of_rejected (hclass.rejected (by simpa using hfailed))
  rename_i hsuccess
  have hsuccess : consumerClass.1 = true := by simpa using hsuccess
  have hmethods := resolve_prepares J [.getMethodID "onStreamInfo",
    .getMethodID "onPcmInterleaved", .getMethodID "onComplete"] (by simp [Event.isInternal])
    (hclass.pending hsuccess)
  generalize consumerClass.2.resolve J _ = methods at hmethods
  refine ⟨hclass.adds.trans hmethods.adds, hmethods.pending, fun h => ?_,
    fun h => ((hmethods.rejected h).after hclass.adds).withContext _,
    fun h => hmethods.calm (hclass.calm h)⟩
  rw [withContext_context, hmethods.context h, hclass.context hsuccess]

/-- A path that cannot be encoded ends the operation with an exception. -/
theorem jstringToUtf8_cases (J : Jvm) {m : Machine} (hnone : m.pending = none) (message : String) :
    ((jstringToUtf8 J m).1 = true ∧ AddsInternal m (jstringToUtf8 J m).2 ∧
      (jstringToUtf8 J m).2.pending = none ∧ (m.Calm → (jstringToUtf8 J m).2.Calm)) ∨
    ((jstringToUtf8 J m).1 = false ∧
      Rejected m (if !(jstringToUtf8 J m).2.exceptionCheck then
        (jstringToUtf8 J m).2.throwDecode message else (jstringToUtf8 J m).2)) := by
  unfold jstringToUtf8
  have hpath := callJavaObject_prepares J .encodePath (fun _ => rfl) hnone
  generalize m.callJavaObject J .encodePath = bytes at hpath
  dsimp only
  by_cases hbytes : bytes.1 = true
  · have hpending := hpath.pending hbytes
    cases hmalloc : J.mallocFails bytes.2.history with
    | false => exact .inl ⟨by simp [hbytes], hpath.adds, hpending, hpath.calm⟩
    | true =>
      refine .inr ⟨by simp, ?_⟩
      rw [if_pos (by simp [exceptionCheck, hpending])]
      exact .after (.throwDecode message) hpath.adds
  · refine .inr ⟨by simp [hbytes], ?_⟩
    split
    · exact .after (.throwDecode message) hpath.adds
    · exact hpath.rejected (by simpa using hbytes)

/-! ## Transports -/

/-- The context over another source. -/
def DecodeContext.withSource (c : DecodeContext) (source : Source) : DecodeContext :=
  { c with source := source }

/-- The context of a decode that reads an `InputStream`. -/
def DecodeContext.withInputStream (c : DecodeContext) : DecodeContext :=
  c.withSource { c.source with inputStream := true }

/-- The context of a decode that reads a channel opened at the given position. -/
def DecodeContext.withChannel (c : DecodeContext) (position : ℤ) : DecodeContext :=
  c.withSource { c.source with channelBaseOffset := position, seekableChannel := true }

theorem prepareDecodeInputStream_prepares (J : Jvm) {m : Machine} (hnone : m.pending = none) :
    Prepares m (prepareDecodeInputStream J m).1 (prepareDecodeInputStream J m).2
      m.context.withInputStream := by
  unfold prepareDecodeInputStream
  have hclass := callJavaObject_prepares J .getObjectClass (fun _ => rfl) hnone
  generalize m.callJavaObject J .getObjectClass = inputClass at hclass
  dsimp only
  split
  · rename_i hfailed
    exact .of_rejected (hclass.rejected (by simpa using hfailed))
  rename_i hsuccess
  have hsuccess : inputClass.1 = true := by simpa using hsuccess
  have hmethod := callJavaObject_prepares J (.getMethodID "read") (fun _ => rfl)
    (m := inputClass.2.withContext inputClass.2.context.withInputStream)
    (hclass.pending hsuccess)
  refine ⟨hclass.adds.trans hmethod.adds, hmethod.pending, fun h => ?_,
    fun h => (hmethod.rejected h).after hclass.adds, fun h => hmethod.calm (hclass.calm h)⟩
  rw [← hclass.context hsuccess]
  exact hmethod.context h

/-- A transport call that fails with nothing pending has raised. -/
theorem callTransport_none {J : Jvm} {call : TransportCall} {m m' : Machine}
    {calls calls' : List TransportCall} (hnone : m.pending = none)
    (h : m.callTransport J call calls = (none, m', calls')) : Rejected m m' := by
  unfold callTransport at h
  rw [if_neg (by simp [exceptionCheck, hnone])] at h
  cases hthrows : J.transport calls call with
  | ok value =>
    rw [hthrows] at h
    cases h
  | error exception =>
    rw [hthrows] at h
    cases h
    exact .single rfl rfl rfl (by simp)

/-- A transport call that answers is recorded. -/
theorem callTransport_some {J : Jvm} {call : TransportCall} {m m' : Machine}
    {calls calls' : List TransportCall} {value : TransportValue}
    (h : m.callTransport J call calls = (some value, m', calls')) :
    calls' = calls ++ [call] ∧ J.transport calls call = .ok value := by
  unfold callTransport at h
  split at h
  · cases h
  · cases hanswer : J.transport calls call with
    | ok answer =>
      rw [hanswer] at h
      cases h
      exact ⟨rfl, rfl⟩
    | error exception =>
      rw [hanswer] at h
      cases h

theorem prepareDecodeSeekableChannel_prepares (J : Jvm) {m : Machine} (hnone : m.pending = none)
    (calls : List TransportCall) :
    ∃ position, Prepares m (prepareDecodeSeekableChannel J m calls).1
        (prepareDecodeSeekableChannel J m calls).2.1 (m.context.withChannel position) ∧
      ((prepareDecodeSeekableChannel J m calls).1 = true →
        (prepareDecodeSeekableChannel J m calls).2.2 = calls ++ [.position] ∧
          ∃ bytes, J.transport calls .position = .ok ⟨position, bytes⟩) := by
  unfold prepareDecodeSeekableChannel
  have hclasses := resolve_prepares J [.findClass "java/nio/channels/ReadableByteChannel",
    .findClass "java/nio/channels/SeekableByteChannel"] (by simp [Event.isInternal]) hnone
  generalize m.resolve J _ = classes at hclasses
  dsimp only
  split
  · rename_i hfailed
    exact ⟨0, .of_rejected (hclasses.rejected (by simpa using hfailed)), by simp⟩
  rename_i hclassesTrue
  have hclassesTrue : classes.1 = true := by simpa using hclassesTrue
  have hmethods := resolve_prepares J [.getMethodID "read", .getMethodID "position",
    .getMethodID "position", .getMethodID "size"] (by simp [Event.isInternal])
    (hclasses.pending hclassesTrue)
  generalize classes.2.resolve J _ = methods at hmethods
  split
  · rename_i hfailed
    exact ⟨0, .of_rejected ((hmethods.rejected (by simpa using hfailed)).after hclasses.adds),
      by simp⟩
  rename_i hmethodsTrue
  have hmethodsTrue : methods.1 = true := by simpa using hmethodsTrue
  have hchannel := callJavaObject_prepares J .newGlobalRef (fun _ => rfl)
    (hmethods.pending hmethodsTrue)
  generalize methods.2.callJavaObject J .newGlobalRef = channel at hchannel
  have hadds := hclasses.adds.trans hmethods.adds
  split
  · rename_i hfailed
    exact ⟨0, .of_rejected ((hchannel.rejected (by simpa using hfailed)).after hadds), by simp⟩
  rename_i hchannelTrue
  have hchannelTrue : channel.1 = true := by simpa using hchannelTrue
  have hchannelNone := hchannel.pending hchannelTrue
  have hadds := hadds.trans hchannel.adds
  have hcontext : channel.2.context = m.context := by
    rw [hchannel.context hchannelTrue, hmethods.context hmethodsTrue,
      hclasses.context hclassesTrue]
  obtain ⟨position, hposition⟩ | ⟨m', calls', hposition, -⟩ :=
    callTransport_cases J .position channel.2 calls
  · rw [hposition]
    dsimp only
    split
    · exact ⟨0, .of_rejected (.after (.single (throwDecode_history _ _) rfl rfl (by simp)) hadds),
        by simp⟩
    · refine ⟨position.value, ⟨hadds.trans (.refl _), fun _ => hchannelNone, fun _ => ?_, by simp,
        fun h => hchannel.calm (hmethods.calm (hclasses.calm h))⟩, fun _ => ?_⟩
      · rw [withContext_context, ← hcontext]
        rfl
      · obtain ⟨hcalls, hanswer⟩ := callTransport_some hposition
        exact ⟨hcalls, position.bytes, hanswer⟩
  · rw [hposition]
    exact ⟨0, .of_rejected ((callTransport_none hchannelNone hposition).after hadds), by simp⟩

/-- The three transports of a pull session. -/
theorem preparePullTransport_prepares (J : Jvm) (transport : Transport) {m : Machine}
    (hnone : m.pending = none) :
    ∃ source, Prepares m (preparePullTransport J transport m).1
      (preparePullTransport J transport m).2.1 (m.context.withSource source) := by
  cases transport with
  | file => exact ⟨m.context.source, .refl m, fun _ => hnone, fun _ => rfl, nofun, id⟩
  | seekableChannel =>
    obtain ⟨position, hchannel, -⟩ := prepareDecodeSeekableChannel_prepares J hnone []
    exact ⟨_, hchannel⟩
  | inputStream =>
    unfold preparePullTransport
    have hstream := prepareDecodeInputStream_prepares J hnone
    generalize prepareDecodeInputStream J m = stream at hstream
    dsimp only
    split
    · rename_i hfailed
      have hfailed : stream.1 = false := by simpa using hfailed
      exact ⟨m.context.source, .of_rejected (hstream.rejected hfailed)⟩
    rename_i hsuccess
    have hsuccess : stream.1 = true := by simpa using hsuccess
    have hreference := callJavaObject_prepares J .newGlobalRef (fun _ => rfl)
      (hstream.pending hsuccess)
    generalize stream.2.callJavaObject J .newGlobalRef = reference at hreference
    split
    · rename_i hfailed
      have hfailed : reference.1 = false := by simpa using hfailed
      exact ⟨m.context.source, .of_rejected ((hreference.rejected hfailed).after hstream.adds)⟩
    · rename_i hfound
      have hfound : reference.1 = true := by simpa using hfound
      refine ⟨{ m.context.withInputStream.source with inputStreamIsGlobal := true },
        hstream.adds.trans hreference.adds, fun _ => hreference.pending hfound,
        fun _ => ?_, nofun, fun h => hreference.calm (hstream.calm h)⟩
      rw [withContext_context, hreference.context hfound, hstream.context hsuccess]
      rfl

/-! ## Decoder settings -/

/-- Decoder settings either leave the machine alone or raise. -/
theorem configureDecoderChaining_cases (F : LibFlac D) (container : ℤ) (decodeChainedOgg : Bool)
    (decoder : D) (m : Machine) :
    (∃ d, configureDecoderChaining F container decodeChainedOgg decoder m = (some d, m) ∧
      if decodeChainedOgg then container = containerOgg ∧ F.setDecodeChainedStream decoder = some d
      else d = decoder) ∨
      ∃ m', configureDecoderChaining F container decodeChainedOgg decoder m = (none, m') ∧
        Rejected m m' := by
  unfold configureDecoderChaining
  cases decodeChainedOgg with
  | false => exact .inl ⟨decoder, rfl, rfl⟩
  | true =>
    rw [if_neg (by simp)]
    split
    · exact .inr ⟨_, rfl, .throwIllegalArgument _⟩
    rename_i hcontainer
    split
    · rename_i d hset
      exact .inl ⟨d, rfl, not_not.mp hcontainer, hset⟩
    · exact .inr ⟨_, rfl, .throwDecode _⟩

theorem configureDecoderMd5Checking_cases (F : LibFlac D) (checkMd5 : Bool) (decoder : D)
    (m : Machine) :
    (∃ d, configureDecoderMd5Checking F checkMd5 decoder m = (some d, m) ∧
      if checkMd5 then F.setMd5Checking decoder = some d else d = decoder) ∨
      ∃ m', configureDecoderMd5Checking F checkMd5 decoder m = (none, m') ∧ Rejected m m' := by
  unfold configureDecoderMd5Checking
  cases checkMd5 with
  | false => exact .inl ⟨decoder, rfl, rfl⟩
  | true =>
    rw [if_neg (by simp)]
    split
    · rename_i d hset
      exact .inl ⟨d, rfl, hset⟩
    · exact .inr ⟨_, rfl, .throwDecode _⟩

/-! ## One-shot operations up to the initialised decoder -/

/-- The context a one-shot decode hands to libFLAC. -/
def DecodeRequest.context (request : DecodeRequest) (source : Source) : DecodeContext :=
  ((oneShotContext request).prepared.configureDecodeRange request.firstSample
    request.rangeLimited request.maxFrames).withSource source

/-- The decoder of a request is allocated, configured and initialised. -/
structure LibFlac.Configures (F : LibFlac D) (transport : Transport) (request : DecodeRequest)
    (decoder : D) : Prop where
  configures : ∃ d₀ d₁ d₂, F.new = some d₀ ∧
    (if request.decodeChainedOgg then
      request.container = containerOgg ∧ F.setDecodeChainedStream d₀ = some d₁ else d₁ = d₀) ∧
    (if request.checkMd5 then F.setMd5Checking d₁ = some d₂ else d₂ = d₁) ∧
    F.init transport request.container d₂ = some decoder

/-- What a transport has been asked when libFLAC begins to read from it, and the source fields that
the context has then. -/
def Transport.Opens (J : Jvm) (source : Source) (calls : List TransportCall) : Transport → Prop
  | .file => source = DecodeContext.zero.source ∧ calls = []
  | .inputStream => source = { DecodeContext.zero.source with inputStream := true } ∧ calls = []
  | .seekableChannel => calls = [.position] ∧ ∃ position bytes,
      J.transport [] .position = .ok ⟨position, bytes⟩ ∧ source =
        { DecodeContext.zero.source with channelBaseOffset := position, seekableChannel := true }

/-- A one-shot decode is rejected with an exception, or it reaches its initialised decoder with the
context of its request. -/
inductive OneShot (F : LibFlac D) (J : Jvm) (fuel : ℕ) (transport : Transport)
    (request : DecodeRequest) : Outcome → Prop
  | rejected (m : Machine) (h : Rejected .start m) : OneShot F J fuel transport request ⟨true, m⟩
  | initialised (source : Source) (s : Stream D) (m : Machine) (hadds : AddsInternal .start m)
      (hnone : m.pending = none) (hcontext : m.context = request.context source)
      (hrequest : rejectRequest request = none) (hcalm : m.Calm)
      (hopens : transport.Opens J source s.transportCalls)
      (hconfigures : F.Configures transport request s.decoder) :
      OneShot F J fuel transport request
        (decodeInitialised F J fuel ("FLAC " ++ transport.label ++ "decoding") request s m)

theorem decodePrepared_oneShot (F : LibFlac D) (J : Jvm) (fuel : ℕ) (transport : Transport)
    {request : DecodeRequest} (hrequest : rejectRequest request = none) {source : Source}
    {calls : List TransportCall} (hopens : transport.Opens J source calls) {m : Machine}
    (hadds : AddsInternal .start m) (hnone : m.pending = none)
    (hcontext : m.context = (oneShotContext request).prepared.withSource source) (hcalm : m.Calm) :
    OneShot F J fuel transport request (decodePrepared F J fuel transport request calls m) := by
  unfold decodePrepared
  dsimp only
  generalize hconfigured : m.withContext _ = m'
  have hadds' : AddsInternal .start m' := by
    rw [← hconfigured]
    exact hadds.trans (.of_history rfl)
  have hnone' : m'.pending = none := by rw [← hconfigured]; exact hnone
  have hcalm' : m'.Calm := by rw [← hconfigured]; exact hcalm
  have hcontext' : m'.context = request.context source := by
    rw [← hconfigured, withContext_context, hcontext]
    rfl
  split
  · exact .rejected _ (.after (.throwDecode _) hadds')
  rename_i decoder hnew
  obtain ⟨d, hchaining, hchained⟩ | ⟨m₁, hchaining, hrejected⟩ :=
    configureDecoderChaining_cases F request.container request.decodeChainedOgg decoder m'
  · rw [hchaining]
    dsimp only
    obtain ⟨d', hmd5, hchecks⟩ | ⟨m₁, hmd5, hrejected⟩ :=
      configureDecoderMd5Checking_cases F request.checkMd5 d m'
    · rw [hmd5]
      dsimp only
      split
      · exact .rejected _ (.after (.throwDecode _) hadds')
      · rename_i decoder' hinit
        exact .initialised source ⟨decoder', calls⟩ m' hadds' hnone' hcontext' hrequest hcalm' hopens
          ⟨decoder, d, d', hnew, hchained, hchecks, hinit⟩
    · rw [hmd5]
      exact .rejected _ (hrejected.after hadds')
  · rw [hchaining]
    exact .rejected _ (hrejected.after hadds')

theorem decodeFileInternal_oneShot (F : LibFlac D) (J : Jvm) (fuel : ℕ) (path consumer : Bool)
    (request : DecodeRequest) :
    OneShot F J fuel .file request (decodeFileInternal F J fuel path consumer request) := by
  unfold decodeFileInternal
  dsimp only
  split
  · exact .rejected _ (.throwIllegalArgument _)
  split
  · exact .rejected _ (.throwIllegalArgument _)
  split
  · exact .rejected _ (.throwIllegalArgument _)
  rename_i hrequest
  obtain ⟨hpath, hadds, hnone, hcalm⟩ | ⟨hpath, hrejected⟩ :=
    jstringToUtf8_cases J (m := .start) rfl "Failed to encode file path to UTF-8."
  swap
  · rw [if_pos (by simp [hpath])]
    exact .rejected _ hrejected
  rw [if_neg (by simp [hpath])]
  have hcalm : (jstringToUtf8 J .start).2.Calm := hcalm (by simp [Machine.Calm, Machine.start])
  generalize (jstringToUtf8 J .start).2 = m at hadds hnone hcalm
  have hcontext := prepareDecodeContext_prepares J
    (m := m.withContext (oneShotContext request)) hnone
  have hadds : AddsInternal .start (m.withContext (oneShotContext request)) :=
    hadds.trans (.of_history rfl)
  generalize prepareDecodeContext J _ = context at hcontext
  split
  · rename_i hfailed
    exact .rejected _ ((hcontext.rejected (by simpa using hfailed)).after hadds)
  rename_i hsuccess
  have hsuccess : context.1 = true := by simpa using hsuccess
  exact decodePrepared_oneShot F J fuel .file hrequest ⟨rfl, rfl⟩ (hadds.trans hcontext.adds)
    (hcontext.pending hsuccess) (hcontext.context hsuccess) (hcontext.calm hcalm)

theorem decodeChannelInternal_oneShot (F : LibFlac D) (J : Jvm) (fuel : ℕ)
    (channel consumer : Bool) (request : DecodeRequest) :
    OneShot F J fuel .seekableChannel request
      (decodeChannelInternal F J fuel channel consumer request) := by
  unfold decodeChannelInternal
  dsimp only
  split
  · exact .rejected _ (.throwIllegalArgument _)
  split
  · exact .rejected _ (.throwIllegalArgument _)
  split
  · exact .rejected _ (.throwIllegalArgument _)
  rename_i hrequest
  have hcontext := prepareDecodeContext_prepares J
    (m := Machine.start.withContext (oneShotContext request)) rfl
  have hadds : AddsInternal .start (Machine.start.withContext (oneShotContext request)) :=
    .of_history rfl
  generalize prepareDecodeContext J _ = context at hcontext
  split
  · rename_i hfailed
    exact .rejected _ ((hcontext.rejected (by simpa using hfailed)).after hadds)
  rename_i hsuccess
  have hsuccess : context.1 = true := by simpa using hsuccess
  have hadds := hadds.trans hcontext.adds
  have hcalm := hcontext.calm (by simp [Machine.Calm, Machine.start])
  obtain ⟨position, hchannel, hposition⟩ :=
    prepareDecodeSeekableChannel_prepares J (hcontext.pending hsuccess) []
  generalize prepareDecodeSeekableChannel J context.2 [] = r at hchannel hposition
  obtain ⟨success, m, calls⟩ := r
  cases success with
  | false => exact .rejected _ ((hchannel.rejected rfl).after hadds)
  | true =>
    have hm : m.context = (oneShotContext request).prepared.withChannel position := by
      rw [hchannel.context rfl, hcontext.context hsuccess, withContext_context]
    obtain ⟨hcalls, bytes, hanswer⟩ := hposition rfl
    exact decodePrepared_oneShot F J fuel .seekableChannel hrequest
      ⟨hcalls, position, bytes, hanswer, rfl⟩ (hadds.trans hchannel.adds) (hchannel.pending rfl) hm
      (hchannel.calm hcalm)

theorem decodeStreamInternal_oneShot (F : LibFlac D) (J : Jvm) (fuel : ℕ)
    (inputStream consumer : Bool) (container : ℤ) (checkMd5 decodeChainedOgg : Bool) :
    OneShot F J fuel .inputStream (.whole container checkMd5 decodeChainedOgg)
      (decodeStreamInternal F J fuel inputStream consumer container checkMd5 decodeChainedOgg) := by
  unfold decodeStreamInternal
  dsimp only
  split
  · exact .rejected _ (.throwIllegalArgument _)
  split
  · exact .rejected _ (.throwIllegalArgument _)
  generalize hrequest : DecodeRequest.whole container checkMd5 decodeChainedOgg = request
  have haccepted : rejectRequest request = none := by
    rw [← hrequest]
    simp [rejectRequest, DecodeRequest.whole]
  have hcontext := prepareDecodeContext_prepares J
    (m := Machine.start.withContext (oneShotContext request)) rfl
  have hadds : AddsInternal .start (Machine.start.withContext (oneShotContext request)) :=
    .of_history rfl
  generalize prepareDecodeContext J _ = context at hcontext
  split
  · rename_i hfailed
    exact .rejected _ ((hcontext.rejected (by simpa using hfailed)).after hadds)
  rename_i hsuccess
  have hsuccess : context.1 = true := by simpa using hsuccess
  have hadds := hadds.trans hcontext.adds
  have hstream := prepareDecodeInputStream_prepares J (hcontext.pending hsuccess)
  generalize prepareDecodeInputStream J context.2 = stream at hstream
  split
  · rename_i hfailed
    exact .rejected _ ((hstream.rejected (by simpa using hfailed)).after hadds)
  rename_i hstreamSuccess
  have hstreamSuccess : stream.1 = true := by simpa using hstreamSuccess
  have hm : stream.2.context = (oneShotContext request).prepared.withInputStream := by
    rw [hstream.context hstreamSuccess, hcontext.context hsuccess, withContext_context]
  exact decodePrepared_oneShot F J fuel .inputStream haccepted ⟨rfl, rfl⟩
    (hadds.trans hstream.adds) (hstream.pending hstreamSuccess) hm
    (hstream.calm (hcontext.calm (by simp [Machine.Calm, Machine.start])))

end JFlac.Decode
