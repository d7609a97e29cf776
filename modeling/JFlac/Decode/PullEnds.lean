import JFlac.Decode.PullReads

/-!
# The end of a pull session

Nothing is assumed here of libFLAC or of the JVM. A session keeps a book: the frames its context has
counted are the frames its reads have returned, and once it takes the stream for ended, libFLAC has
reported the end and no declared frame was missing. So a read that returns -1 has both behind it.
-/

namespace JFlac.Decode

open Machine Lib

variable {D : Type}

/-! ## Counting the frames of a read -/

/-- In the midst of a read, after reads that returned `given` frames. -/
structure Pulled (given : ℕ) (c : DecodeContext) : Prop where
  pull : c.pullMode = true
  start : c.firstSample = 0
  written : c.pullWrittenFrames ≤ c.pullRequestedFrames
  requested : c.pullRequestedFrames < 4294967296
  emitted : c.emittedFrames = given + c.pullWrittenFrames

/-- The fields that the book is about. -/
def DecodeContext.pullBook (c : DecodeContext) : Bool × ℕ × ℕ × ℕ × ℕ :=
  (c.pullMode, c.firstSample, c.pullWrittenFrames, c.pullRequestedFrames, c.emittedFrames)

section
variable {given : ℕ} {c c' : DecodeContext}

theorem Pulled.same (h : Pulled given c) (hsame : c'.pullBook = c.pullBook) : Pulled given c' := by
  simp only [DecodeContext.pullBook, Prod.mk.injEq] at hsame
  obtain ⟨hpull, hstart, hwritten, hrequested, hemitted⟩ := hsame
  refine ⟨hpull.trans h.pull, hstart.trans h.start, ?_, ?_, ?_⟩
  · rw [hwritten, hrequested]
    exact h.written
  · rw [hrequested]
    exact h.requested
  · rw [hemitted, hwritten]
    exact h.emitted

theorem releaseDrained_pullBook (c : DecodeContext) : c.releaseDrained.pullBook = c.pullBook := by
  unfold DecodeContext.releaseDrained
  split <;> rfl

theorem releaseDrained_emittedFrames (c : DecodeContext) :
    c.releaseDrained.emittedFrames = c.emittedFrames :=
  congrArg (fun book => book.2.2.2.2) (releaseDrained_pullBook c)

/-- Copying frames that the request has room for. -/
theorem Pulled.copyOut (h : Pulled given c) {frames : ℕ}
    (hroom : frames ≤ c.pullRequestedFrames - c.pullWrittenFrames) (start : ℕ)
    (samples : List Sample) : Pulled given (c.copyOut start frames samples) := by
  have hle := h.written
  have hlt := h.requested
  have hadd : add32 c.pullWrittenFrames frames = c.pullWrittenFrames + frames :=
    add32_of_lt (by omega)
  refine ⟨h.pull, h.start, ?_, hlt, ?_⟩
  · show add32 c.pullWrittenFrames frames ≤ c.pullRequestedFrames
    omega
  · show c.emittedFrames + frames = given + add32 c.pullWrittenFrames frames
    rw [hadd, h.emitted]
    omega

end

/-- The last libFLAC call of a history has returned this; what came after is no libFLAC call. -/
def LastReturn (history : List Event) (event : Event) : Prop :=
  ∃ before after, history = before ++ event :: after ∧ ∀ e ∈ after, e.isInternal = true

/-- A context that may say that the stream is over only when it is. -/
def EndsTruly (m : Machine) : Prop :=
  m.context.pullEndOfStream = true →
    LastReturn m.history (.returned .processSingle true .endOfStream none) ∧
      (m.context.sawStreamInfo = true → 0 < m.context.streamTotalSamples →
        m.context.streamTotalSamples ≤ m.context.emittedFrames)

theorem EndsTruly.of_running {m : Machine} (h : m.context.pullEndOfStream = false) :
    EndsTruly m := by
  intro hend
  rw [h] at hend
  cases hend

/-- What a drain can do, as far as the book is concerned. -/
structure Drained (given : ℕ) (m : Machine) (r : Bool × Machine) : Prop where
  pulled : Pulled given r.2.context
  fields : r.2.context.streamFields = m.context.streamFields
  grown : m.context.emittedFrames ≤ r.2.context.emittedFrames
  adds : AddsInternal m r.2
  raised : r.1 = false → r.2.pending ≠ none

theorem drainDecodePullPending_drained {given : ℕ} {m : Machine} (h : Pulled given m.context) :
    Drained given m (drainDecodePullPending m) := by
  have hcleared : Drained given m (true, m.withContext m.context.clearDecodePullPending) :=
    ⟨h.same rfl, rfl, Nat.le_refl _, .refl m, by simp⟩
  have hthrew : ∀ {exception : Throwable}, Drained given m (false, m.raise exception) :=
    ⟨h.same rfl, rfl, Nat.le_refl _, .single rfl rfl, fun _ => by simp [Machine.raise]⟩
  unfold drainDecodePullPending
  dsimp only
  split
  · exact hcleared
  split
  · exact hcleared
  split
  · exact hthrew
  split
  · exact ⟨h, rfl, Nat.le_refl _, .refl m, by simp⟩
  split
  · exact hthrew
  split
  · rename_i hcheck
    obtain ⟨exception, hexception⟩ := exceptionCheck_eq_true.mp hcheck
    refine ⟨h, rfl, Nat.le_refl _, .refl m, fun _ => ?_⟩
    rw [hexception]
    simp
  · -- the request is the bound of what is copied
    have hroom : min (sub32 m.context.pullPendingSampleCount m.context.pullPendingSampleOffset /
          m.context.pullChannels)
        (sub32 m.context.pullRequestedFrames m.context.pullWrittenFrames) ≤
          m.context.pullRequestedFrames - m.context.pullWrittenFrames :=
      le_of_le_of_eq (Nat.min_le_right _ _) (sub32_of_le h.written h.requested)
    refine ⟨?_, ?_, ?_, .refl m, by simp⟩
    · rw [withContext_context]
      exact (h.copyOut hroom _ _).same (releaseDrained_pullBook _)
    · rw [withContext_context, releaseDrained_streamFields, copyOut_streamFields]
    · rw [withContext_context, releaseDrained_emittedFrames]
      exact Nat.le_add_right _ _

theorem Drained.endsTruly {given : ℕ} {m : Machine} {r : Bool × Machine} (h : Drained given m r)
    (hends : EndsTruly m) : EndsTruly r.2 := by
  have hfields := h.fields
  simp only [DecodeContext.streamFields, Prod.mk.injEq] at hfields
  obtain ⟨-, hinfo, htotal, -, hover⟩ := hfields
  obtain ⟨events, hhistory, hevents⟩ := h.adds
  intro hend
  rw [hover] at hend
  obtain ⟨⟨before, after, hlast, hafter⟩, hcount⟩ := hends hend
  refine ⟨⟨before, after ++ events, ?_, fun e he => ?_⟩, fun hsaw hpos => ?_⟩
  · rw [hhistory, hlast, List.append_assoc, List.cons_append]
  · exact (List.mem_append.mp he).elim (hafter e) (hevents e)
  · rw [hinfo] at hsaw
    rw [htotal] at hpos ⊢
    exact (hcount hsaw hpos).trans h.grown

/-! ## Callbacks and calls -/

section
variable {given : ℕ} {m : Machine}

/-- In the midst of a read of a stream that is not over yet. -/
def Running (given : ℕ) (m : Machine) : Prop :=
  Pulled given m.context ∧ m.context.pullEndOfStream = false

theorem Running.same {m' : Machine} (h : Running given m)
    (hbook : m'.context.pullBook = m.context.pullBook)
    (hover : m'.context.pullEndOfStream = m.context.pullEndOfStream) : Running given m' :=
  ⟨h.1.same hbook, hover.trans h.2⟩

/-- A block is held back and copied as far as the request goes. -/
theorem Running.write (h : Running given m) (J : Jvm) (frame : Frame) :
    Running given (decodeWriteCallback J frame m).2 := by
  unfold decodeWriteCallback
  split
  · exact h
  split
  · exact h
  rw [if_pos h.1.pull]
  unfold decodePullWriteCallback
  dsimp only
  split
  · exact h.same rfl rfl
  split
  · exact h.same rfl rfl
  split
  · exact h.same rfl rfl
  · have hstashed : Pulled given (m.withContext (m.context.stash frame)).context := h.1.same rfl
    have hdrained := drainDecodePullPending_drained hstashed
    have hfields := congrArg (fun fields => fields.2.2.2.2) hdrained.fields
    exact ⟨hdrained.pulled, hfields.trans h.2⟩

theorem Running.metadata {block : Metadata} {m' : Machine} (h : Running given m)
    (hstep : MetadataStep m block m') : Running given m' := by
  cases hstep <;> exact h.same rfl rfl

/-- Every callback keeps the book. -/
theorem Running.handle (h : Running given m) (J : Jvm) (callback : Callback)
    (calls : List TransportCall) : Running given (handle J callback (m, calls)).2.1 := by
  cases callback with
  | write frame => exact Running.write (m := m.record (.writeCallback frame)) h J frame
  | metadata block =>
    have hrecorded : Running given (m.record (.metadataCallback block)) := h
    exact hrecorded.metadata (decodeMetadataCallback_step J block _)
  | error status => exact h.same rfl rfl
  | transport callback =>
    have hcontext := (handleTransport_step J callback m calls).context
    exact h.same (congrArg _ hcontext) (congrArg _ hcontext)

/-- So does every libFLAC call, whose return is recorded last. -/
theorem Running.call (h : Running given m) (F : LibFlac D) (J : Jvm) (api : Api)
    (activity : Activity D) (calls : List TransportCall) :
    let r := F.call J api activity calls m
    Running given r.2.2 ∧ LastReturn r.2.2.history
      (.returned api r.1 (F.getState r.2.1.decoder) r.2.2.pending) := by
  have hrun : Running given (activity.run (Decode.handle J) (m, calls)).2.1 :=
    Lib.Calls.run_invariant (P := fun s : Machine × List TransportCall => Running given s.1)
      (fun callback s hs => hs.handle J callback s.2) activity h
  exact ⟨hrun, _, [], rfl, by simp⟩

end

/-! ## One read -/

/-- The state in which the loop of a read leaves the session: if it gave up, with an exception. -/
structure PullLoopBooked (given : ℕ) (r : Option Bool × Stream D × Machine) : Prop where
  pulled : Pulled given r.2.2.context
  truly : EndsTruly r.2.2
  raised : r.1 = some false → r.2.2.pending ≠ none

theorem pullLoop_booked (F : LibFlac D) (J : Jvm) {given : ℕ} (fuel : ℕ) (s : Stream D) {m : Machine}
    (h : Pulled given m.context) (hends : EndsTruly m) :
    PullLoopBooked given (pullLoop F J fuel s m) := by
  induction fuel generalizing s m with
  | zero => exact ⟨h, hends, by simp [pullLoop]⟩
  | succ fuel ih =>
    unfold pullLoop
    split
    swap
    · exact ⟨h, hends, by simp⟩
    rename_i hrunning
    have hstart : Running given m := ⟨h, hrunning.2⟩
    obtain ⟨hcalled, hevent⟩ :=
      hstart.call F J .processSingle (F.processSingle s.decoder) s.transportCalls
    generalize F.call J .processSingle _ _ m = single at hcalled hevent
    have hopen : EndsTruly single.2.2 := .of_running hcalled.2
    dsimp only
    split
    · rename_i hcheck
      obtain ⟨exception, hexception⟩ := exceptionCheck_eq_true.mp hcheck
      exact ⟨hcalled.1, hopen, fun _ => by rw [hexception]; simp⟩
    rename_i hcheck
    have hnone := pending_eq_none hcheck
    split
    · exact ⟨hcalled.1, .of_running hcalled.2, fun _ => by simp⟩
    rename_i hfine
    have hsuccess : single.1 = true := by
      simp only [Bool.or_eq_true, Bool.not_eq_true', not_or, Bool.not_eq_false] at hfine
      exact hfine.1
    split
    · -- the end of the stream, if the count is right
      rename_i hstate
      rcases validatePhysicalEofSampleCount_cases hnone with ⟨haccepted, heq⟩ | ⟨-, heq⟩
      · rw [heq, if_neg (by simp)]
        refine ⟨hcalled.1.same rfl, fun _ => ⟨?_, fun hsaw hpos => ?_⟩, by simp⟩
        · show LastReturn single.2.2.history _
          rwa [hsuccess, hstate, hnone] at hevent
        · have hsaw : single.2.2.context.sawStreamInfo = true := hsaw
          have hpos : 0 < single.2.2.context.streamTotalSamples := hpos
          have hfirst := hcalled.1.start
          simp only [DecodeContext.eofAccepted, hsaw, Bool.not_true, Bool.false_or,
            Bool.or_eq_true, decide_eq_true_eq] at haccepted
          show single.2.2.context.streamTotalSamples ≤ single.2.2.context.emittedFrames
          omega
      · rw [heq, if_pos (by simp)]
        exact ⟨hcalled.1, .of_running hcalled.2, fun _ => by simp⟩
    · exact ⟨hcalled.1, .of_running hcalled.2, fun _ => by simp⟩
    · exact ih _ hcalled.1 hopen

/-- A pull session between two reads, which have returned `given` frames. -/
structure PullBooked (given : ℕ) (m : Machine) : Prop where
  pull : m.context.pullMode = true
  start : m.context.firstSample = 0
  emitted : m.context.emittedFrames = given
  truly : EndsTruly m

/-- What a read may return that does not raise: the frames it counted, or -1 at the true end. -/
structure PullReadBooked (given : ℕ) (r : PullRead D) : Prop where
  booked : ∀ value, r.value = some value → r.session.machine.pending = none →
    PullBooked (given + value.toNat) r.session.machine
  ended : r.value = some (-1) → r.session.machine.context.pullEndOfStream = true

theorem readPullDecoderInterleaved_booked (F : LibFlac D) (J : Jvm) (fuel : ℕ)
    (samples : List Sample) (maxFrames : ℤ) {given : ℕ} {session : Session D}
    (h : PullBooked given session.machine) :
    PullReadBooked given (readPullDecoderInterleaved F J fuel samples maxFrames session) := by
  have hraised : ∀ (value : Option ℤ) (r : PullRead D), r.value = value →
      r.session.machine.pending ≠ none → value ≠ some (-1) → PullReadBooked given r := by
    intro value r hvalue hpending hne
    refine ⟨fun _ _ hnone => absurd hnone hpending, fun hover => absurd ?_ hne⟩
    rw [← hvalue, hover]
  unfold readPullDecoderInterleaved
  dsimp only
  split
  · exact hraised (some 0) _ rfl (by simp) (by simp)
  split
  · -- nothing was asked for
    refine ⟨fun value hvalue _ => ?_, by simp⟩
    obtain rfl := Option.some.inj hvalue
    exact ⟨h.pull, h.start, h.emitted, h.truly⟩
  split
  · exact hraised (some 0) _ rfl (by simp) (by simp)
  split
  · exact hraised (some 0) _ rfl (by simp) (by simp)
  rename_i hnegative hzero _ hguard
  have hrequested : maxFrames.toNat < 4294967296 := by
    have hchannels : 1 ≤ session.machine.enter.context.streamInfo.channels := by omega
    have hle := Nat.mul_le_mul_left maxFrames.toNat hchannels
    unfold intMax at hguard
    omega
  have hbegun : Pulled given
      (session.machine.enter.context.startPull samples maxFrames.toNat) :=
    ⟨h.pull, h.start, Nat.zero_le _, hrequested, h.emitted⟩
  have hstarted : EndsTruly (session.machine.enter.withContext
      (session.machine.enter.context.startPull samples maxFrames.toNat)) := h.truly
  have hdrained := drainDecodePullPending_drained (m := session.machine.enter.withContext
    (session.machine.enter.context.startPull samples maxFrames.toNat)) hbegun
  have htruly := hdrained.endsTruly hstarted
  generalize drainDecodePullPending _ = drained at hdrained htruly
  split
  · rename_i hfailed
    exact hraised (some 0) _ rfl (hdrained.raised (by simpa using hfailed)) (by simp)
  have hloop := pullLoop_booked F J fuel session.stream hdrained.pulled htruly
  generalize pullLoop F J fuel session.stream drained.2 = r at hloop
  obtain ⟨_ | _ | _, s, m⟩ := r
  · exact ⟨by simp [finishPull], by simp [finishPull]⟩
  · exact hraised (some 0) _ rfl (hloop.raised rfl) (by simp)
  · have hpulled : Pulled given m.context := hloop.pulled
    have hemitted := hpulled.emitted
    dsimp only [finishPull]
    refine ⟨fun value hvalue _ => ⟨hpulled.pull, hpulled.start, ?_, hloop.truly⟩, ?_⟩
    · obtain rfl := Option.some.inj hvalue
      show m.context.emittedFrames = _
      split
      · omega
      split <;> omega
    · intro hvalue
      have hvalue := Option.some.inj hvalue
      show m.context.pullEndOfStream = true
      by_contra hopen
      rw [if_neg hopen] at hvalue
      split at hvalue <;> omega

/-! ## Runs of reads -/

/-- The frames that a read has returned. -/
def Result.frames : Result (ℤ × List Sample) → ℕ
  | .returned (frames, _) => frames.toNat
  | _ => 0

/-- A pull session that was opened and read from, and the number of frames it has returned. -/
inductive PulledTo (F : LibFlac D) (J : Jvm) : PullSession D → ℕ → Prop
  | opened {transport : Transport} {source : Bool} {container : ℤ} {session : Session D}
      {m : Machine} (hopen : openPullDecoder F J transport source container = (some session, m)) :
      PulledTo F J (.ofNative session) 0
  | read {p : PullSession D} {given : ℕ} (h : PulledTo F J p given) (fuel : ℕ)
      (samples : List Sample) (maxFrames : ℤ)
      (hfinished : (p.readInterleaved F J fuel samples maxFrames).1.finished = true) :
      PulledTo F J (p.readInterleaved F J fuel samples maxFrames).2
        (given + (p.readInterleaved F J fuel samples maxFrames).1.frames)

section
variable {F : LibFlac D} {J : Jvm}

/-- An opened session has returned nothing. -/
theorem PullBooked.opened {transport : Transport} {source : Bool} {container : ℤ}
    {session : Session D} {m : Machine}
    (hopen : openPullDecoder F J transport source container = (some session, m)) :
    PullBooked 0 session.machine := by
  obtain ⟨source, before, decoder, calls, hopened⟩ := openPullDecoder_opened hopen
  have hbefore : Running 0 before := by
    unfold Running
    rw [hopened.start]
    exact ⟨⟨rfl, rfl, Nat.le_refl _, Nat.zero_lt_succ _, rfl⟩, rfl⟩
  have hcalled := (hbefore.call F J .processUntilEndOfMetadata
    (F.processUntilEndOfMetadata decoder) calls).1
  have hnothing : (F.call J .processUntilEndOfMetadata (F.processUntilEndOfMetadata decoder) calls
      before).2.2.context.pullWrittenFrames = 0 := by
    -- nothing is asked for before the first read
    have hrequested : (F.call J .processUntilEndOfMetadata (F.processUntilEndOfMetadata decoder) calls
        before).2.2.context.pullRequestedFrames = before.context.pullRequestedFrames :=
      congrArg Setup.pullRequestedFrames (call_setup F J _ _ calls before)
    rw [hopened.start] at hrequested
    exact Nat.le_zero.mp (hcalled.1.written.trans_eq hrequested)
  unfold Running at hcalled
  rw [← hopened.context] at hcalled hnothing
  refine ⟨hcalled.1.pull, hcalled.1.start, ?_, .of_running hcalled.2⟩
  rw [hcalled.1.emitted, hnothing]

/-- One read of an active session. -/
theorem PullSession.readInterleaved_booked {p : PullSession D} {given : ℕ}
    (h : PullBooked given p.native.machine) (fuel : ℕ) (samples : List Sample) (maxFrames : ℤ) :
    let read := p.readInterleaved F J fuel samples maxFrames
    (read.2.active = true → read.1.finished = true →
      PullBooked (given + read.1.frames) read.2.native.machine) ∧
    ∀ out, read.1 = .returned (-1, out) →
      read.2.active = true ∧ read.2.native.machine.context.pullEndOfStream = true := by
  unfold PullSession.readInterleaved
  split
  · exact ⟨fun _ _ => h, by simp⟩
  rename_i hactive
  split
  · exact ⟨fun _ _ => h, by simp⟩
  split
  · exact ⟨fun _ _ => h, by simp⟩
  split
  · exact ⟨fun _ _ => h, by simp⟩
  have hread := readPullDecoderInterleaved_booked F J fuel samples maxFrames h
  generalize readPullDecoderInterleaved F J fuel samples maxFrames p.native = read at hread
  dsimp only
  split
  · exact ⟨fun _ hfinished => absurd hfinished Bool.false_ne_true, by simp⟩
  · exact ⟨fun hactive => absurd hactive Bool.false_ne_true, by simp⟩
  · rename_i value hvalue hnone
    refine ⟨fun _ _ => hread.booked value hvalue hnone, fun out hreturned => ?_⟩
    simp only [Result.returned.injEq, Prod.mk.injEq] at hreturned
    obtain ⟨rfl, -⟩ := hreturned
    exact ⟨by simpa using hactive, hread.ended hvalue⟩

/-- The book of a session that was read from. -/
theorem PulledTo.booked {p : PullSession D} {given : ℕ} (h : PulledTo F J p given)
    (hactive : p.active = true) : PullBooked given p.native.machine := by
  induction h with
  | opened hopen => exact .opened hopen
  | @read p given _ fuel samples maxFrames hfinished ih =>
    by_cases hbefore : p.active = true
    · exact (PullSession.readInterleaved_booked (ih hbefore) fuel samples maxFrames).1 hactive
        hfinished
    · -- an inactive session stays inactive
      have hread : p.readInterleaved F J fuel samples maxFrames =
          (.threw (.illegalStateException inactiveMessage), p) := if_pos (by simp [hbefore])
      rw [hread] at hactive
      exact absurd hactive hbefore

/-- A read that returns -1 has the end of the stream behind it, and all declared frames were
returned by the reads before. -/
theorem PulledTo.returned_end {p : PullSession D} {given : ℕ} (h : PulledTo F J p given)
    (fuel : ℕ) (samples : List Sample) (maxFrames : ℤ) {out : List Sample}
    (hreturned : (p.readInterleaved F J fuel samples maxFrames).1 = .returned (-1, out)) :
    let m := (p.readInterleaved F J fuel samples maxFrames).2.native.machine
    LastReturn m.history (.returned .processSingle true .endOfStream none) ∧
      (m.context.sawStreamInfo = true → 0 < m.context.streamTotalSamples →
        m.context.streamTotalSamples ≤ given) := by
  have hactive : p.active = true := by
    by_contra hinactive
    have hread : p.readInterleaved F J fuel samples maxFrames =
        (.threw (.illegalStateException inactiveMessage), p) := if_pos (by simp [hinactive])
    rw [hread] at hreturned
    cases hreturned
  obtain ⟨hbooked, hended⟩ :=
    PullSession.readInterleaved_booked (F := F) (J := J) (h.booked hactive) fuel samples maxFrames
  obtain ⟨hactive', hover⟩ := hended out hreturned
  have hfinal := hbooked hactive' (by rw [hreturned]; rfl)
  obtain ⟨hevent, hcount⟩ := hfinal.truly hover
  refine ⟨hevent, fun hsaw hpos => ?_⟩
  have hemitted := hfinal.emitted
  rw [hreturned] at hemitted
  have hframes : Result.frames (.returned (-1, out)) = 0 := rfl
  rw [hframes, Nat.add_zero] at hemitted
  rw [← hemitted]
  exact hcount hsaw hpos

end

end JFlac.Decode
