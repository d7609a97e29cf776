import JFlac.Decode.FailStop

/-!
# The processing loops keep the record

`process_decode_stream` in its three forms, started in a machine that is `Ready`: whatever libFLAC
does, the record stays matched with the context, no loop succeeds once an error was reported, and
a loop that gives up has an event that explains why.
-/

namespace JFlac.Decode

open Machine

variable {D : Type}

/-! ## The processing loops -/

/-- What is known when `process_decode_stream`, started in `m`, returns. -/
structure Processed (base : List Event) (m : Machine) (r : Option Bool × Stream D × Machine) :
    Prop where
  record : OnRecord base r.2.2
  chained : r.2.2.context.decodeChainedOgg = m.context.decodeChainedOgg
  success : r.1 = some true → r.2.2.pending = none → r.2.2.context.sawError = false
  running : r.1 = none → r.2.2.pending = none ∧ r.2.2.context.sawError = false
  md5 : r.2.2.context.chainedLinkMd5Failed = true →
    r.2.2.context.sawError = false ∧ r.1 = some false
  blame : r.1 = some false → Blamed base r.2.2

/-- A machine in which processing may start. -/
structure Ready (base : List Event) (m : Machine) : Prop where
  record : OnRecord base m
  unpending : m.pending = none ∨ m.context.decodeChainedOgg = false
  error : m.pending = none → m.context.sawError = false
  md5 : m.context.chainedLinkMd5Failed = false

theorem md5_of_mode {c c' : DecodeContext} (h : c.mode = c'.mode) :
    c.chainedLinkMd5Failed = c'.chainedLinkMd5Failed := congrArg (·.2) h

theorem chained_of_mode {c c' : DecodeContext} (h : c.mode = c'.mode) :
    c.decodeChainedOgg = c'.decodeChainedOgg := congrArg (·.1) h

/-- The three ways a machine can look when the loops have asked for errors and exceptions. -/
theorem check_cases {m : Machine} {success : Bool}
    (h : ¬ (!success || m.context.sawError || m.exceptionCheck) = true) :
    success = true ∧ m.context.sawError = false ∧ m.pending = none := by
  simp only [Bool.or_eq_true, Bool.not_eq_true', not_or, Bool.not_eq_false, Bool.not_eq_true] at h
  exact ⟨h.1.1, h.1.2, exceptionCheck_eq_false.mp h.2⟩

theorem validateChainedLinkSampleCount_cases (m : Machine) :
    validateChainedLinkSampleCount m = (true, m) ∨
      validateChainedLinkSampleCount m =
        (false, m.throwDecode
          (chainedLinkMessage m.context.emittedForLink m.context.currentLinkTotalSamples)) := by
  unfold validateChainedLinkSampleCount
  dsimp only
  split
  · exact .inl rfl
  · split
    · exact .inl rfl
    · exact .inr rfl

theorem validatePhysicalEofSampleCount_context (m : Machine) :
    (validatePhysicalEofSampleCount m).2.context = m.context := by
  unfold validatePhysicalEofSampleCount
  split
  · rfl
  · split <;> rfl

theorem validatePhysicalEofSampleCount_cases {m : Machine} (hnone : m.pending = none) :
    (m.context.eofAccepted = true ∧ validatePhysicalEofSampleCount m = (true, m)) ∨
      (m.context.eofAccepted = false ∧
        validatePhysicalEofSampleCount m =
          (false, m.throwDecode (physicalEofMessage m.context))) := by
  unfold validatePhysicalEofSampleCount
  rw [if_neg (by simp [exceptionCheck, hnone])]
  by_cases h : m.context.eofAccepted = true
  · exact .inl ⟨h, if_pos h⟩
  · exact .inr ⟨by simpa using h, if_neg h⟩

/-- A loop that succeeds where no error was reported. -/
theorem Processed.of_success {base : List Event} {m m' : Machine} {s : Stream D}
    (hrecord : OnRecord base m') (hmode : m'.context.mode = m.context.mode)
    (herror : m'.context.sawError = false) (hmd5 : m.context.chainedLinkMd5Failed = false) :
    Processed base m (some true, s, m') :=
  ⟨hrecord, chained_of_mode hmode, fun _ _ => herror, nofun,
    fun h => absurd ((md5_of_mode hmode).trans hmd5 ▸ h) (by simp), nofun⟩

/-- A loop that gives up. -/
theorem Processed.of_failure {base : List Event} {m m' : Machine} {s : Stream D}
    (hrecord : OnRecord base m') (hmode : m'.context.mode = m.context.mode)
    (hblame : Blamed base m') (hmd5 : m.context.chainedLinkMd5Failed = false) :
    Processed base m (some false, s, m') :=
  ⟨hrecord, chained_of_mode hmode, nofun, nofun,
    fun h => absurd ((md5_of_mode hmode).trans hmd5 ▸ h) (by simp), fun _ => hblame⟩

/-- A count check that fails. -/
theorem Processed.of_count {base : List Event} {m m' : Machine} {s : Stream D}
    (hrecord : OnRecord base m') (hmode : m'.context.mode = m.context.mode)
    (hnone : m'.pending = none) (herror : m'.context.sawError = false)
    (hmd5 : m.context.chainedLinkMd5Failed = false) (message : String) :
    Processed base m (some false, s, m'.throwDecode message) :=
  have h := hrecord.throwDecode hnone herror message
  .of_failure h hmode (h.blamed (.inl (by simp))) hmd5

/-- A loop that has no rounds left: the last round has found nothing pending and no error. -/
theorem Processed.of_running {base : List Event} {m : Machine} (h : Ready base m)
    (hnone : m.pending = none) (s : Stream D) : Processed base m (none, s, m) :=
  ⟨h.record, rfl, nofun, fun _ => ⟨hnone, h.error hnone⟩,
    fun hmd5 => absurd (h.md5.symm.trans hmd5) (by simp), nofun⟩

/-- The checks after a libFLAC call that has failed in one of the three ways. -/
theorem AfterCall.blamed_of_check {F : LibFlac D} {base : List Event} {m : Machine} {api : Api}
    {r : Bool × Stream D × Machine} (h : AfterCall F base m api r)
    (hcheck : (!r.1 || r.2.2.context.sawError || r.2.2.exceptionCheck) = true) :
    Blamed base r.2.2 := by
  simp only [Bool.or_eq_true, Bool.not_eq_true'] at hcheck
  rcases hcheck with (hsuccess | herror) | hpending
  · refine h.blame none ?_
    rw [hsuccess]
    cases api <;> rfl
  · exact h.record.blamed (.inr herror)
  · obtain ⟨exception, hexception⟩ := exceptionCheck_eq_true.mp hpending
    exact h.record.blamed (.inl (by simp [hexception]))

theorem processToEnd_processed (F : LibFlac D) (J : Jvm) (s : Stream D) {base : List Event}
    {m : Machine} (h : Ready base m) : Processed base m (processToEnd F J s m) := by
  unfold processToEnd
  have hcall := h.record.call h.unpending F J .processUntilEndOfStream (by simp)
    (F.processUntilEndOfStream s.decoder) s.transportCalls
  generalize F.call J .processUntilEndOfStream _ _ m = stream at hcall
  dsimp only
  split
  · rename_i hcheck
    exact .of_failure hcall.record hcall.mode (hcall.blamed_of_check hcheck) h.md5
  rename_i hcheck
  obtain ⟨-, herror, hnone⟩ := check_cases hcheck
  split
  · exact .of_success hcall.record hcall.mode herror h.md5
  · rcases validatePhysicalEofSampleCount_cases hnone with ⟨-, heq⟩ | ⟨-, heq⟩
    · rw [heq]
      exact .of_success hcall.record hcall.mode herror h.md5
    · rw [heq]
      exact .of_count hcall.record hcall.mode hnone herror h.md5 _

/-- The bounded loop asks for a pending exception before its first call, so it needs one round to
notice one that the seek has left. -/
theorem processRange_processed (F : LibFlac D) (J : Jvm) (fuel : ℕ) (s : Stream D)
    {base : List Event} {m : Machine} (h : Ready base m) (hround : m.pending = none ∨ 0 < fuel) :
    Processed base m (processRange F J fuel s m) := by
  induction fuel generalizing s m with
  | zero => exact .of_running h (hround.resolve_right (lt_irrefl 0)) s
  | succ fuel ih =>
    unfold processRange
    split
    · exact ⟨h.record, rfl, fun _ => h.error, nofun,
        fun hmd5 => absurd (h.md5.symm.trans hmd5) (by simp), nofun⟩
    split
    · rename_i hpending
      obtain ⟨exception, hexception⟩ := exceptionCheck_eq_true.mp hpending
      exact .of_failure h.record rfl (h.record.blamed (.inl (by simp [hexception]))) h.md5
    have hcall := h.record.call h.unpending F J .processSingle (by simp)
      (F.processSingle s.decoder) s.transportCalls
    generalize F.call J .processSingle _ _ m = single at hcall
    dsimp only
    split
    · rename_i hcheck
      exact .of_failure hcall.record hcall.mode
        (hcall.blamed_of_check (by rw [hcheck, Bool.true_or])) h.md5
    rename_i hsuccess
    split
    · rename_i hpending
      exact .of_failure hcall.record hcall.mode
        (hcall.blamed_of_check (by rw [hpending, Bool.or_true])) h.md5
    rename_i hpending
    have hnone := pending_eq_none hpending
    have herror : single.2.2.context.sawError = false := by
      simp only [Bool.or_eq_true, Bool.not_eq_true', not_or, Bool.not_eq_true] at hsuccess
      exact hsuccess.2
    split
    · rcases validatePhysicalEofSampleCount_cases hnone with ⟨-, heq⟩ | ⟨-, heq⟩
      · rw [heq]
        exact .of_success hcall.record hcall.mode herror h.md5
      · rw [heq]
        exact .of_count hcall.record hcall.mode hnone herror h.md5 _
    · rename_i hstate
      refine .of_failure hcall.record hcall.mode (hcall.blame none ?_) h.md5
      simp [Event.isFailure, hstate]
    · have hnext := ih single.2.1
        ⟨hcall.record, .inl hnone, fun _ => herror, (md5_of_mode hcall.mode).trans h.md5⟩
        (.inl hnone)
      exact ⟨hnext.record, hnext.chained.trans (chained_of_mode hcall.mode), hnext.success,
        hnext.running, hnext.md5, hnext.blame⟩

theorem processLinks_processed (F : LibFlac D) (J : Jvm) (fuel : ℕ) (s : Stream D)
    {base : List Event} {m : Machine} (h : Ready base m) (hnone : m.pending = none) :
    Processed base m (processLinks F J fuel s m) := by
  induction fuel generalizing s m with
  | zero => exact .of_running h hnone s
  | succ fuel ih =>
    unfold processLinks
    have hcall := h.record.call h.unpending F J .processUntilEndOfLink (by simp)
      (F.processUntilEndOfLink s.decoder) s.transportCalls
    generalize F.call J .processUntilEndOfLink _ _ m = link at hcall
    dsimp only
    split
    · rename_i hcheck
      exact .of_failure hcall.record hcall.mode (hcall.blamed_of_check hcheck) h.md5
    rename_i hcheck
    obtain ⟨-, herror, hnone⟩ := check_cases hcheck
    split
    · rcases validateChainedLinkSampleCount_cases link.2.2 with heq | heq
      · rw [heq]
        exact .of_success hcall.record hcall.mode herror h.md5
      · rw [heq]
        exact .of_count hcall.record hcall.mode hnone herror h.md5 _
    · rcases validateChainedLinkSampleCount_cases link.2.2 with heq | heq
      · rw [heq]
        dsimp only
        rw [if_neg (by simp)]
        obtain ⟨hfinish, hfinishNone⟩ := hcall.record.callFinishLink hnone F link.2.1
        generalize F.callFinishLink link.2.1 link.2.2 = finish at hfinish hfinishNone
        have hmode := hfinish.mode.trans hcall.mode
        split
        · rename_i hfinishError
          exact .of_failure hfinish.record hmode (hfinish.record.blamed (.inr hfinishError)) h.md5
        rename_i hfinishError
        rw [Bool.not_eq_true] at hfinishError
        split
        · -- the only place where the MD5 flag of an inner link is set
          rename_i hmd5
          have hblame : Blamed base finish.2.2 := by
            refine hfinish.blame none ?_
            simpa [Event.isFailure] using hmd5
          obtain ⟨events, htracked, hsettled⟩ := hfinish.record
          exact ⟨⟨events, ⟨htracked.history, htracked.errors, htracked.stops, htracked.incomplete,
            htracked.blame⟩, ⟨hsettled.kept, hsettled.cause⟩⟩, (chained_of_mode hmode :), by simp,
            by simp, fun _ => ⟨hfinishError, rfl⟩, fun _ => hblame⟩
        · have hnext := ih finish.2.1 ⟨hfinish.record, .inl hfinishNone, fun _ => hfinishError,
            (md5_of_mode hmode).trans h.md5⟩ hfinishNone
          exact ⟨hnext.record, hnext.chained.trans (chained_of_mode hmode), hnext.success,
            hnext.running, hnext.md5, hnext.blame⟩
      · rw [heq]
        exact .of_count hcall.record hcall.mode hnone herror h.md5 _
    · rename_i hend hlink
      refine .of_failure hcall.record hcall.mode (hcall.blame none ?_) h.md5
      generalize F.getState link.2.1.decoder = state at hend hlink
      cases state with
      | endOfStream => exact absurd rfl hend
      | endOfLink => exact absurd rfl hlink
      | _ => simp [Event.isFailure]

/-- All three loops keep the record, and none succeeds or goes on once an error was reported. -/
theorem processDecodeStream_processed (F : LibFlac D) (J : Jvm) (fuel : ℕ) (s : Stream D)
    {base : List Event} {m : Machine} (h : Ready base m) (hround : m.pending = none ∨ 0 < fuel) :
    Processed base m (processDecodeStream F J fuel s m) := by
  unfold processDecodeStream
  split
  · exact processRange_processed F J fuel s h hround
  split
  · rename_i hchained
    exact processLinks_processed F J fuel s h (h.unpending.resolve_right (by simp [hchained]))
  · exact processToEnd_processed F J s h

end JFlac.Decode
