import JFlac.Decode.Effects
import JFlac.Decode.Setup

/-!
# libFLAC calls that hand over audio

Assumptions about libFLAC are stated as the list of things one of its calls hands over: blocks,
metadata and error reports. Between them the call may use the transport as it likes, as long as
the transport does not raise. `Delivers` says this of a call, `Accepts` says that the callbacks
take the deliveries without an exception, and `Delivers.call` puts the two together.
-/

namespace JFlac.Decode

open Machine

variable {D : Type}

/-- Something a libFLAC call hands to a callback. -/
inductive Delivery where
  | pcm (frame : Frame)
  | metadata (block : Metadata)
  | error (status : ErrorStatus)

/-- The call makes exactly these deliveries, each block being accepted, and then returns. -/
inductive Delivers (J : Jvm) (source : Source) :
    Activity D → List TransportCall → List Delivery → Bool → Stream D → Prop
  | done (success : Bool) (d : D) (calls : List TransportCall) :
      Delivers J source (.done (success, d)) calls [] success ⟨d, calls⟩
  | transport (callback : TransportCallback) (reply : TransportReply callback)
      (next : TransportReply callback → Activity D) (calls calls' : List TransportCall)
      (deliveries : List Delivery) (success : Bool) (s : Stream D)
      (hreply : ∀ m : Machine, m.pending = none → m.context.source = source →
        handleTransport J callback m calls = (reply, m, calls'))
      (hnext : Delivers J source (next reply) calls' deliveries success s) :
      Delivers J source (.call (.transport callback) next) calls deliveries success s
  | pcm (frame : Frame) (next : WriteStatus → Activity D) (calls : List TransportCall)
      (deliveries : List Delivery) (success : Bool) (s : Stream D)
      (hnext : Delivers J source (next .cont) calls deliveries success s) :
      Delivers J source (.call (.write frame) next) calls (.pcm frame :: deliveries) success s
  | metadata (block : Metadata) (next : Unit → Activity D) (calls : List TransportCall)
      (deliveries : List Delivery) (success : Bool) (s : Stream D)
      (hnext : Delivers J source (next ()) calls deliveries success s) :
      Delivers J source (.call (.metadata block) next) calls (.metadata block :: deliveries) success
        s
  | error (status : ErrorStatus) (next : Unit → Activity D) (calls : List TransportCall)
      (deliveries : List Delivery) (success : Bool) (s : Stream D)
      (hnext : Delivers J source (next ()) calls deliveries success s) :
      Delivers J source (.call (.error status) next) calls (.error status :: deliveries) success s

/-- The callback that takes a delivery. -/
def Delivery.take (J : Jvm) : Delivery → Machine → WriteStatus × Machine
  | .pcm frame, m => decodeWriteCallback J frame (m.record (.writeCallback frame))
  | .metadata block, m => (.cont, decodeMetadataCallback J block (m.record (.metadataCallback block)))
  | .error status, m => (.cont, decodeErrorCallback status (m.record (.errorCallback status)))

/-- The callbacks take the deliveries one after the other, and nothing is raised. -/
inductive Accepts (J : Jvm) : Machine → List Delivery → Machine → Prop
  | nil (m : Machine) : Accepts J m [] m
  | cons (m m₁ m₂ : Machine) (delivery : Delivery) (deliveries : List Delivery)
      (hfirst : delivery.take J m = (.cont, m₁)) (hnone : m₁.pending = none)
      (hrest : Accepts J m₁ deliveries m₂) : Accepts J m (delivery :: deliveries) m₂

theorem Delivery.take_source (J : Jvm) (delivery : Delivery) (m : Machine) :
    (delivery.take J m).2.context.source = m.context.source := by
  have hsetup : ∀ callback : Callback,
      (handle J callback (m, [])).2.1.context.source = m.context.source :=
    fun callback => congrArg Setup.source (handle_setup J callback m [])
  cases delivery with
  | pcm frame => exact hsetup (.write frame)
  | metadata block => exact hsetup (.metadata block)
  | error status => exact hsetup (.error status)

/-- Running a call whose deliveries are accepted. -/
theorem Delivers.run {J : Jvm} {source : Source} {activity : Activity D}
    {calls : List TransportCall} {deliveries : List Delivery} {success : Bool} {s : Stream D}
    (h : Delivers J source activity calls deliveries success s) {m m' : Machine}
    (hnone : m.pending = none) (hsource : m.context.source = source)
    (haccepts : Accepts J m deliveries m') :
    activity.run (handle J) (m, calls) = ((success, s.decoder), m', s.transportCalls) := by
  induction h generalizing m with
  | done success d calls =>
    cases haccepts
    rfl
  | transport callback reply next calls calls' deliveries success s hreply _ ih =>
    have hhandle : handle J (.transport callback) (m, calls) = (reply, m, calls') :=
      hreply m hnone hsource
    rw [Lib.Calls.run_call, hhandle]
    exact ih hnone hsource haccepts
  | pcm frame next calls deliveries success s _ ih =>
    cases haccepts with
    | cons _ m₁ _ _ _ hfirst hnone₁ hrest =>
      have hhandle : handle J (.write frame) (m, calls) = (.cont, m₁, calls) := by
        simp only [Delivery.take] at hfirst
        simp only [handle, hfirst]
      have hsource₁ := Delivery.take_source J (.pcm frame) m
      rw [hfirst] at hsource₁
      rw [Lib.Calls.run_call, hhandle]
      exact ih hnone₁ (hsource₁.trans hsource) hrest
  | metadata block next calls deliveries success s _ ih =>
    cases haccepts with
    | cons _ m₁ _ _ _ hfirst hnone₁ hrest =>
      have hhandle : handle J (.metadata block) (m, calls) = ((), m₁, calls) := by
        simp only [Delivery.take, Prod.mk.injEq, true_and] at hfirst
        simp only [handle, hfirst]
      have hsource₁ := Delivery.take_source J (.metadata block) m
      rw [hfirst] at hsource₁
      rw [Lib.Calls.run_call, hhandle]
      exact ih hnone₁ (hsource₁.trans hsource) hrest
  | error status next calls deliveries success s _ ih =>
    cases haccepts with
    | cons _ m₁ _ _ _ hfirst hnone₁ hrest =>
      have hhandle : handle J (.error status) (m, calls) = ((), m₁, calls) := by
        simp only [Delivery.take, Prod.mk.injEq, true_and] at hfirst
        simp only [handle, hfirst]
      have hsource₁ := Delivery.take_source J (.error status) m
      rw [hfirst] at hsource₁
      rw [Lib.Calls.run_call, hhandle]
      exact ih hnone₁ (hsource₁.trans hsource) hrest

theorem Accepts.pending {J : Jvm} {m m' : Machine} {deliveries : List Delivery}
    (h : Accepts J m deliveries m') (hnone : m.pending = none) : m'.pending = none := by
  induction h with
  | nil => exact hnone
  | cons _ _ _ _ _ _ hfirst _ ih => exact ih hfirst

/-- A libFLAC call whose deliveries are accepted. -/
theorem Delivers.call {F : LibFlac D} {J : Jvm} {source : Source} {activity : Activity D}
    {calls : List TransportCall} {deliveries : List Delivery} {success : Bool} {s : Stream D}
    (h : Delivers J source activity calls deliveries success s) {m m' : Machine}
    (hnone : m.pending = none) (hsource : m.context.source = source)
    (haccepts : Accepts J m deliveries m') (api : Api) :
    F.call J api activity calls m =
      (success, s, m'.record (.returned api success (F.getState s.decoder) none)) := by
  have hrun := h.run hnone hsource haccepts
  have hpending := haccepts.pending hnone
  unfold LibFlac.call
  rw [hrun]
  dsimp only
  rw [hpending]

/-! ## Calls that are not accepted -/

/-- Callbacks only add to the record. -/
theorem handle_adds (J : Jvm) (callback : Callback) (m : Machine) (calls : List TransportCall) :
    Adds (fun _ => True) m (handle J callback (m, calls)).2.1 := by
  rcases handle_effect J callback m calls with ⟨status, rfl⟩ | ⟨events, heffect⟩
  · exact .single rfl trivial
  · exact ⟨events, heffect.history, fun _ _ => trivial⟩

theorem run_adds (J : Jvm) (activity : Activity D) (m : Machine) (calls : List TransportCall) :
    Adds (fun _ => True) m (activity.run (handle J) (m, calls)).2.1 :=
  Lib.Calls.run_invariant
    (P := fun s : Machine × List TransportCall => Adds (fun _ => True) m s.1)
    (fun callback s hs => hs.trans (handle_adds J callback s.1 s.2)) activity (.refl m)

theorem call_adds (F : LibFlac D) (J : Jvm) (api : Api) (activity : Activity D)
    (calls : List TransportCall) (m : Machine) :
    Adds (fun _ => True) m (F.call J api activity calls m).2.2 :=
  (run_adds J activity m calls).trans (.single rfl trivial)

/-- The record grew, and one of the new events is `e`. -/
def Records (e : Event) (m m' : Machine) : Prop :=
  ∃ extra, m'.history = m.history ++ extra ∧ e ∈ extra

theorem Records.before {e : Event} {P : Event → Prop} {m m₁ m' : Machine} (h : Records e m₁ m')
    (hadds : Adds P m m₁) : Records e m m' := by
  obtain ⟨extra, hhistory, -⟩ := hadds
  obtain ⟨extra', hhistory', he⟩ := h
  exact ⟨extra ++ extra', by rw [hhistory', hhistory, List.append_assoc],
    List.mem_append_right _ he⟩

theorem Records.after {e : Event} {P : Event → Prop} {m m₁ m' : Machine} (h : Records e m m₁)
    (hadds : Adds P m₁ m') : Records e m m' := by
  obtain ⟨extra, hhistory, he⟩ := h
  obtain ⟨extra', hhistory', -⟩ := hadds
  exact ⟨extra ++ extra', by rw [hhistory', hhistory, List.append_assoc],
    List.mem_append_left _ he⟩

/-- Outside a chain an exception stays pending until the call returns. -/
theorem run_pending (J : Jvm) (activity : Activity D) {m : Machine} (calls : List TransportCall)
    (hchained : m.context.decodeChainedOgg = false) (hpending : m.pending ≠ none) :
    (activity.run (handle J) (m, calls)).2.1.pending ≠ none := by
  have hstep : ∀ (callback : Callback) (s : Machine × List TransportCall),
      s.1.context.decodeChainedOgg = false ∧ s.1.pending ≠ none →
      (handle J callback s).2.1.context.decodeChainedOgg = false ∧
        (handle J callback s).2.1.pending ≠ none := by
    intro callback s hs
    rcases handle_effect J callback s.1 s.2 with ⟨status, rfl⟩ | ⟨events, heffect⟩
    · exact hs
    · obtain ⟨exception, hexception⟩ := Option.ne_none_iff_exists'.mp hs.2
      have hkept := heffect.pending hs.1 exception hexception
      exact ⟨heffect.decodeChainedOgg.trans hs.1, by rw [hkept]; simp⟩
  exact (Lib.Calls.run_invariant hstep activity ⟨hchained, hpending⟩).2

/-- A block is recorded as soon as it arrives. -/
theorem Delivers.call_records {F : LibFlac D} {J : Jvm} {source : Source} {activity : Activity D}
    {calls : List TransportCall} {frame : Frame} {deliveries : List Delivery} {success : Bool}
    {s : Stream D} (h : Delivers J source activity calls (.pcm frame :: deliveries) success s)
    {m : Machine} (hnone : m.pending = none) (hsource : m.context.source = source) (api : Api) :
    Records (.writeCallback frame) m (F.call J api activity calls m).2.2 := by
  have hrun : Records (.writeCallback frame) m (activity.run (handle J) (m, calls)).2.1 := by
    generalize hall : Delivery.pcm frame :: deliveries = all at h
    induction h with
    | done => cases hall
    | metadata => cases hall
    | error => cases hall
    | transport callback reply next calls calls' _ _ _ hreply _ ih =>
      have hhandle : handle J (.transport callback) (m, calls) = (reply, m, calls') :=
        hreply m hnone hsource
      rw [Lib.Calls.run_call, hhandle]
      exact ih hall
    | pcm frame' next calls _ _ _ _ _ =>
      cases hall
      rw [Lib.Calls.run_call]
      obtain ⟨events, heffect⟩ :=
        decodeWriteCallback_effect J frame (m.record (.writeCallback frame))
      have hhistory : (handle J (.write frame) (m, calls)).2.1.history =
          m.history ++ .writeCallback frame :: events := by
        rw [← List.singleton_append, ← List.append_assoc]
        exact heffect.history
      have hfirst : Records (.writeCallback frame) m (handle J (.write frame) (m, calls)).2.1 :=
        ⟨_, hhistory, List.mem_cons_self⟩
      exact hfirst.after (run_adds J _ _ _)
  have hreturned : Adds (fun _ => True) (activity.run (handle J) (m, calls)).2.1
      (F.call J api activity calls m).2.2 := .single rfl trivial
  exact hrun.after hreturned

/-- A block that is refused with an exception leaves that exception pending. -/
theorem Delivers.call_refused {F : LibFlac D} {J : Jvm} {source : Source} {activity : Activity D}
    {calls : List TransportCall} {frame : Frame} {deliveries : List Delivery} {success : Bool}
    {s : Stream D} (h : Delivers J source activity calls (.pcm frame :: deliveries) success s)
    {m m' : Machine} (hnone : m.pending = none) (hsource : m.context.source = source)
    (hchained : m.context.decodeChainedOgg = false)
    (hrefused : (Delivery.pcm frame).take J m = (.abort, m')) (hpending : m'.pending ≠ none)
    (api : Api) : (F.call J api activity calls m).2.2.pending ≠ none := by
  show (activity.run (handle J) (m, calls)).2.1.pending ≠ none
  generalize hall : Delivery.pcm frame :: deliveries = all at h
  induction h with
  | done => cases hall
  | metadata => cases hall
  | error => cases hall
  | transport callback reply next calls calls' _ _ _ hreply _ ih =>
    have hhandle : handle J (.transport callback) (m, calls) = (reply, m, calls') :=
      hreply m hnone hsource
    rw [Lib.Calls.run_call, hhandle]
    exact ih hall
  | pcm frame' next calls _ _ _ _ _ =>
    cases hall
    have hhandle : handle J (.write frame) (m, calls) = (.abort, m', calls) := by
      simp only [Delivery.take] at hrefused
      simp only [handle, hrefused]
    have hsetup := handle_setup J (.write frame) m calls
    rw [hhandle] at hsetup
    rw [Lib.Calls.run_call, hhandle]
    exact run_pending J _ calls ((congrArg Setup.decodeChainedOgg hsetup).trans hchained) hpending

/-! ## Positions in a stream -/

/-- libFLAC as a reader of blocks. `At blocks s` says that the decoder behind `s` stands in front
of these blocks: the next `process_single` hands over the first of them, or reports the end. -/
structure LibFlac.Singles (F : LibFlac D) (J : Jvm) (source : Source)
    (At : List Frame → Stream D → Prop) : Prop where
  block : ∀ block blocks s, At (block :: blocks) s → ∃ s',
    Delivers J source (F.processSingle s.decoder) s.transportCalls [.pcm block] true s' ∧
      F.getState s'.decoder ≠ .endOfStream ∧ F.getState s'.decoder ≠ .aborted ∧ At blocks s'
  ended : ∀ s, At [] s → ∃ s',
    Delivers J source (F.processSingle s.decoder) s.transportCalls [] true s' ∧
      F.getState s'.decoder = .endOfStream ∧ At [] s'

/-- A JVM in which neither Java code nor an allocation fails. -/
structure Jvm.Quiet (J : Jvm) : Prop where
  throws : ∀ history call, J.throws history call = none
  malloc : ∀ history, J.mallocFails history = false

/-- With nothing pending, a Java call returns. -/
theorem Jvm.Quiet.callJava {J : Jvm} (hquiet : J.Quiet) (call : JavaCall) {m : Machine}
    (hnone : m.pending = none) : m.callJava J call = m.record (.java call .returned) := by
  unfold Machine.callJava
  rw [hnone]
  dsimp only
  rw [hquiet.throws]

end JFlac.Decode
