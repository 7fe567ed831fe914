import GrpcNode.JsCore.ChannelCalls
import GrpcNode.Lib.Runs

/-!
# GrpcNode.JsCore.ChannelMetadata

The `Metadata` objects that calls share.

The filters write into the object of the user. A call is independent of the others as long
as there is nothing to write: the object has the values already (`KeepsObject`). That this
is also needed is the content of `independent_iff`.
-/

namespace GrpcNode.JsCore.Channel

open GrpcNode.Js
open Metadata (headerValues encodeValue)

variable {γ : Type}

/-! ### Independent calls -/

/-- The headers of a request whose call has the object `m` for itself: the three filters go
over it, the last one with the `timeout` of the call, if it has a deadline. -/
def isolatedHeaders (config : Config γ) (call : Call γ) (timeout : Option String)
    (m : Metadata) : Except JsError Headers := do
  let m ← CompressionFilter.sendMetadata m
  let m ← match CallCredentialsFilter.sendMetadata
      (config.callCredentials.compose call.credentials) m with
    | (m, none) => .ok m
    | (_, some e) => .error e
  let m ← match timeout with
    | some timeout => DeadlineFilter.setTimeout m timeout
    | none => .ok m
  State.requestHeaders config call m

/-- The objects of the user are what they were, and each request has the headers that its
call would send alone. -/
structure Isolated (config : Config γ) (objects : Nat → Metadata) (s : State γ) : Prop where
  heap : s.heap = objects
  requests : ∀ r ∈ s.requests, ∃ attempt call, s.attempts[r.attempt]? = some attempt ∧
    s.calls[r.call]? = some call ∧ (attempt.timeout = none ↔ call.deadline = noDeadline) ∧
    isolatedHeaders config call attempt.timeout (objects call.metadata) = .ok r.headers

/-- Calls are made with an object and options that are `allowed`. -/
def Act.Uses (allowed : Nat → CallOptions γ → Prop) : Act γ → Prop
  | .createStream metadata _ options => allowed metadata options
  | _ => True

/-- In every run with `allowed` calls, the calls are independent. -/
def Independent (config : Config γ) (objects : Nat → Metadata)
    (allowed : Nat → CallOptions γ → Prop) : Prop :=
  ∀ acts : List (Act γ), (∀ a ∈ acts, a.Uses allowed) →
    Runs.Always (step config) (Isolated config objects) (State.initial objects) acts

/-- The object has what the filters will write, whenever the call is made. -/
structure KeepsObject (m : Metadata) (deadline : JsNumber) : Prop where
  encodings : CarriesEncodings m
  timeout : ∀ now t, timeoutString deadline now = some t → m.values "grpc-timeout" = [.string t]

/-- Without a deadline there is no timeout. -/
@[simp] theorem timeoutString_noDeadline (now : Int) : timeoutString noDeadline now = none := rfl

theorem keepsObject_noDeadline {m : Metadata} :
    KeepsObject m noDeadline ↔ CarriesEncodings m :=
  ⟨fun h => h.encodings, fun h => ⟨h, fun now t ht => absurd ht (by simp)⟩⟩

/-- A deadline gives different timeouts at different times, so that no object has what is
written for it. -/
theorem not_keepsObject_integral (m : Metadata) (n : Int) : ¬ KeepsObject m (.finite n) := by
  have hnow : timeoutString (.finite n) n = some "0m" := by
    have hsub : (JsNumber.finite n).sub n = .ofRat 0 := by rw [JsNumber.sub, sub_self]
    rw [timeoutString, hsub]
    decide +kernel
  have hbefore : timeoutString (.finite n) (n - 1) = some "1m" := by
    have hsub : (JsNumber.finite n).sub (n - 1) = .ofRat 1 := by
      rw [JsNumber.sub, Int.cast_sub, Int.cast_one, sub_sub_cancel]
    rw [timeoutString, hsub]
    decide +kernel
  intro h
  have hsame := (h.timeout n "0m" hnow).symm.trans (h.timeout (n - 1) "1m" hbefore)
  exact absurd hsame (by decide)

/-! ### Nothing is written -/

/-- A filter that has nothing to write leaves the object alone. -/
theorem Filtered.self {config : Config γ} {attempt : Attempt} {call : Call γ} {m m' : Metadata}
    {next : Stage} (h : Filtered config attempt call m m' next)
    (hkeeps : KeepsObject m call.deadline)
    (htimeout : ∀ t, attempt.timeout = some t → ∃ now, timeoutString call.deadline now = some t) :
    m' = m := by
  cases h with
  | compression _ hset =>
      have hself := CompressionFilter.sendMetadata_self_iff.mpr hkeeps.encodings
      exact Except.ok.inj (hset.symm.trans hself)
  | credentials _ hmerge => exact (congrArg Prod.fst hmerge).symm
  | noDeadline _ _ => rfl
  | deadline _ _ hattempt hset =>
      obtain ⟨now, hnow⟩ := htimeout _ hattempt
      have hself := (DeadlineFilter.setTimeout_self_iff hnow).mpr (hkeeps.timeout now _ hnow)
      exact Except.ok.inj (hset.symm.trans hself)
  | threw e hm =>
      rcases hm with rfl | rfl
      · rfl
      · rfl

/-- Then the call alone would send the object as it is. -/
theorem KeepsObject.isolatedHeaders {config : Config γ} {call : Call γ} {m : Metadata}
    {timeout : Option String} (h : KeepsObject m call.deadline)
    (htimeout : ∀ t, timeout = some t → ∃ now, timeoutString call.deadline now = some t) :
    isolatedHeaders config call timeout m = State.requestHeaders config call m := by
  have hcompression := CompressionFilter.sendMetadata_self_iff.mpr h.encodings
  unfold Channel.isolatedHeaders
  rw [hcompression]
  cases timeout with
  | none => rfl
  | some t =>
      obtain ⟨now, hnow⟩ := htimeout t rfl
      have hdeadline := (DeadlineFilter.setTimeout_self_iff hnow).mpr (h.timeout now t hnow)
      show (do
        let m ← DeadlineFilter.setTimeout m t
        State.requestHeaders config call m) = _
      rw [hdeadline]
      rfl

/-! ### The invariant -/

namespace Work

/-- The timeout of an attempt is one for the deadline of its call, and it has one when the
filters are done, if there is a deadline. -/
structure Timely (w : Work γ) (attempt : Attempt) : Prop where
  timeout : ∀ t, attempt.timeout = some t →
    ∃ now, timeoutString (w.deadlineOf attempt.call) now = some t
  resolved : attempt.stage = .resolved → attempt.timeout = none →
    ∃ call, w.calls[attempt.call]? = some call ∧ call.deadline = noDeadline

/-- Nothing has been written, and nothing will be: the objects of all calls have what the
filters write. -/
structure Untouched (config : Config γ) (objects : Nat → Metadata) (w : Work γ) : Prop where
  heap : w.heap = objects
  calls : ∀ (i : Nat) (call : Call γ), w.calls[i]? = some call →
    KeepsObject (objects call.metadata) call.deadline
  attempts : ∀ (i : Nat) (attempt : Attempt), w.attempts[i]? = some attempt → w.Timely attempt
  requests : ∀ r ∈ w.requests, ∃ attempt call, w.attempts[r.attempt]? = some attempt ∧
    attempt.call = r.call ∧ w.calls[r.call]? = some call ∧
    (attempt.timeout = none → call.deadline = noDeadline) ∧
    State.requestHeaders config call (objects call.metadata) = .ok r.headers

variable {config : Config γ} {state : ConnectivityState} {sub : SubChannel} {w w' : Work γ}
  {a : Act γ}

theorem deadlineOf_of_call {i : Nat} {call : Call γ} (hcall : w.calls[i]? = some call) :
    w.deadlineOf i = call.deadline := by
  rw [deadlineOf, hcall]

/-- A step does not change the deadline of a call. -/
theorem Step.timeout_kept (h : w.Step config state sub a w') {i : Nat} {now : Int} {t : String}
    (ht : timeoutString (w.deadlineOf i) now = some t) :
    timeoutString (w'.deadlineOf i) now = some t := by
  cases hcall : w.calls[i]? with
  | none =>
      rw [show w.deadlineOf i = noDeadline by rw [deadlineOf, hcall]] at ht
      exact absurd ht nofun
  | some call =>
      obtain ⟨status, hcall'⟩ := h.call_kept hcall
      rw [deadlineOf_of_call hcall']
      rwa [deadlineOf_of_call hcall] at ht

theorem Timely.step {attempt : Attempt} (hattempt : w.Timely attempt)
    (h : w.Step config state sub a w') : w'.Timely attempt := by
  refine ⟨fun t ht => ?_, fun hstage hnone => ?_⟩
  · obtain ⟨now, hnow⟩ := hattempt.timeout t ht
    exact ⟨now, h.timeout_kept hnow⟩
  · obtain ⟨call, hcall, hdeadline⟩ := hattempt.resolved hstage hnone
    obtain ⟨status, hcall'⟩ := h.call_kept hcall
    exact ⟨_, hcall', hdeadline⟩

/-- An attempt stays the one of its call, and keeps the timeout that it has got. -/
theorem Step.attempt_kept (h : w.Step config state sub a w') {i : Nat} {attempt : Attempt}
    (hattempt : w.attempts[i]? = some attempt) :
    ∃ attempt', w'.attempts[i]? = some attempt' ∧ attempt'.call = attempt.call ∧
      (attempt'.timeout = none → attempt.timeout = none) := by
  have appended : ∀ new : Attempt, ∃ attempt', (w.attempts ++ [new])[i]? = some attempt' ∧
      attempt'.call = attempt.call ∧ (attempt'.timeout = none → attempt.timeout = none) := by
    intro new
    refine ⟨attempt, ?_, rfl, id⟩
    rw [List.getElem?_append_left (List.getElem?_eq_some_iff.mp hattempt).1, hattempt]
  have modified : ∀ (j : Nat) (f : Attempt → Attempt), (f attempt).call = attempt.call →
      ((f attempt).timeout = none → attempt.timeout = none) →
      ∃ attempt', (w.attempts.modify j f)[i]? = some attempt' ∧
        attempt'.call = attempt.call ∧ (attempt'.timeout = none → attempt.timeout = none) := by
    intro j f hcall htimeout
    rw [List.getElem?_modify, hattempt]
    by_cases hj : j = i
    · exact ⟨f attempt, by simp [hj], hcall, htimeout⟩
    · exact ⟨attempt, by simp [hj], rfl, id⟩
  cases h with
  | same => exact ⟨attempt, hattempt, rfl, id⟩
  | create _ _ _ => exact appended _
  | restart _ call => exact appended _
  | timeout _ now _ =>
      exact modified _ _ rfl fun hnone => (Option.or_eq_none_iff.mp hnone).1
  | connected _ _ => exact modified _ _ rfl id
  | filtered _ _ _ => exact modified _ _ rfl id
  | handled _ => exact modified _ _ rfl id
  | request _ _ _ _ _ _ => exact modified _ _ rfl id
  | cancelled _ _ => exact modified _ _ rfl id
  | ended _ _ => exact ⟨attempt, hattempt, rfl, id⟩

/-- What the timeout of an attempt is in the course of a filter. -/
theorem Timely.filtered {attempt : Attempt} {call : Call γ} {m m' : Metadata}
    {next : Stage} (hattempt : w.Timely attempt) (hcall : w.calls[attempt.call]? = some call)
    (h : Filtered config attempt call m m' next) : w.Timely { attempt with stage := next } := by
  refine ⟨hattempt.timeout, fun hstage hnone => ?_⟩
  cases h with
  | noDeadline _ hdeadline => exact ⟨call, hcall, hdeadline⟩
  | deadline _ _ htimeout _ => exact absurd (hnone.symm.trans htimeout) nofun
  | compression _ _ => exact absurd hstage nofun
  | credentials _ _ => exact absurd hstage nofun
  | threw _ _ => exact absurd hstage nofun

/-- All attempts stay timely. -/
theorem Untouched.timely_step {objects : Nat → Metadata} (hw : w.Untouched config objects)
    (h : w.Step config state sub a w') {i : Nat} {attempt : Attempt}
    (hattempt : w'.attempts[i]? = some attempt) : w'.Timely attempt := by
  have kept : ∀ {b : Attempt}, w.Timely b → w'.Timely b := fun hb => hb.step h
  have appended : ∀ {new : Attempt}, (w.attempts ++ [new])[i]? = some attempt →
      new.timeout = none → new.stage ≠ .resolved → w'.Timely attempt := by
    intro new hnew htimeout hstage
    rcases List.mem_append.mp (List.mem_of_getElem? hnew) with hmem | hmem
    · obtain ⟨j, hj⟩ := List.mem_iff_getElem?.mp hmem
      exact kept (hw.attempts j attempt hj)
    · obtain rfl := List.mem_singleton.mp hmem
      exact ⟨fun t ht => absurd (htimeout.symm.trans ht) nofun, fun hr => absurd hr hstage⟩
  have modified : ∀ {j : Nat} {f : Attempt → Attempt},
      (w.attempts.modify j f)[i]? = some attempt →
      (∀ b, w.attempts[j]? = some b → w.Timely (f b)) → w'.Timely attempt := by
    intro j f hnew hf
    rw [List.getElem?_modify, Option.map_eq_map, Option.map_eq_some_iff] at hnew
    obtain ⟨b, hb, rfl⟩ := hnew
    by_cases hj : j = i
    · rw [if_pos hj]
      exact kept (hf b (by rw [hj, hb]))
    · rw [if_neg hj]
      exact kept (hw.attempts i b hb)
  have handled : ∀ {j : Nat},
      (w.attempts.modify j fun b => { b with stage := .handled })[i]? = some attempt →
      w'.Timely attempt := by
    intro j hnew
    refine modified hnew fun b hb => ?_
    exact ⟨(hw.attempts j b hb).timeout, fun hstage => absurd hstage nofun⟩
  cases h with
  | same => exact hw.attempts i attempt hattempt
  | create _ _ _ => exact appended hattempt rfl nofun
  | restart _ _ => exact appended hattempt rfl nofun
  | timeout _ now hold =>
      refine modified hattempt fun b hb => ?_
      obtain rfl := Option.some.inj (hold.symm.trans hb)
      -- The first value stays; a new one is computed from the deadline of the call.
      refine ⟨fun t ht => ?_, fun hstage hnone => ?_⟩
      · rcases Option.or_eq_some_iff.mp ht with ht | ⟨-, ht⟩
        · exact (hw.attempts _ _ hb).timeout t ht
        · exact ⟨now, ht⟩
      · exact (hw.attempts _ _ hb).resolved hstage (Option.or_eq_none_iff.mp hnone).1
  | connected _ j =>
      exact modified hattempt
        fun b hb => ⟨(hw.attempts j b hb).timeout, (hw.attempts j b hb).resolved⟩
  | filtered hold hcall hfiltered =>
      refine modified hattempt fun b hb => ?_
      obtain rfl := Option.some.inj (hold.symm.trans hb)
      exact (hw.attempts _ _ hb).filtered hcall hfiltered
  | handled _ => exact handled hattempt
  | request _ _ _ _ _ _ => exact handled hattempt
  | cancelled _ _ => exact handled hattempt
  | ended _ _ => exact kept (hw.attempts i attempt hattempt)

variable {objects : Nat → Metadata}

theorem Untouched.heap_step (hw : w.Untouched config objects) (h : w.Step config state sub a w') :
    w'.heap = objects := by
  cases h with
  | filtered hattempt hcall hfiltered =>
      have htimely := (hw.attempts _ _ hattempt).timeout
      rw [deadlineOf_of_call hcall] at htimely
      rw [hw.heap] at hfiltered
      have hself := hfiltered.self (hw.calls _ _ hcall) htimely
      rw [← hw.heap] at hself ⊢
      funext address
      show (if _ then _ else _) = _
      split
      · rename_i haddress
        rw [hself, haddress]
      · rfl
  | _ => exact hw.heap

/-- A new call has to be made with an object that has all there is to write. -/
theorem Untouched.calls_step (hw : w.Untouched config objects) (h : w.Step config state sub a w')
    (hact : ∀ metadata methodName options, a = .createStream metadata methodName options →
      KeepsObject (objects metadata) (State.newCall metadata methodName options).deadline)
    {i : Nat} {call : Call γ} (hcall : w'.calls[i]? = some call) :
    KeepsObject (objects call.metadata) call.deadline := by
  have ended : ∀ {j : Nat} {status : StatusObject},
      (w.calls.modify j fun c => { c with status := c.status.or (some status) })[i]? = some call →
      KeepsObject (objects call.metadata) call.deadline := by
    intro j status hnew
    rw [List.getElem?_modify, Option.map_eq_map, Option.map_eq_some_iff] at hnew
    obtain ⟨c, hc, rfl⟩ := hnew
    have hkeeps := hw.calls i c hc
    split <;> exact hkeeps
  cases h with
  | create metadata methodName options =>
      rcases List.mem_append.mp (List.mem_of_getElem? hcall) with hmem | hmem
      · obtain ⟨j, hj⟩ := List.mem_iff_getElem?.mp hmem
        exact hw.calls j call hj
      · obtain rfl := List.mem_singleton.mp hmem
        exact hact metadata methodName options rfl
  | cancelled _ _ => exact ended hcall
  | ended _ _ => exact ended hcall
  | _ => exact hw.calls i call hcall

theorem Untouched.requests_step (hw : w.Untouched config objects)
    (h : w.Step config state sub a w') {r : Request} (hr : r ∈ w'.requests) :
    ∃ attempt call, w'.attempts[r.attempt]? = some attempt ∧ attempt.call = r.call ∧
      w'.calls[r.call]? = some call ∧ (attempt.timeout = none → call.deadline = noDeadline) ∧
      State.requestHeaders config call (objects call.metadata) = .ok r.headers := by
  -- What a request of `w` is about is still there.
  have kept : ∀ {attempt : Attempt} {call : Call γ}, w.attempts[r.attempt]? = some attempt →
      attempt.call = r.call → w.calls[r.call]? = some call →
      (attempt.timeout = none → call.deadline = noDeadline) →
      State.requestHeaders config call (objects call.metadata) = .ok r.headers →
      ∃ attempt call, w'.attempts[r.attempt]? = some attempt ∧ attempt.call = r.call ∧
        w'.calls[r.call]? = some call ∧ (attempt.timeout = none → call.deadline = noDeadline) ∧
        State.requestHeaders config call (objects call.metadata) = .ok r.headers := by
    intro attempt call hattempt hsame hcall htimeout hheaders
    obtain ⟨attempt', hattempt', hsame', hnone⟩ := h.attempt_kept hattempt
    obtain ⟨status, hcall'⟩ := h.call_kept hcall
    exact ⟨attempt', _, hattempt', hsame'.trans hsame, hcall', fun hn => htimeout (hnone hn),
      hheaders⟩
  have hold : r ∈ w.requests →
      ∃ attempt call, w'.attempts[r.attempt]? = some attempt ∧ attempt.call = r.call ∧
        w'.calls[r.call]? = some call ∧ (attempt.timeout = none → call.deadline = noDeadline) ∧
        State.requestHeaders config call (objects call.metadata) = .ok r.headers := by
    intro hmem
    obtain ⟨attempt, call, hattempt, hsame, hcall, htimeout, hheaders⟩ := hw.requests r hmem
    exact kept hattempt hsame hcall htimeout hheaders
  cases h with
  | request hattempt hcall hstage _ _ hheaders =>
      rcases List.mem_append.mp hr with hmem | hmem
      · exact hold hmem
      · -- The filters are done, so an attempt without a timeout has no deadline.
        obtain rfl := List.mem_singleton.mp hmem
        refine kept hattempt rfl hcall (fun hnone => ?_) (hw.heap ▸ hheaders)
        obtain ⟨call', hcall', hdeadline⟩ := (hw.attempts _ _ hattempt).resolved hstage hnone
        rw [Option.some.inj (hcall.symm.trans hcall'), hdeadline]
  | _ => exact hold hr

theorem Untouched.step (hw : w.Untouched config objects) (h : w.Step config state sub a w')
    (hact : ∀ metadata methodName options, a = .createStream metadata methodName options →
      KeepsObject (objects metadata) (State.newCall metadata methodName options).deadline) :
    w'.Untouched config objects :=
  ⟨hw.heap_step h, fun _ _ => hw.calls_step h hact, fun _ _ => hw.timely_step h,
    fun _ => hw.requests_step h⟩

end Work

/-! ### When calls are independent -/

theorem Work.Untouched.isolated {config : Config γ} {objects : Nat → Metadata} {s : State γ}
    (hs : s.work.Untouched config objects) : Isolated config objects s := by
  refine ⟨hs.heap, fun r hr => ?_⟩
  obtain ⟨attempt, call, hattempt, hsame, hcall, hnone, hheaders⟩ := hs.requests r hr
  have htimely := (hs.attempts _ _ hattempt).timeout
  rw [hsame, Work.deadlineOf_of_call hcall] at htimely
  refine ⟨attempt, call, hattempt, hcall, ⟨hnone, fun hdeadline => ?_⟩, ?_⟩
  · cases htimeout : attempt.timeout with
    | none => rfl
    | some t =>
        obtain ⟨now, hnow⟩ := htimely t htimeout
        rw [hdeadline] at hnow
        exact absurd hnow nofun
  · rw [(hs.calls _ _ hcall).isolatedHeaders htimely, hheaders]

theorem initial_untouched (config : Config γ) (objects : Nat → Metadata) :
    (State.initial objects : State γ).work.Untouched config objects := by
  have hwork : (State.initial objects : State γ).work = ⟨objects, [], [], []⟩ := rfl
  rw [hwork]
  refine ⟨rfl, fun i call hcall => ?_, fun i attempt hattempt => ?_, fun r hr => ?_⟩
  · exact absurd hcall (by simp)
  · exact absurd hattempt (by simp)
  · exact absurd hr List.not_mem_nil

/-- A filter runs when nothing else does. -/
theorem step_filter {config : Config γ} {s s' : State γ} {i : Nat} {attempt : Attempt}
    {call : Call γ} (hemitting : s.emitting = none) (hattempt : s.attempts[i]? = some attempt)
    (hcall : s.calls[attempt.call]? = some call) (h : s.filter? config i attempt call = some s') :
    step config s (.filter i) = some s' := by
  simp only [step, if_pos hemitting]
  exact withAttempt_eq_some.mpr ⟨attempt, call, hattempt, hcall, h⟩

/-- A call is made, and the first filter has gone over its object. -/
theorem exec_compression (config : Config γ) (objects : Nat → Metadata) (address : Nat)
    (options : CallOptions γ) {m : Metadata}
    (hset : CompressionFilter.sendMetadata (objects address) = .ok m) :
    ∃ s, Runs.exec (step config) (State.initial objects)
      [.createStream address "/m" options, .filter 0] = some s ∧ s.heap address = m := by
  have hcreate : ∃ s, step config (State.initial objects) (.createStream address "/m" options) =
      some s ∧ s.emitting = none ∧ s.heap = objects ∧
      s.calls = [State.newCall address "/m" options] ∧ s.attempts = [{ call := 0 }] := by
    by_cases hdeadline : (State.newCall address "/m" options).deadline = noDeadline
    · simp only [step, State.createStream, State.startHttp2Stream, if_pos hdeadline]
      exact ⟨_, rfl, rfl, rfl, rfl, rfl⟩
    · simp only [step, State.createStream, State.startHttp2Stream, if_neg hdeadline]
      exact ⟨_, rfl, rfl, rfl, rfl, rfl⟩
  obtain ⟨s, hstep, hemitting, hheap, hcalls, hattempts⟩ := hcreate
  have hfilter : step config s (.filter 0) = some (s.filtered 0 address .credentials (.ok m)) := by
    refine step_filter hemitting (by rw [hattempts]; rfl)
      (by rw [hcalls]; rfl) ?_
    show some (s.filtered 0 address .credentials (CompressionFilter.sendMetadata (s.heap address))) = _
    rw [hheap, hset]
  rw [Runs.exec_cons_of_step hstep, Runs.exec_cons_of_step hfilter]
  refine ⟨_, rfl, ?_⟩
  show (if address = address then m else s.heap address) = m
  exact if_pos rfl

/-- A call with a deadline is made on a channel that connects at the time `now`. -/
def deadlineCall (address : Nat) (options : CallOptions γ) (now : Int) : List (Act γ) :=
  [.createStream address "/m" options, .sessionConnect 0, .emitNext now, .emitNext now,
    .emitNext now]

theorem exec_deadlineCall (config : Config γ) (objects : Nat → Metadata) {address : Nat}
    {options : CallOptions γ} {call : Call γ} (hcall : call = State.newCall address "/m" options)
    (hdeadline : call.deadline ≠ noDeadline) (now : Int) :
    ∃ s, Runs.exec (step config) (State.initial objects) (deadlineCall address options now) =
      some s ∧ s.emitting = none ∧ s.heap = objects ∧ s.calls = [call] ∧ s.attempts =
        [{ call := 0, timeout := timeoutString call.deadline now, connected := true }] := by
  subst hcall
  unfold deadlineCall
  rw [Runs.exec_cons]
  simp only [step, State.createStream, State.startHttp2Stream, if_neg hdeadline]
  refine ⟨_, rfl, ?_, ?_, ?_, ?_⟩
  · rfl
  · rfl
  · rfl
  · rfl

/-- The filters go over an object that has the encodings already, and set the timeout. -/
theorem exec_filters (config : Config γ) {s : State γ} {call : Call γ} {t : String} {m : Metadata}
    (hemitting : s.emitting = none) (hcalls : s.calls = [call])
    (hattempts : s.attempts = [{ call := 0, timeout := some t, connected := true }])
    (hdeadline : call.deadline ≠ noDeadline) (hencodings : CarriesEncodings (s.heap call.metadata))
    (hset : DeadlineFilter.setTimeout (s.heap call.metadata) t = .ok m) :
    ∃ s', Runs.exec (step config) s [.filter 0, .filter 0, .filter 0] = some s' ∧
      s'.heap call.metadata = m := by
  -- One filter: the object becomes `m'`, and the next one is up.
  have next : ∀ {s : State γ} {attempt : Attempt} (stage : Stage) (m' : Metadata),
      s.emitting = none → s.calls = [call] → s.attempts = [attempt] → attempt.call = 0 →
      s.filter? config 0 attempt call = some (s.filtered 0 call.metadata stage (.ok m')) →
      ∃ s', step config s (.filter 0) = some s' ∧ s'.emitting = none ∧ s'.calls = [call] ∧
        s'.attempts = [{ attempt with stage := stage }] ∧ s'.heap call.metadata = m' := by
    intro s attempt stage m' hemitting hcalls hattempts hcall hfilter
    have hstep := step_filter hemitting (by rw [hattempts]; rfl) (by rw [hcalls, hcall]; rfl) hfilter
    refine ⟨_, hstep, hemitting, hcalls, ?_, if_pos rfl⟩
    show s.attempts.modify 0 _ = _
    rw [hattempts]
    rfl
  have hself := CompressionFilter.sendMetadata_self_iff.mpr hencodings
  obtain ⟨s₁, hstep₁, hemitting₁, hcalls₁, hattempts₁, hheap₁⟩ :=
    next .credentials (s.heap call.metadata) hemitting hcalls hattempts rfl (by
      show some (s.filtered 0 call.metadata .credentials _) = _
      rw [hself])
  obtain ⟨s₂, hstep₂, hemitting₂, hcalls₂, hattempts₂, hheap₂⟩ :=
    next .deadline (s₁.heap call.metadata) hemitting₁ hcalls₁ hattempts₁ rfl rfl
  obtain ⟨s₃, hstep₃, -, -, -, hheap₃⟩ :=
    next .resolved m hemitting₂ hcalls₂ hattempts₂ rfl (by
      show (if call.deadline = noDeadline then _ else
        some (s₂.filtered 0 call.metadata .resolved
          (DeadlineFilter.setTimeout (s₂.heap call.metadata) t))) = _
      rw [if_neg hdeadline, hheap₂, hheap₁, hset])
  exact ⟨s₃, by rw [Runs.exec_cons_of_step hstep₁, Runs.exec_cons_of_step hstep₂,
    Runs.exec_cons_of_step hstep₃, Runs.exec_nil], hheap₃⟩

/-- What is written for a call has to be there before. -/
theorem Independent.keepsObject {config : Config γ} {objects : Nat → Metadata}
    {allowed : Nat → CallOptions γ → Prop} (h : Independent config objects allowed)
    (address : Nat) (options : CallOptions γ) (hallowed : allowed address options) :
    KeepsObject (objects address) (State.newCall address "/m" options).deadline := by
  have hencodings : CarriesEncodings (objects address) := by
    obtain ⟨m, hset⟩ := CompressionFilter.exists_sendMetadata (objects address)
    obtain ⟨s, hexec, hheap⟩ := exec_compression config objects address options hset
    have hisolated := (h _ (by simpa [Act.Uses] using hallowed)).last hexec
    rw [hisolated.heap] at hheap
    exact CompressionFilter.sendMetadata_self_iff.mp (hheap ▸ hset)
  refine ⟨hencodings, fun now t ht => ?_⟩
  have hdeadline : (State.newCall address "/m" options).deadline ≠ noDeadline := by
    intro hnone
    rw [hnone] at ht
    exact absurd ht nofun
  obtain ⟨m, hset⟩ : ∃ m, DeadlineFilter.setTimeout (objects address) t = .ok m :=
    ⟨_, Metadata.set_of_valid (valid_timeoutString ht)⟩
  obtain ⟨s, hexec, hemitting, hheap, hcalls, hattempts⟩ :=
    exec_deadlineCall config objects rfl hdeadline now
  rw [ht] at hattempts
  obtain ⟨s', hexec', hheap'⟩ := exec_filters config hemitting hcalls hattempts hdeadline
    (by rw [hheap]; exact hencodings) (by rw [hheap]; exact hset)
  have hrun : Runs.exec (step config) (State.initial objects)
      (deadlineCall address options now ++ [.filter 0, .filter 0, .filter 0]) = some s' := by
    rw [Runs.exec_append, hexec, Option.bind_some, hexec']
  have hisolated := (h _ (by simpa [deadlineCall, Act.Uses] using hallowed)).last hrun
  rw [hisolated.heap] at hheap'
  rw [show objects (State.newCall address "/m" options).metadata = objects address from rfl]
    at hheap'
  exact (DeadlineFilter.setTimeout_self_iff ht).mp (hheap' ▸ hset)

/-- **When calls that share a `Metadata` object are independent.** The objects stay what they
were and each request has the headers that its call would send alone, in every run with such
calls, if and only if each call is made with an object that has what the filters write
already: the encodings, and the timeout for the deadline of the call, whatever the time. -/
theorem independent_iff (config : Config γ) (objects : Nat → Metadata)
    (allowed : Nat → CallOptions γ → Prop) :
    Independent config objects allowed ↔ ∀ address options, allowed address options →
      KeepsObject (objects address) (State.newCall address "/m" options).deadline := by
  refine ⟨fun h => h.keepsObject, fun h acts hacts => ?_⟩
  have hguarded : Runs.Guarded (step config) (fun _ a => a.Uses allowed) (State.initial objects)
      acts := Runs.guarded_of_forall hacts _
  have huntouched : Runs.Always (step config) (fun s => s.work.Untouched config objects)
      (State.initial objects) acts := by
    refine Runs.always_of_guarded ?_ (initial_untouched config objects) hguarded
    intro s a s' hs hact hstep
    refine hs.step (step_work hstep) ?_
    rintro metadata methodName options rfl
    exact h metadata options hact
  exact huntouched.mono fun _ hs => hs.isolated

/-- Two calls with one object, the second after the first has been sent: the deadline is
the first one's, and the second one sends a timeout for it. -/
def twoCalls : List (Act Unit) :=
  [.createStream 0 "/a" { deadline := some (.number (.finite 5000)) }, .sessionConnect 0,
    .emitNext 4000, .emitNext 4000, .emitNext 4000, .filter 0, .filter 0, .filter 0, .settle 0,
    .createStream 0 "/b" {}, .filter 1, .filter 1, .filter 1, .runImmediate 4000, .settle 1]

theorem timeout_leaks :
    ¬ Independent (γ := Unit) ⟨"localhost", .empty⟩ (fun _ => Metadata.new) (fun _ _ => True) ∧
      (Runs.exec (step ⟨"localhost", .empty⟩) (State.initial fun _ => Metadata.new)
        twoCalls).map (fun s => s.requests.map fun r =>
          (r.call, headerValues r.headers "grpc-timeout")) =
        some [(0, ["1000m"]), (1, ["1000m"])] := by
  constructor
  · intro h
    have hkeeps := h.keepsObject 0 {} trivial
    exact absurd hkeeps.encodings.1 (by decide)
  · decide +kernel

end GrpcNode.JsCore.Channel
