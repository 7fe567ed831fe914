import GrpcNode.JsCore.CallStreamEnd
import GrpcNode.JsCore.CallStreamStatus
import GrpcNode.JsCore.CallStreamTruncation
import GrpcNode.JsCore.CallStreamWrites
import GrpcNode.JsCore.ReadableStream

/-!
# GrpcNode.JsCore.DuplexStream

`ClientDuplexStreamImpl` of `call.ts` over its `Http2CallStream`, which makes it a stream of objects
over the bytes of an HTTP/2 stream. `ClientReadableStreamImpl` is the one that does not write, and
`ClientWritableStreamImpl` the one that does not read.

The call stream is a `Readable`: what it has pushed it emits later, as `'data'` and as `'end'`, while
it flows. The listeners may cancel the call, which emits `'status'` at once. `EndToEnd` compares what
the user gets with what the peer has sent (`endToEnd`).
-/

namespace GrpcNode.JsCore.DuplexStream

open GrpcNode.Js
open Runs (when)

/-- A stream and its call. -/
structure State (ρ ε : Type) where
  call : CallStream.State := CallStream.State.initial
  /-- How many of the objects that have been pushed the call has emitted. -/
  emitted : Nat := 0
  readable : ReadableStream ρ := {}
  /-- The messages that `tryWrite` has handed to the call. -/
  written : List WriteObject := []
  /-- The exceptions that the callbacks of writes have been called with. -/
  errors : List ε := []

/-- What can happen. -/
inductive Act (α : Type)
  /-- A step of the call stream; `cancel()` and `_final` are among them. -/
  | call (a : CallStream.Act)
  /-- The call emits the next `'data'`, or `'end'`. -/
  | emit
  /-- `_write(chunk, encoding, cb)`; `flags` is `Number(encoding)` unless that is `NaN`. -/
  | write (chunk : α) (flags : Option Nat) (cb : Callback)

/-- The bytes of a `'data'` event of the HTTP/2 stream. -/
def Act.bytes {α : Type} : Act α → Buffer
  | .call a => a.bytes
  | _ => []

variable {α ε δ ρ : Type}

namespace State

variable (s : State ρ ε)

/-- The listener of `'status'` hears what the call has emitted. -/
def withCall (call : CallStream.State) : State ρ ε :=
  { s with
    call
    readable := (call.statuses.drop s.call.statuses.length).foldl
      (fun readable status => ReadableStream.onStatus status readable) s.readable }

/-- The listener of `'data'` -/
def onData (filterStack : ReceiveFilter) (deserialize : Buffer → Except δ (Option ρ))
    (data : Buffer) : Option (State ρ ε) :=
  match deserialize data with
  | .error _ =>
      (CallStream.step filterStack s.call
        (.cancelWithStatus .internal "Failed to parse server response")).map s.withCall
  | .ok deserialized =>
      some { s with readable := { s.readable with pushed := s.readable.pushed ++ [deserialized] } }

/-- The listener of `'end'` -/
def onEnd : State ρ ε :=
  { s with readable := { s.readable with pushed := s.readable.pushed ++ [none] } }

/-- The call emits the next `'data'`, or `'end'`. -/
def emit (filterStack : ReceiveFilter) (deserialize : Buffer → Except δ (Option ρ)) :
    Option (State ρ ε) :=
  match s.call.pushed[s.emitted]? with
  | none => none
  | some none => some { s with emitted := s.emitted + 1 }.onEnd
  | some (some data) => { s with emitted := s.emitted + 1 }.onData filterStack deserialize data

/-- `tryWrite(call, serialize, chunk, encoding, cb)` -/
def tryWrite (filterStack : ReceiveFilter) (serialize : α → Except ε Buffer) (chunk : α)
    (flags : Option Nat) (cb : Callback) : Option (State ρ ε) :=
  match serialize chunk with
  | .error e =>
      (CallStream.step filterStack s.call
        (.cancelWithStatus .internal "Serialization failure")).map fun call =>
          { s.withCall call with errors := s.errors ++ [e] }
  | .ok message =>
      (CallStream.step filterStack s.call (.write { message, flags } cb)).map fun call =>
        { s.withCall call with written := s.written ++ [{ message, flags }] }

/-- A step of the call stream. Only `tryWrite` writes to it. -/
def callStep (filterStack : ReceiveFilter) : CallStream.Act → Option (State ρ ε)
  | .write _ _ => none
  | a => (CallStream.step filterStack s.call a).map s.withCall

end State

/-- One step; `none` if it is not possible. The call emits, and the user writes, where foreign code
can run. -/
def step (filterStack : ReceiveFilter) (serialize : α → Except ε Buffer)
    (deserialize : Buffer → Except δ (Option ρ)) (s : State ρ ε) : Act α → Option (State ρ ε)
  | .call a => s.callStep filterStack a
  | .emit => if s.call.canRead then s.emit filterStack deserialize else none
  | .write chunk flags cb =>
      if s.call.canRead ∧ s.call.writing = none ∧ !s.call.finished then
        s.tryWrite filterStack serialize chunk flags cb
      else none

/-! ### What a step can be -/

/-- The steps: the call goes on, or the stream is given a message or the end. -/
inductive Next (filterStack : ReceiveFilter) (deserialize : Buffer → Except δ (Option ρ))
    (s : State ρ ε) : Buffer → State ρ ε → Prop
  | call {a : CallStream.Act} {call : CallStream.State} (errors : List ε) :
      CallStream.step filterStack s.call a = some call →
      Next filterStack deserialize s a.bytes
        { s.withCall call with written := s.written ++ CallStream.messages [a], errors }
  | data {data : Buffer} {value : Option ρ} : s.call.pushed[s.emitted]? = some (some data) →
      deserialize data = .ok value →
      Next filterStack deserialize s []
        { s with
          emitted := s.emitted + 1
          readable := { s.readable with pushed := s.readable.pushed ++ [value] } }
  | fails {data : Buffer} {call : CallStream.State} :
      s.call.pushed[s.emitted]? = some (some data) →
      ¬ ReadableStream.Parses deserialize data →
      CallStream.step filterStack s.call
        (.cancelWithStatus .internal "Failed to parse server response") = some call →
      Next filterStack deserialize s [] ({ s with emitted := s.emitted + 1 }.withCall call)
  | «end» : s.call.pushed[s.emitted]? = some none →
      Next filterStack deserialize s [] { s with emitted := s.emitted + 1 }.onEnd

theorem messages_singleton {a : CallStream.Act} (h : ∀ chunk cb, a ≠ .write chunk cb) :
    CallStream.messages [a] = [] := by
  cases a with
  | write chunk cb => exact absurd rfl (h chunk cb)
  | _ => rfl

theorem emit_next {filterStack : ReceiveFilter} {deserialize : Buffer → Except δ (Option ρ)}
    {s s' : State ρ ε} (h : s.emit filterStack deserialize = some s') :
    Next filterStack deserialize s [] s' := by
  unfold State.emit at h
  split at h
  · cases h
  · rename_i hpushed
    obtain rfl := Option.some.inj h
    exact .end hpushed
  · rename_i data hpushed
    unfold State.onData at h
    split at h
    · rename_i e herror
      obtain ⟨call, hcall, rfl⟩ := Option.map_eq_some_iff.mp h
      refine .fails hpushed ?_ hcall
      rintro ⟨value, hvalue⟩
      cases herror.symm.trans hvalue
    · rename_i value hvalue
      obtain rfl := Option.some.inj h
      exact .data hpushed hvalue

theorem tryWrite_next {filterStack : ReceiveFilter} {serialize : α → Except ε Buffer}
    {deserialize : Buffer → Except δ (Option ρ)} {s s' : State ρ ε} {chunk : α}
    {flags : Option Nat} {cb : Callback}
    (h : s.tryWrite filterStack serialize chunk flags cb = some s') :
    Next filterStack deserialize s [] s' := by
  unfold State.tryWrite at h
  split at h
  · rename_i e herror
    obtain ⟨call, hcall, rfl⟩ := Option.map_eq_some_iff.mp h
    have hnext : Next filterStack deserialize s [] _ := .call (s.errors ++ [e]) hcall
    rwa [show CallStream.messages [.cancelWithStatus .internal "Serialization failure"] = []
      from rfl, List.append_nil] at hnext
  · obtain ⟨call, hcall, rfl⟩ := Option.map_eq_some_iff.mp h
    exact .call s.errors hcall

theorem step_next {filterStack : ReceiveFilter} {serialize : α → Except ε Buffer}
    {deserialize : Buffer → Except δ (Option ρ)} {s s' : State ρ ε} {a : Act α}
    (h : step filterStack serialize deserialize s a = some s') :
    Next filterStack deserialize s a.bytes s' := by
  cases a with
  | call a =>
      have hcall : (∀ chunk cb, a ≠ .write chunk cb) ∧
          (CallStream.step filterStack s.call a).map s.withCall = some s' := by
        cases a with
        | write chunk cb => cases h
        | _ => exact ⟨fun _ _ h => CallStream.Act.noConfusion h, h⟩
      obtain ⟨hwrite, hmap⟩ := hcall
      obtain ⟨call, hcall, rfl⟩ := Option.map_eq_some_iff.mp hmap
      have hnext : Next filterStack deserialize s a.bytes _ := .call s.errors hcall
      rwa [messages_singleton hwrite, List.append_nil] at hnext
  | emit =>
      have hemit : (if s.call.canRead then s.emit filterStack deserialize else none) = some s' := h
      split at hemit
      · exact emit_next hemit
      · cases hemit
  | write chunk flags cb =>
      have hwrite : (if s.call.canRead ∧ s.call.writing = none ∧ !s.call.finished then
          s.tryWrite filterStack serialize chunk flags cb else none) = some s' := h
      split at hwrite
      · exact tryWrite_next hwrite
      · cases hwrite

/-! ### What has been given -/

/-- What the call has emitted. -/
def State.taken (s : State ρ ε) : List (Option Buffer) := s.call.pushed.take s.emitted

/-- The messages of the `'data'` events. -/
def State.given (s : State ρ ε) : List Buffer := s.taken.filterMap id

/-- Whether `'end'` has been emitted. -/
def State.over (s : State ρ ε) : Bool := s.taken.any Option.isNone

/-- Nothing is pushed after `null`. -/
theorem eq_of_none_mem {received : Buffer} {ended : Bool} {taken : List (Option Buffer)}
    (h : taken <+: CallStream.expected received ended) (hnone : none ∈ taken) :
    ended = true ∧ taken = (decode received).map some ++ [none] := by
  have hlength : (decode received).length < taken.length := by
    by_contra hle
    have hmessages : taken <+: (decode received).map some := by
      refine List.prefix_of_prefix_length_le h (List.prefix_append _ _) ?_
      rw [List.length_map]
      exact Nat.le_of_not_lt hle
    obtain ⟨message, -, hmessage⟩ := List.mem_map.mp (hmessages.subset hnone)
    cases hmessage
  cases ended with
  | true =>
      refine ⟨rfl, h.eq_of_length_le ?_⟩
      simp only [CallStream.expected, if_true, List.length_append, List.length_map,
        List.length_singleton]
      exact hlength
  | false =>
      have hle := h.length_le
      simp only [CallStream.expected, Bool.false_eq_true, if_false, List.append_nil,
        List.length_map] at hle
      omega

theorem pushed_step {d d' : CallStream.Delivery} (h : d.Step d') : d.pushed <+: d'.pushed := by
  cases h with
  | dataPushes | endPushes | readPushes => exact List.prefix_append _ _
  | _ => exact List.prefix_refl _

theorem onStatuses (readable : ReadableStream ρ) (statuses : List StatusObject) :
    statuses.foldl (fun readable status => ReadableStream.onStatus status readable) readable =
      { readable with
        statuses := readable.statuses ++ statuses
        errors := readable.errors ++
          (statuses.filter fun status => status.code ≠ .ok).map .ofStatus } := by
  induction statuses generalizing readable with
  | nil => simp
  | cons status statuses ih =>
      rw [List.foldl_cons, ih]
      by_cases hcode : status.code = .ok <;> simp [ReadableStream.onStatus, hcode]

/-- What holds along a run. -/
structure Inv (deserialize : Buffer → Except δ (Option ρ)) (s : State ρ ε) : Prop where
  ending : s.call.Ending
  good : s.call.Good
  emitted : s.emitted ≤ s.call.pushed.length
  pushed : s.readable.pushed = s.given.filterMap (ReadableStream.parse deserialize) ++
    if s.over then [none] else []
  statuses : s.readable.statuses = s.call.statuses
  errors : s.readable.errors =
    (s.call.statuses.filter fun status => status.code ≠ .ok).map .ofStatus
  failed : (∃ message ∈ s.given, ¬ ReadableStream.Parses deserialize message) → s.call.statuses ≠ []
  outgoing : ∃ ended log, s.call.outgoing.Good s.written ended log

variable {deserialize : Buffer → Except δ (Option ρ)} {s : State ρ ε}

theorem inv_initial : Inv deserialize ({} : State ρ ε) where
  ending := CallStream.initial_ending
  good := ⟨[], CallStream.Delivery.initial_good⟩
  emitted := Nat.le_refl _
  pushed := rfl
  statuses := rfl
  errors := rfl
  failed := by simp [State.given, State.taken, CallStream.State.initial]
  outgoing := ⟨false, [], CallStream.initial_outgoing⟩

/-- The call goes on. -/
theorem Inv.call (h : Inv deserialize s) {filterStack : ReceiveFilter} {a : CallStream.Act}
    {call : CallStream.State} (hcall : CallStream.step filterStack s.call a = some call)
    (errors : List ε) : Inv deserialize
      { s.withCall call with written := s.written ++ CallStream.messages [a], errors } := by
  have hwritable := h.ending.writable
  have hstatuses := CallStream.step_statuses hwritable hcall
  have hpushed := pushed_step (CallStream.step_delivery hcall)
  have htaken : State.taken { s.withCall call with
      written := s.written ++ CallStream.messages [a], errors } = s.taken := by
    obtain ⟨more, hmore⟩ := hpushed
    have hmore : s.call.pushed ++ more = call.pushed := hmore
    show call.pushed.take s.emitted = s.call.pushed.take s.emitted
    rw [← hmore]
    exact List.take_append_of_le_length h.emitted
  have hreadable : (s.withCall call).readable = _ := onStatuses s.readable _
  rw [hstatuses, List.drop_left] at hreadable
  obtain ⟨ended, log, houtgoing⟩ := h.outgoing
  refine ⟨h.ending.step hcall, h.good.step hcall, h.emitted.trans hpushed.length_le, ?_, ?_, ?_, ?_,
    ⟨_, _, houtgoing.step (CallStream.step_outgoing hwritable hcall)⟩⟩
  · show (s.withCall call).readable.pushed = _
    rw [hreadable, State.given, State.over, htaken]
    exact h.pushed
  · show (s.withCall call).readable.statuses = call.statuses
    rw [hreadable, hstatuses, h.statuses]
  · show (s.withCall call).readable.errors = _
    rw [hreadable, h.errors]
    show _ = (call.statuses.filter _).map _
    rw [hstatuses, List.filter_append, List.map_append]
  · intro hfails
    rw [State.given, htaken] at hfails
    show call.statuses ≠ []
    rw [hstatuses]
    exact fun hnil => h.failed hfails (List.append_eq_nil_iff.mp hnil).1

/-- The next object that the call emits. -/
theorem taken_next {pushed : Option Buffer} (hnext : s.call.pushed[s.emitted]? = some pushed)
    (readable : ReadableStream ρ) :
    State.taken { s with emitted := s.emitted + 1, readable } = s.taken ++ [pushed] := by
  show s.call.pushed.take (s.emitted + 1) = s.call.pushed.take s.emitted ++ [pushed]
  rw [List.take_add_one, hnext]
  rfl

/-- Nothing is emitted after `'end'`. -/
theorem Inv.not_over (h : Inv deserialize s) {pushed : Option Buffer}
    (hnext : s.call.pushed[s.emitted]? = some pushed) : s.over = false := by
  refine Bool.eq_false_iff.mpr fun hover => ?_
  obtain ⟨_, hmem, hnone⟩ := List.any_eq_true.mp hover
  obtain rfl := Option.isNone_iff_eq_none.mp hnone
  have hinOrder := h.good.delivered.inOrder
  obtain ⟨-, htaken⟩ := eq_of_none_mem ((List.take_prefix _ _).trans hinOrder) hmem
  obtain ⟨-, hall⟩ := eq_of_none_mem hinOrder (List.mem_of_mem_take hmem)
  have hlt : s.emitted < s.call.pushed.length := (List.getElem?_eq_some_iff.mp hnext).1
  have hlength : s.taken.length = s.emitted := List.length_take_of_le h.emitted
  rw [show s.taken = _ from htaken, ← hall] at hlength
  exact absurd hlength (Nat.ne_of_gt hlt)

theorem Inv.emit (h : Inv deserialize s) {pushed : Option Buffer}
    (hnext : s.call.pushed[s.emitted]? = some pushed) (values : List (Option ρ))
    (hvalues : values = pushed.toList.filterMap (ReadableStream.parse deserialize) ++
      if pushed.isNone then [none] else [])
    (hfailed : ∀ data, pushed = some data → ¬ ReadableStream.Parses deserialize data →
      s.call.statuses ≠ []) :
    Inv deserialize { s with
      emitted := s.emitted + 1
      readable := { s.readable with pushed := s.readable.pushed ++ values } } := by
  have htaken := taken_next hnext { s.readable with pushed := s.readable.pushed ++ values }
  have hbefore := h.pushed
  rw [h.not_over hnext] at hbefore
  refine ⟨h.ending, h.good, (List.getElem?_eq_some_iff.mp hnext).1, ?_, h.statuses, h.errors, ?_,
    h.outgoing⟩
  · show s.readable.pushed ++ values = _
    have hover : (s.taken ++ [pushed]).any Option.isNone = pushed.isNone := by
      rw [List.any_append, show s.taken.any Option.isNone = false from h.not_over hnext]
      simp
    rw [State.given, State.over, htaken, hover, List.filterMap_append, List.filterMap_append,
      hbefore, hvalues]
    cases pushed <;> simp [State.given]
  · rw [State.given, htaken, List.filterMap_append]
    rintro ⟨message, hmem, hfails⟩
    rcases List.mem_append.mp hmem with hold | hnew
    · exact h.failed ⟨message, hold, hfails⟩
    · obtain ⟨_, hpushed, rfl⟩ := List.mem_filterMap.mp hnew
      exact hfailed message (List.mem_singleton.mp hpushed).symm hfails

theorem statuses_of_cancel {filterStack : ReceiveFilter} {call call' : CallStream.State}
    {status : Status} {details : String} (hcall : call.Ending)
    (h : CallStream.step filterStack call (.cancelWithStatus status details) = some call') :
    call'.statuses ≠ [] := by
  have honce : call'.statuses = call'.call.finalStatus.toList := (hcall.step h).once
  rw [honce, CallStream.finalStatus_step hcall.writable h]
  cases call.call.finalStatus <;> exact List.cons_ne_nil _ _

theorem Inv.next {filterStack : ReceiveFilter} {s' : State ρ ε} {bytes : Buffer}
    (h : Inv deserialize s) (hnext : Next filterStack deserialize s bytes s') :
    Inv deserialize s' := by
  cases hnext with
  | call errors hcall => exact h.call hcall errors
  | @data data value hpushed hvalue =>
      refine h.emit hpushed [value] ?_ ?_
      · simp [ReadableStream.parse_eq_some.mpr hvalue]
      · intro data' heq hfails
        obtain rfl := Option.some.inj heq
        exact absurd ⟨value, hvalue⟩ hfails
  | @fails data call hpushed hfails hcall =>
      -- The call is cancelled before the listener returns.
      have hcancelled := h.call hcall s.errors
      have hmessages : CallStream.messages
          [.cancelWithStatus .internal "Failed to parse server response"] = [] := rfl
      rw [hmessages, List.append_nil] at hcancelled
      obtain ⟨more, hmore⟩ := pushed_step (CallStream.step_delivery hcall)
      have hmore : s.call.pushed ++ more = call.pushed := hmore
      have hstill : call.pushed[s.emitted]? = some (some data) := by
        rw [← hmore, List.getElem?_append_left (List.getElem?_eq_some_iff.mp hpushed).1]
        exact hpushed
      have hemitted := hcancelled.emit hstill [] ?_ fun _ _ _ => statuses_of_cancel h.ending hcall
      · rw [List.append_nil] at hemitted
        exact hemitted
      · simp [ReadableStream.parses_iff] at hfails
        simp [hfails]
  | «end» hpushed =>
      refine h.emit hpushed [none] rfl ?_
      intro data heq
      cases heq

theorem inv_step {filterStack : ReceiveFilter} {serialize : α → Except ε Buffer} {s' : State ρ ε}
    {a : Act α} (h : Inv deserialize s)
    (hstep : step filterStack serialize deserialize s a = some s') : Inv deserialize s' :=
  h.next (step_next hstep)

/-! ### From the wire to the user -/

/-- The bytes that have come are those of the run. -/
theorem received_next {filterStack : ReceiveFilter} {s' : State ρ ε} {bytes : Buffer}
    (hnext : Next filterStack deserialize s bytes s') :
    s'.call.received = s.call.received ++ bytes := by
  cases hnext with
  | call errors hcall => exact (CallStream.step_input hcall).1
  | data | «end» => exact (List.append_nil _).symm
  | fails _ _ hcall => exact (CallStream.step_input hcall).1

theorem received_exec {filterStack : ReceiveFilter} {serialize : α → Except ε Buffer}
    {acts : List (Act α)} {s t : State ρ ε}
    (h : Runs.exec (step filterStack serialize deserialize) s acts = some t) :
    t.call.received = s.call.received ++ acts.flatMap Act.bytes := by
  induction acts generalizing s with
  | nil =>
      obtain rfl := Option.some.inj h
      exact (List.append_nil _).symm
  | cons a acts ih =>
      obtain ⟨s', hstep, hrest⟩ := Option.bind_eq_some_iff.mp h
      rw [ih hrest, received_next (step_next hstep), List.flatMap_cons, List.append_assoc]

/-- The bytes of messages on the wire. -/
def wire (sent : List WriteObject) : Buffer := (sent.map encodeMessage).flatten

/-- What the call has emitted is an initial part of the messages that have come. -/
theorem Inv.taken_prefix (h : Inv deserialize s) :
    s.taken <+: CallStream.expected s.call.received s.call.ended :=
  (List.take_prefix _ _).trans h.good.delivered.inOrder

theorem filterMap_expected (received : Buffer) (ended : Bool) :
    (CallStream.expected received ended).filterMap id = decode received := by
  cases ended <;> simp [CallStream.expected, List.filterMap_map]

theorem Inv.given_prefix (h : Inv deserialize s) : s.given <+: decode s.call.received := by
  rw [← filterMap_expected s.call.received s.call.ended]
  exact h.taken_prefix.filterMap id

theorem Inv.given_of_over (h : Inv deserialize s) (hover : s.over = true) :
    s.given = decode s.call.received := by
  obtain ⟨_, hmem, hnone⟩ := List.any_eq_true.mp hover
  obtain rfl := Option.isNone_iff_eq_none.mp hnone
  obtain ⟨-, htaken⟩ := eq_of_none_mem h.taken_prefix hmem
  rw [State.given, htaken]
  exact filterMap_expected s.call.received true

theorem prefix_decode {bytes all : Buffer} (h : bytes <+: all) : decode bytes <+: decode all := by
  obtain ⟨more, rfl⟩ := h
  rw [decode_append]
  exact List.prefix_append _ _

theorem Inv.written (h : Inv deserialize s) {stream : Http2Stream}
    (hstream : s.call.call.http2Stream = some stream) :
    stream.written = s.written.map encodeMessage := by
  obtain ⟨ended, log, houtgoing⟩ := h.outgoing
  have hsent : s.call.outgoing.sent = some stream.sent := by
    simp [CallStream.State.outgoing, hstream]
  exact congrArg Prod.fst (houtgoing.sent _ hsent).1

/-! ### What has been pushed can be emitted -/

theorem canRead_cancelWithStatus {call : CallStream.State} (h : call.canRead = true)
    (status : Status) (details : String) :
    (call.cancelWithStatus status details).canRead = true ∧
      (call.cancelWithStatus status details).pushed = call.pushed := by
  unfold CallStream.State.cancelWithStatus
  split
  · refine ⟨rfl, ?_⟩
    exact congrArg CallStream.Delivery.pushed (call.delivery_endCall ⟨status, details, Metadata.new⟩)
  · exact ⟨h, rfl⟩

/-- The call emits the next object, whatever the listener does. -/
theorem exists_emit (filterStack : ReceiveFilter) (serialize : α → Except ε Buffer)
    (deserialize : Buffer → Except δ (Option ρ)) (hrun : s.call.canRead = true)
    (hlt : s.emitted < s.call.pushed.length) :
    ∃ t, step filterStack serialize deserialize s .emit = some t ∧ t.call.canRead = true ∧
      t.call.pushed = s.call.pushed ∧ t.emitted = s.emitted + 1 := by
  have hemit : step filterStack serialize deserialize s .emit = s.emit filterStack deserialize :=
    if_pos hrun
  rw [hemit, State.emit, List.getElem?_eq_getElem hlt]
  cases s.call.pushed[s.emitted] with
  | none => exact ⟨_, rfl, hrun, rfl, rfl⟩
  | some data =>
      simp only [State.onData]
      cases deserialize data with
      | ok value => exact ⟨_, rfl, hrun, rfl, rfl⟩
      | error e =>
          obtain ⟨hrun', hpushed⟩ := canRead_cancelWithStatus hrun .internal
            "Failed to parse server response"
          refine ⟨_, congrArg (Option.map _) (if_pos hrun), hrun', hpushed, rfl⟩

theorem exists_drain (filterStack : ReceiveFilter) (serialize : α → Except ε Buffer)
    (deserialize : Buffer → Except δ (Option ρ)) (n : Nat) (hrun : s.call.canRead = true)
    (hlength : s.call.pushed.length = s.emitted + n) :
    ∃ t, Runs.exec (step filterStack serialize deserialize) s (List.replicate n .emit) = some t ∧
      t.taken = s.call.pushed := by
  induction n generalizing s with
  | zero => exact ⟨s, rfl, List.take_of_length_le (Nat.le_of_eq hlength)⟩
  | succ n ih =>
      obtain ⟨s', hstep, hrun', hpushed, hemitted⟩ :=
        exists_emit filterStack serialize deserialize hrun (by omega)
      obtain ⟨t, hexec, htaken⟩ := ih hrun' (by rw [hpushed, hemitted]; omega)
      refine ⟨t, ?_, htaken.trans hpushed⟩
      rw [List.replicate_succ, Runs.exec_cons_of_step hstep]
      exact hexec

theorem Inv.drain (h : Inv deserialize s) (filterStack : ReceiveFilter)
    (serialize : α → Except ε Buffer) (hrun : s.call.canRead = true) (hended : s.call.ended = true) :
    ∃ n t, Runs.exec (step filterStack serialize deserialize) s (List.replicate n .emit) = some t ∧
      t.over = true ∧ t.given = decode s.call.received := by
  obtain ⟨toCome, hgood⟩ := h.good
  have hpushed : s.call.pushed = CallStream.expected s.call.received true :=
    hended ▸ hgood.pushed_of_ended hended
  obtain ⟨t, hexec, htaken⟩ := exists_drain filterStack serialize deserialize
    (s.call.pushed.length - s.emitted) hrun (by have := h.emitted; omega)
  refine ⟨_, t, hexec, ?_, ?_⟩
  · rw [State.over, htaken, hpushed]
    simp [CallStream.expected]
  · rw [State.given, htaken, hpushed]
    exact filterMap_expected s.call.received true

/-- What a user and a peer that has sent the messages `sent` have of each other. -/
structure EndToEnd (filterStack : ReceiveFilter) (serialize : α → Except ε Buffer)
    (deserialize : Buffer → Except δ (Option ρ)) (sent : List WriteObject) (s : State ρ ε) : Prop where
  /-- The call emits the messages of the peer, in order. -/
  inOrder : s.given <+: sent.map WriteObject.message
  /-- The user gets what can be parsed of them, and then the end. -/
  pushed : s.readable.pushed = s.given.filterMap (ReadableStream.parse deserialize) ++
    if s.over then [none] else []
  /-- At the end that is everything, if all the bytes have come. -/
  all : s.over = true → s.call.received = wire sent → s.given = sent.map WriteObject.message
  /-- The call ends once, with an error unless the status is `OK`. -/
  statuses : s.readable.statuses = s.call.call.finalStatus.toList
  errors : s.readable.errors =
    (s.readable.statuses.filter fun status => status.code ≠ .ok).map .ofStatus
  /-- A message that cannot be parsed has ended it. -/
  failed : (∃ message ∈ s.given, ¬ ReadableStream.Parses deserialize message) →
    s.call.call.finalStatus ≠ none
  /-- After the end of the HTTP/2 stream the rest can always be emitted. -/
  drains : s.call.canRead = true → s.call.ended = true →
    ∃ n t, Runs.exec (step filterStack serialize deserialize) s (List.replicate n .emit) = some t ∧
      t.over = true ∧ t.given = decode s.call.received
  /-- The HTTP/2 stream has got what has been serialized, in order, and the peer can decode it. -/
  written : ∀ stream, s.call.call.http2Stream = some stream →
    stream.written = s.written.map encodeMessage ∧
      ((∀ m ∈ s.written, m.message.length < 2 ^ 32) →
        decode stream.written.flatten = s.written.map WriteObject.message)

theorem Inv.getsThrough (h : Inv deserialize s) (filterStack : ReceiveFilter)
    (serialize : α → Except ε Buffer) {sent : List WriteObject}
    (hsent : ∀ m ∈ sent, m.message.length < 2 ^ 32) (hwire : s.call.received <+: wire sent) :
    EndToEnd filterStack serialize deserialize sent s := by
  have hdecode : decode (wire sent) = sent.map WriteObject.message := (decode_encodeMessages hsent).1
  have honce : s.call.statuses = s.call.call.finalStatus.toList := h.ending.once
  refine ⟨?_, h.pushed, ?_, h.statuses.trans honce, ?_, ?_, h.drain filterStack serialize, ?_⟩
  · rw [← hdecode]
    exact h.given_prefix.trans (prefix_decode hwire)
  · intro hover hall
    rw [h.given_of_over hover, hall, hdecode]
  · rw [h.errors, h.statuses]
  · intro hfails hnone
    refine h.failed hfails ?_
    rw [honce, hnone]
    rfl
  · intro stream hstream
    have hwritten := h.written hstream
    refine ⟨hwritten, fun hsize => ?_⟩
    rw [hwritten]
    exact (decode_encodeMessages hsize).1

end GrpcNode.JsCore.DuplexStream
