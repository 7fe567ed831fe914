import GrpcNode.Lib.Link
import GrpcNode.NativeCore.ClientReadStatus
import GrpcNode.NativeCore.ServerWriteStream
import GrpcNode.NativeCore.Transport

/-!
# GrpcNode.NativeCore.StreamedCall

A call with a stream of responses, with both of its ends: the stream that the handler writes to,
and the stream that the client reads. Between them is a `Transport`. It delivers the messages, and
it completes the batch with the status, with that of the server when all messages have been read, or
with one of its own when the call has failed. So it is a link (`step_refines`).

`always_streamed` says what a client may conclude from the way its stream ends.
-/

namespace GrpcNode.NativeCore

open GrpcNode.Js
open GrpcNode.JsCore (Status)

/-! ### What a server stream sends -/

namespace ServerWriteStream

variable {core : Core} {γ : Type*} {serialize : γ → Except (ErrorObject core) BufferObject}

/-- The messages that have been handed to the core. -/
def State.sent (s : State core) : List Buffer := s.call.ops.filterMap CoreOp.message?

/-- What a step may do to what has been started and written. -/
structure Extends (s s' : State core) (batches : List (List CoreOp)) : Prop where
  started : s'.call.started = s.call.started ++ batches
  released : s.call.released = true → batches = []
  stillOpen : batches ≠ [] → s'.call.released = false
  written : s.finished = true → s'.written = s.written

/-- `startBatch` adds batches to the call and releases nothing. A released call starts none. -/
theorem startBatch_extends (call : ServerCall core) (batch : Batch) :
    ∃ batches, (call.startBatch batch).started = call.started ++ batches ∧
      (call.released = true → batches = []) ∧
      (call.startBatch batch).released = call.released := by
  unfold ServerCall.startBatch
  split
  · exact ⟨[], (List.append_nil _).symm, fun _ => rfl, rfl⟩
  · rename_i hreleased
    split
    · exact ⟨[_], rfl, fun h => absurd h hreleased, rfl⟩
    · exact ⟨[], (List.append_nil _).symm, fun _ => rfl, rfl⟩

/-- The callback makes no difference for the call. -/
theorem State.startBatch_call (s : State core) (batch : Batch) {kept : State core → State core}
    (hkept : ∀ t, (kept t).call = t.call) :
    (s.startBatch batch kept).call = s.call.startBatch batch := by
  unfold State.startBatch ServerCall.callback
  cases hreleased : s.call.released with
  | true => simp [ServerCall.startBatch, hreleased, State.terminateCall, State.streamEnd]
  | false =>
      cases hbatch : NativeCore.startBatch core batch with
      | error e => simp [ServerCall.startBatch, hreleased, hbatch]
      | ok ops => simp [hkept]

/-- Whether the batch is taken or throws, what has been written stays. -/
theorem State.startBatch_written (s : State core) (batch : Batch) {kept : State core → State core}
    (hkept : ∀ t, (kept t).written = t.written) :
    (s.startBatch batch kept).written = s.written := by
  unfold State.startBatch
  split
  · rfl
  · rfl
  · exact hkept _

/-- A batch is started on a call, of which only the flag has been changed. -/
theorem extends_startBatch {s s' : State core} {metadataSent : Bool} {batch : Batch}
    (hcall : s'.call = { s.call with metadataSent }.startBatch batch)
    (hwritten : s.finished = true → s'.written = s.written) : ∃ batches, Extends s s' batches := by
  obtain ⟨batches, hstarted, hnone, hreleased⟩ :=
    startBatch_extends { s.call with metadataSent } batch
  refine ⟨batches, hcall ▸ hstarted, hnone, fun hne => ?_, hwritten⟩
  rw [hcall, hreleased]
  exact eq_false_of_ne_true fun h => hne (hnone h)

/-- A step that starts nothing adds no batch. -/
theorem extends_same {s s' : State core} (hstarted : s'.call.started = s.call.started)
    (hwritten : s.finished = true → s'.written = s.written) : ∃ batches, Extends s s' batches :=
  ⟨[], by rw [hstarted, List.append_nil], fun _ => rfl, fun h => absurd rfl h, hwritten⟩

/-- `_write` adds the batch with its message. -/
theorem extends_writeMessage (s : State core) (hfinished : s.finished = false)
    (message : Option BufferObject) (encoding : JsValue) :
    ∃ batches, Extends s (s.writeMessage message encoding) batches := by
  have hnot : ∀ {P : Prop}, s.finished = true → P := fun h => absurd (hfinished.symm.trans h) nofun
  unfold State.writeMessage
  split
  · exact extends_same rfl hnot
  · exact extends_startBatch (State.startBatch_call _ _ fun _ => rfl) hnot

/-- Every step of the write stream adds batches and changes none of the earlier ones. By cases on
the action. -/
theorem extends_step {s s' : State core} {a : Act core γ} (h : step serialize s a = some s') :
    ∃ batches, Extends s s' batches := by
  cases a with
  | sendMetadata responseMetadata =>
      obtain rfl := Option.some.inj h
      unfold State.sendMetadata
      split
      · exact extends_startBatch (State.startBatch_call _ _ fun _ => rfl)
          fun _ => State.startBatch_written _ _ fun _ => rfl
      · exact extends_same rfl fun _ => rfl
  | write chunk encoding =>
      obtain ⟨⟨-, hfinished⟩, rfl⟩ := Runs.when_eq_some.mp h
      unfold State.write
      split
      · exact extends_same rfl fun _ => rfl
      · exact extends_writeMessage s hfinished _ encoding
  | writeCompletes completion =>
      obtain ⟨-, rfl⟩ := Runs.when_eq_some.mp h
      cases completion <;> exact extends_same rfl fun _ => rfl
  | metadataCompletes completion =>
      obtain ⟨-, rfl⟩ := Runs.when_eq_some.mp h
      cases completion <;> exact extends_same rfl fun _ => rfl
  | streamEnd metadata =>
      obtain rfl := Option.some.inj h
      cases metadata <;> exact extends_same rfl fun _ => rfl
  | emitError error =>
      obtain rfl := Option.some.inj h
      exact extends_same rfl fun _ => rfl
  | finish =>
      obtain ⟨-, rfl⟩ := Runs.when_eq_some.mp h
      exact extends_startBatch rfl fun _ => rfl
  | releaseCall =>
      obtain rfl := Option.some.inj h
      exact extends_same rfl fun _ => rfl

/-- The operations of the batches that are added come last. -/
theorem Extends.ops {s s' : State core} {batches : List (List CoreOp)} (h : Extends s s' batches) :
    s'.call.ops = s.call.ops ++ batches.flatten := by
  rw [ServerCall.ops, ServerCall.ops, h.started, List.flatten_append]

/-- The messages of the batches that are added come last. -/
theorem Extends.sent {s s' : State core} {batches : List (List CoreOp)} (h : Extends s s' batches) :
    s'.sent = s.sent ++ batches.flatten.filterMap CoreOp.message? := by
  rw [State.sent, State.sent, h.ops, List.filterMap_append]

/-- After the status nothing is started. -/
theorem Extends.flatten_eq_nil {s s' : State core} {batches : List (List CoreOp)}
    (h : Extends s s' batches) (hinv : Inv s') (hstatus : HasStatus s.call.ops) :
    batches.flatten = [] := by
  have hlast : StatusLast s'.call.ops := hinv.order.statusLast
  rw [h.ops] at hlast
  exact hlast.eq_nil hstatus

/-- With the status everything that has been written has been sent. -/
def Complete (s : State core) : Prop := HasStatus s.call.ops → s.sent = s.written

/-- A step of the write stream keeps all that was written before the status in front of it. -/
theorem Complete.step {s s' : State core} {a : Act core γ} (h : Complete s) (hinv : Inv s)
    (hstep : ServerWriteStream.step serialize s a = some s') : Complete s' := by
  obtain ⟨batches, hextends⟩ := extends_step hstep
  have hinv' := inv_step hinv hstep
  intro hstatus'
  by_cases hstatus : HasStatus s.call.ops
  · rw [hextends.sent, hextends.flatten_eq_nil hinv' hstatus, hextends.written (hinv.finishes hstatus)]
    exact (List.append_nil _).trans (h hstatus)
  · refine hinv'.complete (hextends.stillOpen ?_)
    rintro rfl
    rw [hextends.ops, List.flatten_nil, List.append_nil] at hstatus'
    exact hstatus hstatus'

end ServerWriteStream

/-! ### What a client stream has been given -/

namespace ClientReadStream

variable {ε β : Type*} {deserialize : Buffer → Except ε β}

/-- The messages that have been read. -/
def State.taken (s : State β) : List Buffer := ReadLoop.items (history s.events)

/-- Neither a message nor the status comes. -/
structure State.NothingComes (s s' : State β) : Prop where
  taken : s'.taken = s.taken
  delivered : delivered s'.events = delivered s.events

namespace State

variable (s : State β)

/-- Nothing comes in two steps if nothing comes in either. -/
theorem NothingComes.after {s s' s'' : State β} (h' : NothingComes s' s'') (h : NothingComes s s') :
    NothingComes s s'' :=
  ⟨h'.taken.trans h.taken, h'.delivered.trans h.delivered⟩

/-- An event that is recorded is a message taken, or none. -/
theorem taken_record (e : Event β) : (s.record e).taken = s.taken ++ ReadLoop.items (history [e]) := by
  rw [taken, record, history_append, ReadLoop.items_append, taken]

/-- An event that is neither a message nor a status brings nothing. -/
theorem nothingComes_record {e : Event β} (hitems : ReadLoop.items (history [e]) = [])
    (hdelivered : ClientReadStream.delivered [e] = []) : NothingComes s (s.record e) where
  taken := by rw [taken_record, hitems, List.append_nil]
  delivered := by rw [record, delivered_append, hdelivered, List.append_nil]

/-- The end of the stream is emitted, and nothing is taken for it. -/
theorem nothingComes_emitStatusIfDone : NothingComes s s.emitStatusIfDone := by
  unfold emitStatusIfDone
  split
  · rename_i readStatus receivedStatus _ _
    have hfinal : ∀ status : CallStatus, NothingComes s (s.record (finalEvent status)) := by
      intro status
      refine s.nothingComes_record ?_ ?_
      · rw [history_finalEvent]
        rfl
      · unfold finalEvent
        split <;> rfl
    exact ⟨(hfinal _).taken, (hfinal _).delivered⟩
  · exact ⟨rfl, rfl⟩

/-- The end of the reads takes nothing. -/
theorem nothingComes_readsDone (status : Option CallStatus) : NothingComes s (s.readsDone status) := by
  unfold readsDone
  refine (nothingComes_emitStatusIfDone _).after ?_
  split
  · have hcancel := s.nothingComes_record
      (e := .cancelWithStatus (status.getD { code := Status.ok.toNat, details := "OK" }).code
        (status.getD { code := Status.ok.toNat, details := "OK" }).details) rfl rfl
    exact ⟨hcancel.taken, hcancel.delivered⟩
  · exact ⟨rfl, rfl⟩

/-- A read that fails brings nothing. -/
theorem nothingComes_readError : NothingComes s (s.record (.readResult .error)).readError :=
  (nothingComes_readsDone { s.record (.readResult .error) with finished := true } none).after
    ⟨(s.nothingComes_record (e := .readResult .error) rfl rfl).taken,
      (s.nothingComes_record (e := .readResult .error) rfl rfl).delivered⟩

/-- A read that is started brings nothing yet. -/
theorem nothingComes_startBatch : NothingComes s s.startBatch := by
  unfold startBatch
  split
  · exact s.nothingComes_readError
  · exact ⟨rfl, rfl⟩

/-- `_read` brings nothing before its batch completes. -/
theorem nothingComes_read : NothingComes s s.read := by
  unfold read
  split
  · exact s.nothingComes_record rfl rfl
  · split
    · exact (nothingComes_startBatch { s with reading := true }).after ⟨rfl, rfl⟩
    · exact ⟨rfl, rfl⟩

/-- A message comes, or the end or an error instead. -/
theorem readCompletes_comes (deserialize : Buffer → Except ε β) (result : ReadResult) :
    (s.readCompletes deserialize result).taken = s.taken ++ (match result with
      | .message (some data) => [data]
      | _ => []) ∧
    delivered (s.readCompletes deserialize result).events = delivered s.events := by
  have hrecord := taken_record { s with reads := s.reads - 1 } (.readResult result)
  have hdelivered : ClientReadStream.delivered
      (State.record { s with reads := s.reads - 1 } (.readResult result)).events =
      ClientReadStream.delivered s.events := by
    rw [record, delivered_append]
    exact List.append_nil _
  have hrest : NothingComes (State.record { s with reads := s.reads - 1 } (.readResult result))
      (s.readCompletes deserialize result) := by
    unfold readCompletes
    cases result with
    | error => exact (nothingComes_readsDone _ none).after ⟨rfl, rfl⟩
    | message data =>
        simp only [readCallback]
        split
        · exact nothingComes_readsDone _ _
        · split
          · exact nothingComes_readsDone _ _
          · rename_i deserialized _ _
            have hpush := nothingComes_record (State.record { s with reads := s.reads - 1 }
              (.readResult (.message data))) (e := .push deserialized)
              (by cases deserialized <;> rfl) rfl
            exact ⟨hpush.taken, hpush.delivered⟩
  refine ⟨hrest.taken.trans (hrecord.trans ?_), hrest.delivered.trans hdelivered⟩
  rcases result with _ | (_ | data) <;> rfl

/-- What follows a `push` brings nothing. -/
theorem nothingComes_afterPush (more : Bool) : NothingComes s (s.afterPush more) := by
  unfold afterPush
  split
  · exact s.nothingComes_startBatch
  · exact ⟨rfl, rfl⟩

end State

/-- The message that an action brings. -/
def Act.message? : Act → Option Buffer
  | .readCompletes (.message data) => data
  | _ => none

/-- The status that an action brings. -/
def Act.status? : Act → Option ClientStatus
  | .statusCompletes (.result status) => some status
  | _ => none

/-- A step takes the message that completes a read and the status that completes its batch, and
nothing else. -/
theorem step_comes {s s' : State β} {a : Act} (h : step deserialize s a = some s') :
    s'.taken = s.taken ++ a.message?.toList ∧
      delivered s'.events = delivered s.events ++ a.status?.toList := by
  have nothing : s.NothingComes s' → s'.taken = s.taken ++ [] ∧
      delivered s'.events = delivered s.events ++ [] :=
    fun hnothing => ⟨hnothing.taken.trans (List.append_nil _).symm,
      hnothing.delivered.trans (List.append_nil _).symm⟩
  cases step_effect h with
  | read => exact nothing s.nothingComes_read
  | readCompletes result _ _ =>
      obtain ⟨htaken, hdelivered⟩ := s.readCompletes_comes deserialize result
      refine ⟨htaken.trans ?_, hdelivered.trans (List.append_nil _).symm⟩
      rcases result with _ | (_ | data) <;> rfl
  | statusCompletes completion _ _ =>
      cases completion with
      | error err =>
          exact nothing ⟨by simp [State.taken, State.statusCompletes, State.record, history],
            by simp [delivered, State.statusCompletes, State.record]⟩
      | result status =>
          have hrest := State.nothingComes_emitStatusIfDone { State.record
            { s with statusOutstanding := false } (.statusResult (.result status)) with
            receivedStatus := some status.received }
          refine ⟨hrest.taken.trans ?_, hrest.delivered.trans ?_⟩
          · exact (State.taken_record s (.statusResult (.result status)))
          · exact delivered_append s.events [.statusResult (.result status)]
  | @pushReturns frames more _ =>
      exact nothing ((State.nothingComes_afterPush { s with frames } more).after ⟨rfl, rfl⟩)
  | @emitReturns status frames _ =>
      exact nothing ((State.nothingComes_record { s with frames } (e := .status status) rfl rfl).after
        ⟨rfl, rfl⟩)
  | throws _ => exact nothing ⟨rfl, rfl⟩
  | releaseCall _ => exact nothing ⟨rfl, rfl⟩

end ClientReadStream

/-! #### How it ends -/

namespace ClientReadStream

variable {ε β : Type*} {deserialize : Buffer → Except ε β}

/-- How a stream comes to its end or to an error, with the status that decides it. -/
structure Concluded (deserialize : Buffer → Except ε β) (events : List (Event β)) (e : Event β) :
    Prop where
  decided : ∃ (received : ClientStatus) (status : CallStatus), delivered events = [received] ∧
    e = finalEvent status ∧
    (status = parseFailure ∧ (∃ e ∈ events, Unparsable deserialize e) ∨
      status = received.received ∧ ∀ e ∈ events, ¬ Unparsable deserialize e)
  parsed : Parsed deserialize events

/-- The stream concludes with a status if it was ready for it, no later read failed and no later
status came. -/
theorem concluded_of_ready {before after : List (Event β)} {status : CallStatus} {e : Event β}
    (hready : Ready deserialize before status) (hgoesOn : ∀ e ∈ after, ¬ EndsReads deserialize e)
    (hdelivered : delivered after = []) (hafter : after.filter Event.isFinal = [])
    (hparsed : Parsed deserialize after) (he : e ∈ before ++ after) (hfinal : e.isFinal = true) :
    Concluded deserialize (before ++ after) e := by
  obtain ⟨received, hreceived, hstatus⟩ := hready.agrees
  refine ⟨⟨received, status, ?_, ?_, hstatus.imp ?_ ?_⟩, hready.parsed.append hparsed⟩
  · rw [delivered_append, hreceived, hdelivered]
    rfl
  · have hmem : e ∈ (before ++ after).filter Event.isFinal := List.mem_filter.mpr ⟨he, hfinal⟩
    rw [List.filter_append, hready.final, hafter, List.append_nil] at hmem
    exact List.mem_singleton.mp hmem
  · rintro ⟨hfailure, hun⟩
    exact ⟨hfailure, (exists_mem_append_iff (parsable_of_goesOn hgoesOn)).mpr hun⟩
  · rintro ⟨hsame, hall⟩
    exact ⟨hsame, forall_not_append hall (parsable_of_goesOn hgoesOn)⟩

/-- The end and the error come when the status has been received and the reads are done. -/
theorem Phase.concluded {s : State β} (h : Phase deserialize s) {e : Event β} (he : e ∈ s.events)
    (hfinal : e.isFinal = true) : Concluded deserialize s.events e := by
  have hquiet : Quiet deserialize s.events → Concluded deserialize s.events e := by
    intro hquiet
    have hmem : e ∈ s.events.filter Event.isFinal := List.mem_filter.mpr ⟨he, hfinal⟩
    rw [hquiet.final] at hmem
    exact absurd hmem List.not_mem_nil
  cases h with
  | reading _ _ _ _ hq _ => exact hquiet hq
  | waiting _ _ _ _ _ hq _ => exact hquiet hq
  | emitting _ _ _ hready =>
      rw [← List.append_nil s.events] at he ⊢
      exact concluded_of_ready hready nofun rfl rfl rfl he hfinal
  | @emitted before after status _ _ _ hready hafter _ hevents =>
      rw [hevents] at he ⊢
      refine concluded_of_ready hready (fun e he => ?_) ?_ ?_ ?_ he hfinal
      · rcases List.mem_cons.mp he with rfl | he
        · exact id
        · exact hafter.goesOn e he
      · exact hafter.delivered
      · exact hafter.quiet.final
      · exact hafter.quiet.parsed

/-- As long as the batch with the status has not completed no status has come. -/
theorem Phase.delivered_eq_nil {s : State β} (h : Phase deserialize s)
    (hout : s.statusOutstanding = true) : delivered s.events = [] := by
  cases h with
  | reading _ _ _ hknown _ _ =>
      rcases hknown with ⟨-, hdelivered⟩ | ⟨_, -, -, hdone⟩
      · exact hdelivered
      · cases hdone.symm.trans hout
  | waiting _ _ hdelivered _ _ _ _ => exact hdelivered
  | emitting _ hdone _ _ => cases hdone.symm.trans hout
  | emitted _ hdone _ _ _ _ _ => cases hdone.symm.trans hout

/-- A message is taken exactly if a read has completed with it. -/
theorem State.mem_taken_iff {s : State β} {data : Buffer} :
    data ∈ s.taken ↔ .readResult (.message (some data)) ∈ s.events := by
  unfold State.taken ReadLoop.items history
  rw [List.filterMap_filterMap, List.mem_filterMap]
  constructor
  · rintro ⟨e, he, hdata⟩
    rcases e with (_ | (_ | data')) | _ | (_ | _) | _ | _ | _ | _ | _ <;> simp at hdata
    exact hdata ▸ he
  · exact fun h => ⟨_, h, rfl⟩

/-- A message that cannot be parsed has arrived exactly if one of those taken cannot be parsed. -/
theorem unparsable_iff {s : State β} :
    (∃ e ∈ s.events, Unparsable deserialize e) ↔ ∃ data ∈ s.taken, parse deserialize data = none := by
  constructor
  · rintro ⟨e, he, hun⟩
    unfold Unparsable at hun
    split at hun
    · exact ⟨_, State.mem_taken_iff.mpr he, hun⟩
    · exact hun.elim
  · rintro ⟨data, hdata, hnone⟩
    exact ⟨_, State.mem_taken_iff.mp hdata, hnone⟩

/-- The values of all messages are pushed, if all can be parsed. -/
theorem map_parse_of_parsed {s : State β} (hparsed : Parsed deserialize s.events)
    (hall : ∀ e ∈ s.events, ¬ Unparsable deserialize e) :
    s.taken.map (parse deserialize) = (ReadLoop.images (history s.events)).map some := by
  have hsome : ∀ data ∈ s.taken, ∃ value, parse deserialize data = some value := by
    intro data hdata
    refine Option.ne_none_iff_exists'.mp fun hnone => ?_
    obtain ⟨e, he, hun⟩ := unparsable_iff.mpr ⟨data, hdata, hnone⟩
    exact hall e he hun
  rw [← hparsed]
  show s.taken.map _ = (s.taken.filterMap _).map some
  generalize s.taken = items at hsome
  induction items with
  | nil => rfl
  | cons data rest ih =>
      obtain ⟨value, hvalue⟩ := hsome data (.head rest)
      rw [List.map_cons, List.filterMap_cons, hvalue, ih fun d hd => hsome d (.tail data hd)]
      rfl

end ClientReadStream

/-! ### Both ends -/

namespace StreamedCall

variable {core : Core} {ε β γ : Type*}

/-- How the batch with the status of a client has completed -/
inductive Ended
  /-- With the status of the server -/
  | answered
  /-- With a status that the core has made up, since the call has failed -/
  | failed (status : ClientStatus)

/-- The stream of the handler, the stream of the client, and what the client has been told -/
structure State (core : Core) (β : Type*) where
  server : ServerWriteStream.State core := {}
  client : ClientReadStream.State β := {}
  ended : Option Ended := none

/-- A step of the server, of the client, or of the call between the two. -/
inductive Act (core : Core) (γ : Type*)
  | server (a : ServerWriteStream.Act core γ)
  /-- Anything but the completion of the batch with the status. -/
  | client (a : ClientReadStream.Act)
  /-- The batch with the status completes with the status of the server. -/
  | status (status : ClientStatusOp)
  /-- The call fails, and the batch completes with a status of the core. -/
  | fail (status : ClientStatusOp)

namespace State

variable (s : State core β)

/-- The status of the server, as it comes out of `ClientStatusOp::GetNodeValue` -/
def serverStatus : Option ClientStatus :=
  (s.server.call.ops.findSome? CoreOp.status?).map fun status => status.arrived.getNodeValue core

/-- A read completes with what the transport delivers. -/
def Carries (transport : Transport) : ClientReadStream.Act → Prop
  | .readCompletes (.message (some data)) =>
      transport.message s.server.call.ops s.client.taken.length data = true
  | .statusCompletes _ => False
  | _ => True

instance (transport : Transport) (a : ClientReadStream.Act) : Decidable (s.Carries transport a) := by
  unfold Carries
  split <;> infer_instance

end State

/-- The batch with the status completes, in one way or the other. -/
def State.complete (deserialize : Buffer → Except ε β) (s : State core β) (status : ClientStatusOp)
    (ended : Ended) : Option (State core β) :=
  (ClientReadStream.step deserialize s.client
    (.statusCompletes (.result (status.getNodeValue core)))).map fun client =>
      { s with client, ended := some ended }

/-- One step. What completes a batch of the client is what the transport can bring. -/
def step (transport : Transport) (serialize : γ → Except (ErrorObject core) BufferObject)
    (deserialize : Buffer → Except ε β) (s : State core β) : Act core γ → Option (State core β)
  | .server a => (ServerWriteStream.step serialize s.server a).map fun server => { s with server }
  | .client a =>
      if s.Carries transport a then
        (ClientReadStream.step deserialize s.client a).map fun client => { s with client }
      else none
  | .status status =>
      if transport.status s.server.call.ops s.client.taken.length status then
        s.complete deserialize status .answered
      else none
  | .fail status =>
      if transport.failure status then
        s.complete deserialize status (.failed (status.getNodeValue core))
      else none

/-- The call as a link. -/
def State.link (s : State core β) : Link.State Buffer where
  sent := s.server.sent
  closed := HasStatus s.server.call.ops
  taken := s.client.taken
  failed := ∃ status, s.ended = some (.failed status)
  ended := s.ended ≠ none

/-- What the client has been told of the end of the call: nothing, the status of the server, or that
the call has failed -/
inductive State.Told (s : State core β) : Prop
  | nothing (ended : s.ended = none)
      (delivered : ClientReadStream.delivered s.client.events = [])
  | answered (status : ClientStatus) (ended : s.ended = some .answered)
      (server : s.serverStatus = some status)
      (delivered : ClientReadStream.delivered s.client.events = [status])
  | failed (status : ClientStatus) (ended : s.ended = some (.failed status))
      (code : status.code ≠ Status.ok.toNat)
      (delivered : ClientReadStream.delivered s.client.events = [status])

variable {transport : Transport} {serialize : γ → Except (ErrorObject core) BufferObject}
  {deserialize : Buffer → Except ε β}

/-- The last operation is the only status. -/
theorem findSome?_status {ops : List CoreOp} (hlast : StatusLast ops) {status : ServerStatus}
    (hmem : .sendStatusFromServer status ∈ ops) : ops.findSome? CoreOp.status? = some status := by
  cases hfirst : ops.findSome? CoreOp.status? with
  | none => cases List.findSome?_eq_none_iff.mp hfirst _ hmem
  | some first =>
      obtain ⟨before, op, after, hops, hop, -⟩ := List.findSome?_eq_some_iff.mp hfirst
      obtain ⟨before', after', hops'⟩ := List.append_of_mem hmem
      cases op with
      | sendStatusFromServer first' =>
          obtain rfl := Option.some.inj hop
          -- Both are the last operation.
          obtain rfl := hlast before first' after hops
          obtain rfl := hlast before' status after' hops'
          obtain ⟨-, heq⟩ := List.append_inj' (hops.symm.trans hops') rfl
          rw [CoreOp.sendStatusFromServer.inj (List.cons.inj heq).1]
      | _ => cases hop

/-- A status of the server is one that was started. -/
theorem hasStatus_of_serverStatus {s : State core β} {status : ClientStatus}
    (h : s.serverStatus = some status) : HasStatus s.server.call.ops := by
  obtain ⟨sent, hsent, -⟩ := Option.map_eq_some_iff.mp h
  obtain ⟨op, hop, hsome⟩ := List.exists_of_findSome?_eq_some hsent
  cases op with
  | sendStatusFromServer status' => exact ⟨status', hop⟩
  | _ => cases hsome

/-! ### The link -/

/-- What a step of the server does to the link. -/
theorem link_server {s : State core β} {server : ServerWriteStream.State core}
    {batches : List (List CoreOp)} (h : ServerWriteStream.Extends s.server server batches)
    (hinv : ServerWriteStream.Inv server) : Link.Step s.link { s with server }.link := by
  have hsent := h.sent
  have hops := h.ops
  by_cases hclosed : HasStatus s.server.call.ops
  · have hnil := h.flatten_eq_nil hinv hclosed
    have hsame : { s with server }.link =
        { s.link with sent := s.link.sent ++ batches.flatten.filterMap CoreOp.message? } := by
      rw [hnil, List.append_nil] at hops
      simp only [State.link, hsent, hops]
    rw [hsame]
    exact .send _ (.inr (by rw [hnil]; rfl))
  · by_cases hclosed' : HasStatus server.call.ops
    · have hclose : { s with server }.link =
          { s.link with
            sent := s.link.sent ++ batches.flatten.filterMap CoreOp.message?
            closed := True } := by
        simp only [State.link, hsent, eq_true hclosed']
      rw [hclose]
      exact .close _ hclosed
    · have hsend : { s with server }.link =
          { s.link with sent := s.link.sent ++ batches.flatten.filterMap CoreOp.message? } := by
        simp only [State.link, hsent, eq_false hclosed, eq_false hclosed']
      rw [hsend]
      exact .send _ (.inl hclosed)

/-- What the transport carries apart from the status is no status. -/
theorem carries_status {s : State core β} {a : ClientReadStream.Act} (h : s.Carries transport a) :
    a.status? = none := by
  cases a with
  | statusCompletes completion => exact absurd h id
  | _ => rfl

/-- What a step of the client does to the link. -/
theorem link_client (htransport : transport.Documented core) {s : State core β}
    {client : ClientReadStream.State β} {a : ClientReadStream.Act} (hcarries : s.Carries transport a)
    (h : ClientReadStream.step deserialize s.client a = some client) :
    Link.Step s.link { s with client }.link := by
  obtain ⟨htaken, -⟩ := ClientReadStream.step_comes h
  cases hmessage : a.message? with
  | none =>
      rw [hmessage, Option.toList_none, List.append_nil] at htaken
      have hsame : { s with client }.link = s.link := by simp only [State.link, htaken]
      rw [hsame]
      exact .idle _
  | some data =>
      have hnext : s.server.sent[s.client.taken.length]? = some data := by
        cases a with
        | readCompletes result =>
            rcases result with _ | (_ | data')
            · cases hmessage
            · cases hmessage
            · obtain rfl := Option.some.inj hmessage
              exact htransport.inOrder hcarries
        | _ => cases hmessage
      have htake : { s with client }.link = { s.link with taken := s.link.taken ++ [data] } := by
        rw [hmessage] at htaken
        simp only [State.link, htaken]
        rfl
      rw [htake]
      exact .take data hnext

/-- Who has been told nothing yet is told once the batch with the status completes. -/
theorem State.Told.ended_eq_none {s : State core β} (h : s.Told)
    (hdelivered : ClientReadStream.delivered s.client.events = []) : s.ended = none := by
  cases h with
  | nothing ended _ => exact ended
  | answered status _ _ delivered => cases delivered.symm.trans hdelivered
  | failed status _ _ delivered => cases delivered.symm.trans hdelivered

/-- The batch with the status completes once, -/
theorem complete_eq_some {s s' : State core β} {status : ClientStatusOp} {ended : Ended}
    (hphase : ClientReadStream.Phase deserialize s.client) (htold : s.Told)
    (h : s.complete deserialize status ended = some s') :
    ∃ client, ClientReadStream.step deserialize s.client
        (.statusCompletes (.result (status.getNodeValue core))) = some client ∧
      s' = { s with client, ended := some ended } ∧ s.ended = none ∧
      client.taken = s.client.taken ∧
      ClientReadStream.delivered client.events = [status.getNodeValue core] := by
  obtain ⟨client, hclient, rfl⟩ := Option.map_eq_some_iff.mp h
  obtain ⟨⟨-, hout⟩, -⟩ := Runs.when_eq_some.mp hclient
  have hdelivered := hphase.delivered_eq_nil hout
  obtain ⟨htaken', hdelivered'⟩ := ClientReadStream.step_comes hclient
  refine ⟨client, hclient, rfl, htold.ended_eq_none hdelivered, htaken'.trans (List.append_nil _), ?_⟩
  rw [hdelivered', hdelivered]
  rfl

/-- and ends the link: it has failed, or all that the server has sent has been read. -/
theorem link_complete {s s' : State core β} {status : ClientStatusOp} {ended : Ended}
    (hphase : ClientReadStream.Phase deserialize s.client) (htold : s.Told)
    (hall : (∃ failure, ended = .failed failure) ∨ HasStatus s.server.call.ops ∧
      s.server.sent.length ≤ s.client.taken.length)
    (h : s.complete deserialize status ended = some s') : Link.Step s.link s'.link := by
  obtain ⟨client, -, rfl, hnone, htaken, -⟩ := complete_eq_some hphase htold h
  have hended : { s with client, ended := some ended }.link =
      { s.link with failed := ∃ failure, ended = .failed failure, ended := True } := by
    simp [State.link, htaken]
  rw [hended]
  refine .end_ _ (fun ⟨failure, hfailed⟩ => ?_) hall
  cases hnone.symm.trans hfailed

/-- **The transport is a link between the two streams.** -/
theorem step_refines (htransport : transport.Documented core) {s s' : State core β} {a : Act core γ}
    (hinv : ServerWriteStream.Inv s.server) (hphase : ClientReadStream.Phase deserialize s.client)
    (htold : s.Told) (h : step transport serialize deserialize s a = some s') :
    Link.Step s.link s'.link := by
  cases a with
  | server a =>
      obtain ⟨server, hserver, rfl⟩ := Option.map_eq_some_iff.mp h
      obtain ⟨batches, hextends⟩ := ServerWriteStream.extends_step hserver
      exact link_server hextends (ServerWriteStream.inv_step hinv hserver)
  | client a =>
      simp only [step] at h
      split at h
      · obtain ⟨client, hclient, rfl⟩ := Option.map_eq_some_iff.mp h
        exact link_client htransport ‹_› hclient
      · cases h
  | status status =>
      simp only [step] at h
      split at h
      · rename_i hstatus
        obtain ⟨⟨sent, hsent, -⟩, hall⟩ := htransport.status hstatus
        exact link_complete hphase htold (.inr ⟨⟨sent, hsent⟩, hall⟩) h
      · cases h
  | fail status =>
      simp only [step] at h
      split at h
      · exact link_complete hphase htold (.inl ⟨_, rfl⟩) h
      · cases h

/-! ### What a client may conclude -/

/-- The client has got the values of everything that the handler has written. -/
def State.Everything (deserialize : Buffer → Except ε β) (s : State core β) : Prop :=
  s.server.written.map (ClientReadStream.parse deserialize) =
    (ReadLoop.images (ClientReadStream.history s.client.events)).map some

/-- What a stream of responses is. -/
structure Streamed (deserialize : Buffer → Except ε β) (s : State core β) : Prop where
  /-- Messages arrive in the order in which they have been written, none of them twice and none of
  them left out, -/
  inOrder : s.client.taken <+: s.server.sent ∧ s.server.sent <+: s.server.written
  /-- and what is pushed are the values of the first of them. -/
  pushed : ReadLoop.InOrder (ClientReadStream.parse deserialize)
    (ClientReadStream.history s.client.events)
  /-- A stream that ends has been ended by the handler, with `OK`, and is complete. -/
  ended : .endStream ∈ s.client.events →
    (∃ status, s.serverStatus = some status ∧ status.code = Status.ok.toNat) ∧
      s.Everything deserialize
  /-- A stream fails because of a message that cannot be parsed, because the call failed, or with
  the status of the handler, and is complete then, too. -/
  failed : ∀ status, .error status ∈ s.client.events →
    (status = parseFailure ∧
      ∃ message ∈ s.server.written, ClientReadStream.parse deserialize message = none) ∨
    (∃ failure : ClientStatus, s.ended = some (.failed failure) ∧ status = failure.received) ∨
    ∃ sent : ClientStatus, s.serverStatus = some sent ∧ status = sent.received ∧
      s.Everything deserialize

/-- What holds of the two streams and of the link between them. -/
structure Inv (deserialize : Buffer → Except ε β) (s : State core β) : Prop where
  server : ServerWriteStream.Inv s.server
  complete : ServerWriteStream.Complete s.server
  link : Link.Inv s.link
  loop : ReadLoop.Inv (ClientReadStream.parse deserialize) s.client.loop
  phase : ClientReadStream.Phase deserialize s.client
  told : s.Told

/-- Nothing has been sent and nothing has come. -/
theorem inv_initial : Inv deserialize ({} : State core β) where
  server := .initial
  complete := fun ⟨_, h⟩ => absurd h List.not_mem_nil
  link := by
    have hclosed : ¬ HasStatus ({} : ServerWriteStream.State core).call.ops :=
      fun ⟨_, h⟩ => absurd h List.not_mem_nil
    have hinitial : ({} : State core β).link = ⟨[], False, [], False, False⟩ := by
      simp only [State.link, eq_false hclosed]
      simp [ClientReadStream.State.taken, ClientReadStream.history, ReadLoop.items,
        ServerWriteStream.State.sent, ServerCall.ops]
    rw [hinitial]
    exact Link.inv_initial
  loop := ReadLoop.inv_initial
  phase := ClientReadStream.phase_initial
  told := .nothing rfl rfl

/-- A status that has been sent stays the same. -/
theorem serverStatus_server {s : State core β} {server : ServerWriteStream.State core}
    {batches : List (List CoreOp)} (h : ServerWriteStream.Extends s.server server batches)
    (hinv : ServerWriteStream.Inv server) (hstatus : HasStatus s.server.call.ops) :
    { s with server }.serverStatus = s.serverStatus := by
  have hops := h.ops
  rw [h.flatten_eq_nil hinv hstatus, List.append_nil] at hops
  simp only [State.serverStatus, hops]

/-- The client is told nothing by a step of the server, -/
theorem State.Told.server {s : State core β} (h : s.Told) {server : ServerWriteStream.State core}
    {batches : List (List CoreOp)} (hextends : ServerWriteStream.Extends s.server server batches)
    (hinv : ServerWriteStream.Inv server) : { s with server }.Told := by
  cases h with
  | nothing ended delivered => exact .nothing ended delivered
  | answered status ended server' delivered =>
      have hsame := serverStatus_server hextends hinv (hasStatus_of_serverStatus server')
      exact .answered status ended (hsame.trans server') delivered
  | failed status ended code delivered => exact .failed status ended code delivered

/-- and by no other step of the client. -/
theorem State.Told.client {s : State core β} (h : s.Told) {client : ClientReadStream.State β}
    (hdelivered : ClientReadStream.delivered client.events =
      ClientReadStream.delivered s.client.events) : { s with client }.Told := by
  cases h with
  | nothing ended delivered => exact .nothing ended (hdelivered.trans delivered)
  | answered status ended server delivered =>
      exact .answered status ended server (hdelivered.trans delivered)
  | failed status ended code delivered =>
      exact .failed status ended code (hdelivered.trans delivered)

/-- One step preserves the invariant. On the side of the server it only extends what was sent; on
the side of the client `Transport.Documented` says what comes. -/
theorem Inv.step (htransport : transport.Documented core) {s s' : State core β} {a : Act core γ}
    (h : Inv deserialize s) (hstep : step transport serialize deserialize s a = some s') :
    Inv deserialize s' := by
  have hlink := h.link.step (step_refines htransport h.server h.phase h.told hstep)
  cases a with
  | server a =>
      obtain ⟨server, hserver, rfl⟩ := Option.map_eq_some_iff.mp hstep
      have hinv := ServerWriteStream.inv_step h.server hserver
      obtain ⟨batches, hextends⟩ := ServerWriteStream.extends_step hserver
      exact ⟨hinv, h.complete.step h.server hserver, hlink, h.loop, h.phase,
        h.told.server hextends hinv⟩
  | client a =>
      simp only [StreamedCall.step] at hstep
      split at hstep
      · rename_i hcarries
        obtain ⟨client, hclient, rfl⟩ := Option.map_eq_some_iff.mp hstep
        obtain ⟨-, hdelivered⟩ := ClientReadStream.step_comes hclient
        rw [carries_status hcarries, Option.toList_none, List.append_nil] at hdelivered
        exact ⟨h.server, h.complete, hlink, ClientReadStream.inv_step h.loop hclient,
          h.phase.step h.loop hclient, h.told.client hdelivered⟩
      · cases hstep
  | status status =>
      simp only [StreamedCall.step] at hstep
      split at hstep
      · rename_i hstatus
        obtain ⟨⟨sent, hsent, rfl⟩, -⟩ := htransport.status hstatus
        obtain ⟨client, hclient, rfl, -, -, hdelivered⟩ := complete_eq_some h.phase h.told hstep
        have hserver := findSome?_status h.server.order.statusLast hsent
        exact ⟨h.server, h.complete, hlink, ClientReadStream.inv_step h.loop hclient,
          h.phase.step h.loop hclient,
          .answered _ rfl (congrArg (Option.map _) hserver) hdelivered⟩
      · cases hstep
  | fail status =>
      simp only [StreamedCall.step] at hstep
      split at hstep
      · rename_i hfailure
        obtain ⟨client, hclient, rfl, -, -, hdelivered⟩ := complete_eq_some h.phase h.told hstep
        exact ⟨h.server, h.complete, hlink, ClientReadStream.inv_step h.loop hclient,
          h.phase.step h.loop hclient, .failed _ rfl (htransport.failure hfailure) hdelivered⟩
      · cases hstep

/-- The stream ends without an error only for a status that is OK. -/
theorem code_of_finalEvent {status : CallStatus}
    (h : (.endStream : ClientReadStream.Event β) = ClientReadStream.finalEvent status) :
    status.code = Status.ok.toNat := by
  unfold ClientReadStream.finalEvent at h
  split at h
  · assumption
  · cases h

/-- The error of the last event is the status. -/
theorem eq_of_finalEvent {status status' : CallStatus}
    (h : (.error status : ClientReadStream.Event β) = ClientReadStream.finalEvent status') :
    status = status' := by
  unfold ClientReadStream.finalEvent at h
  split at h
  · cases h
  · exact ClientReadStream.Event.error.inj h

/-- Who has received the status of the server has got everything. -/
theorem Inv.everything {s : State core β} (h : Inv deserialize s) (hended : s.ended = some .answered)
    (hparsed : ClientReadStream.Parsed deserialize s.client.events)
    (hall : ∀ e ∈ s.client.events, ¬ ClientReadStream.Unparsable deserialize e) :
    s.Everything deserialize := by
  have hlink : s.link.failed ∨ s.link.closed ∧ s.link.taken = s.link.sent :=
    h.link.ended fun hnone => by cases hended.symm.trans hnone
  rcases hlink with ⟨status, hfailed⟩ | ⟨hclosed, htaken⟩
  · cases hended.symm.trans hfailed
  · have hwritten : s.link.sent = s.server.written := h.complete hclosed
    rw [State.Everything, ← hwritten, ← htaken]
    exact ClientReadStream.map_parse_of_parsed hparsed hall

/-- What the client has been told, where it has received a status -/
theorem State.Told.received {s : State core β} (h : s.Told) {received : ClientStatus}
    (hdelivered : ClientReadStream.delivered s.client.events = [received]) :
    s.ended = some (.failed received) ∧ received.code ≠ Status.ok.toNat ∨
      s.ended = some .answered ∧ s.serverStatus = some received := by
  cases h with
  | nothing _ delivered => cases delivered.symm.trans hdelivered
  | answered status ended server delivered =>
      obtain rfl := (List.cons.inj (delivered.symm.trans hdelivered)).1
      exact .inr ⟨ended, server⟩
  | failed status ended code delivered =>
      obtain rfl := (List.cons.inj (delivered.symm.trans hdelivered)).1
      exact .inl ⟨ended, code⟩

/-- What the invariant says of the readers and writers is what a caller sees. -/
theorem Inv.streamed {s : State core β} (h : Inv deserialize s) : Streamed deserialize s where
  inOrder := ⟨h.link.inOrder, h.server.order.messages⟩
  pushed := h.loop.inOrder
  ended he := by
    obtain ⟨⟨received, status, hdelivered, hfinal, hcases⟩, hparsed⟩ := h.phase.concluded he rfl
    have hok := code_of_finalEvent hfinal
    rcases hcases with ⟨rfl, -⟩ | ⟨rfl, hall⟩
    · exact absurd hok (by decide)
    · rcases h.told.received hdelivered with ⟨-, hcode⟩ | ⟨hended, hserver⟩
      · exact absurd hok hcode
      · exact ⟨⟨received, hserver, hok⟩, h.everything hended hparsed hall⟩
  failed status he := by
    obtain ⟨⟨received, status', hdelivered, hfinal, hcases⟩, hparsed⟩ := h.phase.concluded he rfl
    obtain rfl := eq_of_finalEvent hfinal
    rcases hcases with ⟨rfl, hun⟩ | ⟨rfl, hall⟩
    · obtain ⟨message, hmessage, hnone⟩ := ClientReadStream.unparsable_iff.mp hun
      exact .inl ⟨rfl, message,
        h.server.order.messages.subset (h.link.inOrder.subset hmessage), hnone⟩
    · rcases h.told.received hdelivered with ⟨hfailed, -⟩ | ⟨hended, hserver⟩
      · exact .inr (.inl ⟨received, hfailed, rfl⟩)
      · exact .inr (.inr ⟨received, hserver, rfl, h.everything hended hparsed hall⟩)

/-- **A stream of responses arrives as it has been written.** In every run of the two streams and
the transport the client gets the values of an initial part of what the handler has written, in this
order. Its stream only ends if the handler has ended it with `OK` and the client has got
everything; every error says that a message could not be parsed or that the call failed, or is the
status of the handler after everything it has written. -/
theorem always_streamed {transport : Transport} (htransport : transport.Documented core)
    (serialize : γ → Except (ErrorObject core) BufferObject) (deserialize : Buffer → Except ε β)
    (acts : List (Act core γ)) :
    Runs.Always (step transport serialize deserialize) (Streamed deserialize) {} acts := by
  have hinv : Runs.Always (step transport serialize deserialize) (Inv deserialize) {} acts :=
    Runs.always_of_invariant (fun _ _ _ => Inv.step htransport) inv_initial acts
  exact hinv.mono fun _ h => h.streamed

/-- Chunks and messages are bytes. -/
def serializeBytes (bytes : Buffer) : Except (ErrorObject Core.ascii) BufferObject := .ok { bytes }

/-- A deserializer that takes every message as it is. -/
def deserializeBytes (data : Buffer) : Except Unit Buffer := .ok data

/-- A message is written and read, and the stream ends. -/
def oneMessage : List (Act Core.ascii Buffer) :=
  [.server (.write (some [7]) .undefined), .client .read,
    .client (.readCompletes (.message (some [7]))), .server (.writeCompletes (.result ())),
    .client (.pushReturns true), .server (.streamEnd none), .server .finish,
    .status ⟨[], 0, [79, 75]⟩, .client (.readCompletes (.message none))]

/-- One message and its status, over a transport that delivers at once. -/
theorem always_streamed_oneMessage :
    Runs.Always (step .direct serializeBytes deserializeBytes) (Streamed deserializeBytes) {}
      oneMessage :=
  always_streamed (Transport.direct_documented _) serializeBytes deserializeBytes oneMessage

example : (Runs.exec (step .direct serializeBytes deserializeBytes) {} oneMessage).map
    (fun s => s.client.events.filter ClientReadStream.Event.isFinal) = some [.endStream] := rfl

end StreamedCall

end GrpcNode.NativeCore
