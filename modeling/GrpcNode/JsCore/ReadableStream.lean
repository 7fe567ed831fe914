import GrpcNode.JsCore.CallEvents

/-!
# GrpcNode.JsCore.ReadableStream

`setUpReadableStream` of `call.ts`: what a `ClientReadableStreamImpl` or a
`ClientDuplexStreamImpl` does with the messages of its call.

A message that cannot be parsed cancels the call, but the listener stays, and so do the
messages that the call has read already. `noHole_iff` tells when that shows: when one of them
can be parsed, or when the call has had its status before, which cancelling does not change.

Flow control only decides when the events come, so `pause` and `resume` are left out.
-/

namespace GrpcNode.JsCore

open GrpcNode.Js

/-- What the user sees of a stream. -/
structure ReadableStream (ρ : Type) where
  /-- The arguments of `push`, `none` for `null` -/
  pushed : List (Option ρ) := []
  /-- The `'status'` events -/
  statuses : List StatusObject := []
  /-- The `'error'` events -/
  errors : List ServiceError := []
  deriving DecidableEq

namespace ReadableStream

variable {ε ρ : Type} (deserialize : Buffer → Except ε (Option ρ))

/-! ### The handlers -/

def onStatus (status : StatusObject) (stream : ReadableStream ρ) : ReadableStream ρ :=
  { stream with
    statuses := stream.statuses ++ [status]
    errors := stream.errors ++ if status.code = .ok then [] else [.ofStatus status] }

def onData (data : Buffer) (s : Listened (ReadableStream ρ)) : Listened (ReadableStream ρ) :=
  match deserialize data with
  | .error _ => s.cancelWithStatus onStatus .internal "Failed to parse server response"
  | .ok deserialized => { s with listener.pushed := s.listener.pushed ++ [deserialized] }

def onEnd (s : Listened (ReadableStream ρ)) : Listened (ReadableStream ρ) :=
  { s with listener.pushed := s.listener.pushed ++ [none] }

/-- `setUpReadableStream` -/
def setUpReadableStream : Listeners (ReadableStream ρ) where
  onData := onData deserialize
  onEnd := onEnd
  onStatus := onStatus

/-- The call with its stream, before the first event. -/
def initial : Listened (ReadableStream ρ) := { listener := {} }

/-! ### No message after a parse failure -/

/-- The status for a message that cannot be parsed. -/
def parseFailure : StatusObject :=
  ⟨.internal, "Failed to parse server response", Metadata.new⟩

def Parses (message : Buffer) : Prop := ∃ value, deserialize message = .ok value

/-- The objects that were pushed are the images of an initial part of the messages. If there is
a message that cannot be parsed, the stream has finished with the `INTERNAL` error. -/
structure NoHole (s : Listened (ReadableStream ρ)) : Prop where
  initialPart : ∃ before after images, s.call.received = before ++ after ∧
    before.map deserialize = images.map .ok ∧
    s.listener.pushed = images ++ if s.call.ended then [none] else []
  finishes : (∃ message ∈ s.call.received, ¬ Parses deserialize message) →
    s.listener.statuses = [parseFailure] ∧ s.listener.errors = [.ofStatus parseFailure]

/-- A message that can be parsed comes after messages that could be parsed too, and one that
cannot comes while the call has no other status. -/
def InOrder (s : Listened (ReadableStream ρ)) : CallEvent → Prop
  | .data message =>
      (Parses deserialize message → ∀ earlier ∈ s.call.received, Parses deserialize earlier) ∧
      (¬ Parses deserialize message → ∀ status, s.call.status = some status → status = parseFailure)
  | _ => True

/-! ### What is pushed -/

/-- The value of a message, if it can be parsed. -/
def parse (message : Buffer) : Option (Option ρ) := (deserialize message).toOption

variable {deserialize} {received : List Buffer} {message : Buffer}

theorem parses_iff : Parses deserialize message ↔ (parse deserialize message).isSome := by
  unfold Parses parse
  cases deserialize message with
  | ok value => simp [Except.toOption]
  | error e => simp [Except.toOption]

theorem parse_eq_some {value : Option ρ} :
    parse deserialize message = some value ↔ deserialize message = .ok value := by
  unfold parse
  cases deserialize message with
  | ok value' => simp [Except.toOption]
  | error e => simp [Except.toOption]

theorem filterMap_parse_of_map {images : List (Option ρ)}
    (h : received.map deserialize = images.map .ok) :
    received.filterMap (parse deserialize) = images ∧
      ∀ message ∈ received, Parses deserialize message := by
  induction received generalizing images with
  | nil => simpa using h
  | cons message received ih =>
      cases images with
      | nil => simp at h
      | cons value images =>
          rw [List.map_cons, List.map_cons, List.cons.injEq] at h
          obtain ⟨himages, hparses⟩ := ih h.2
          refine ⟨?_, List.forall_mem_cons.mpr ⟨⟨value, h.1⟩, hparses⟩⟩
          rw [List.filterMap_cons_some (parse_eq_some.mpr h.1), himages]

theorem filterMap_parse_eq_nil : received.filterMap (parse deserialize) = [] ↔
    ∀ message ∈ received, ¬ Parses deserialize message := by
  simp [List.filterMap_eq_nil_iff, parses_iff]

/-- The values of the messages are those of an initial part exactly if no message that can be
parsed comes after one that cannot. -/
theorem initialPart_iff :
    (∃ before after, received = before ++ after ∧
      before.map deserialize = (received.filterMap (parse deserialize)).map .ok) ↔
    received.Pairwise fun earlier later => Parses deserialize later → Parses deserialize earlier := by
  constructor
  · intro h
    obtain ⟨before, after, rfl, hmap⟩ := h
    obtain ⟨hvalues, hbefore⟩ := filterMap_parse_of_map hmap
    rw [List.filterMap_append, List.self_eq_append_right] at hvalues
    have hafter := filterMap_parse_eq_nil.mp hvalues
    rw [List.pairwise_append]
    refine ⟨?_, ?_, fun earlier hearlier _ _ _ => hbefore earlier hearlier⟩
    · exact List.pairwise_of_forall_mem_list fun earlier hearlier _ _ _ => hbefore earlier hearlier
    · exact List.pairwise_of_forall_mem_list fun _ _ later hlater h => absurd h (hafter later hlater)
  · intro h
    induction received with
    | nil => exact ⟨[], [], rfl, rfl⟩
    | cons message received ih =>
        rw [List.pairwise_cons] at h
        obtain ⟨before, after, hreceived, hmap⟩ := ih h.2
        by_cases hparses : Parses deserialize message
        · obtain ⟨value, hvalue⟩ := hparses
          refine ⟨message :: before, after, congrArg _ hreceived, ?_⟩
          rw [List.filterMap_cons_some (parse_eq_some.mpr hvalue), List.map_cons, List.map_cons,
            hvalue, hmap]
        · refine ⟨[], message :: received, rfl, ?_⟩
          have hnone : ∀ later ∈ message :: received, ¬ Parses deserialize later := by
            refine List.forall_mem_cons.mpr ⟨hparses, fun later hlater hlater' => ?_⟩
            exact hparses (h.1 later hlater hlater')
          rw [filterMap_parse_eq_nil.mpr hnone]
          rfl

/-! ### Runs -/

/-- What the stream shows comes from the events of the call. -/
structure History (deserialize : Buffer → Except ε (Option ρ)) (s : Listened (ReadableStream ρ)) :
    Prop where
  pushed : s.listener.pushed = s.call.received.filterMap (parse deserialize) ++
    if s.call.ended then [none] else []
  statuses : s.listener.statuses = s.call.status.toList
  errors : s.listener.errors =
    (s.call.status.toList.filter fun status => status.code ≠ .ok).map .ofStatus

variable {s s' : Listened (ReadableStream ρ)} {event : CallEvent} {status : StatusObject}

/-- What a message does. -/
theorem step_data (h : (setUpReadableStream deserialize).step s (.data message) = some s') :
    s.call.ended = false ∧
    ((∃ value, deserialize message = .ok value ∧
      s' = { s with
        call.received := s.call.received ++ [message]
        listener.pushed := s.listener.pushed ++ [value] }) ∨
    (¬ Parses deserialize message ∧
      s' = Listened.endCall onStatus
        { s with call.received := s.call.received ++ [message] } parseFailure)) := by
  obtain ⟨hended, rfl⟩ := Runs.when_eq_some.mp h
  refine ⟨hended, ?_⟩
  simp only [setUpReadableStream, onData]
  cases hvalue : deserialize message with
  | ok value => exact .inl ⟨value, rfl, rfl⟩
  | error e => exact .inr ⟨by simp [Parses, hvalue], rfl⟩

theorem initial_history : History deserialize initial := ⟨rfl, rfl, rfl⟩

/-- No message that can be parsed comes after one that cannot, and the latter has ended the
call. -/
def Whole (deserialize : Buffer → Except ε (Option ρ)) (call : CallView) : Prop :=
  (call.received.Pairwise fun earlier later =>
    Parses deserialize later → Parses deserialize earlier) ∧
  ((∃ message ∈ call.received, ¬ Parses deserialize message) → call.status = some parseFailure)

theorem History.noHole_iff_whole (h : History deserialize s) :
    NoHole deserialize s ↔ Whole deserialize s.call := by
  rw [Whole, ← initialPart_iff]
  constructor
  · intro hs
    obtain ⟨before, after, images, hreceived, hmap, hpushed⟩ := hs.initialPart
    rw [h.pushed, List.append_left_inj] at hpushed
    refine ⟨⟨before, after, hreceived, hpushed ▸ hmap⟩, fun hfails => ?_⟩
    have hstatuses := (hs.finishes hfails).1
    rw [h.statuses] at hstatuses
    cases hstatus : s.call.status with
    | none => simp [hstatus] at hstatuses
    | some status => simpa [hstatus] using hstatuses
  · intro hs
    obtain ⟨⟨before, after, hreceived, hmap⟩, hfinishes⟩ := hs
    refine ⟨⟨before, after, _, hreceived, hmap, h.pushed⟩, fun hfails => ?_⟩
    have hstatus := hfinishes hfails
    rw [h.statuses, h.errors, hstatus]
    exact ⟨rfl, rfl⟩

theorem History.endCall (h : History deserialize s) (status : StatusObject) :
    History deserialize (s.endCall onStatus status) := by
  cases hstatus : s.call.status with
  | some old => rwa [Listened.endCall_of_some hstatus]
  | none =>
      rw [Listened.endCall_of_none hstatus]
      refine ⟨h.pushed, ?_, ?_⟩
      · simp [onStatus, h.statuses, hstatus]
      · by_cases hcode : status.code = .ok <;> simp [onStatus, h.errors, hstatus, hcode]

theorem history_step (h : History deserialize s)
    (hstep : (setUpReadableStream deserialize).step s event = some s') :
    History deserialize s' := by
  cases event with
  | data message =>
      obtain ⟨hended, hdata⟩ := step_data hstep
      have hpushed := h.pushed
      rw [hended] at hpushed
      rcases hdata with ⟨value, hvalue, rfl⟩ | ⟨hfails, rfl⟩
      · refine ⟨?_, h.statuses, h.errors⟩
        simp [hpushed, hended, parse_eq_some.mpr hvalue]
      · refine History.endCall (s := { s with call.received := s.call.received ++ [message] })
          ⟨?_, h.statuses, h.errors⟩ parseFailure
        have hnone := filterMap_parse_eq_nil.mpr (List.forall_mem_singleton.mpr hfails)
        simp [hpushed, hended, hnone]
  | «end» =>
      obtain ⟨hended, rfl⟩ := Runs.when_eq_some.mp hstep
      refine ⟨?_, h.statuses, h.errors⟩
      show s.listener.pushed ++ [none] = s.call.received.filterMap (parse deserialize) ++ [none]
      rw [h.pushed, hended]
      simp
  | status status =>
      obtain ⟨-, rfl⟩ := Runs.when_eq_some.mp hstep
      exact History.endCall (s := { s with call.serverStatus := some status })
        ⟨h.pushed, h.statuses, h.errors⟩ status

theorem call_endCall : (s.endCall onStatus status).call =
    { s.call with status := some (s.call.status.getD status) } := by
  cases hstatus : s.call.status with
  | none => rw [Listened.endCall_of_none hstatus]; rfl
  | some old =>
      have hsame : some ((some old).getD status) = s.call.status := hstatus.symm
      rw [Listened.endCall_of_some hstatus, hsame]

/-- One more message, which can be parsed. -/
theorem whole_append_of_parses {call : CallView} (h : Whole deserialize call)
    (hparses : Parses deserialize message) :
    Whole deserialize { call with received := call.received ++ [message] } ↔
      ∀ earlier ∈ call.received, Parses deserialize earlier := by
  constructor
  · intro hwhole earlier hearlier
    exact (List.pairwise_append.mp hwhole.1).2.2 earlier hearlier message
      (List.mem_singleton.mpr rfl) hparses
  · intro hall
    refine ⟨List.pairwise_append.mpr ⟨h.1, List.pairwise_singleton _ _, ?_⟩, ?_⟩
    · exact fun earlier hearlier _ _ _ => hall earlier hearlier
    · intro hfails
      obtain ⟨failed, hmem, hfailed⟩ := hfails
      rcases List.mem_append.mp hmem with hmem | hmem
      · exact absurd (hall failed hmem) hfailed
      · exact absurd (List.mem_singleton.mp hmem ▸ hparses) hfailed

/-- One more message, which cannot be parsed. -/
theorem whole_append_of_fails {call : CallView} (h : Whole deserialize call)
    (hfails : ¬ Parses deserialize message) :
    Whole deserialize { call with
      received := call.received ++ [message], status := some (call.status.getD parseFailure) } ↔
      ∀ status, call.status = some status → status = parseFailure := by
  constructor
  · intro hwhole status hstatus
    have hsome := hwhole.2 ⟨message, List.mem_append_right _ (List.mem_singleton.mpr rfl), hfails⟩
    rw [hstatus] at hsome
    exact Option.some.inj hsome
  · intro hstatus
    refine ⟨List.pairwise_append.mpr ⟨h.1, List.pairwise_singleton _ _, ?_⟩, fun _ => ?_⟩
    · intro earlier _ later hlater hparses
      exact absurd (List.mem_singleton.mp hlater ▸ hparses) hfails
    · cases hold : call.status with
      | none => rfl
      | some old => exact congrArg some (hstatus old hold)

/-- A step leads from a good state to a good one exactly if it is in order. -/
theorem noHole_step (h : History deserialize s) (hs : NoHole deserialize s)
    (hstep : (setUpReadableStream deserialize).step s event = some s') :
    NoHole deserialize s' ↔ InOrder deserialize s event := by
  have hwhole := h.noHole_iff_whole.mp hs
  rw [(history_step h hstep).noHole_iff_whole]
  cases event with
  | data message =>
      obtain ⟨-, ⟨value, hvalue, rfl⟩ | ⟨hfails, rfl⟩⟩ := step_data hstep
      · have hparses : Parses deserialize message := ⟨value, hvalue⟩
        rw [whole_append_of_parses hwhole hparses]
        simp [InOrder, hparses]
      · rw [call_endCall, whole_append_of_fails hwhole hfails]
        simp [InOrder, hfails]
  | «end» =>
      obtain ⟨-, rfl⟩ := Runs.when_eq_some.mp hstep
      exact iff_of_true hwhole trivial
  | status status =>
      obtain ⟨-, rfl⟩ := Runs.when_eq_some.mp hstep
      refine iff_of_true ?_ trivial
      rw [show (setUpReadableStream deserialize).onStatus = onStatus from rfl, call_endCall]
      refine ⟨hwhole.1, fun hfails => ?_⟩
      exact congrArg (fun old => some (old.getD status)) (hwhole.2 hfails)

/-- A deserializer that refuses an empty message. -/
def nonEmpty (message : Buffer) : Except JsError (Option Buffer) :=
  if message = [] then .error (.error "empty message") else .ok (some message)

end ReadableStream

end GrpcNode.JsCore
