import GrpcNode.NativeCore.ClientReadStream

/-!
# GrpcNode.NativeCore.ClientReadStatus

The event `'status'` of a stream that the client reads.

The reads end once and the status comes once, in either order, and the second of them emits.
`Phase` is where a stream is on the way, with what its history must be; a run goes through the
phases in the order in which they stand.
-/

namespace GrpcNode.NativeCore.ClientReadStream

open GrpcNode.Js
open GrpcNode.JsCore (Status)

variable {ε β : Type*} {deserialize : Buffer → Except ε β}

/-! ### What a history says -/

/-- A message comes that cannot be parsed. -/
def Unparsable (deserialize : Buffer → Except ε β) : Event β → Prop
  | .readResult (.message (some data)) => parse deserialize data = none
  | _ => False

/-- The reads are done: an error, a null message, or one that cannot be parsed. -/
def EndsReads (deserialize : Buffer → Except ε β) : Event β → Prop
  | .readResult .error => True
  | .readResult (.message none) => True
  | .readResult (.message (some data)) => parse deserialize data = none
  | _ => False

/-- The statuses that the batch has delivered. -/
def delivered (events : List (Event β)) : List ClientStatus :=
  events.filterMap fun e => match e with
    | .statusResult (.result status) => some status
    | _ => none

/-- The statuses that have been emitted. -/
def statuses (events : List (Event β)) : List CallStatus :=
  events.filterMap fun e => match e with
    | .status status => some status
    | _ => none

/-- What `_emitStatusIfDone` does before it emits a status. -/
def Event.isFinal : Event β → Bool
  | endStream | error _ => true
  | _ => false

/-- The history is right if a status is emitted after `before` and before `after`. -/
structure EmittedInTime (deserialize : Buffer → Except ε β) (before : List (Event β))
    (status : CallStatus) (after : List (Event β)) : Prop where
  once : statuses before = [] ∧ statuses after = []
  readsDone : ∃ e ∈ before, EndsReads deserialize e
  code : ∃ received, delivered before = [received] ∧ delivered after = [] ∧
    ((∃ e ∈ before ++ .status status :: after, Unparsable deserialize e) →
      status.code = Status.internal.toNat) ∧
    ((∀ e ∈ before ++ .status status :: after, ¬ Unparsable deserialize e) →
      status.code = received.code)
  messages : (ReadLoop.items (history before)).filterMap (parse deserialize) =
      ReadLoop.images (history before) ∧ ReadLoop.images (history after) = []
  /-- `'error'` instead of the end of the stream exactly if the code is not `OK` -/
  final : before.filter Event.isFinal =
      [if status.code = Status.ok.toNat then .endStream else .error status] ∧
    after.filter Event.isFinal = []

/-- Every status that is emitted is emitted in time. -/
def StatusInTime (deserialize : Buffer → Except ε β) (events : List (Event β)) : Prop :=
  ∀ before status after, events = before ++ .status status :: after →
    EmittedInTime deserialize before status after

/-- A message that cannot be parsed ends the reads. -/
theorem Unparsable.endsReads {e : Event β} (h : Unparsable deserialize e) :
    EndsReads deserialize e := by
  unfold Unparsable at h
  split at h
  · exact h
  · exact h.elim

/-! ### What a step adds -/

/-- The messages that can be parsed are pushed. -/
def Parsed (deserialize : Buffer → Except ε β) (events : List (Event β)) : Prop :=
  (ReadLoop.items (history events)).filterMap (parse deserialize) =
    ReadLoop.images (history events)

/-- Nothing is done about the status. -/
structure Quiet (deserialize : Buffer → Except ε β) (events : List (Event β)) : Prop where
  statuses : statuses events = []
  final : events.filter Event.isFinal = []
  parsed : Parsed deserialize events

/-- Nothing is received, and the reads do not end. -/
structure Neutral (deserialize : Buffer → Except ε β) (events : List (Event β)) : Prop where
  quiet : Quiet deserialize events
  delivered : delivered events = []
  goesOn : ∀ e ∈ events, ¬ EndsReads deserialize e

/-- What has been delivered in two parts of a history -/
@[simp] theorem delivered_append (events more : List (Event β)) :
    delivered (events ++ more) = delivered events ++ delivered more := List.filterMap_append

/-- The statuses in two parts of a history -/
@[simp] theorem statuses_append (events more : List (Event β)) :
    statuses (events ++ more) = statuses events ++ statuses more := List.filterMap_append

/-- Two parts without an unparsable message -/
theorem Parsed.append {events more : List (Event β)} (h : Parsed deserialize events)
    (hmore : Parsed deserialize more) : Parsed deserialize (events ++ more) := by
  unfold Parsed at h hmore ⊢
  rw [history_append, ReadLoop.items_append, ReadLoop.images_append, List.filterMap_append, h,
    hmore]

/-- Two parts that are quiet -/
theorem Quiet.append {events more : List (Event β)} (h : Quiet deserialize events)
    (hmore : Quiet deserialize more) : Quiet deserialize (events ++ more) where
  statuses := by rw [statuses_append, h.statuses, hmore.statuses, List.append_nil]
  final := by rw [List.filter_append, h.final, hmore.final, List.append_nil]
  parsed := h.parsed.append hmore.parsed

/-- Two parts that are neutral -/
theorem Neutral.append {events more : List (Event β)} (h : Neutral deserialize events)
    (hmore : Neutral deserialize more) : Neutral deserialize (events ++ more) where
  quiet := h.quiet.append hmore.quiet
  delivered := by rw [delivered_append, h.delivered, hmore.delivered, List.append_nil]
  goesOn := by
    intro e he
    exact (List.mem_append.mp he).elim (h.goesOn e) (hmore.goesOn e)

/-- Nothing is neutral. -/
theorem neutral_nil : Neutral deserialize ([] : List (Event β)) := ⟨⟨rfl, rfl, rfl⟩, rfl, nofun⟩

/-- The end of the stream is neutral. -/
theorem neutral_pushNull : Neutral deserialize [(.push none : Event β)] :=
  ⟨⟨rfl, rfl, rfl⟩, rfl, fun e he => by rw [List.mem_singleton.mp he]; exact id⟩

/-- That the call is cancelled is neutral. -/
theorem neutral_cancelWithStatus (code : Nat) (details : String) :
    Neutral deserialize [(.cancelWithStatus code details : Event β)] :=
  ⟨⟨rfl, rfl, rfl⟩, rfl, fun e he => by rw [List.mem_singleton.mp he]; exact id⟩

/-- A batch with the status that fails is neutral: there is no status in it. -/
theorem neutral_statusError (err : JsError) : Neutral deserialize
    [(.statusResult (.error err) : Event β), .statusError err] :=
  ⟨⟨rfl, rfl, rfl⟩, rfl, fun e he => by
    rcases List.mem_pair.mp he with rfl | rfl <;> exact id⟩

/-- A message that is pushed. -/
theorem neutral_message {data : Buffer} {value : β} (h : parse deserialize data = some value) :
    Neutral deserialize [.readResult (.message (some data)), .push (some value)] := by
  refine ⟨⟨rfl, rfl, ?_⟩, rfl, fun e he => ?_⟩
  · exact congrArg Option.toList h
  · rcases List.mem_pair.mp he with rfl | rfl
    · exact fun hnone => absurd (h.symm.trans hnone) nofun
    · exact id

/-! ### The phases -/

/-- What is known of the status that the batch receives. -/
def StatusKnown (s : State β) : Prop :=
  s.receivedStatus = none ∧ delivered s.events = [] ∨
    ∃ received : ClientStatus, s.receivedStatus = some received.received ∧
      delivered s.events = [received] ∧ s.statusOutstanding = false

/-- The reads have ended with a status. -/
structure ReadsEnded (deserialize : Buffer → Except ε β) (events : List (Event β))
    (readStatus : CallStatus) : Prop where
  ends : ∃ e ∈ events, EndsReads deserialize e
  agrees : readStatus = parseFailure ∧ (∃ e ∈ events, Unparsable deserialize e) ∨
    readStatus.code = Status.ok.toNat ∧ ∀ e ∈ events, ¬ Unparsable deserialize e

/-- The event `'status'` may come. -/
structure Ready (deserialize : Buffer → Except ε β) (events : List (Event β))
    (status : CallStatus) : Prop where
  ends : ∃ e ∈ events, EndsReads deserialize e
  agrees : ∃ received, delivered events = [received] ∧
    (status = parseFailure ∧ (∃ e ∈ events, Unparsable deserialize e) ∨
      status = received.received ∧ ∀ e ∈ events, ¬ Unparsable deserialize e)
  final : events.filter Event.isFinal = [finalEvent status]
  statuses : statuses events = []
  parsed : Parsed deserialize events

/-- There are no more reads. -/
def Over (s : State β) : Prop := s.finished = true ∧ s.reads = 0

/-- Where a stream is on the way to its status. -/
inductive Phase (deserialize : Buffer → Except ε β) (s : State β) : Prop
  | reading (hread : s.readStatus = none) (hfinished : s.finished = false)
      (hframes : ∀ frame ∈ s.frames, frame = .push) (hknown : StatusKnown s)
      (hquiet : Quiet deserialize s.events) (hgoesOn : ∀ e ∈ s.events, ¬ EndsReads deserialize e)
  | waiting {readStatus : CallStatus} (hread : s.readStatus = some readStatus)
      (hreceived : s.receivedStatus = none) (hdelivered : delivered s.events = []) (hover : Over s)
      (hframes : s.frames = []) (hquiet : Quiet deserialize s.events)
      (hended : ReadsEnded deserialize s.events readStatus)
  | emitting {status : CallStatus} (hover : Over s) (hout : s.statusOutstanding = false)
      (hframes : s.frames = [] ∨ s.frames = [.emitting status])
      (hready : Ready deserialize s.events status)
  | emitted {before after : List (Event β)} {status : CallStatus} (hover : Over s)
      (hout : s.statusOutstanding = false) (hframes : s.frames = [])
      (hready : Ready deserialize before status) (hafter : Neutral deserialize after)
      (hpushed : ReadLoop.images (history after) = [])
      (hevents : s.events = before ++ .status status :: after)

/-! #### What is neutral keeps the phase -/

/-- What is not in the second part is in the first. -/
theorem exists_mem_append_iff {events more : List (Event β)} {P : Event β → Prop}
    (hmore : ∀ e ∈ more, ¬ P e) : (∃ e ∈ events ++ more, P e) ↔ ∃ e ∈ events, P e := by
  constructor
  · rintro ⟨e, he, hP⟩
    rcases List.mem_append.mp he with he | he
    · exact ⟨e, he, hP⟩
    · exact absurd hP (hmore e he)
  · rintro ⟨e, he, hP⟩
    exact ⟨e, List.mem_append_left more he, hP⟩

/-- What is in neither part is not in the whole. -/
theorem forall_not_append {events more : List (Event β)} {P : Event β → Prop}
    (h : ∀ e ∈ events, ¬ P e) (hmore : ∀ e ∈ more, ¬ P e) : ∀ e ∈ events ++ more, ¬ P e :=
  fun e he => (List.mem_append.mp he).elim (h e) (hmore e)

/-- What does not end the reads can be parsed. -/
theorem parsable_of_goesOn {more : List (Event β)} (h : ∀ e ∈ more, ¬ EndsReads deserialize e) :
    ∀ e ∈ more, ¬ Unparsable deserialize e := fun e he hun => h e he hun.endsReads

/-- The reads have ended, and are not ended again. -/
theorem ReadsEnded.append {events more : List (Event β)} {readStatus : CallStatus}
    (h : ReadsEnded deserialize events readStatus)
    (hmore : ∀ e ∈ more, ¬ EndsReads deserialize e) :
    ReadsEnded deserialize (events ++ more) readStatus where
  ends := (exists_mem_append_iff hmore).mpr h.ends
  agrees := by
    rcases h.agrees with ⟨hstatus, hun⟩ | ⟨hstatus, hparsable⟩
    · exact .inl ⟨hstatus, (exists_mem_append_iff (parsable_of_goesOn hmore)).mpr hun⟩
    · exact .inr ⟨hstatus, forall_not_append hparsable (parsable_of_goesOn hmore)⟩

/-- Neutral things change nothing in what is ready to be emitted. -/
theorem Ready.append {events more : List (Event β)} {status : CallStatus}
    (h : Ready deserialize events status) (hmore : Neutral deserialize more) :
    Ready deserialize (events ++ more) status where
  ends := (exists_mem_append_iff hmore.goesOn).mpr h.ends
  agrees := by
    obtain ⟨received, hdelivered, hstatus⟩ := h.agrees
    refine ⟨received, by rw [delivered_append, hdelivered, hmore.delivered]; rfl, ?_⟩
    rcases hstatus with ⟨hstatus, hun⟩ | ⟨hstatus, hparsable⟩
    · exact .inl ⟨hstatus, (exists_mem_append_iff (parsable_of_goesOn hmore.goesOn)).mpr hun⟩
    · exact .inr ⟨hstatus, forall_not_append hparsable (parsable_of_goesOn hmore.goesOn)⟩
  final := by rw [List.filter_append, h.final, hmore.quiet.final, List.append_nil]
  statuses := by rw [statuses_append, h.statuses, hmore.quiet.statuses]; rfl
  parsed := h.parsed.append hmore.quiet.parsed

/-- A status that is known stays known, if no other one is delivered. -/
theorem StatusKnown.append {s t : State β} {more : List (Event β)} (h : StatusKnown s)
    (hmore : delivered more = []) (hevents : t.events = s.events ++ more)
    (hreceived : t.receivedStatus = s.receivedStatus)
    (hout : s.statusOutstanding = false → t.statusOutstanding = false) : StatusKnown t := by
  unfold StatusKnown
  rw [hevents, hreceived, delivered_append, hmore, List.append_nil]
  rcases h with hnone | ⟨received, hsome, hdelivered, hfalse⟩
  · exact .inl hnone
  · exact .inr ⟨received, hsome, hdelivered, hout hfalse⟩

/-- The end of the stream may be pushed at any time. -/
theorem Phase.pushNull {s : State β} (h : Phase deserialize s) :
    Phase deserialize (s.record (.push none)) := by
  have he := @neutral_pushNull ε β deserialize
  cases h with
  | reading hread hfinished hframes hknown hquiet hgoesOn =>
      exact .reading hread hfinished hframes (hknown.append he.delivered rfl rfl id)
        (hquiet.append he.quiet) (forall_not_append hgoesOn he.goesOn)
  | waiting hread hreceived hdelivered hover hframes hquiet hended =>
      refine .waiting hread hreceived ?_ hover hframes (hquiet.append he.quiet)
        (hended.append he.goesOn)
      rw [State.record, delivered_append, hdelivered, he.delivered, List.append_nil]
  | emitting hover hout hframes hready => exact .emitting hover hout hframes (hready.append he)
  | emitted hover hout hframes hready hafter hpushed hevents =>
      refine .emitted hover hout hframes hready (hafter.append he) ?_ ?_
      · rw [history_append, ReadLoop.images_append, hpushed]
        rfl
      · rw [State.record, hevents, List.append_assoc, List.cons_append]

/-- The release of the call is no part of the phase. -/
theorem Phase.releaseCall {s : State β} (h : Phase deserialize s) :
    Phase deserialize { s with callReleased := true } := by
  cases h with
  | reading hread hfinished hframes hknown hquiet hgoesOn =>
      exact .reading hread hfinished hframes hknown hquiet hgoesOn
  | waiting hread hreceived hdelivered hover hframes hquiet hended =>
      exact .waiting hread hreceived hdelivered hover hframes hquiet hended
  | emitting hover hout hframes hready => exact .emitting hover hout hframes hready
  | emitted hover hout hframes hready hafter hpushed hevents =>
      exact .emitted hover hout hframes hready hafter hpushed hevents

/-! #### The two ways to the status -/

/-- `_emitStatusIfDone` waits for the end of the reads. -/
theorem emitStatusIfDone_of_readStatus {s : State β} (h : s.readStatus = none) :
    s.emitStatusIfDone = s := by
  unfold State.emitStatusIfDone
  rw [h]

/-- `_emitStatusIfDone` waits for the status. -/
theorem emitStatusIfDone_of_receivedStatus {s : State β} (h : s.receivedStatus = none) :
    s.emitStatusIfDone = s := by
  unfold State.emitStatusIfDone
  rw [h]
  cases s.readStatus <;> rfl

/-- The status that `_emitStatusIfDone` chooses. -/
def finalStatus (readStatus receivedStatus : CallStatus) : CallStatus :=
  if readStatus.code ≠ Status.ok.toNat then readStatus else receivedStatus

/-- What is emitted at the end is not a read, not a delivery and not a status. -/
theorem finalEvent_spec (status : CallStatus) :
    (∀ e ∈ [(finalEvent status : Event β)], ¬ EndsReads deserialize e) ∧
    delivered [(finalEvent status : Event β)] = [] ∧ statuses [(finalEvent status : Event β)] = [] ∧
    [(finalEvent status : Event β)].filter Event.isFinal = [finalEvent status] ∧
    Parsed deserialize [(finalEvent status : Event β)] := by
  unfold finalEvent
  split <;> exact ⟨fun e he => by rw [List.mem_singleton.mp he]; exact id, rfl, rfl, rfl, rfl⟩

/-- Both have come. -/
theorem ready_finalEvent {events : List (Event β)} {readStatus : CallStatus}
    {received : ClientStatus} (hdelivered : delivered events = [received])
    (hquiet : Quiet deserialize events) (hended : ReadsEnded deserialize events readStatus) :
    Ready deserialize (events ++ [finalEvent (finalStatus readStatus received.received)])
      (finalStatus readStatus received.received) := by
  obtain ⟨hends, hdel, hst, hfinal, hparsed⟩ :=
    @finalEvent_spec ε β deserialize (finalStatus readStatus received.received)
  have hparsable := parsable_of_goesOn hends
  refine ⟨(exists_mem_append_iff hends).mpr hended.ends, ⟨received, ?_, ?_⟩, ?_, ?_,
    hquiet.parsed.append hparsed⟩
  · rw [delivered_append, hdelivered, hdel]
    rfl
  · rcases hended.agrees with ⟨hfailure, hun⟩ | ⟨hok, hall⟩
    · refine .inl ⟨?_, (exists_mem_append_iff hparsable).mpr hun⟩
      rw [finalStatus, hfailure, if_pos (by decide)]
    · refine .inr ⟨?_, forall_not_append hall hparsable⟩
      rw [finalStatus, if_neg (fun h => h hok)]
  · rw [List.filter_append, hquiet.final, hfinal, List.nil_append]
  · rw [statuses_append, hquiet.statuses, hst, List.nil_append]

/-- When both are there, the error or the end is emitted, and then the status. -/
theorem phase_emitStatusIfDone {s : State β} {readStatus : CallStatus} {received : ClientStatus}
    (hread : s.readStatus = some readStatus) (hreceived : s.receivedStatus = some received.received)
    (hover : Over s) (hout : s.statusOutstanding = false) (hframes : s.frames = [])
    (hdelivered : delivered s.events = [received]) (hquiet : Quiet deserialize s.events)
    (hended : ReadsEnded deserialize s.events readStatus) :
    Phase deserialize s.emitStatusIfDone := by
  rw [State.emitStatusIfDone, hread, hreceived]
  have hready := ready_finalEvent hdelivered hquiet hended
  exact .emitting hover hout (.inr (congrArg (Frame.emitting _ :: ·) hframes)) hready

/-- The reads have ended, and the status may be there already. -/
theorem phase_setReadStatus {s : State β} {readStatus : CallStatus} (hreads : s.reads = 0)
    (hframes : s.frames = []) (hknown : StatusKnown s) (hquiet : Quiet deserialize s.events)
    (hended : ReadsEnded deserialize s.events readStatus) :
    Phase deserialize
      (State.emitStatusIfDone { s with finished := true, readStatus := some readStatus }) := by
  rcases hknown with ⟨hnone, hdelivered⟩ | ⟨received, hreceived, hdelivered, hout⟩
  · rw [emitStatusIfDone_of_receivedStatus (s := { s with
      finished := true
      readStatus := some readStatus }) hnone]
    exact .waiting rfl hnone hdelivered ⟨rfl, hreads⟩ hframes hquiet hended
  · exact phase_emitStatusIfDone rfl hreceived ⟨rfl, hreads⟩ hout hframes hdelivered hquiet hended

/-- The reads end. -/
theorem phase_readsDone {s : State β} {status : Option CallStatus} (hreads : s.reads = 0)
    (hframes : s.frames = []) (hknown : StatusKnown s) (hquiet : Quiet deserialize s.events)
    (hended : ReadsEnded deserialize s.events
      (status.getD { code := Status.ok.toNat, details := "OK" })) :
    Phase deserialize (s.readsDone status) := by
  unfold State.readsDone
  generalize status.getD { code := Status.ok.toNat, details := "OK" } = readStatus at hended ⊢
  dsimp only
  split
  · have hcancel := @neutral_cancelWithStatus ε β deserialize readStatus.code readStatus.details
    exact phase_setReadStatus hreads hframes (hknown.append hcancel.delivered rfl rfl id)
      (hquiet.append hcancel.quiet) (hended.append hcancel.goesOn)
  · exact phase_setReadStatus hreads hframes hknown hquiet hended

/-- The status comes. -/
theorem phase_receiveStatus {s : State β} (h : Phase deserialize s) (hframes : s.frames = [])
    (hout : s.statusOutstanding = true) (status : ClientStatus) :
    Phase deserialize (s.statusCompletes (.result status)) := by
  have hquietStatus : Quiet deserialize [(.statusResult (.result status) : Event β)] :=
    ⟨rfl, rfl, rfl⟩
  have hgoesOnStatus : ∀ e ∈ [(.statusResult (.result status) : Event β)],
      ¬ EndsReads deserialize e := fun e he => by rw [List.mem_singleton.mp he]; exact id
  have hdelivered : ∀ {events : List (Event β)}, delivered events = [] →
      delivered (events ++ [.statusResult (.result status)]) = [status] := by
    intro events hnone
    rw [delivered_append, hnone]
    rfl
  cases h with
  | reading hread hfinished _ hknown hquiet hgoesOn =>
      have hnone : delivered s.events = [] := by
        rcases hknown with ⟨-, hnone⟩ | ⟨received, -, -, hout'⟩
        · exact hnone
        · exact absurd (hout.symm.trans hout') nofun
      have hstay : s.statusCompletes (.result status) =
          { s with
            statusOutstanding := false
            receivedStatus := some status.received
            events := s.events ++ [.statusResult (.result status)] } :=
        emitStatusIfDone_of_readStatus hread
      rw [hstay]
      refine .reading hread hfinished ?_ (.inr ⟨status, rfl, hdelivered hnone, rfl⟩)
        (hquiet.append hquietStatus) (forall_not_append hgoesOn hgoesOnStatus)
      rw [hframes]
      exact nofun
  | waiting hread _ hnone hover _ hquiet hended =>
      exact phase_emitStatusIfDone hread rfl hover rfl hframes (hdelivered hnone)
        (hquiet.append hquietStatus) (hended.append hgoesOnStatus)
  | emitting hover hout' _ _ => exact absurd (hout.symm.trans hout') nofun
  | emitted hover hout' _ _ _ _ _ => exact absurd (hout.symm.trans hout') nofun

/-- The last event has ended the reads, and it says with which status. -/
theorem readsEnded_of_last {events : List (Event β)} {e : Event β} {readStatus : CallStatus}
    (hgoesOn : ∀ e ∈ events, ¬ EndsReads deserialize e) (he : EndsReads deserialize e)
    (h : readStatus = parseFailure ∧ Unparsable deserialize e ∨
      readStatus.code = Status.ok.toNat ∧ ¬ Unparsable deserialize e) :
    ReadsEnded deserialize (events ++ [e]) readStatus where
  ends := ⟨e, List.mem_append_right events (List.mem_singleton_self e), he⟩
  agrees := by
    rcases h with ⟨hstatus, hun⟩ | ⟨hstatus, hparsable⟩
    · exact .inl ⟨hstatus, e, List.mem_append_right events (List.mem_singleton_self e), hun⟩
    · refine .inr ⟨hstatus, forall_not_append (parsable_of_goesOn hgoesOn) ?_⟩
      intro e' he'
      rwa [List.mem_singleton.mp he']

/-- A read fails while the stream is reading. -/
theorem phase_readError {s : State β} (hreads : s.reads = 0) (hframes : s.frames = [])
    (hknown : StatusKnown s) (hquiet : Quiet deserialize s.events)
    (hgoesOn : ∀ e ∈ s.events, ¬ EndsReads deserialize e) :
    Phase deserialize (s.record (.readResult .error)).readError := by
  refine phase_readsDone hreads hframes (hknown.append rfl rfl rfl id) ?_ ?_
  · exact hquiet.append ⟨rfl, rfl, rfl⟩
  · exact readsEnded_of_last hgoesOn trivial (.inr ⟨rfl, id⟩)

/-- A batch is started while the stream is reading. -/
theorem phase_startBatch {s : State β} (hreads : s.reads = 0) (hframes : s.frames = [])
    (hread : s.readStatus = none) (hfinished : s.finished = false)
    (hknown : StatusKnown s) (hquiet : Quiet deserialize s.events)
    (hgoesOn : ∀ e ∈ s.events, ¬ EndsReads deserialize e) : Phase deserialize s.startBatch := by
  unfold State.startBatch
  split
  · exact phase_readError hreads hframes hknown hquiet hgoesOn
  · refine .reading hread hfinished ?_ hknown hquiet hgoesOn
    intro frame hframe
    exact absurd (hframes ▸ hframe) List.not_mem_nil

/-- What is on the stack while the stream is reading: nothing, if there is no `push` there. -/
theorem frames_eq_nil {frames : List Frame} (h : ∀ frame ∈ frames, frame = .push)
    (hcount : frames.countP Frame.isPush = 0) : frames = [] := by
  cases frames with
  | nil => rfl
  | cons frame frames =>
      rw [h frame (.head frames), List.countP_cons_of_pos rfl] at hcount
      exact absurd hcount (Nat.succ_ne_zero _)

/-- `_read` keeps the phase. -/
theorem phase_read {s : State β} (hs : ReadLoop.Inv (parse deserialize) s.loop)
    (h : Phase deserialize s) : Phase deserialize s.read := by
  unfold State.read
  split
  · exact h.pushNull
  · rename_i hgoing
    cases h with
    | reading hread hfinished hframes hknown hquiet hgoesOn =>
        split
        · rename_i hnot
          have hidle : s.reading = false := by simpa using hnot
          have hzero : s.reads + s.frames.countP Frame.isPush = 0 := hs.stopped hidle
          exact phase_startBatch (Nat.eq_zero_of_add_eq_zero_right hzero)
            (frames_eq_nil hframes (Nat.eq_zero_of_add_eq_zero_left hzero)) hread hfinished hknown
            hquiet hgoesOn
        · exact .reading hread hfinished hframes hknown hquiet hgoesOn
    | waiting _ _ _ hover _ _ _ => exact absurd hover.1 hgoing
    | emitting hover _ _ _ => exact absurd hover.1 hgoing
    | emitted hover _ _ _ _ _ _ => exact absurd hover.1 hgoing

/-- A read that completes keeps the phase, or ends the reads. -/
theorem phase_readCompletes {s : State β} {n : Nat} {result : ReadResult}
    (hs : ReadLoop.Inv (parse deserialize) s.loop) (h : Phase deserialize s)
    (hframes : s.frames = []) (hreads : s.reads = n + 1) :
    Phase deserialize (s.readCompletes deserialize result) := by
  have hone : s.reads + s.frames.countP Frame.isPush ≤ 1 := hs.atMostOne
  have hlast : s.reads - 1 = 0 := by omega
  have hmore : ∀ {P : Prop}, Over s → P := fun hover => absurd (hreads.symm.trans hover.2) nofun
  cases h with
  | waiting _ _ _ hover _ _ _ => exact hmore hover
  | emitting hover _ _ _ => exact hmore hover
  | emitted hover _ _ _ _ _ _ => exact hmore hover
  | reading hread hfinished _ hknown hquiet hgoesOn =>
      rw [State.readCompletes, hlast]
      cases result with
      | error => exact phase_readError rfl hframes hknown hquiet hgoesOn
      | message data =>
          simp only [State.readCallback]
          cases data with
          | none =>
              refine phase_readsDone rfl hframes (hknown.append rfl rfl rfl id) ?_ ?_
              · exact hquiet.append ⟨rfl, rfl, rfl⟩
              · exact readsEnded_of_last hgoesOn trivial (.inr ⟨rfl, id⟩)
          | some data =>
              cases hparse : deserialize data with
              | error e =>
                  have hnone : parse deserialize data = none := by
                    rw [parse, hparse]
                    rfl
                  simp only [wrapIgnoreNull, hparse, Except.map]
                  refine phase_readsDone rfl hframes (hknown.append rfl rfl rfl id) ?_ ?_
                  · exact hquiet.append ⟨rfl, rfl, congrArg Option.toList hnone⟩
                  · exact readsEnded_of_last hgoesOn hnone (.inl ⟨rfl, hnone⟩)
              | ok value =>
                  have hsome : parse deserialize data = some value := by
                    rw [parse, hparse]
                    rfl
                  have hmessage := neutral_message hsome
                  simp only [wrapIgnoreNull, hparse, Except.map]
                  show Phase deserialize { s with
                    reads := 0
                    frames := .push :: s.frames
                    events := s.events ++ [.readResult (.message (some data))] ++
                      [.push (some value)] }
                  rw [List.append_assoc, hframes]
                  exact .reading hread hfinished (fun frame hframe => List.mem_singleton.mp hframe)
                    (hknown.append hmessage.delivered rfl rfl id) (hquiet.append hmessage.quiet)
                    (forall_not_append hgoesOn hmessage.goesOn)

/-- A batch with the status that fails leaves the status unknown. -/
theorem phase_statusFails {s : State β} (h : Phase deserialize s)
    (hout : s.statusOutstanding = true) (err : JsError) :
    Phase deserialize (s.statusCompletes (.error err)) := by
  have hmore := @neutral_statusError ε β deserialize err
  show Phase deserialize { s with
    statusOutstanding := false
    events := s.events ++ [.statusResult (.error err)] ++ [.statusError err] }
  rw [List.append_assoc]
  cases h with
  | reading hread hfinished hframes hknown hquiet hgoesOn =>
      exact .reading hread hfinished hframes (hknown.append hmore.delivered rfl rfl fun _ => rfl)
        (hquiet.append hmore.quiet) (forall_not_append hgoesOn hmore.goesOn)
  | waiting hread hreceived hdelivered hover hframes hquiet hended =>
      refine .waiting hread hreceived ?_ hover hframes (hquiet.append hmore.quiet)
        (hended.append hmore.goesOn)
      exact (delivered_append _ _).trans (by rw [hdelivered]; exact hmore.delivered)
  | emitting _ hout' _ _ => exact absurd (hout.symm.trans hout') nofun
  | emitted _ hout' _ _ _ _ _ => exact absurd (hout.symm.trans hout') nofun

/-- What follows a push keeps the phase. -/
theorem phase_afterPush {s : State β} {frames : List Frame}
    (hs : ReadLoop.Inv (parse deserialize) s.loop) (h : Phase deserialize s)
    (hpush : s.frames = .push :: frames) (more : Bool) :
    Phase deserialize (State.afterPush { s with frames } more) := by
  cases h with
  | reading hread hfinished hframes hknown hquiet hgoesOn =>
      have hrest : ∀ frame ∈ frames, frame = .push :=
        fun frame hframe => hframes frame (hpush ▸ List.mem_cons_of_mem _ hframe)
      unfold State.afterPush
      split
      · have hone : s.reads + s.frames.countP Frame.isPush ≤ 1 := hs.atMostOne
        rw [hpush, List.countP_cons_of_pos rfl] at hone
        have hreads : s.reads = 0 := by omega
        have hcount : frames.countP Frame.isPush = 0 := by omega
        exact phase_startBatch hreads (frames_eq_nil hrest hcount) hread hfinished hknown hquiet
          hgoesOn
      · exact .reading hread hfinished hrest hknown hquiet hgoesOn
  | waiting _ _ _ _ hframes _ _ => exact absurd (hpush.symm.trans hframes) nofun
  | emitting _ _ hframes _ =>
      rcases hframes with hnil | hemitting
      · exact absurd (hpush.symm.trans hnil) nofun
      · exact absurd (hpush.symm.trans hemitting) nofun
  | emitted _ _ hframes _ _ _ _ => exact absurd (hpush.symm.trans hframes) nofun

/-- The listeners have returned, and the status is emitted. -/
theorem phase_emitReturns {s : State β} {status : CallStatus} {frames : List Frame}
    (h : Phase deserialize s) (hemitting : s.frames = .emitting status :: frames) :
    Phase deserialize (State.record { s with frames } (.status status)) := by
  cases h with
  | reading _ _ hframes _ _ _ =>
      exact absurd (hframes (.emitting status) (hemitting ▸ List.mem_cons_self)) nofun
  | waiting _ _ _ _ hframes _ _ => exact absurd (hemitting.symm.trans hframes) nofun
  | emitting hover hout hframes hready =>
      rcases hframes with hnil | hsame
      · exact absurd (hemitting.symm.trans hnil) nofun
      · obtain ⟨hframe, hrest⟩ := List.cons.inj (hemitting.symm.trans hsame)
        obtain rfl := Frame.emitting.inj hframe
        exact .emitted hover hout hrest hready neutral_nil rfl rfl
  | emitted _ _ hframes _ _ _ _ => exact absurd (hemitting.symm.trans hframes) nofun

/-- An exception of a listener leaves out what was to follow. -/
theorem phase_throws {s : State β} {frame : Frame} {frames : List Frame}
    (h : Phase deserialize s) (hcons : s.frames = frame :: frames) :
    Phase deserialize { s with frames } := by
  cases h with
  | reading hread hfinished hframes hknown hquiet hgoesOn =>
      exact .reading hread hfinished
        (fun f hf => hframes f (hcons ▸ List.mem_cons_of_mem _ hf)) hknown hquiet hgoesOn
  | waiting _ _ _ _ hframes _ _ => exact absurd (hcons.symm.trans hframes) nofun
  | emitting hover hout hframes hready =>
      rcases hframes with hnil | hsame
      · exact absurd (hcons.symm.trans hnil) nofun
      · exact .emitting hover hout (.inl (List.cons.inj (hcons.symm.trans hsame)).2) hready
  | emitted _ _ hframes _ _ _ _ => exact absurd (hcons.symm.trans hframes) nofun

/-- **One step.** -/
theorem Phase.step {s s' : State β} {a : Act} (h : Phase deserialize s)
    (hs : ReadLoop.Inv (parse deserialize) s.loop) (hstep : step deserialize s a = some s') :
    Phase deserialize s' := by
  cases step_effect hstep with
  | read => exact phase_read hs h
  | readCompletes result hframes hreads => exact phase_readCompletes hs h hframes hreads
  | statusCompletes completion hframes hout =>
      cases completion with
      | result status => exact phase_receiveStatus h hframes hout status
      | error err => exact phase_statusFails h hout err
  | pushReturns more hframes => exact phase_afterPush hs h hframes more
  | emitReturns hframes => exact phase_emitReturns h hframes
  | throws hframes => exact phase_throws h hframes
  | releaseCall _ => exact h.releaseCall

/-- At first nothing has happened. -/
theorem phase_initial : Phase deserialize ({} : State β) :=
  .reading rfl rfl nofun (.inl ⟨rfl, rfl⟩) ⟨rfl, rfl, rfl⟩ nofun

/-! ### The status -/

/-- Without statuses none of them has been emitted. -/
theorem not_mem_of_statuses {events : List (Event β)} (h : statuses events = [])
    (status : CallStatus) : .status status ∉ events := by
  intro hmem
  exact absurd (List.filterMap_eq_nil_iff.mp h _ hmem) nofun

/-- There is one way to split a history at its only status. -/
theorem split_eq {before after before' after' : List (Event β)} {status status' : CallStatus}
    (hbefore : statuses before = []) (hafter : statuses after = [])
    (h : before ++ .status status :: after = before' ++ .status status' :: after') :
    before = before' ∧ status = status' ∧ after = after' := by
  induction before generalizing before' with
  | nil =>
      cases before' with
      | nil =>
          obtain ⟨hstatus, hrest⟩ := List.cons.inj h
          exact ⟨rfl, Event.status.inj hstatus, hrest⟩
      | cons e before' =>
          have hmem : .status status' ∈ after := by
            rw [(List.cons.inj h).2]
            exact List.mem_append_right before' List.mem_cons_self
          exact absurd hmem (not_mem_of_statuses hafter status')
  | cons e before ih =>
      cases before' with
      | nil =>
          have hmem : .status status' ∈ e :: before := by
            rw [(List.cons.inj h).1]
            exact List.mem_cons_self
          exact absurd hmem (not_mem_of_statuses hbefore status')
      | cons e' before' =>
          obtain ⟨rfl, hrest⟩ := List.cons.inj h
          have htail : statuses before = [] :=
            List.filterMap_eq_nil_iff.mpr fun e he =>
              List.filterMap_eq_nil_iff.mp hbefore e (List.mem_cons_of_mem _ he)
          obtain ⟨rfl, hsame⟩ := ih htail hrest
          exact ⟨rfl, hsame⟩

/-- A history with one status in it. -/
theorem statusInTime_of_emitted {before after : List (Event β)} {status : CallStatus}
    (hready : Ready deserialize before status) (hafter : Neutral deserialize after)
    (hpushed : ReadLoop.images (history after) = []) :
    StatusInTime deserialize (before ++ .status status :: after) := by
  intro before' status' after' hsplit
  obtain ⟨rfl, rfl, rfl⟩ := split_eq hready.statuses hafter.quiet.statuses hsplit
  have hmore : ∀ e ∈ .status status :: after, ¬ Unparsable deserialize e := by
    intro e he
    rcases List.mem_cons.mp he with rfl | he
    · exact id
    · exact parsable_of_goesOn hafter.goesOn e he
  obtain ⟨received, hdelivered, hstatus⟩ := hready.agrees
  refine ⟨⟨hready.statuses, hafter.quiet.statuses⟩, hready.ends, ⟨received, hdelivered,
    hafter.delivered, fun hun => ?_, fun hall => ?_⟩, ⟨hready.parsed, hpushed⟩, hready.final,
    hafter.quiet.final⟩
  · rw [exists_mem_append_iff hmore] at hun
    rcases hstatus with ⟨rfl, -⟩ | ⟨-, hparsable⟩
    · rfl
    · obtain ⟨e, he, hune⟩ := hun
      exact absurd hune (hparsable e he)
  · rcases hstatus with ⟨-, e, he, hune⟩ | ⟨rfl, -⟩
    · exact absurd hune (hall e (List.mem_append_left _ he))
    · rfl

/-- In every phase the statuses have come in time. -/
theorem Phase.statusInTime {s : State β} (h : Phase deserialize s) :
    StatusInTime deserialize s.events := by
  have hnone : statuses s.events = [] → StatusInTime deserialize s.events := by
    intro hnil before status after hsplit
    rw [hsplit, statuses_append] at hnil
    exact absurd (List.append_eq_nil_iff.mp hnil).2 nofun
  cases h with
  | reading _ _ _ _ hquiet _ => exact hnone hquiet.statuses
  | waiting _ _ _ _ _ hquiet _ => exact hnone hquiet.statuses
  | emitting _ _ _ hready => exact hnone hready.statuses
  | emitted _ _ _ hready hafter hpushed hevents =>
      rw [hevents]
      exact statusInTime_of_emitted hready hafter hpushed

/-- **The status of a stream is emitted at most once, and in time**: in every run, after the reads
are done and the status has been received, when all messages that could be parsed are pushed and
before nothing more is, with the code that the reads and the status determine, and after `'error'`
or the end of the stream. -/
theorem always_statusInTime (deserialize : Buffer → Except ε β) (acts : List Act) :
    Runs.Always (step deserialize) (fun s => StatusInTime deserialize s.events) {} acts := by
  have hinv : Runs.Always (step deserialize)
      (fun s => ReadLoop.Inv (parse deserialize) s.loop ∧ Phase deserialize s) {} acts :=
    Runs.always_of_invariant
      (fun _ _ _ hs hstep => ⟨inv_step hs.1 hstep, hs.2.step hs.1 hstep⟩)
      ⟨ReadLoop.inv_initial, phase_initial⟩ acts
  exact hinv.mono fun s hs => hs.2.statusInTime

/-- A message that cannot be parsed decides, whatever the status of the server is. -/
example (status : ClientStatus) :
    (Runs.exec (step (fun _ => .error () : Buffer → Except Unit Unit)) {}
      [.read, .readCompletes (.message (some [7])), .statusCompletes (.result status),
        .emitReturns]).map (fun s => statuses s.events) = some [parseFailure] := rfl

end GrpcNode.NativeCore.ClientReadStream
