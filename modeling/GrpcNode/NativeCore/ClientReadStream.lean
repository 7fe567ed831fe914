import GrpcNode.NativeCore.ClientCompletion
import GrpcNode.NativeCore.ServerReadStream

/-!
# GrpcNode.NativeCore.ClientReadStream

The streams of `client.js` that read: `_read`, `_readsDone`, `_receiveStatus` and
`_emitStatusIfDone`, and the batch that receives the status.

The machine is made like that of the server. Here the addon completes two kinds of batches, and
whichever is last emits the status. `step_refines` says that also this stream is a `ReadLoop`, and
`readLoops` what follows for both.
-/

namespace GrpcNode.NativeCore.ClientReadStream

open GrpcNode.Js
open GrpcNode.JsCore (Status)

/-- What happens to a stream, and what it does. -/
inductive Event (β : Type*)
  | readResult (result : ReadResult)
  | statusResult (completion : Completion ClientStatus)
  | push (value : Option β)
  /-- `this.call.cancelWithStatus(code, details)` -/
  | cancelWithStatus (code : Nat) (details : String)
  /-- `push(null)` in `_emitStatusIfDone` -/
  | endStream
  /-- The event `'error'` in `_emitStatusIfDone` -/
  | error (status : CallStatus)
  /-- The event `'error'` of the batch that receives the status -/
  | statusError (err : JsError)
  | status (status : CallStatus)

/-- A call of user code that has not returned and after which something is left to do. -/
inductive Frame
  /-- `push` in `readCallback` -/
  | push
  /-- `push(null)` or `emit('error')` in `_emitStatusIfDone` -/
  | emitting (status : CallStatus)

structure State (β : Type*) where
  finished : Bool := false
  reading : Bool := false
  readStatus : Option CallStatus := none
  receivedStatus : Option CallStatus := none
  /-- The addon has released the call. -/
  callReleased : Bool := false
  /-- The batches with `RECV_MESSAGE` that have not completed. -/
  reads : Nat := 0
  /-- The batch with `RECV_STATUS_ON_CLIENT` has not completed. -/
  statusOutstanding : Bool := true
  frames : List Frame := []
  events : List (Event β) := []

inductive Act
  | read
  | readCompletes (result : ReadResult)
  | statusCompletes (completion : Completion ClientStatus)
  | pushReturns (more : Bool)
  | emitReturns
  /-- What runs on top throws what a listener throws. -/
  | throws
  | releaseCall

variable {ε β : Type*} (deserialize : Buffer → Except ε β)

/-- What comes before the event `'status'`: the end of the stream, or an error that has the
message, the code and the metadata of the status. -/
def finalEvent (status : CallStatus) : Event β :=
  if status.code = Status.ok.toNat then .endStream else .error status

namespace State

variable (s : State β)

def record (e : Event β) : State β := { s with events := s.events ++ [e] }

/-- `_emitStatusIfDone()`, up to the event `'status'` -/
def emitStatusIfDone : State β :=
  match s.readStatus, s.receivedStatus with
  | some readStatus, some receivedStatus =>
      let status := if readStatus.code ≠ Status.ok.toNat then readStatus else receivedStatus
      { s.record (finalEvent status) with frames := .emitting status :: s.frames }
  | _, _ => s

/-- `_readsDone(status)` -/
def readsDone (status : Option CallStatus) : State β :=
  let status := status.getD { code := Status.ok.toNat, details := "OK" }
  let s := if status.code ≠ Status.ok.toNat then
      s.record (.cancelWithStatus status.code status.details)
    else s
  { s with finished := true, readStatus := some status }.emitStatusIfDone

/-- `_receiveStatus(status)` -/
def receiveStatus (status : CallStatus) : State β :=
  { s with receivedStatus := some status }.emitStatusIfDone

/-- `readCallback(err)` -/
def readError : State β := { s with finished := true }.readsDone none

/-- `self.call.startBatch(read_batch, readCallback)`, which calls back with an error if the call
has been released. -/
def startBatch : State β :=
  if s.callReleased then (s.record (.readResult .error)).readError
  else { s with reads := s.reads + 1 }

/-- `readCallback(err, event)`, up to the call of `push` -/
def readCallback : ReadResult → State β
  | .error => s.readError
  | .message data =>
      match wrapIgnoreNull deserialize data with
      | .error _ => s.readsDone (some parseFailure)
      | .ok deserialized =>
          if data.isNone then s.readsDone none
          else { s.record (.push deserialized) with frames := .push :: s.frames }

/-- The rest of `readCallback`, when `push` has returned. -/
def afterPush (more : Bool) : State β :=
  if more then s.startBatch else { s with reading := false }

/-- `_read(size)` -/
def read : State β :=
  if s.finished then s.record (.push none)
  else if !s.reading then { s with reading := true }.startBatch
  else s

/-- A batch with `RECV_MESSAGE` completes. -/
def readCompletes (result : ReadResult) : State β :=
  ({ s with reads := s.reads - 1 }.record (.readResult result)).readCallback deserialize result

/-- The batch with `RECV_STATUS_ON_CLIENT` completes. -/
def statusCompletes (completion : Completion ClientStatus) : State β :=
  let s := { s with statusOutstanding := false }.record (.statusResult completion)
  match completion with
  | .error err => s.record (.statusError err)
  | .result status => s.receiveStatus status.received

end State

def step (s : State β) : Act → Option (State β)
  | .read => some s.read
  | .readCompletes result =>
      Runs.when (s.frames = [] ∧ 0 < s.reads) (s.readCompletes deserialize result)
  | .statusCompletes completion =>
      Runs.when (s.frames = [] ∧ s.statusOutstanding = true) (s.statusCompletes completion)
  | .pushReturns more =>
      match s.frames with
      | .push :: frames => some ({ s with frames }.afterPush more)
      | _ => none
  | .emitReturns =>
      match s.frames with
      | .emitting status :: frames => some ({ s with frames }.record (.status status))
      | _ => none
  | .throws =>
      match s.frames with
      | _ :: frames => some { s with frames }
      | [] => none
  | .releaseCall => Runs.when (s.reads = 0) { s with callReleased := true }

/-- The steps, each with what makes it possible. -/
inductive Effect (s : State β) : Act → State β → Prop
  | read : Effect s .read s.read
  | readCompletes {n : Nat} (result : ReadResult) : s.frames = [] → s.reads = n + 1 →
      Effect s (.readCompletes result) (s.readCompletes deserialize result)
  | statusCompletes (completion : Completion ClientStatus) : s.frames = [] →
      s.statusOutstanding = true →
      Effect s (.statusCompletes completion) (s.statusCompletes completion)
  | pushReturns {frames : List Frame} (more : Bool) : s.frames = .push :: frames →
      Effect s (.pushReturns more) ({ s with frames }.afterPush more)
  | emitReturns {status : CallStatus} {frames : List Frame} : s.frames = .emitting status :: frames →
      Effect s .emitReturns ({ s with frames }.record (.status status))
  | throws {frame : Frame} {frames : List Frame} : s.frames = frame :: frames →
      Effect s .throws { s with frames }
  | releaseCall : s.reads = 0 → Effect s .releaseCall { s with callReleased := true }

variable {deserialize}

theorem step_effect {s s' : State β} {a : Act} (h : step deserialize s a = some s') :
    Effect deserialize s a s' := by
  cases a with
  | read =>
      obtain rfl := Option.some.inj h
      exact .read
  | readCompletes result =>
      obtain ⟨⟨hframes, hreads⟩, rfl⟩ := Runs.when_eq_some.mp h
      obtain ⟨n, hn⟩ := Nat.exists_eq_add_one_of_ne_zero (Nat.ne_of_gt hreads)
      exact .readCompletes result hframes hn
  | statusCompletes completion =>
      obtain ⟨⟨hframes, hstatus⟩, rfl⟩ := Runs.when_eq_some.mp h
      exact .statusCompletes completion hframes hstatus
  | pushReturns more =>
      simp only [step] at h
      split at h
      · rename_i hframes
        obtain rfl := Option.some.inj h
        exact .pushReturns more hframes
      · exact absurd h nofun
  | emitReturns =>
      simp only [step] at h
      split at h
      · rename_i hframes
        obtain rfl := Option.some.inj h
        exact .emitReturns hframes
      · exact absurd h nofun
  | throws =>
      simp only [step] at h
      split at h
      · rename_i hframes
        obtain rfl := Option.some.inj h
        exact .throws hframes
      · exact absurd h nofun
  | releaseCall =>
      obtain ⟨hreads, rfl⟩ := Runs.when_eq_some.mp h
      exact .releaseCall hreads

/-! ### The loop -/

/-- The messages and what is pushed of them. -/
def history (events : List (Event β)) : List (ReadLoop.Event Buffer β) :=
  events.filterMap fun e => match e with
    | .readResult (.message (some data)) => some (.got data)
    | .push (some value) => some (.gave value)
    | _ => none

/-- A call of `push` in `readCallback`. -/
def Frame.isPush : Frame → Bool
  | push => true
  | emitting _ => false

/-- The stream as a loop that reads. -/
def State.loop (s : State β) : ReadLoop.State Buffer β where
  reading := s.reading
  outstanding := s.reads
  giving := s.frames.countP Frame.isPush
  history := history s.events

/-- The value of a message, if it can be parsed. -/
def parse (deserialize : Buffer → Except ε β) (data : Buffer) : Option β :=
  (deserialize data).toOption

theorem history_append (events more : List (Event β)) :
    history (events ++ more) = history events ++ history more := List.filterMap_append

theorem history_finalEvent (status : CallStatus) :
    history [(finalEvent status : Event β)] = [] := by
  unfold finalEvent
  split <;> rfl

namespace State

variable (s : State β)

/-- Events that are not about a message leave the loop alone. -/
theorem loop_record {e : Event β} (h : history [e] = []) : (s.record e).loop = s.loop := by
  have hhistory : history (s.events ++ [e]) = history s.events := by
    rw [history_append, h, List.append_nil]
  exact congrArg (ReadLoop.State.mk s.reading s.reads (s.frames.countP Frame.isPush)) hhistory

/-- So does the status, and what is on the stack because of it. -/
theorem loop_emitStatusIfDone : s.emitStatusIfDone.loop = s.loop := by
  unfold emitStatusIfDone
  split
  · exact s.loop_record (history_finalEvent _)
  · rfl

theorem loop_readsDone (status : Option CallStatus) : (s.readsDone status).loop = s.loop := by
  unfold readsDone
  rw [loop_emitStatusIfDone]
  split
  · exact s.loop_record (e := .cancelWithStatus _ _) rfl
  · rfl

theorem loop_readError : s.readError.loop = s.loop := loop_readsDone _ none

theorem loop_read : ReadLoop.Step (parse deserialize) s.loop s.read.loop := by
  unfold read
  split
  · rw [loop_record _ rfl]
    exact .idle
  · by_cases h : s.reading = false
    · rw [h, Bool.not_false, if_pos rfl, startBatch]
      split
      · rw [loop_readError, loop_record _ rfl]
        exact .startFails h
      · exact .start h
    · rw [eq_true_of_ne_false h]
      exact .idle

theorem loop_readCompletes {n : Nat} (h : s.reads = n + 1) (result : ReadResult) :
    ReadLoop.Step (parse deserialize) s.loop (s.readCompletes deserialize result).loop := by
  have hreads : s.reads - 1 = n := by omega
  rw [readCompletes, hreads]
  cases result with
  | error =>
      rw [readCallback, loop_readError, loop_record _ rfl]
      exact .fail h
  | message data =>
      simp only [readCallback]
      cases data with
      | none =>
          simp only [wrapIgnoreNull, Option.isNone_none, if_true]
          rw [loop_readsDone, loop_record _ rfl]
          exact .fail h
      | some data =>
          cases hparse : deserialize data with
          | error e =>
              simp only [wrapIgnoreNull, hparse, Except.map]
              rw [loop_readsDone]
              show ReadLoop.Step _ _ (ReadLoop.State.mk s.reading n _ (history (_ ++ [_])))
              rw [history_append]
              exact .drop data h
          | ok value =>
              simp only [wrapIgnoreNull, hparse, Except.map]
              have himage : parse deserialize data = some value := by
                rw [parse, hparse]
                rfl
              show ReadLoop.Step _ _ (ReadLoop.State.mk s.reading n
                ((Frame.push :: s.frames).countP Frame.isPush)
                (history (s.events ++ [.readResult (.message (some data))] ++
                  [.push (some value)])))
              rw [List.append_assoc, history_append, List.countP_cons_of_pos rfl]
              exact .give data value h himage

theorem loop_statusCompletes (completion : Completion ClientStatus) :
    (s.statusCompletes completion).loop = s.loop := by
  cases completion with
  | error err =>
      show (State.record (State.record { s with statusOutstanding := false } _) _).loop = s.loop
      rw [loop_record _ rfl, loop_record _ rfl]
      rfl
  | result status =>
      show (State.receiveStatus (State.record { s with statusOutstanding := false } _) _).loop = s.loop
      rw [receiveStatus, loop_emitStatusIfDone]
      exact loop_record { s with statusOutstanding := false } rfl

theorem loop_afterPush {frames : List Frame} (h : s.frames = .push :: frames) (more : Bool) :
    ReadLoop.Step (parse deserialize) s.loop ({ s with frames }.afterPush more).loop := by
  have hgiving : s.loop.giving = frames.countP Frame.isPush + 1 := by
    rw [loop, h, List.countP_cons_of_pos rfl]
  unfold afterPush
  split
  · unfold startBatch
    split
    · rw [loop_readError, loop_record _ rfl]
      exact .goOnFails hgiving
    · exact .goOn hgiving
  · exact .pause hgiving

end State

/-- **The stream is a loop that reads.** -/
theorem step_refines {s s' : State β} {a : Act} (h : step deserialize s a = some s') :
    ReadLoop.Step (parse deserialize) s.loop s'.loop := by
  cases step_effect h with
  | read => exact s.loop_read
  | readCompletes result _ hreads => exact s.loop_readCompletes hreads result
  | statusCompletes completion _ _ =>
      rw [s.loop_statusCompletes completion]
      exact .idle
  | pushReturns more hframes => exact s.loop_afterPush hframes more
  | @emitReturns status frames hframes =>
      rw [State.loop_record _ rfl]
      have hloop : State.loop { s with frames } = s.loop := by
        rw [State.loop, State.loop, hframes, List.countP_cons_of_neg Bool.false_ne_true]
      rw [hloop]
      exact .idle
  | @throws frame frames hframes =>
      cases frame with
      | push =>
          refine .goOnFails ?_
          rw [State.loop, hframes, List.countP_cons_of_pos rfl]
      | emitting status =>
          have hloop : State.loop { s with frames } = s.loop := by
            rw [State.loop, State.loop, hframes, List.countP_cons_of_neg Bool.false_ne_true]
          rw [hloop]
          exact .idle
  | releaseCall _ => exact .idle

theorem inv_step {s s' : State β} {a : Act} (hs : ReadLoop.Inv (parse deserialize) s.loop)
    (h : step deserialize s a = some s') : ReadLoop.Inv (parse deserialize) s'.loop :=
  hs.step (step_refines h)

theorem always_inv (acts : List Act) :
    Runs.Always (step deserialize) (fun s => ReadLoop.Inv (parse deserialize) s.loop) {} acts :=
  Runs.always_of_invariant (fun _ _ _ => inv_step) ReadLoop.inv_initial acts

/-! ### Both read loops -/

/-- **Both streams read one message after the other**: in every run at most one batch with
`RECV_MESSAGE` is outstanding, and what is pushed are the values of an initial part of the
messages, in their order, and nothing after a message that could not be parsed. -/
theorem readLoops {core : Core} (deserialize : Buffer → Except ε β)
    (deserializeRequest : Buffer → Except (ErrorObject core) β) :
    (∀ acts, Runs.Always (step deserialize)
      (fun s => s.reads ≤ 1 ∧ ReadLoop.InOrder (parse deserialize) (history s.events)) {} acts) ∧
    ∀ acts, Runs.Always (ServerReadStream.step deserializeRequest)
      (fun s => s.reads ≤ 1 ∧ ReadLoop.InOrder (ServerReadStream.parse deserializeRequest)
        (ServerReadStream.history s.events)) {} acts := by
  constructor
  · intro acts
    exact (always_inv acts).mono fun s hs => ⟨(Nat.le_add_right _ _).trans hs.atMostOne, hs.inOrder⟩
  · intro acts
    exact (ServerReadStream.always_inv acts).mono fun s hs =>
      ⟨(Nat.le_add_right _ _).trans hs.atMostOne, hs.inOrder⟩

end GrpcNode.NativeCore.ClientReadStream
