import GrpcNode.Lib.ReadLoop
import GrpcNode.Lib.Runs
import GrpcNode.NativeCore.ServerStatus

/-!
# GrpcNode.NativeCore.ServerReadStream

What `setUpReadable` makes of a stream in `server.js`, and its `_read`.

User code runs inside of `push`, so the machine has a stack: a frame is a call of `push` that
has not returned, and `_read` may be called at any time. The addon calls back when nothing else
runs, or at once, if the call has been released. `step_refines` says that the stream is a
`ReadLoop`.
-/

namespace GrpcNode.NativeCore

open GrpcNode.Js
open GrpcNode.JsCore (Status)

/-- `common.wrapIgnoreNull(func)` -/
def wrapIgnoreNull {α ε β : Type*} (func : α → Except ε β) : Option α → Except ε (Option β)
  | none => .ok none
  | some arg => (func arg).map some

/-- What comes of a batch with `RECV_MESSAGE`: an error, or `event.read`. -/
inductive ReadResult
  | error
  | message (data : Option Buffer)
  deriving DecidableEq

namespace ServerReadStream

/-- What happens to a stream, and what it does. -/
inductive Event (core : Core) (β : Type*)
  | readResult (result : ReadResult)
  | push (value : Option β)
  | error (e : ErrorObject core)

/-- A call of `push` in `readCallback`. -/
structure Frame where
  /-- `data !== null` -/
  hasData : Bool

/-- A server read stream, with the frames of `push` that have not returned. -/
structure State (core : Core) (β : Type*) where
  finished : Bool := false
  reading : Bool := false
  /-- The addon has released the call. -/
  callReleased : Bool := false
  /-- The batches with `RECV_MESSAGE` that have not completed. -/
  reads : Nat := 0
  frames : List Frame := []
  events : List (Event core β) := []

/-- What can happen to a server read stream. -/
inductive Act
  | read
  | readCompletes (result : ReadResult)
  | pushReturns (more : Bool)
  /-- `push` throws what a listener throws. -/
  | pushThrows
  | terminate
  | releaseCall

variable {core : Core} {β : Type*} (deserialize : Buffer → Except (ErrorObject core) β)

namespace State

variable (s : State core β)

/-- An event is added at the end. -/
def record (e : Event core β) : State core β := { s with events := s.events ++ [e] }

/-- `stream.terminate()` -/
def terminate : State core β := { s with finished := true }

/-- `self.call.startBatch(read_batch, readCallback)`, which calls back with an error if the call
has been released. -/
def startBatch : State core β :=
  if s.callReleased then (s.record (.readResult .error)).terminate
  else { s with reads := s.reads + 1 }

/-- `readCallback(err, event)`, up to the call of `push` -/
def readCallback : ReadResult → State core β
  | .error => s.terminate
  | .message data =>
      if s.finished then s.record (.push none)
      else match wrapIgnoreNull deserialize data with
        | .error e => s.record (.error e.internal)
        | .ok deserialized =>
            { s.record (.push deserialized) with frames := ⟨data.isSome⟩ :: s.frames }

/-- The rest of `readCallback`, when `push` has returned. -/
def afterPush (frame : Frame) (more : Bool) : State core β :=
  if more && frame.hasData then s.startBatch else { s with reading := false }

/-- `_read(size)` -/
def read : State core β :=
  if s.finished then s.record (.push none)
  else if !s.reading then { s with reading := true }.startBatch
  else s

/-- A batch completes. -/
def readCompletes (result : ReadResult) : State core β :=
  ({ s with reads := s.reads - 1 }.record (.readResult result)).readCallback deserialize result

end State

/-- One step. A read completes only while one is outstanding and no `push` is running. -/
def step (s : State core β) : Act → Option (State core β)
  | .read => some s.read
  | .readCompletes result =>
      Runs.when (s.frames = [] ∧ 0 < s.reads) (s.readCompletes deserialize result)
  | .pushReturns more =>
      match s.frames with
      | frame :: frames => some ({ s with frames }.afterPush frame more)
      | [] => none
  | .pushThrows =>
      match s.frames with
      | _ :: frames => some { s with frames }
      | [] => none
  | .terminate => some s.terminate
  | .releaseCall => Runs.when (s.reads = 0) { s with callReleased := true }

/-- The steps, each with what makes it possible. -/
inductive Effect (s : State core β) : Act → State core β → Prop
  | read : Effect s .read s.read
  | readCompletes {n : Nat} (result : ReadResult) : s.frames = [] → s.reads = n + 1 →
      Effect s (.readCompletes result) (s.readCompletes deserialize result)
  | pushReturns {frame : Frame} {frames : List Frame} (more : Bool) : s.frames = frame :: frames →
      Effect s (.pushReturns more) ({ s with frames }.afterPush frame more)
  | pushThrows {frame : Frame} {frames : List Frame} : s.frames = frame :: frames →
      Effect s .pushThrows { s with frames }
  | terminate : Effect s .terminate s.terminate
  | releaseCall : s.reads = 0 → Effect s .releaseCall { s with callReleased := true }

/-- Every step has the effect that its action is described by. By cases on the action. -/
theorem step_effect {deserialize : Buffer → Except (ErrorObject core) β} {s s' : State core β}
    {a : Act} (h : step deserialize s a = some s') : Effect deserialize s a s' := by
  cases a with
  | read =>
      obtain rfl := Option.some.inj h
      exact .read
  | readCompletes result =>
      obtain ⟨⟨hframes, hreads⟩, rfl⟩ := Runs.when_eq_some.mp h
      obtain ⟨n, hn⟩ := Nat.exists_eq_add_one_of_ne_zero (Nat.ne_of_gt hreads)
      exact .readCompletes result hframes hn
  | pushReturns more =>
      simp only [step] at h
      split at h
      · rename_i hframes
        obtain rfl := Option.some.inj h
        exact .pushReturns more hframes
      · exact absurd h nofun
  | pushThrows =>
      simp only [step] at h
      split at h
      · rename_i hframes
        obtain rfl := Option.some.inj h
        exact .pushThrows hframes
      · exact absurd h nofun
  | terminate =>
      obtain rfl := Option.some.inj h
      exact .terminate
  | releaseCall =>
      obtain ⟨hreads, rfl⟩ := Runs.when_eq_some.mp h
      exact .releaseCall hreads

/-- The error that a step emits: that of a message that cannot be parsed. -/
def emits (s : State core β) : Act → Option (ErrorObject core)
  | .readCompletes (.message (some data)) =>
      match s.finished, deserialize data with
      | false, .error e => some e.internal
      | _, _ => none
  | _ => none

/-! ### The loop -/

/-- The messages and what is pushed of them. -/
def history (events : List (Event core β)) : List (ReadLoop.Event Buffer β) :=
  events.filterMap fun e => match e with
    | .readResult (.message (some data)) => some (.got data)
    | .push (some value) => some (.gave value)
    | _ => none

/-- The stream as a loop that reads. -/
def State.loop (s : State core β) : ReadLoop.State Buffer β where
  reading := s.reading
  outstanding := s.reads
  giving := s.frames.length
  history := history s.events

/-- The value of a message, if it can be parsed. -/
def parse (data : Buffer) : Option β := (deserialize data).toOption

/-- The history of the loop follows the events. -/
theorem history_append (events more : List (Event core β)) :
    history (events ++ more) = history events ++ history more := List.filterMap_append

/-- Events that are not about a message leave the loop alone. -/
theorem State.loop_record {s : State core β} {e : Event core β} (h : history [e] = []) :
    (s.record e).loop = s.loop := by
  have hhistory : history (s.events ++ [e]) = history s.events := by
    rw [history_append, h, List.append_nil]
  exact congrArg (ReadLoop.State.mk s.reading s.reads s.frames.length) hhistory

variable {deserialize}

/-- The loop is started: by `_read`, if the stream is not reading. -/
theorem State.loop_read (s : State core β) :
    ReadLoop.Step (parse deserialize) s.loop s.read.loop := by
  unfold State.read
  split
  · rw [State.loop_record rfl]
    exact .idle
  · by_cases h : s.reading = false
    · rw [h, Bool.not_false, if_pos rfl, State.startBatch]
      split
      · show ReadLoop.Step _ _ (State.record { s with reading := true } (.readResult .error)).loop
        rw [State.loop_record rfl]
        exact .startFails h
      · exact .start h
    · rw [eq_true_of_ne_false h]
      exact .idle

/-- The completion of a read is a step of the loop. -/
theorem State.loop_readCompletes {s : State core β} {n : Nat} (h : s.reads = n + 1)
    (result : ReadResult) :
    ReadLoop.Step (parse deserialize) s.loop (s.readCompletes deserialize result).loop := by
  have hreads : s.reads - 1 = n := by omega
  -- A message of which nothing is pushed.
  have hdrop : ∀ data, ReadLoop.Step (parse deserialize) s.loop
      (State.record { s with reads := n } (.readResult (.message (some data)))).loop := by
    intro data
    show ReadLoop.Step _ _ (ReadLoop.State.mk s.reading n s.frames.length (history (_ ++ [_])))
    rw [history_append]
    exact .drop data h
  rw [State.readCompletes, hreads]
  cases result with
  | error =>
      show ReadLoop.Step _ _ (State.record { s with reads := n } _).loop
      rw [State.loop_record rfl]
      exact .fail h
  | message data =>
      simp only [State.readCallback]
      split
      · rw [State.loop_record rfl]
        cases data with
        | none =>
            rw [State.loop_record rfl]
            exact .fail h
        | some data => exact hdrop data
      · cases data with
        | none =>
            have hhistory : history (s.events ++ [.readResult (.message none)] ++ [.push none]) =
                history s.events := by
              rw [List.append_assoc, history_append]
              exact List.append_nil _
            show ReadLoop.Step _ _ (ReadLoop.State.mk s.reading n (s.frames.length + 1)
              (history (s.events ++ [.readResult (.message none)] ++ [.push none])))
            rw [hhistory]
            exact .giveEnd h
        | some data =>
            cases hparse : deserialize data with
            | error e =>
                simp only [wrapIgnoreNull, hparse, Except.map]
                rw [State.loop_record rfl]
                exact hdrop data
            | ok value =>
                simp only [wrapIgnoreNull, hparse, Except.map]
                have himage : parse deserialize data = some value := by
                  rw [parse, hparse]
                  rfl
                show ReadLoop.Step _ _ (ReadLoop.State.mk s.reading n (s.frames.length + 1)
                  (history (s.events ++ [.readResult (.message (some data))] ++
                    [.push (some value)])))
                rw [List.append_assoc, history_append]
                exact .give data value h himage

/-- What follows a `push` is a step of the loop. -/
theorem State.loop_afterPush {s : State core β} {frame : Frame} {frames : List Frame}
    (h : s.frames = frame :: frames) (more : Bool) :
    ReadLoop.Step (parse deserialize) s.loop ({ s with frames }.afterPush frame more).loop := by
  have hgiving : s.loop.giving = frames.length + 1 := congrArg List.length h
  unfold State.afterPush
  split
  · unfold State.startBatch
    split
    · show ReadLoop.Step _ _ (State.record { s with frames } (.readResult .error)).loop
      rw [State.loop_record rfl]
      exact .goOnFails hgiving
    · exact .goOn hgiving
  · exact .pause hgiving

/-- **The stream is a loop that reads.** -/
theorem step_refines {s s' : State core β} {a : Act} (h : step deserialize s a = some s') :
    ReadLoop.Step (parse deserialize) s.loop s'.loop := by
  cases step_effect h with
  | read => exact s.loop_read
  | readCompletes result _ hreads => exact State.loop_readCompletes hreads result
  | pushReturns more hframes => exact State.loop_afterPush hframes more
  | pushThrows hframes => exact .goOnFails (congrArg List.length hframes)
  | terminate => exact .idle
  | releaseCall _ => exact .idle

/-- The errors that have been emitted. -/
def errors (events : List (Event core β)) : List (ErrorObject core) :=
  events.filterMap fun e => match e with
    | .error e => some e
    | _ => none

/-- The errors follow the events. -/
theorem State.errors_record (s : State core β) (e : Event core β) :
    errors (s.record e).events = errors s.events ++ errors [e] := List.filterMap_append

/-- A read that is started emits no error. -/
theorem State.errors_startBatch (s : State core β) : errors s.startBatch.events = errors s.events := by
  unfold State.startBatch
  split
  · exact (s.errors_record (.readResult .error)).trans (List.append_nil _)
  · rfl

/-- A read that completes emits at most the error of its message. -/
theorem State.errors_readCompletes (s : State core β) (result : ReadResult) :
    errors (s.readCompletes deserialize result).events =
      errors s.events ++ (emits deserialize s (.readCompletes result)).toList := by
  have hresult : errors (State.record { s with reads := s.reads - 1 } (.readResult result)).events =
      errors s.events := (State.errors_record _ _).trans (List.append_nil _)
  cases result with
  | error => exact hresult.trans (List.append_nil _).symm
  | message data =>
      simp only [State.readCompletes, State.readCallback]
      split
      · rename_i hfinished
        replace hfinished : s.finished = true := hfinished
        have hsilent : emits deserialize s (.readCompletes (.message data)) = none := by
          cases data <;> simp [emits, hfinished]
        rw [State.errors_record, hresult, hsilent]
        rfl
      · rename_i hgoing
        replace hgoing : s.finished = false := eq_false_of_ne_true hgoing
        cases data with
        | none => exact (State.errors_record _ (.push none)).trans (by rw [hresult]; rfl)
        | some data =>
            cases hparse : deserialize data with
            | error e =>
                have hemits : emits deserialize s (.readCompletes (.message (some data))) =
                    some e.internal := by simp only [emits, hgoing, hparse]
                simp only [wrapIgnoreNull, hparse, Except.map]
                rw [State.errors_record, hresult, hemits]
                rfl
            | ok value =>
                have hemits : emits deserialize s (.readCompletes (.message (some data))) = none := by
                  simp only [emits, hgoing, hparse]
                simp only [wrapIgnoreNull, hparse, Except.map]
                rw [hemits, ← hresult]
                exact State.errors_record _ (.push (some value))

/-- `emits` tells which error. -/
theorem step_errors {s s' : State core β} {a : Act} (h : step deserialize s a = some s') :
    errors s'.events = errors s.events ++ (emits deserialize s a).toList := by
  have silent : ∀ {t : State core β}, errors t.events = errors s.events →
      errors t.events = errors s.events ++ [] := fun hsame => hsame.trans (List.append_nil _).symm
  cases step_effect h with
  | read =>
      refine silent ?_
      unfold State.read
      split
      · exact (s.errors_record (.push none)).trans (List.append_nil _)
      · split
        · exact State.errors_startBatch { s with reading := true }
        · rfl
  | readCompletes result _ _ => exact s.errors_readCompletes result
  | @pushReturns frame frames more _ =>
      refine silent ?_
      unfold State.afterPush
      split
      · exact State.errors_startBatch { s with frames }
      · rfl
  | pushThrows _ => exact silent rfl
  | terminate => exact silent rfl
  | releaseCall _ => exact silent rfl

/-- One step preserves the invariant of the loop. -/
theorem inv_step {s s' : State core β} {a : Act} (hs : ReadLoop.Inv (parse deserialize) s.loop)
    (h : step deserialize s a = some s') : ReadLoop.Inv (parse deserialize) s'.loop :=
  hs.step (step_refines h)

/-- The invariant of the loop holds in every state of a run. -/
theorem always_inv (acts : List Act) :
    Runs.Always (step deserialize) (fun s => ReadLoop.Inv (parse deserialize) s.loop) {} acts :=
  Runs.always_of_invariant (fun _ _ _ => inv_step) ReadLoop.inv_initial acts

end ServerReadStream

end GrpcNode.NativeCore
