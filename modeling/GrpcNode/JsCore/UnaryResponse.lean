import GrpcNode.JsCore.CallEvents
import Mathlib.Data.List.Induction

/-!
# GrpcNode.JsCore.UnaryResponse

`handleUnaryResponse` of `client.ts`.

The handlers keep the last message that was deserialized, and a message is one too many if
there is a message already. A message that deserializes to `null` or `undefined` looks like no
message, and is not counted: `outcome` is what the handlers make of the messages. It differs
from "exactly one message" only for a message after nulls (`answered_iff`).
-/

namespace GrpcNode.JsCore

open GrpcNode.Js

/-- The arguments of a call of the user's callback. -/
inductive UnaryResult (ρ : Type)
  | value (value : Option ρ)
  | error (error : ServiceError)
  deriving DecidableEq

/-- The variables of `handleUnaryResponse`. -/
structure UnaryHandler (ρ : Type) where
  /-- `none` for `null` and for `undefined`, which no comparison tells apart -/
  responseMessage : Option ρ := none
  /-- The calls of `callback` -/
  calls : List (UnaryResult ρ) := []
  deriving DecidableEq

namespace UnaryHandler

variable {ε ρ : Type} (deserialize : Buffer → Except ε (Option ρ))

/-! ### The handlers -/

def onStatus (status : StatusObject) (handler : UnaryHandler ρ) : UnaryHandler ρ :=
  { handler with calls := handler.calls ++
      [if status.code = .ok then .value handler.responseMessage
        else .error (.ofStatus status)] }

def onData (data : Buffer) (s : Listened (UnaryHandler ρ)) : Listened (UnaryHandler ρ) :=
  let s :=
    if s.listener.responseMessage.isSome then
      s.cancelWithStatus onStatus .internal "Too many responses received"
    else s
  match deserialize data with
  | .ok value => { s with listener.responseMessage := value }
  | .error _ => s.cancelWithStatus onStatus .internal "Failed to parse server response"

def onEnd (s : Listened (UnaryHandler ρ)) : Listened (UnaryHandler ρ) :=
  if s.listener.responseMessage.isNone then
    s.cancelWithStatus onStatus .internal "Not enough responses received"
  else s

/-- `handleUnaryResponse` -/
def handleUnaryResponse : Listeners (UnaryHandler ρ) where
  onData := onData deserialize
  onEnd := onEnd
  onStatus := onStatus

/-- The call with its listener, before the first event. -/
def initial : Listened (UnaryHandler ρ) := { listener := {} }

/-! ### What is made of the messages -/

/-- No message so far, one, or something that the call fails for. -/
inductive Responses (ρ : Type)
  | missing
  | message (value : ρ)
  | failed

/-- One more message. -/
def Responses.next : Responses ρ → Except ε (Option ρ) → Responses ρ
  | .missing, .ok none => .missing
  | .missing, .ok (some value) => .message value
  | _, _ => .failed

/-- What the handlers make of the messages. -/
def outcome (received : List Buffer) : Responses ρ :=
  received.foldl (fun responses message => responses.next (deserialize message)) .missing

variable {deserialize} {received : List Buffer} {message : Buffer} {v : ρ}

@[simp] theorem outcome_append : outcome deserialize (received ++ [message]) =
    (outcome deserialize received).next (deserialize message) := by
  simp [outcome]

theorem outcome_eq_missing : outcome deserialize received = .missing ↔
    ∀ message ∈ received, deserialize message = .ok none := by
  induction received using List.reverseRecOn with
  | nil => simp [outcome]
  | append_singleton received message ih =>
      rw [outcome_append, List.forall_mem_append, List.forall_mem_singleton, ← ih]
      cases outcome deserialize received with
      | missing =>
          cases hvalue : deserialize message with
          | ok value => cases value <;> simp [Responses.next]
          | error e => simp [Responses.next]
      | message v => simp [Responses.next]
      | failed => simp [Responses.next]

/-- The handlers take the last message for the response if the others are nulls. -/
theorem outcome_eq_message : outcome deserialize received = .message v ↔
    ∃ nulls message, received = nulls ++ [message] ∧
      (∀ null ∈ nulls, deserialize null = .ok none) ∧ deserialize message = .ok (some v) := by
  constructor
  · intro h
    induction received using List.reverseRecOn with
    | nil => simp [outcome] at h
    | append_singleton nulls message _ =>
        refine ⟨nulls, message, rfl, ?_⟩
        rw [outcome_append] at h
        rw [← outcome_eq_missing]
        cases hbefore : outcome deserialize nulls with
        | missing =>
            cases hvalue : deserialize message with
            | ok value => cases value <;> simp_all [Responses.next]
            | error e => simp [hbefore, hvalue, Responses.next] at h
        | message v => simp [hbefore, Responses.next] at h
        | failed => simp [hbefore, Responses.next] at h
  · intro h
    obtain ⟨nulls, message, rfl, hnulls, hvalue⟩ := h
    rw [outcome_append, outcome_eq_missing.mpr hnulls, hvalue]
    rfl

/-! ### Runs -/

/-- What has been received will never be a response. -/
def Hopeless (deserialize : Buffer → Except ε (Option ρ)) (call : CallView) : Prop :=
  outcome deserialize call.received = .failed ∨
    (call.ended = true ∧ outcome deserialize call.received = .missing) ∨
    ∃ status, call.serverStatus = some status ∧ status.code ≠ .ok

/-- Where a call is on the way to its callback. -/
inductive Phase (deserialize : Buffer → Except ε (Option ρ)) (s : Listened (UnaryHandler ρ)) : Prop
  | waiting (hstatus : s.call.status = none) (hserver : s.call.serverStatus = none)
      (hcalls : s.listener.calls = [])
      (houtcome : outcome deserialize s.call.received =
        s.listener.responseMessage.elim .missing .message)
      (hended : s.call.ended = true → s.listener.responseMessage ≠ none)
  | failed {status : StatusObject} {error : ServiceError} (hstatus : s.call.status = some status)
      (hcalls : s.listener.calls = [.error error]) (hhopeless : Hopeless deserialize s.call)
  | answered {status : StatusObject} {value : ρ} (hstatus : s.call.status = some status)
      (hcalls : s.listener.calls = [.value (some value)])
      (houtcome : outcome deserialize s.call.received = .message value)
      (hended : s.call.ended = true) (hserver : s.call.serverStatus = some status)
      (hok : status.code = .ok)

variable {s s' : Listened (UnaryHandler ρ)} {event : CallEvent}

theorem initial_phase : Phase deserialize initial :=
  .waiting rfl rfl rfl rfl (by simp [initial])

/-- Canceling a call that waits calls the callback with an error. -/
theorem Phase.cancel {code : Status} {details : String} (hcode : code ≠ .ok)
    (hstatus : s.call.status = none) (hcalls : s.listener.calls = [])
    (hhopeless : Hopeless deserialize s.call) :
    Phase deserialize (s.cancelWithStatus onStatus code details) := by
  rw [Listened.cancelWithStatus, Listened.endCall_of_none hstatus]
  have hcall : (onStatus ⟨code, details, Metadata.new⟩ s.listener).calls =
      [.error (.ofStatus ⟨code, details, Metadata.new⟩)] := by simp [onStatus, hcalls, hcode]
  exact .failed rfl hcall hhopeless

theorem Hopeless.data (h : Hopeless deserialize s.call) (hended : s.call.ended = false)
    (message : Buffer) : Hopeless deserialize
      { s.call with received := s.call.received ++ [message] } := by
  rcases h with hfailed | ⟨hend, -⟩ | hserver
  · exact .inl (by simp [hfailed, Responses.next])
  · exact absurd (hend.symm.trans hended) (by simp)
  · exact .inr (.inr hserver)

/-- After the status, a message changes nothing that the user sees. -/
theorem Phase.data_failed {status : StatusObject} {error : ServiceError}
    (hstatus : s.call.status = some status) (hcalls : s.listener.calls = [.error error])
    (hhopeless : Hopeless deserialize s.call) : Phase deserialize (onData deserialize message s) := by
  have hcancel : ∀ code details, s.cancelWithStatus onStatus code details = s := by
    intro code details
    exact Listened.endCall_of_some hstatus
  unfold onData
  simp only [hcancel, ite_self]
  cases deserialize message with
  | ok value => exact .failed hstatus hcalls hhopeless
  | error e => exact .failed hstatus hcalls hhopeless

/-- A message while the callback waits. -/
theorem Phase.data {message : Buffer} (hstatus : s.call.status = none)
    (hserver : s.call.serverStatus = none) (hcalls : s.listener.calls = [])
    (houtcome : outcome deserialize s.call.received =
      (s.listener.responseMessage.elim .missing Responses.message).next (deserialize message))
    (hended : s.call.ended = false) : Phase deserialize (onData deserialize message s) := by
  cases hresponse : s.listener.responseMessage with
  | some v =>
      -- One too many. The call is over before the message is deserialized.
      rw [hresponse] at houtcome
      have herror : (onStatus ⟨.internal, "Too many responses received", Metadata.new⟩
          s.listener).calls =
            [.error ⟨"Too many responses received", .internal, Metadata.new⟩] := by
        simp [onStatus, hcalls, ServiceError.ofStatus]
      unfold onData
      simp only [hresponse, Option.isSome_some, if_true]
      rw [Listened.cancelWithStatus, Listened.endCall_of_none hstatus]
      cases deserialize message with
      | ok value => exact .failed rfl herror (.inl houtcome)
      | error e =>
          rw [Listened.cancelWithStatus, Listened.endCall_of_some rfl]
          exact .failed rfl herror (.inl houtcome)
  | none =>
      rw [hresponse] at houtcome
      unfold onData
      simp only [hresponse, Option.isSome_none, Bool.false_eq_true, if_false]
      cases hvalue : deserialize message with
      | ok value =>
          rw [hvalue] at houtcome
          refine .waiting hstatus hserver hcalls ?_ (fun h => absurd (h.symm.trans hended) (by simp))
          cases value <;> exact houtcome
      | error e =>
          rw [hvalue] at houtcome
          exact Phase.cancel (by simp) hstatus hcalls (.inl houtcome)

theorem Phase.ended (hstatus : s.call.status = none) (hserver : s.call.serverStatus = none)
    (hcalls : s.listener.calls = [])
    (houtcome : outcome deserialize s.call.received =
      s.listener.responseMessage.elim .missing .message)
    (hended : s.call.ended = true) : Phase deserialize (onEnd s) := by
  unfold onEnd
  cases hresponse : s.listener.responseMessage with
  | some v =>
      refine .waiting hstatus hserver hcalls houtcome fun _ => ?_
      exact Option.ne_none_iff_exists'.mpr ⟨v, hresponse⟩
  | none =>
      rw [hresponse] at houtcome
      exact Phase.cancel (by simp) hstatus hcalls (.inr (.inl ⟨hended, houtcome⟩))

/-- The end comes too late if there is a status. -/
theorem Phase.ended_failed {status : StatusObject} {error : ServiceError}
    (hstatus : s.call.status = some status) (hcalls : s.listener.calls = [.error error])
    (hhopeless : Hopeless deserialize s.call) : Phase deserialize (onEnd s) := by
  have hsame : onEnd s = s := by
    unfold onEnd
    rw [Listened.cancelWithStatus, Listened.endCall_of_some hstatus, ite_self]
  rw [hsame]
  exact .failed hstatus hcalls hhopeless

/-- The status that the call comes to by itself. -/
theorem Phase.status {status : StatusObject} (hstatus : s.call.status = none)
    (hserver : s.call.serverStatus = some status) (hcalls : s.listener.calls = [])
    (houtcome : outcome deserialize s.call.received =
      s.listener.responseMessage.elim .missing .message)
    (hended : s.call.ended = true → s.listener.responseMessage ≠ none)
    (hok : status.code = .ok → s.call.ended = true) :
    Phase deserialize (s.endCall onStatus status) := by
  rw [Listened.endCall_of_none hstatus]
  by_cases hcode : status.code = .ok
  · have hend := hok hcode
    obtain ⟨v, hv⟩ := Option.ne_none_iff_exists'.mp (hended hend)
    rw [hv] at houtcome
    have hcall : (onStatus status s.listener).calls = [.value (some v)] := by
      simp [onStatus, hcalls, hcode, hv]
    exact .answered rfl hcall houtcome hend hserver hcode
  · have hcall : (onStatus status s.listener).calls = [.error (.ofStatus status)] := by
      simp [onStatus, hcalls, hcode]
    exact .failed rfl hcall (.inr (.inr ⟨status, hserver, hcode⟩))

theorem Phase.status_failed {status old : StatusObject} {error : ServiceError}
    (hstatus : s.call.status = some old) (hcalls : s.listener.calls = [.error error])
    (hhopeless : Hopeless deserialize s.call) :
    Phase deserialize (s.endCall onStatus status) := by
  rw [Listened.endCall_of_some hstatus]
  exact .failed hstatus hcalls hhopeless

/-- **Every event leads from phase to phase.** -/
theorem phase_step (h : Phase deserialize s)
    (hstep : (handleUnaryResponse deserialize).step s event = some s') :
    Phase deserialize s' := by
  cases event with
  | data message =>
      obtain ⟨hended, rfl⟩ := Runs.when_eq_some.mp hstep
      cases h with
      | waiting hstatus hserver hcalls houtcome _ =>
          exact .data hstatus hserver hcalls (by rw [← houtcome]; exact outcome_append) hended
      | failed hstatus hcalls hhopeless =>
          exact .data_failed hstatus hcalls (hhopeless.data hended message)
      | answered _ _ _ hend => exact absurd (hend.symm.trans hended) (by simp)
  | «end» =>
      obtain ⟨hended, rfl⟩ := Runs.when_eq_some.mp hstep
      cases h with
      | waiting hstatus hserver hcalls houtcome _ =>
          exact .ended hstatus hserver hcalls houtcome rfl
      | failed hstatus hcalls hhopeless =>
          refine .ended_failed hstatus hcalls ?_
          rcases hhopeless with hfailed | ⟨hend, -⟩ | hserver
          · exact .inl hfailed
          · exact absurd (hend.symm.trans hended) (by simp)
          · exact .inr (.inr hserver)
      | answered _ _ _ hend => exact absurd (hend.symm.trans hended) (by simp)
  | status status =>
      obtain ⟨⟨hserver, hok⟩, rfl⟩ := Runs.when_eq_some.mp hstep
      cases h with
      | waiting hstatus _ hcalls houtcome hended =>
          exact .status hstatus rfl hcalls houtcome hended hok
      | failed hstatus hcalls hhopeless =>
          refine .status_failed hstatus hcalls ?_
          rcases hhopeless with hfailed | hmissing | ⟨old, hold, -⟩
          · exact .inl hfailed
          · exact .inr (.inl hmissing)
          · exact absurd (hold.symm.trans hserver) (by simp)
      | answered _ _ _ _ hold => exact absurd (hold.symm.trans hserver) (by simp)

/-! ### The callback -/

/-- The callback is called once if there is a status and never otherwise, and it gets a value if
and only if there is one message, which deserializes to that value, and the server's status is
`OK`. -/
structure Answered (deserialize : Buffer → Except ε (Option ρ))
    (s : Listened (UnaryHandler ρ)) : Prop where
  once : s.listener.calls.length = if s.call.status.isSome then 1 else 0
  value : ∀ x, .value x ∈ s.listener.calls ↔ ∃ message v, s.call.received = [message] ∧
    deserialize message = .ok (some v) ∧ (∃ status, s.call.serverStatus = some status ∧
      status.code = .ok) ∧ x = some v

/-- The server answers `OK`, and has sent a response after messages that deserialize to `null`
or `undefined`. -/
def NullsFirst (deserialize : Buffer → Except ε (Option ρ)) (call : CallView) : Prop :=
  (∃ nulls message v, nulls ≠ [] ∧ call.received = nulls ++ [message] ∧
    (∀ null ∈ nulls, deserialize null = .ok none) ∧ deserialize message = .ok (some v)) ∧
    ∃ status, call.serverStatus = some status ∧ status.code = .ok

/-- An `OK` answer with a response leaves some hope. -/
theorem Hopeless.not_message {call : CallView} (h : Hopeless deserialize call)
    (houtcome : outcome deserialize call.received = .message v)
    (hok : ∃ status, call.serverStatus = some status ∧ status.code = .ok) : False := by
  rcases h with hfailed | ⟨-, hmissing⟩ | ⟨status, hserver, hcode⟩
  · exact absurd (hfailed.symm.trans houtcome) (by simp)
  · exact absurd (hmissing.symm.trans houtcome) (by simp)
  · obtain ⟨status', hserver', hok⟩ := hok
    obtain rfl := Option.some.inj (hserver.symm.trans hserver')
    exact hcode hok

theorem outcome_singleton (h : deserialize message = .ok (some v)) :
    outcome deserialize [message] = .message v := by
  simp [outcome, h, Responses.next]

theorem Phase.answered_iff_counted (h : Phase deserialize s) :
    Answered deserialize s ↔ ¬ NullsFirst deserialize s.call := by
  cases h with
  | waiting hstatus hserver hcalls _ _ =>
      refine iff_of_true ⟨by simp [hcalls, hstatus], ?_⟩ ?_
      · simp [hcalls, hserver]
      · simp [NullsFirst, hserver]
  | failed hstatus hcalls hhopeless =>
      refine iff_of_true ⟨by simp [hcalls, hstatus], fun x => ?_⟩ ?_
      · refine iff_of_false (by simp [hcalls]) ?_
        intro hx
        obtain ⟨message, v, hreceived, hvalue, hok, -⟩ := hx
        exact hhopeless.not_message (hreceived ▸ outcome_singleton hvalue) hok
      · intro hnulls
        obtain ⟨⟨nulls, message, v, -, hreceived⟩, hok⟩ := hnulls
        exact hhopeless.not_message (outcome_eq_message.mpr ⟨nulls, message, hreceived⟩) hok
  | @answered status v hstatus hcalls houtcome hended hserver hok =>
      obtain ⟨nulls, message, hreceived, hnulls, hvalue⟩ := outcome_eq_message.mp houtcome
      by_cases hnil : nulls = []
      · refine iff_of_true ⟨by simp [hcalls, hstatus], fun x => ?_⟩ ?_
        · simp [hcalls, hreceived, hnil, hvalue, hserver, hok]
        · intro h
          obtain ⟨⟨others, message', _, hne, hothers, -⟩, -⟩ := h
          rw [hreceived, hnil] at hothers
          exact hne (List.append_inj_left' hothers rfl).symm
      · refine iff_of_false ?_ ?_
        · intro h
          obtain ⟨message', _, hone, -⟩ := (h.value (some v)).mp (by simp [hcalls])
          rw [hreceived] at hone
          exact hnil (List.append_eq_singleton_iff.mp hone |>.elim And.left fun h => absurd h.2 (by simp))
        · intro h
          exact h ⟨⟨nulls, message, v, hnil, hreceived, hnulls, hvalue⟩, status, hserver, hok⟩

/-- **When a unary call is answered right.** In every state of a call, the callback has been
called as it should be if and only if it is not the case that an `OK` answer has had nulls
before its message. -/
theorem answered_iff (deserialize : Buffer → Except ε (Option ρ)) (events : List CallEvent) :
    Runs.Always (handleUnaryResponse deserialize).step
      (fun s => Answered deserialize s ↔ ¬ NullsFirst deserialize s.call) initial events :=
  (Runs.always_of_invariant (fun _ _ _ h hstep => phase_step h hstep) initial_phase events).mono
    fun _ h => h.answered_iff_counted

/-- A deserializer that makes `null` of an empty message. -/
def emptyIsNull (message : Buffer) : Except JsError (Option Buffer) :=
  .ok (if message = [] then none else some message)

/-- Of two messages, a null one is not counted. -/
theorem null_not_counted :
    ¬ Runs.Always (handleUnaryResponse emptyIsNull).step (Answered emptyIsNull) initial
      [.data [], .data [1], .end, .status ⟨.ok, "", Metadata.new⟩] := by
  intro h
  have hanswered : Answered emptyIsNull _ := Runs.Always.last h rfl
  obtain ⟨message, v, hreceived, -⟩ := (hanswered.value (some [1])).mp (by decide)
  exact absurd (show [[], [1]] = [message] from hreceived) (by simp)

end UnaryHandler

end GrpcNode.JsCore
