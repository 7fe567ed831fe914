import GrpcNode.Lib.Once
import GrpcNode.Lib.Runs
import GrpcNode.NativeCore.Batch

/-!
# GrpcNode.NativeCore.CallCredentials

Call credentials from a metadata generator: `createFromMetadataGenerator` of `credentials.js`, and
the plugin behind it in `call_credentials.cc`.

The core asks for metadata, and waits for its `cb`. The request goes through a queue to the thread
of Node, where the generator is called, once for each request. What the generator answers goes
back through two functions that can throw; and nothing counts the answers. So the core hears from
each request once if the first answer is one that gets through, and no other does
(`completes_iff`).
-/

namespace GrpcNode.NativeCore.CallCredentials

open GrpcNode.Js

variable {core : Core}

/-! ### The way of an answer -/

/-- An error that a generator reports, as far as it is read. -/
structure ErrorValue where
  /-- `error.message` -/
  message : JsValue
  /-- `error.code`, if it is a property of its own. -/
  code : Option JsValue := none
  /-- Whether it has the method `hasOwnProperty`, as all objects that inherit from
  `Object.prototype`. -/
  inherits : Bool := true

/-- What a generator passes as `metadata`. -/
inductive MetadataArgument (core : Core)
  | undefined
  | null
  | metadata (m : Metadata core)

/-- `metadata._getCoreRepresentation()` -/
def MetadataArgument.getCoreRepresentation : MetadataArgument core → Except JsError JsValue
  | undefined => .error (.typeError "Cannot read property '_getCoreRepresentation' of undefined")
  | null => .error (.typeError "Cannot read property '_getCoreRepresentation' of null")
  | metadata m => .ok m.getCoreRepresentation

/-- The arguments of the core's `cb`. -/
structure Completion where
  metadata : MetadataArray
  code : Nat
  /-- The bytes of a C string. -/
  details : Buffer

/-- `PluginCallback`, up to its call of `cb`. The fourth argument is the object that
`SendPluginCallback` has made. -/
def pluginCallback (core : Core) (code details metadata : JsValue) : Except JsError Completion :=
  match code.uint32? with
  | none => .error (.typeError "The callback's first argument must be a status code")
  | some code =>
      match details.string? with
      | none => .error (.typeError "The callback's second argument must be a string")
      | some details =>
          if !metadata.isObject then
            .error (.typeError "The callback's third argument must be an object")
          else
            match createMetadataArray core metadata with
            | none => .error (.error "Failed to parse metadata")
            | some array => .ok ⟨array, code, (toUtf8 details).takeWhile fun b => b ≠ 0⟩

/-- `constants.status.OK` -/
def statusOk : JsValue := .number (.finite 0)

/-- `constants.status.UNAUTHENTICATED` -/
def statusUnauthenticated : JsValue := .number (.finite 16)

/-- The status code for an error. -/
def ErrorValue.statusCode (error : ErrorValue) : Except JsError JsValue :=
  if error.inherits then
    match error.code with
    | some code => .ok (if code.isFinite then code else statusUnauthenticated)
    | none => .ok statusUnauthenticated
  else .error (.typeError "error.hasOwnProperty is not a function")

/-- The function that `createFromMetadataGenerator` passes to the generator. The `error` is
`none` for a value that is not truthy. -/
def generatorCallback (error : Option ErrorValue) (metadata : MetadataArgument core) :
    Except JsError Completion :=
  match error with
  | some error => do
      let code ← error.statusCode
      let metadata := match metadata with
        | .undefined | .null => MetadataArgument.metadata .new
        | .metadata m => .metadata m
      pluginCallback core code error.message (← metadata.getCoreRepresentation)
  | none => do
      pluginCallback core statusOk (.string "") (← metadata.getCoreRepresentation)

/-! ### The requests -/

/-- A call of `cb`, and whether the generator has reported an error with it. -/
structure Invocation where
  request : Nat
  reported : Bool
  completion : Completion

/-- The plugin, and what has come of it. A request is told by its number. -/
structure State where
  /-- How often `plugin_get_metadata` has been called. -/
  requests : Nat := 0
  /-- `pending_callbacks` -/
  pending : List Nat := []
  /-- The queue that `SendPluginCallback` has taken over. -/
  callbacks : List Nat := []
  /-- The requests that the generator has been called for. -/
  started : List Nat := []
  /-- The answers, by their requests. -/
  answers : List Nat := []
  invocations : List Invocation := []
  thrown : List JsError := []

/-- What can happen. -/
inductive Act (core : Core)
  | pluginGetMetadata
  /-- `SendPluginCallback` takes the queue over, -/
  | sendPluginCallback
  /-- and calls the generator for the next request in it. -/
  | callGenerator
  /-- The generator answers: it calls the function that it has been passed for a request. -/
  | answer (request : Nat) (error : Option ErrorValue) (metadata : MetadataArgument core)

/-- The generator's answer gets to `cb`, or it throws. -/
def State.answer (s : State) (request : Nat) (error : Option ErrorValue)
    (metadata : MetadataArgument core) : State :=
  let s := { s with answers := s.answers ++ [request] }
  match generatorCallback error metadata with
  | .ok completion =>
      { s with invocations := s.invocations ++ [⟨request, error.isSome, completion⟩] }
  | .error e => { s with thrown := s.thrown ++ [e] }

/-- One step; `none` if it is not possible. -/
def step (s : State) : Act core → Option State
  | .pluginGetMetadata =>
      some { s with requests := s.requests + 1, pending := s.pending ++ [s.requests] }
  | .sendPluginCallback =>
      if s.callbacks = [] then some { s with pending := [], callbacks := s.pending } else none
  | .callGenerator =>
      match s.callbacks with
      | [] => none
      | request :: callbacks =>
          some { s with callbacks := callbacks, started := s.started ++ [request] }
  | .answer request error metadata =>
      if request ∈ s.started then some (s.answer request error metadata) else none

/-- How often the `cb` of a request has been called. -/
def State.completed (s : State) (request : Nat) : Nat :=
  (s.invocations.map Invocation.request).count request

/-- The generator runs once for each request; `cb` is called at most once for it, and once if the
generator has answered once; and never with `OK` for an error. -/
structure State.Completes (s : State) : Prop where
  started (request : Nat) : s.started.count request ≤ 1
  atMostOnce (request : Nat) : s.completed request ≤ 1
  once (request : Nat) : s.answers.count request = 1 → s.completed request = 1
  closed : ∀ invocation ∈ s.invocations,
    invocation.reported = true → invocation.completion.code ≠ 0

/-! ### Which answers get through -/

/-- The answer gets to `cb`: there is metadata if there is no error, and an error has a message
that is a string, and a code that is a uint32 if it is a finite number. -/
def Accepted (error : Option ErrorValue) (metadata : MetadataArgument core) : Prop :=
  match error with
  | none => ∃ m, metadata = .metadata m
  | some error => error.inherits = true ∧ (∃ s, error.message = .string s) ∧
      ∀ code, error.code = some code → code.isFinite = true → ∃ n, code.uint32? = some n

/-- And it is a proper one: the code of an error is not that of `OK`. -/
def Proper (error : Option ErrorValue) (metadata : MetadataArgument core) : Prop :=
  Accepted error metadata ∧
    ∀ e, error = some e → ∀ code, e.code = some code → code.uint32? ≠ some 0

theorem statusOk_uint32? : statusOk.uint32? = some 0 := by decide

theorem statusUnauthenticated_uint32? : statusUnauthenticated.uint32? = some 16 := by decide

/-- What is taken as a code is a finite number. -/
theorem isFinite_of_uint32? {code : JsValue} {n : Nat} (h : code.uint32? = some n) :
    code.isFinite = true := by
  cases code with
  | number x => cases x <;> first | rfl | exact absurd h nofun
  | undefined | null | boolean _ | string _ | symbol _ | function | buffer _ _ | array _
  | object _ => exact absurd h nofun

/-- A `Metadata` object is an object and can be parsed, so the other two arguments decide. -/
theorem pluginCallback_iff {code details : JsValue} {m : Metadata core} {n : Nat} :
    (∃ c, pluginCallback core code details m.getCoreRepresentation = .ok c ∧ c.code = n) ↔
      code.uint32? = some n ∧ ∃ s, details = .string s := by
  obtain ⟨array, harray⟩ := createMetadataArray_coreRepresentation m
  have hobject : (!m.getCoreRepresentation.isObject) = false := rfl
  unfold pluginCallback
  cases hcode : code.uint32? with
  | none => simp
  | some k =>
      cases hdetails : details.string? with
      | none =>
          have hnot : ∀ s, details ≠ .string s := fun s hs => by
            rw [hs] at hdetails
            exact absurd hdetails nofun
          simp [hnot]
      | some s =>
          obtain rfl := JsValue.string?_eq_some_iff.mp hdetails
          simp [hobject, harray]

/-- The code that is passed on for an error. -/
def ErrorValue.passedCode (error : ErrorValue) : JsValue :=
  (error.code.filter JsValue.isFinite).getD statusUnauthenticated

/-- An error with the method `hasOwnProperty` is asked for its own code. -/
theorem ErrorValue.statusCode_eq {error : ErrorValue} (h : error.inherits = true) :
    error.statusCode = .ok error.passedCode := by
  rw [statusCode, if_pos h, passedCode]
  cases error.code with
  | none => rfl
  | some code => cases hfinite : code.isFinite <;> simp [Option.filter_some, hfinite]

/-- The code that is passed on is taken exactly if the one of the error is, where it is finite. -/
theorem ErrorValue.passedCode_accepted_iff {error : ErrorValue} :
    (∃ n, error.passedCode.uint32? = some n) ↔
      ∀ code, error.code = some code → code.isFinite = true → ∃ n, code.uint32? = some n := by
  rw [passedCode]
  cases error.code with
  | none => simp [statusUnauthenticated_uint32?]
  | some code =>
      cases hfinite : code.isFinite <;>
        simp [Option.filter_some, hfinite, statusUnauthenticated_uint32?]

/-- The code that is passed on is OK only if the one of the error is. -/
theorem ErrorValue.passedCode_ne_ok_iff {error : ErrorValue} :
    error.passedCode.uint32? ≠ some 0 ↔
      ∀ code, error.code = some code → code.uint32? ≠ some 0 := by
  rw [passedCode]
  cases error.code with
  | none => simp [statusUnauthenticated_uint32?]
  | some code =>
      cases hfinite : code.isFinite with
      | true => simp [Option.filter_some, hfinite]
      | false =>
          have hne : code.uint32? ≠ some 0 := fun h =>
            Bool.false_ne_true (hfinite.symm.trans (isFinite_of_uint32? h))
          simpa [Option.filter_some, hfinite, statusUnauthenticated_uint32?] using hne

/-- The status that an error comes to `cb` with. -/
theorem generatorCallback_some_iff {e : ErrorValue} {metadata : MetadataArgument core} {n : Nat} :
    (∃ c, generatorCallback (some e) metadata = .ok c ∧ c.code = n) ↔
      e.inherits = true ∧ (∃ s, e.message = .string s) ∧ e.passedCode.uint32? = some n := by
  have hmetadata : ∃ m : Metadata core, generatorCallback (some e) metadata =
      e.statusCode.bind fun code => pluginCallback core code e.message m.getCoreRepresentation := by
    cases metadata with
    | undefined | null => exact ⟨.new, rfl⟩
    | metadata m => exact ⟨m, rfl⟩
  obtain ⟨m, hm⟩ := hmetadata
  rw [hm]
  cases hinherits : e.inherits with
  | false => simp [ErrorValue.statusCode, hinherits, Except.bind]
  | true =>
      rw [ErrorValue.statusCode_eq hinherits, Except.bind, pluginCallback_iff]
      exact ⟨fun ⟨hcode, hs⟩ => ⟨rfl, hs, hcode⟩, fun ⟨_, hs, hcode⟩ => ⟨hcode, hs⟩⟩

/-- Without an error the callback goes through exactly if it is given metadata. -/
theorem generatorCallback_none_iff {metadata : MetadataArgument core} :
    (∃ c, generatorCallback none metadata = .ok c) ↔ ∃ m, metadata = .metadata m := by
  cases metadata with
  | undefined | null =>
      simp [generatorCallback, MetadataArgument.getCoreRepresentation, bind, Except.bind]
  | metadata m =>
      have h : ∃ c, pluginCallback core statusOk (.string "") m.getCoreRepresentation = .ok c ∧
          c.code = 0 := pluginCallback_iff.mpr ⟨statusOk_uint32?, "", rfl⟩
      obtain ⟨c, hc, -⟩ := h
      exact ⟨fun _ => ⟨m, rfl⟩, fun _ => ⟨c, hc⟩⟩

/-- `Accepted` says when the callback goes through. -/
theorem accepted_iff {error : Option ErrorValue} {metadata : MetadataArgument core} :
    (∃ c, generatorCallback error metadata = .ok c) ↔ Accepted error metadata := by
  cases error with
  | none => exact generatorCallback_none_iff
  | some e =>
      have hcodes : (∃ c, generatorCallback (some e) metadata = .ok c) ↔
          ∃ n c, generatorCallback (some e) metadata = .ok c ∧ c.code = n :=
        ⟨fun ⟨c, hc⟩ => ⟨_, c, hc, rfl⟩, fun ⟨_, c, hc, _⟩ => ⟨c, hc⟩⟩
      rw [hcodes]
      simp only [generatorCallback_some_iff, exists_and_left, Accepted,
        ErrorValue.passedCode_accepted_iff]

/-- Of the answers that get to `cb`, the proper ones do not pass an error off as a success. -/
theorem proper_iff {error : Option ErrorValue} {metadata : MetadataArgument core} {c : Completion}
    (h : generatorCallback error metadata = .ok c) :
    (error.isSome = true → c.code ≠ 0) ↔ Proper error metadata := by
  rw [Proper, and_iff_right (accepted_iff.mp ⟨c, h⟩)]
  cases error with
  | none => simp
  | some e =>
      obtain ⟨-, -, hcode⟩ := generatorCallback_some_iff.mp ⟨c, h, rfl⟩
      have hne : c.code ≠ 0 ↔ e.passedCode.uint32? ≠ some 0 := by
        rw [hcode, Ne, Ne, Option.some.injEq]
      simp only [Option.isSome_some, forall_const, hne, ErrorValue.passedCode_ne_ok_iff,
        Option.some.injEq, forall_eq']

/-! ### The generator is called once -/

variable {s s' : State} {n : Nat} {error : Option ErrorValue} {metadata : MetadataArgument core}

/-- The plugin as callbacks that are called once: the requests, in the order in which the generator
is called for them. -/
def State.once (s : State) : Once.State where
  next := s.requests
  waiting := s.callbacks ++ s.pending
  called := s.started
  due := s.started

/-- An answer that goes through is passed on. -/
theorem State.answer_of_ok {c : Completion} (h : generatorCallback error metadata = .ok c) :
    s.answer n error metadata = { s with
      answers := s.answers ++ [n], invocations := s.invocations ++ [⟨n, error.isSome, c⟩] } := by
  rw [answer, h]

/-- An answer that throws is not passed on. -/
theorem State.answer_of_error {e : JsError} (h : generatorCallback error metadata = .error e) :
    s.answer n error metadata = { s with
      answers := s.answers ++ [n], thrown := s.thrown ++ [e] } := by
  rw [answer, h]

/-- An answer is no request. -/
theorem State.once_answer : (s.answer n error metadata).once = s.once := by
  cases h : generatorCallback error metadata with
  | ok c => rw [answer_of_ok h]; rfl
  | error e => rw [answer_of_error h]; rfl

/-- A step is one of the requests and their answers, which come at most once each. -/
theorem once_step {a : Act core} (h : step s a = some s') : Once.Step s.once s'.once := by
  cases a with
  | pluginGetMetadata =>
      obtain rfl := Option.some.inj h
      rw [State.once, State.once, ← List.append_assoc]
      exact .wait
  | sendPluginCallback =>
      simp only [step, Option.ite_none_right_eq_some, Option.some.injEq] at h
      obtain ⟨hempty, rfl⟩ := h
      rw [State.once, State.once, hempty, List.nil_append, List.append_nil]
      exact .idle
  | callGenerator =>
      cases hcallbacks : s.callbacks with
      | nil => simp [step, hcallbacks] at h
      | cons request callbacks =>
          simp only [step, hcallbacks, Option.some.injEq] at h
          obtain rfl := h
          rw [State.once, State.once, hcallbacks]
          exact .settle (.refl _)
  | answer request error metadata =>
      simp only [step, Option.ite_none_right_eq_some, Option.some.injEq] at h
      obtain ⟨-, rfl⟩ := h
      rw [State.once_answer]
      exact .idle

/-! ### The answers are counted -/

/-- `cb` has been called once for the requests that there has been an answer to, and not at all
for the others. -/
def State.Answered (s : State) : Prop :=
  ∀ request, s.completed request = if request ∈ s.answers then 1 else 0

/-- No error has come to `cb` as a success. -/
def State.Closed (s : State) : Prop :=
  ∀ invocation ∈ s.invocations, invocation.reported = true → invocation.completion.code ≠ 0

/-- Requests that have all been answered have all been completed. -/
theorem State.Answered.completes (h : s.Answered) (hgood : Once.Good s.once) (hclosed : s.Closed) :
    s.Completes where
  started := hgood.count_called
  atMostOnce request := by
    rw [h request]
    split <;> omega
  once request hcount := by
    rw [h request, if_pos (List.count_pos_iff.mp (by omega))]
  closed := hclosed

/-- An answer that goes through completes its own request. -/
theorem State.completed_answer_of_ok {c : Completion}
    (h : generatorCallback error metadata = .ok c) (request : Nat) :
    (s.answer n error metadata).completed request =
      s.completed request + if n = request then 1 else 0 := by
  rw [answer_of_ok h, completed, completed, List.map_append, List.count_append, List.map_singleton,
    List.count_singleton]
  simp

/-- An answer that throws completes no request. -/
theorem State.completed_answer_of_error {e : JsError}
    (h : generatorCallback error metadata = .error e) (request : Nat) :
    (s.answer n error metadata).completed request = s.completed request := by
  rw [answer_of_error h]
  rfl

/-- An answer counts as one, whether it goes through or throws. -/
theorem State.answers_answer : (s.answer n error metadata).answers = s.answers ++ [n] := by
  cases h : generatorCallback error metadata with
  | ok c => rw [answer_of_ok h]
  | error e => rw [answer_of_error h]

theorem not_accepted_of_error {e : JsError} (h : generatorCallback error metadata = .error e) :
    ¬ Accepted error metadata := by
  rw [← accepted_iff]
  rintro ⟨c, hc⟩
  exact absurd (h.symm.trans hc) nofun

/-- A request that has been answered is completed once. -/
theorem State.Answered.completed_of_mem (hs : s.Answered) (h : n ∈ s.answers) :
    s.completed n = 1 := by
  rw [hs n, if_pos h]

/-- A request that has not been answered is not completed. -/
theorem State.Answered.completed_of_not_mem (hs : s.Answered) (h : n ∉ s.answers) :
    s.completed n = 0 := by
  rw [hs n, if_neg h]

/-- The count stays right if the first answer is accepted, and any other refused. -/
theorem State.Answered.answer (hs : s.Answered)
    (h : n ∉ s.answers ↔ Accepted error metadata) : (s.answer n error metadata).Answered := by
  intro request
  have hmem : request ∈ s.answers ++ [n] ↔ request ∈ s.answers ∨ request = n := by
    rw [List.mem_append, List.mem_singleton]
  simp only [answers_answer, hmem]
  cases hanswer : generatorCallback error metadata with
  | ok c =>
      have hn : n ∉ s.answers := h.mpr (accepted_iff.mp ⟨c, hanswer⟩)
      rw [completed_answer_of_ok hanswer]
      by_cases hr : request = n
      · rw [hr, hs.completed_of_not_mem hn, if_pos rfl, if_pos (.inr rfl)]
      · rw [hs request, if_neg (Ne.symm hr)]
        simp only [hr, or_false, Nat.add_zero]
  | error e =>
      have hn : n ∈ s.answers := by_contra fun hn => not_accepted_of_error hanswer (h.mp hn)
      rw [completed_answer_of_error hanswer, hs request]
      refine if_congr ⟨.inl, fun hr => ?_⟩ rfl rfl
      exact hr.elim id fun hr => hr ▸ hn

/-- An answer that is accepted has to be the first one, or `cb` would have been called twice. -/
theorem completes_answer_of_ok {c : Completion} (hs : s.Answered) (hgood : Once.Good s.once)
    (hclosed : s.Closed) (hanswer : generatorCallback error metadata = .ok c) :
    (s.answer n error metadata).Completes ↔ n ∉ s.answers ∧ Proper error metadata := by
  constructor
  · intro h
    have hn : n ∉ s.answers := by
      intro hn
      have hcompleted := h.atMostOnce n
      rw [State.completed_answer_of_ok hanswer, hs.completed_of_mem hn, if_pos rfl] at hcompleted
      omega
    refine ⟨hn, (proper_iff hanswer).mp ?_⟩
    refine h.closed ⟨n, error.isSome, c⟩ ?_
    rw [State.answer_of_ok hanswer]
    exact List.mem_append_right _ (.head _)
  · intro h
    obtain ⟨hn, hproper⟩ := h
    have hgood' : Once.Good (s.answer n error metadata).once := by
      rwa [State.once_answer]
    refine (hs.answer (iff_of_true hn hproper.1)).completes hgood' ?_
    intro invocation hmem
    rw [State.answer_of_ok hanswer] at hmem
    rcases List.mem_append.mp hmem with hmem | hmem
    · exact hclosed invocation hmem
    · rw [List.mem_singleton.mp hmem]
      exact (proper_iff hanswer).mpr hproper

/-- One that is refused must not be the first, or `cb` would not be called for it. -/
theorem completes_answer_of_error {e : JsError} (hs : s.Answered) (hgood : Once.Good s.once)
    (hclosed : s.Closed) (hanswer : generatorCallback error metadata = .error e) :
    (s.answer n error metadata).Completes ↔ n ∈ s.answers := by
  constructor
  · intro h
    by_contra hn
    have hcount : (s.answer n error metadata).answers.count n = 1 := by
      rw [State.answers_answer, List.count_append, List.count_eq_zero_of_not_mem hn,
        List.count_singleton_self]
    have hcompleted := h.once n hcount
    rw [State.completed_answer_of_error hanswer, hs.completed_of_not_mem hn] at hcompleted
    omega
  · intro hn
    have hgood' : Once.Good (s.answer n error metadata).once := by
      rwa [State.once_answer]
    have hsame : n ∉ s.answers ↔ Accepted error metadata :=
      iff_of_false (not_not.mpr hn) (not_accepted_of_error hanswer)
    refine (hs.answer hsame).completes hgood' ?_
    rw [State.answer_of_error hanswer]
    exact hclosed

/-- **One answer.** What it has to be depends on whether it is the first one to its request. -/
theorem completes_answer_iff (hs : s.Answered) (hgood : Once.Good s.once) (hclosed : s.Closed) :
    (s.answer n error metadata).Completes ↔
      (n ∉ s.answers → Proper error metadata) ∧ (n ∈ s.answers → ¬ Accepted error metadata) := by
  cases hanswer : generatorCallback error metadata with
  | ok c =>
      have haccepted : Accepted error metadata := accepted_iff.mp ⟨c, hanswer⟩
      rw [completes_answer_of_ok hs hgood hclosed hanswer]
      constructor
      · intro h
        exact ⟨fun _ => h.2, fun hn => absurd hn h.1⟩
      · intro h
        have hn : n ∉ s.answers := fun hn => h.2 hn haccepted
        exact ⟨hn, h.1 hn⟩
  | error e =>
      have hrefused : ¬ Accepted error metadata := not_accepted_of_error hanswer
      rw [completes_answer_of_error hs hgood hclosed hanswer]
      constructor
      · intro hn
        exact ⟨fun hnot => absurd hn hnot, fun _ => hrefused⟩
      · intro h
        by_contra hn
        exact hrefused (h.1 hn).1

/-! ### All runs -/

/-- What the step has to be, for the requests to be completed: an answer is a proper one if it is
the first to its request, and refused otherwise. -/
def AnswersProperly (s : State) : Act core → Prop
  | .answer request error metadata =>
      (request ∉ s.answers → Proper error metadata) ∧
        (request ∈ s.answers → ¬ Accepted error metadata)
  | .pluginGetMetadata | .sendPluginCallback | .callGenerator => True

/-- The other steps do not touch the answers. -/
theorem step_cases {a : Act core} (h : step s a = some s') :
    (∃ request error metadata, a = .answer request error metadata ∧
      s' = s.answer request error metadata) ∨
    (AnswersProperly s a ∧ s'.answers = s.answers ∧ s'.invocations = s.invocations) := by
  cases a with
  | pluginGetMetadata =>
      obtain rfl := Option.some.inj h
      exact .inr ⟨trivial, rfl, rfl⟩
  | sendPluginCallback =>
      simp only [step, Option.ite_none_right_eq_some, Option.some.injEq] at h
      obtain ⟨-, rfl⟩ := h
      exact .inr ⟨trivial, rfl, rfl⟩
  | callGenerator =>
      cases hcallbacks : s.callbacks with
      | nil => simp [step, hcallbacks] at h
      | cons request callbacks =>
          simp only [step, hcallbacks, Option.some.injEq] at h
          obtain rfl := h
          exact .inr ⟨trivial, rfl, rfl⟩
  | answer request error metadata =>
      simp only [step, Option.ite_none_right_eq_some, Option.some.injEq] at h
      exact .inl ⟨request, error, metadata, rfl, h.2.symm⟩

/-- After a step the requests are completed exactly if an answer that came in it was a proper one. -/
theorem completes_step_iff {a : Act core} (hs : s.Answered) (hgood : Once.Good s.once)
    (hcompletes : s.Completes) (h : step s a = some s') :
    s'.Completes ↔ AnswersProperly s a := by
  obtain ⟨request, error, metadata, rfl, rfl⟩ | ⟨hproper, hanswers, hinvocations⟩ := step_cases h
  · exact completes_answer_iff hs hgood hcompletes.closed
  · refine iff_of_true (State.Answered.completes ?_ (hgood.step (once_step h)) ?_) hproper
    · intro request
      rw [State.completed, hinvocations, hanswers]
      exact hs request
    · rw [State.Closed, hinvocations]
      exact hcompletes.closed

/-- Proper answers keep every request that is answered completed. -/
theorem answered_step {a : Act core} (hs : s.Answered) (hproper : AnswersProperly s a)
    (h : step s a = some s') : s'.Answered := by
  obtain ⟨request, error, metadata, rfl, rfl⟩ | ⟨-, hanswers, hinvocations⟩ := step_cases h
  · refine hs.answer ⟨fun hn => (hproper.1 hn).1, fun haccepted hn => hproper.2 hn haccepted⟩
  · intro request
    rw [State.completed, hinvocations, hanswers]
    exact hs request

/-- **The core hears from each request once, and of no error as of a success, precisely if the first
answers are proper ones, and all further ones are refused.** -/
theorem completes_iff (core : Core) (acts : List (Act core)) :
    Runs.Always step State.Completes {} acts ↔ Runs.Guarded step AnswersProperly {} acts := by
  refine Runs.always_iff_guarded (J := fun s => s.Answered ∧ Once.Good s.once) ?_ ?_
    ⟨fun _ => rfl, Once.Good.initial⟩ ?_
  · rintro s a s' ⟨hs, hgood⟩ hcompletes h
    exact completes_step_iff hs hgood hcompletes h
  · rintro s a s' ⟨hs, hgood⟩ hcompletes hcompletes' h
    have hproper := (completes_step_iff hs hgood hcompletes h).mp hcompletes'
    exact ⟨answered_step hs hproper h, hgood.step (once_step h)⟩
  · exact State.Answered.completes (fun _ => rfl) Once.Good.initial nofun

/-- The generator reports an error whose `code` is `0`. -/
theorem completes_deniedOk : ¬ Runs.Always step State.Completes {}
    [(.pluginGetMetadata : Act Core.ascii), .sendPluginCallback, .callGenerator,
      .answer 0 (some { message := .string "denied", code := some (.number (.finite 0)) })
        .undefined] := by
  intro h
  have hlast := h.last (t := (State.answer {
    requests := 1, started := [0] } 0
      (some { message := .string "denied", code := some (.number (.finite 0)) })
      (.undefined : MetadataArgument Core.ascii))) rfl
  exact hlast.closed ⟨0, true, ⟨[], 0, toUtf8 "denied"⟩⟩ (.head _) rfl rfl

end GrpcNode.NativeCore.CallCredentials
