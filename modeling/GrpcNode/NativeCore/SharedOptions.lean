import GrpcNode.Lib.Runs
import GrpcNode.NativeCore.LoadObject

/-!
# GrpcNode.NativeCore.SharedOptions

Options objects that are passed to more than one call: of the constructor `Client` of `client.js`,
which puts its user agent string into the object before a channel is made with it, and of `load`
and `loadObject` of `index.js`, which fill in defaults and the version of Protobuf.js.

A call sees what the calls before it have put there (`asIfFresh_iff`).

Files are loaded by Protobuf.js, which is not here: what a file gives is part of the call. Neither
is the conversion of a value to a string here, which may call functions of the user.
-/

namespace GrpcNode.NativeCore

open GrpcNode.Js

/-! ### Channel arguments -/

/-- A `grpc_arg`, apart from its key -/
inductive ArgValue
  | integer (value : Int)
  | string (value : String)
  deriving DecidableEq

/-- The argument for a value for which `IsInt32()` or `IsString()` holds. The first is false of
`-0`. -/
def argValue? : JsValue → Option ArgValue
  | .number (.finite q) =>
      if q.den = 1 ∧ -2 ^ 31 ≤ q.num ∧ q.num < 2 ^ 31 then some (.integer q.num) else none
  | .string s => some (.string s)
  | _ => none

/-- The loop of `ParseChannelArgs` -/
def parseChannelArgs : List (String × JsValue) → Option (List (String × ArgValue))
  | [] => some []
  | (key, value) :: entries => do
      let arg ← argValue? value
      let args ← parseChannelArgs entries
      return (key, arg) :: args

/-- `Channel::New`, up to the arguments that it gives to the core. Of the credentials, it checks
that they are `ChannelCredentials`. -/
def channelNew (address : JsValue) (credentials : Bool) (options : Options) :
    Except JsError (List (String × ArgValue)) :=
  match address.string?, credentials, parseChannelArgs options.entries with
  | none, _, _ => .error (.typeError "Channel expects a string, a credential and an object")
  | some _, false, _ =>
      .error (.typeError "Channel's second argument must be a ChannelCredentials")
  | some _, true, none => .error (.typeError
      "Channel options must be an object with string keys and integer or string values")
  | some _, true, some args => .ok args

/-! ### Calls -/

variable {κ : Type}

/-- What the functions use of other places: the version in `package.json`, and functions that may be
anything, because they belong to the user or to a package that is not in the repository. -/
structure Outside where
  /-- What a value is as a string, where it is added to one. -/
  text : JsValue → Except JsError String
  /-- `require('../package.json').version` -/
  version : String
  /-- `_.camelCase` -/
  camelCase : String → String
  /-- What an own function `hasOwnProperty` of the options returns. -/
  hasOwnProperty : Bool

/-- A string is itself. -/
structure Outside.Documented (outside : Outside) : Prop where
  text_string (s : String) : outside.text (.string s) = .ok s

/-- `'grpc-node/' + version` -/
def Outside.agent (outside : Outside) : String := "grpc-node/" ++ outside.version

/-- The user agent string, from the option `grpc.primary_user_agent` -/
def userAgent (outside : Outside) (value : JsValue) : Except JsError String :=
  if value.truthy then (outside.text value).map fun s => s ++ " " ++ outside.agent
  else .ok outside.agent

/-- `Client(address, credentials, options)`, with the options that it leaves -/
def client (outside : Outside) (address : JsValue) (credentials : Bool) (options : Options) :
    Except JsError (List (String × ArgValue)) × Options :=
  match userAgent outside (property options "grpc.primary_user_agent") with
  | .error e => (.error e, options)
  | .ok s =>
      let options := options.put "grpc.primary_user_agent" (.string s)
      (channelNew address credentials options, options)

/-- The formats that Protobuf.js has functions for -/
inductive FileFormat
  | proto
  | json
  deriving DecidableEq

/-- `switch(format)`. No format is `''` here. -/
def fileFormat (format : String) : Except JsError FileFormat :=
  let format := if format = "" then "proto" else format
  if format = "proto" then .ok .proto
  else if format = "json" then .ok .json
  else .error (.error ("Unrecognized format \"" ++ format ++ "\""))

/-- What `ProtoBuf.convertFieldsToCamelCase` is set to while the file is loaded, if it is set. -/
def convertFieldsToCamelCase (outside : Outside) (options : Options) :
    Except JsError (Option JsValue) :=
  match options.lookup "hasOwnProperty" with
  | none => .ok (options.lookup "convertFieldsToCamelCase")
  | some .function => .ok (if outside.hasOwnProperty then
      some (property options "convertFieldsToCamelCase") else none)
  | some _ => .error (.typeError "options.hasOwnProperty is not a function")

/-- The options that `load` passes on -/
def loadDefaults (options : Options) : Options :=
  (defaults options defaultGrpcOptions).put "protobufjsVersion" (.number (.finite 5))

/-- `load`, with the options that it leaves. The file gives the namespace of a builder. -/
def load (outside : Outside) (format : String)
    (file : FileFormat → Option JsValue → Except JsError (ProtobufJs5.Node κ)) (options : Options) :
    Except JsError (GrpcObject κ) × Options :=
  let options := loadDefaults options
  let namespaceOf : Except JsError (ProtobufJs5.Node κ) := do
    let convert ← convertFieldsToCamelCase outside options
    file (← fileFormat format) convert
  match namespaceOf with
  | .error e => (.error e, options)
  | .ok ns => loadObject outside.camelCase (.js5 ns) options

namespace SharedOptions

/-- A call that options are passed to, with its other arguments -/
inductive Call (κ : Type)
  | client (address : JsValue) (credentials : Bool)
  | load (format : String)
      (file : FileFormat → Option JsValue → Except JsError (ProtobufJs5.Node κ))
  | loadObject (value : Reflection κ)

/-- What comes of a call. -/
inductive Outcome (κ : Type)
  | channel (args : Except JsError (List (String × ArgValue)))
  | object (loaded : Except JsError (GrpcObject κ))

/-- A call with these options, with those that it leaves -/
def Call.perform (outside : Outside) (options : Options) : Call κ → Outcome κ × Options
  | .client address credentials =>
      let result := NativeCore.client outside address credentials options
      (.channel result.1, result.2)
  | .load format file =>
      let result := NativeCore.load outside format file options
      (.object result.1, result.2)
  | .loadObject value =>
      let result := NativeCore.loadObject outside.camelCase value options
      (.object result.1, result.2)

/-- The options, and what has come of the calls so far -/
structure State (κ : Type) where
  options : Options
  outcomes : List (Call κ × Outcome κ) := []

def step (outside : Outside) (s : State κ) (call : Call κ) : Option (State κ) :=
  let result := call.perform outside s.options
  some { options := result.2, outcomes := s.outcomes ++ [(call, result.1)] }

/-- Every call has had the outcome that it has with a copy of the original options. -/
def AsIfFresh (outside : Outside) (original : Options) (s : State κ) : Prop :=
  ∀ e ∈ s.outcomes, e.2 = (e.1.perform outside original).1

/-! ### Calls that are not disturbed -/

/-- The core takes the options, once the user agent string is in them. -/
def Parsable (options : Options) : Prop :=
  ∀ e ∈ options.entries, e.1 ≠ "grpc.primary_user_agent" → argValue? e.2 ≠ none

/-- The version option, with its default -/
def version (options : Options) : JsValue :=
  property (loadObjectDefaults options) "protobufjsVersion"

/-- Both loaders return the value as it is. -/
def LeftAlone : Reflection κ → Prop
  | .js5 .other | .js6 (.enum _) | .other | .undefined => True
  | .js5 _ | .js6 _ => False

/-- With this version option, a value is loaded as one of Protobuf.js 5, or comes back as it is. -/
def LoadsAs5 (value : Reflection κ) (protobufjsVersion : JsValue) : Prop :=
  resolveVersion value protobufjsVersion = .ok .five ∨
    resolveVersion value protobufjsVersion = .ok .six ∧ LeftAlone value

/-- Before a client is made, nothing has changed in the options, or there is none to be made: the
address or the credentials are not right, the user agent option cannot be made a string, or the
core takes the options neither as they have been nor as they are. Before `loadObject`, the version
option still is the original one, or that one makes no difference. -/
def Undisturbed (outside : Outside) (original : Options) (s : State κ) : Call κ → Prop
  | .client address credentials =>
      s.options = original ∨ address.string? = none ∨ credentials = false ∨
      (∃ e, userAgent outside (property original "grpc.primary_user_agent") = .error e) ∨
      ¬ Parsable original ∧ ¬ Parsable s.options
  | .load _ _ => True
  | .loadObject value =>
      version s.options = version original ∨ LoadsAs5 value (version original)

/-! ### What a channel is made with -/

theorem argValue?_inj {v w : JsValue} {a : ArgValue} (hv : argValue? v = some a)
    (hw : argValue? w = some a) : v = w := by
  have hint : ∀ {q : ℚ} {a : ArgValue}, argValue? (.number (.finite q)) = some a →
      q.den = 1 ∧ a = .integer q.num := by
    intro q a h
    rw [argValue?, Option.ite_none_right_eq_some] at h
    exact ⟨h.1.1, (Option.some.inj h.2).symm⟩
  have hcases : ∀ {v : JsValue} {a : ArgValue}, argValue? v = some a →
      (∃ q : ℚ, v = .number (.finite q) ∧ q.den = 1 ∧ a = .integer q.num) ∨
        ∃ s, v = .string s ∧ a = .string s := by
    intro v a h
    cases v with
    | number n =>
        cases n with
        | finite q => exact .inl ⟨q, rfl, hint h⟩
        | nan | infinity negative | negZero => exact absurd h (by simp [argValue?])
    | string s => exact .inr ⟨s, rfl, (Option.some.inj h).symm⟩
    | undefined | null | boolean _ | symbol _ | function | buffer _ _ | array _ | object _ =>
        exact absurd h (by simp [argValue?])
  rcases hcases hv with ⟨q, rfl, hq, rfl⟩ | ⟨s, rfl, rfl⟩
  · rcases hcases hw with ⟨r, rfl, hr, heq⟩ | ⟨s, rfl, heq⟩
    · rw [Rat.ext (ArgValue.integer.inj heq) (hq.trans hr.symm)]
    · exact absurd heq (by simp)
  · rcases hcases hw with ⟨r, rfl, hr, heq⟩ | ⟨t, rfl, heq⟩
    · exact absurd heq (by simp)
    · rw [ArgValue.string.inj heq]

theorem parseChannelArgs_cons {key : String} {value : JsValue} {entries : List (String × JsValue)}
    {args : List (String × ArgValue)} :
    parseChannelArgs ((key, value) :: entries) = some args ↔ ∃ arg args',
      argValue? value = some arg ∧ parseChannelArgs entries = some args' ∧
      (key, arg) :: args' = args := by
  simp [parseChannelArgs, Option.bind_eq_some_iff]

/-- Different options give different arguments. -/
theorem parseChannelArgs_inj {entries entries' : List (String × JsValue)}
    {args : List (String × ArgValue)} (h : parseChannelArgs entries = some args)
    (h' : parseChannelArgs entries' = some args) : entries = entries' := by
  induction entries generalizing entries' args with
  | nil =>
      obtain rfl := Option.some.inj h
      cases entries' with
      | nil => rfl
      | cons e entries' =>
          obtain ⟨_, _, -, -, heq⟩ := parseChannelArgs_cons.mp h'
          exact absurd heq (by simp)
  | cons e entries ih =>
      obtain ⟨key, value⟩ := e
      obtain ⟨arg, args', harg, hargs, rfl⟩ := parseChannelArgs_cons.mp h
      cases entries' with
      | nil => exact absurd h' (by simp [parseChannelArgs])
      | cons e' entries' =>
          obtain ⟨key', value'⟩ := e'
          obtain ⟨arg', args'', harg', hargs', heq⟩ := parseChannelArgs_cons.mp h'
          rw [List.cons.injEq, Prod.mk.injEq] at heq
          obtain ⟨⟨rfl, rfl⟩, rfl⟩ := heq
          rw [argValue?_inj harg harg', ih hargs hargs']

theorem exists_parseChannelArgs_iff {entries : List (String × JsValue)} :
    (∃ args, parseChannelArgs entries = some args) ↔ ∀ e ∈ entries, argValue? e.2 ≠ none := by
  induction entries with
  | nil => simp [parseChannelArgs]
  | cons e entries ih =>
      obtain ⟨key, value⟩ := e
      simp only [parseChannelArgs_cons, List.forall_mem_cons, ← ih]
      constructor
      · rintro ⟨_, arg, args, harg, hargs, -⟩
        exact ⟨by rw [harg]; simp, args, hargs⟩
      · rintro ⟨harg, args, hargs⟩
        obtain ⟨arg, harg⟩ := Option.ne_none_iff_exists'.mp harg
        exact ⟨_, arg, args, harg, hargs, rfl⟩

theorem parsable_iff (options : Options) (s : String) :
    Parsable options ↔ ∃ args,
      parseChannelArgs (options.put "grpc.primary_user_agent" (.string s)).entries = some args := by
  rw [exists_parseChannelArgs_iff, Parsable]
  constructor
  · intro h e he
    rcases OrderedMap.mem_entries_put.mp he with rfl | ⟨he, hne⟩
    · simp [argValue?]
    · exact h e he hne
  · intro h e he hne
    exact h e (OrderedMap.mem_entries_put.mpr (.inr ⟨he, hne⟩))

/-- What comes of two channels with two user agent strings is the same if both are refused, or if
all their options are the same. -/
theorem channelNew_eq_iff (address : JsValue) (credentials : Bool) (options options' : Options)
    (s s' : String) :
    channelNew address credentials (options.put "grpc.primary_user_agent" (.string s)) =
        channelNew address credentials (options'.put "grpc.primary_user_agent" (.string s')) ↔
      address.string? = none ∨ credentials = false ∨ (¬ Parsable options ∧ ¬ Parsable options') ∨
      (Parsable options ∧ options.put "grpc.primary_user_agent" (.string s) =
        options'.put "grpc.primary_user_agent" (.string s')) := by
  cases haddress : address.string? with
  | none => simp [channelNew, haddress]
  | some host =>
      cases credentials with
      | false => simp [channelNew, haddress]
      | true =>
          rw [parsable_iff options s, parsable_iff options' s']
          generalize options.put "grpc.primary_user_agent" (.string s) = new
          generalize options'.put "grpc.primary_user_agent" (.string s') = new'
          obtain ⟨e, hargs⟩ : ∃ e, ∀ options, channelNew address true options =
              match parseChannelArgs options.entries with
              | none => .error e
              | some args => .ok args := by
            refine ⟨.typeError
              "Channel options must be an object with string keys and integer or string values",
              fun options => ?_⟩
            unfold channelNew
            rw [haddress]
            cases parseChannelArgs options.entries <;> rfl
          rw [hargs, hargs]
          cases hparse : parseChannelArgs new.entries with
          | none =>
              cases hparse' : parseChannelArgs new'.entries with
              | none => simp
              | some args => simp
          | some args =>
              cases hparse' : parseChannelArgs new'.entries with
              | none =>
                  refine iff_of_false (by simp) ?_
                  rintro (h | h | ⟨h, -⟩ | ⟨-, heq⟩)
                  · simp at h
                  · simp at h
                  · exact h ⟨args, rfl⟩
                  · rw [heq, hparse'] at hparse
                    simp at hparse
              | some args' =>
                  constructor
                  · intro h
                    rw [Except.ok.inj h] at hparse
                    exact .inr (.inr (.inr ⟨⟨args, rfl⟩,
                      OrderedMap.ext (parseChannelArgs_inj hparse hparse')⟩))
                  · rintro (h | h | ⟨h, -⟩ | ⟨-, heq⟩)
                    · simp at h
                    · simp at h
                    · exact absurd ⟨args, rfl⟩ h
                    · rw [heq, hparse'] at hparse
                      rw [Option.some.inj hparse]

/-! ### User agent strings -/

theorem ne_empty_of_userAgent {outside : Outside} {value : JsValue} {s : String}
    (h : userAgent outside value = .ok s) : s ≠ "" := by
  have hagent : outside.agent ≠ "" := by simp [Outside.agent, String.append_eq_empty_iff]
  unfold userAgent at h
  split at h
  · obtain ⟨t, -, rfl⟩ := map_eq_ok h
    simp [String.append_eq_empty_iff, hagent]
  · obtain rfl := Except.ok.inj h
    exact hagent

/-- A string gets longer. -/
theorem userAgent_string {outside : Outside} (houtside : outside.Documented) {s : String}
    (h : s ≠ "") : userAgent outside (.string s) = .ok (s ++ (" " ++ outside.agent)) := by
  have htruthy : (JsValue.string s).truthy = true := by simpa [JsValue.truthy] using h
  rw [userAgent, if_pos htruthy, houtside.text_string, ← String.append_assoc]
  rfl

/-! ### What stays of the options -/

/-- How the options follow from the original ones: to the user agent option something may have
been appended, the version option may be that of `load`, and the other options have their values,
up to the defaults. -/
structure Follows (outside : Outside) (original options : Options) : Prop where
  userAgent : options.lookup "grpc.primary_user_agent" =
      original.lookup "grpc.primary_user_agent" ∨
    ∃ s suffix, NativeCore.userAgent outside (property original "grpc.primary_user_agent") =
      .ok s ∧ options.lookup "grpc.primary_user_agent" = some (.string (s ++ suffix))
  version : version options = version original ∨ version options = .number (.finite 5)
  others (name : String) : name ≠ "grpc.primary_user_agent" → name ≠ "protobufjsVersion" →
    (defaults options defaultGrpcOptions).lookup name =
      (defaults original defaultGrpcOptions).lookup name

theorem nodup_defaultGrpcOptions : (defaultGrpcOptions.map Prod.fst).Nodup := by decide

theorem lookup_loadObjectDefaults (options : Options) {name : String}
    (h : name ≠ "protobufjsVersion") : (loadObjectDefaults options).lookup name =
      (defaults options defaultGrpcOptions).lookup name :=
  lookup_defaults_of_not_mem _ (by simp) (by simpa using h)

theorem version_congr {options options' : Options}
    (h : options.lookup "protobufjsVersion" = options'.lookup "protobufjsVersion") :
    version options = version options' := by
  rw [version, version, property_version, property_version, property, property, h]

theorem version_loadObjectDefaults (options : Options) :
    version (loadObjectDefaults options) = version options := by
  have hdefault : (version options).isUndefined = false := by
    rw [version, property_version]
    split
    · rfl
    · rename_i h
      simpa using h
  rw [version, property_version, ← version, hdefault, if_neg Bool.false_ne_true]

theorem version_loadDefaults (options : Options) :
    version (loadDefaults options) = .number (.finite 5) := by
  rw [version, property_version, loadDefaults, property_put_self]
  rfl

/-- What `loadObject` leaves of the options -/
theorem loadObject_snd (camelCase : String → String) (value : Reflection κ) (options : Options) :
    (loadObject camelCase value options).2 = loadObjectDefaults options := by
  unfold loadObject
  generalize loadObjectDefaults options = filled
  rfl

section

variable {outside : Outside} {original options : Options}

theorem Follows.refl : Follows outside original original := ⟨.inl rfl, .inl rfl, fun _ _ _ => rfl⟩

theorem Follows.loadDefaults (h : Follows outside original options) :
    Follows outside original (loadDefaults options) := by
  have hput : ∀ {name}, name ≠ "protobufjsVersion" →
      (NativeCore.loadDefaults options).lookup name =
        (defaults options defaultGrpcOptions).lookup name :=
    fun hne => OrderedMap.lookup_put_of_ne _ _ hne
  have hagent : (NativeCore.loadDefaults options).lookup "grpc.primary_user_agent" =
      options.lookup "grpc.primary_user_agent" :=
    (hput (by decide)).trans
      (lookup_defaults_of_not_mem options nodup_defaultGrpcOptions (by decide))
  refine ⟨by rw [hagent]; exact h.userAgent, .inr (version_loadDefaults options), ?_⟩
  intro name hname hversion
  rw [lookup_defaults_congr nodup_defaultGrpcOptions (hput hversion),
    lookup_defaults_defaults _ nodup_defaultGrpcOptions]
  exact h.others name hname hversion

theorem Follows.loadObjectDefaults (h : Follows outside original options) :
    Follows outside original (loadObjectDefaults options) := by
  have hagent : (NativeCore.loadObjectDefaults options).lookup "grpc.primary_user_agent" =
      options.lookup "grpc.primary_user_agent" :=
    (lookup_loadObjectDefaults options (by decide)).trans
      (lookup_defaults_of_not_mem options nodup_defaultGrpcOptions (by decide))
  refine ⟨by rw [hagent]; exact h.userAgent,
    by rw [version_loadObjectDefaults]; exact h.version, ?_⟩
  intro name hname hversion
  rw [lookup_defaults_congr nodup_defaultGrpcOptions (lookup_loadObjectDefaults options hversion),
    lookup_defaults_defaults _ nodup_defaultGrpcOptions]
  exact h.others name hname hversion

/-- The constructor of clients appends to the user agent option. -/
theorem Follows.client (houtside : outside.Documented) (h : Follows outside original options)
    (address : JsValue) (credentials : Bool) :
    Follows outside original (client outside address credentials options).2 := by
  unfold NativeCore.client
  split
  · exact h
  · rename_i s hs
    refine ⟨.inr ?_, ?_, fun name hname hversion => ?_⟩
    · rw [OrderedMap.lookup_put_self]
      rcases h.userAgent with hsame | ⟨t, suffix, ht, hlookup⟩
      · rw [property, hsame] at hs
        exact ⟨s, "", hs, by rw [String.append_empty]⟩
      · have hne : t ++ suffix ≠ "" := by
          simp [String.append_eq_empty_iff, ne_empty_of_userAgent ht]
        rw [property, hlookup, Option.getD_some, userAgent_string houtside hne] at hs
        rw [← Except.ok.inj hs, String.append_assoc]
        exact ⟨t, _, ht, rfl⟩
    · rw [version_congr (OrderedMap.lookup_put_of_ne options _ (by decide))]
      exact h.version
    · rw [lookup_defaults_congr nodup_defaultGrpcOptions
        (OrderedMap.lookup_put_of_ne options _ hname)]
      exact h.others name hname hversion

theorem Follows.load (h : Follows outside original options) (format : String)
    (file : FileFormat → Option JsValue → Except JsError (ProtobufJs5.Node κ)) :
    Follows outside original (load outside format file options).2 := by
  unfold NativeCore.load
  generalize hnew : NativeCore.loadDefaults options = new
  have hloaded : Follows outside original new := hnew ▸ h.loadDefaults
  dsimp only
  split
  · exact hloaded
  · rw [loadObject_snd]
    exact hloaded.loadObjectDefaults

theorem Follows.perform (houtside : outside.Documented) (h : Follows outside original options)
    (call : Call κ) : Follows outside original (call.perform outside options).2 := by
  cases call with
  | client address credentials => exact h.client houtside address credentials
  | load format file =>
      rw [Call.perform]
      exact h.load format file
  | loadObject value =>
      rw [Call.perform]
      dsimp only
      rw [loadObject_snd]
      exact h.loadObjectDefaults

/-- The loaders read the same of the options. -/
theorem Follows.loadOptions_eq (h : Follows outside original options) :
    loadOptions (NativeCore.loadObjectDefaults options) =
      loadOptions (NativeCore.loadObjectDefaults original) := by
  have hproperty : ∀ name, name ≠ "grpc.primary_user_agent" → name ≠ "protobufjsVersion" →
      property (NativeCore.loadObjectDefaults options) name =
        property (NativeCore.loadObjectDefaults original) name := by
    intro name hname hversion
    rw [property, property, lookup_loadObjectDefaults _ hversion,
      lookup_loadObjectDefaults _ hversion, h.others name hname hversion]
  rw [loadOptions, loadOptions, hproperty _ (by decide) (by decide),
    hproperty _ (by decide) (by decide), hproperty _ (by decide) (by decide),
    hproperty _ (by decide) (by decide)]

/-! ### What comes of the calls -/

theorem client_eq_iff (houtside : outside.Documented) (h : Follows outside original options)
    (address : JsValue) (credentials : Bool) :
    (client outside address credentials options).1 =
        (client outside address credentials original).1 ↔
      options = original ∨ address.string? = none ∨ credentials = false ∨
      (∃ e, userAgent outside (property original "grpc.primary_user_agent") = .error e) ∨
      ¬ Parsable original ∧ ¬ Parsable options := by
  cases hagent : userAgent outside (property original "grpc.primary_user_agent") with
  | error e =>
      -- Then the option has not been touched.
      have hsame : options.lookup "grpc.primary_user_agent" =
          original.lookup "grpc.primary_user_agent" := by
        rcases h.userAgent with hsame | ⟨s, suffix, hs, -⟩
        · exact hsame
        · exact absurd (hagent.symm.trans hs) (by simp)
      have hproperty : property options "grpc.primary_user_agent" =
          property original "grpc.primary_user_agent" := by
        rw [property, hsame, property]
      refine iff_of_true ?_ (.inr (.inr (.inr (.inl ⟨e, rfl⟩))))
      rw [NativeCore.client, NativeCore.client, hproperty, hagent]
  | ok s =>
      obtain ⟨t, ht, hcases⟩ : ∃ t,
          userAgent outside (property options "grpc.primary_user_agent") = .ok t ∧
          (options.lookup "grpc.primary_user_agent" =
            original.lookup "grpc.primary_user_agent" ∧ t = s ∨ t ≠ s) := by
        rcases h.userAgent with hsame | ⟨s', suffix, hs', hlookup⟩
        · exact ⟨s, by rw [property, hsame]; exact hagent, .inl ⟨hsame, rfl⟩⟩
        · obtain rfl := Except.ok.inj (hagent.symm.trans hs')
          have hne : s ++ suffix ≠ "" := by
            simp [String.append_eq_empty_iff, ne_empty_of_userAgent hagent]
          refine ⟨_, by rw [property, hlookup]; exact userAgent_string houtside hne, .inr ?_⟩
          intro heq
          have hlength := congrArg String.length heq
          simp only [String.length_append] at hlength
          have hspace : (" " : String).length = 1 := rfl
          omega
      rw [NativeCore.client, NativeCore.client, ht, hagent]
      refine (channelNew_eq_iff address credentials options original t s).trans ?_
      constructor
      · rintro (haddress | hcredentials | ⟨hnot, hnot'⟩ | ⟨-, hput⟩)
        · exact .inr (.inl haddress)
        · exact .inr (.inr (.inl hcredentials))
        · exact .inr (.inr (.inr (.inr ⟨hnot', hnot⟩)))
        · rcases hcases with ⟨hlookup, rfl⟩ | hne
          · exact .inl (OrderedMap.eq_of_put_eq hlookup hput)
          · have hself := congrArg (OrderedMap.lookup · "grpc.primary_user_agent") hput
            simp only [OrderedMap.lookup_put_self, Option.some.injEq, JsValue.string.injEq] at hself
            exact absurd hself hne
      · rintro (rfl | haddress | hcredentials | ⟨e, he⟩ | ⟨hnot, hnot'⟩)
        · obtain rfl := Except.ok.inj (hagent.symm.trans ht)
          by_cases hparsable : Parsable options
          · exact .inr (.inr (.inr ⟨hparsable, rfl⟩))
          · exact .inr (.inr (.inl ⟨hparsable, hparsable⟩))
        · exact .inl haddress
        · exact .inr (.inl hcredentials)
        · exact absurd he (by simp)
        · exact .inr (.inr (.inl ⟨hnot', hnot⟩))

end

/-! #### Loading -/

section

variable (camelCase : String → String) (options : LoadOptions)

/-- The only exception that the loader of Protobuf.js 5 throws -/
def methodNameError : JsError := .error "Method names cannot start with $"

theorem defineMethods_error {φ : Type} {methods : List (String × MethodDefinition φ)}
    {prototype : OrderedMap String (ClientMethod φ)} {e : JsError}
    (h : defineMethods {} methods prototype = .error e) : e = methodNameError := by
  induction methods generalizing prototype with
  | nil => exact absurd h (by simp [defineMethods])
  | cons method methods ih =>
      rw [defineMethods] at h
      split at h
      · exact (Except.error.inj h).symm
      · rw [if_neg Bool.false_ne_true] at h
        exact ih h

theorem makeClientConstructor_error {φ σ : Type} {definition : ServiceDefinition φ}
    {serviceName : Option σ} {e : JsError}
    (h : makeClientConstructor definition serviceName none = .error e) : e = methodNameError := by
  rw [makeClientConstructor] at h
  split at h
  · exact absurd h (by simp)
  · rename_i he
    obtain rfl := Except.error.inj h
    exact defineMethods_error he

theorem map_eq_error {ε β γ : Type} {x : Except ε β} {f : β → γ} {e : ε}
    (h : x.map f = .error e) : x = .error e := by
  cases x with
  | ok b => exact absurd h (by simp [Except.map])
  | error e' => exact congrArg _ (Except.error.inj h)

theorem assignAll_error {loads : List (String × Except JsError (GrpcObject κ))}
    {result : List (String × GrpcObject κ)} {e : JsError} (h : assignAll loads result = .error e) :
    ∃ load ∈ loads, load.2 = .error e := by
  induction loads generalizing result with
  | nil => exact absurd h (by simp [assignAll])
  | cons load loads ih =>
      obtain ⟨name, load⟩ := load
      cases load with
      | error e' =>
          obtain rfl := Except.error.inj h
          exact ⟨_, .head _, rfl⟩
      | ok object =>
          obtain ⟨load, hload, he⟩ := ih h
          exact ⟨load, .tail _ hload, he⟩

mutual

theorem loadObject5_error {node : ProtobufJs5.Node κ} {e : JsError}
    (h : ProtobufJs5.loadObject camelCase (some options) node = .error e) :
    e = methodNameError := by
  cases node with
  | builder ns =>
      rw [ProtobufJs5.loadObject] at h
      exact loadObject5_error h
  | nameSpace children =>
      rw [ProtobufJs5.loadObject] at h
      obtain ⟨load, hload, he⟩ := assignAll_error (map_eq_error h)
      exact loadChildren5_error hload he
  | service reflected =>
      rw [ProtobufJs5.loadObject, ProtobufJs5.loadService] at h
      exact makeClientConstructor_error (map_eq_error h)
  | message cls | enum cls =>
      rw [ProtobufJs5.loadObject] at h
      exact absurd h (by simp)
  | other =>
      rw [ProtobufJs5.loadObject] at h
      exact absurd h (by simp)

theorem loadChildren5_error {children : List (String × ProtobufJs5.Node κ)}
    {load : String × Except JsError (GrpcObject κ)} {e : JsError}
    (hload : load ∈ ProtobufJs5.loadChildren camelCase (some options) children)
    (he : load.2 = .error e) : e = methodNameError := by
  cases children with
  | nil => exact absurd hload (by simp [ProtobufJs5.loadChildren])
  | cons child children =>
      obtain ⟨name, child⟩ := child
      rw [ProtobufJs5.loadChildren, List.mem_cons] at hload
      rcases hload with rfl | hload
      · exact loadObject5_error he
      · exact loadChildren5_error hload he

end

theorem map_node_ne_leaf {x : Except JsError (List (String × GrpcObject κ))} {v : Loaded κ} :
    x.map NamedTree.node ≠ .ok (.leaf v) := by
  cases x <;> simp [Except.map]

theorem map_leaf_ne_value {φ : Type} {x : Except JsError φ} {f : φ → Loaded κ}
    {v : Reflection κ} (h : ∀ a, f a ≠ .value v) :
    x.map (fun a => NamedTree.leaf (κ := String) (f a)) ≠ .ok (.leaf (.value v)) := by
  cases x with
  | error e => simp [Except.map]
  | ok a => simpa [Except.map] using h a

/-- The first loader returns only another object as it is, -/
theorem loadObject5_eq_value {node : ProtobufJs5.Node κ} {v : Reflection κ}
    (h : ProtobufJs5.loadObject camelCase (some options) node = .ok (.leaf (.value v))) :
    v = .js5 .other := by
  cases node with
  | builder ns =>
      rw [ProtobufJs5.loadObject] at h
      exact loadObject5_eq_value h
  | nameSpace children =>
      rw [ProtobufJs5.loadObject] at h
      exact absurd h map_node_ne_leaf
  | service reflected =>
      rw [ProtobufJs5.loadObject] at h
      exact absurd h (map_leaf_ne_value (by simp))
  | message cls | enum cls =>
      rw [ProtobufJs5.loadObject] at h
      exact absurd h (by simp)
  | other =>
      rw [ProtobufJs5.loadObject] at h
      simpa using h.symm

/-- and the second one only an enum. -/
theorem loadObject6_eq_value_iff {node : ProtobufJs6.Node κ} :
    ProtobufJs6.loadObject camelCase (some options) node = .ok (.leaf (.value (.js6 node))) ↔
      LeftAlone (.js6 node) := by
  cases node with
  | nameSpace nested =>
      rw [ProtobufJs6.loadObject_of_nested camelCase options (.nameSpace nested) rfl rfl]
      exact iff_of_false map_node_ne_leaf id
  | type cls nested =>
      rw [ProtobufJs6.loadObject_of_nested camelCase options (.type cls nested) rfl rfl]
      exact iff_of_false map_node_ne_leaf id
  | service reflected =>
      rw [ProtobufJs6.loadObject_service]
      exact iff_of_false (map_leaf_ne_value (by simp)) id
  | enum cls => exact iff_of_true (ProtobufJs6.loadObject_enum camelCase options cls) trivial

theorem loadVersion_six_eq_iff (value : Reflection κ) :
    loadVersion camelCase options .five value = loadVersion camelCase options .six value ↔
      LeftAlone value := by
  cases value with
  | js5 node =>
      cases node with
      | other =>
          have hfive : loadVersion camelCase options .five (.js5 .other : Reflection κ) =
              ProtobufJs5.loadObject camelCase (some options) .other := rfl
          rw [hfive, ProtobufJs5.loadObject]
          exact iff_of_true rfl trivial
      | builder _ | nameSpace _ | service _ | message _ | enum _ =>
          refine iff_of_false (fun h => ?_) id
          exact absurd (loadObject5_eq_value camelCase options h) (by simp)
  | js6 node => exact eq_comm.trans (loadObject6_eq_value_iff camelCase options)
  | other | undefined => exact iff_of_true rfl trivial

theorem loadVersion_five_error {value : Reflection κ} {e : JsError}
    (h : loadVersion camelCase options .five value = .error e) : e = methodNameError := by
  cases value with
  | js5 node => exact loadObject5_error camelCase options h
  | js6 node => exact absurd h (by simp [loadVersion])
  | other | undefined => exact absurd h (by simp [loadVersion])

theorem detectVersion_ne_methodNameError (value : Reflection κ) :
    detectVersion value ≠ .error methodNameError := by
  have hundetected : JsError.error ("Could not detect ProtoBuf.js version. Please " ++
      "specify the version number with the \"protobufjs_version\" option") ≠ methodNameError := by
    decide
  cases value with
  | js5 node =>
      have hdetect : detectVersion (.js5 node) = if node.isReflection = true then .ok .five
          else .error (.error ("Could not detect ProtoBuf.js version. Please " ++
            "specify the version number with the \"protobufjs_version\" option")) := rfl
      rw [hdetect]
      split
      · simp
      · exact fun h => hundetected (Except.error.inj h)
  | js6 node =>
      have hdetect : detectVersion (.js6 node) = .ok .six := rfl
      simp [hdetect]
  | other => exact fun h => hundetected (Except.error.inj h)
  | undefined =>
      have hdetect : detectVersion (.undefined : Reflection κ) =
          .error (.typeError "Cannot read property 'root' of undefined") := rfl
      simp [hdetect, methodNameError]

/-- That is not an exception for the version. -/
theorem resolveVersion_ne_methodNameError (value : Reflection κ) (v : JsValue) :
    resolveVersion value v ≠ .error methodNameError := by
  have hunrecognized : resolveVersion.unrecognized ≠ .error methodNameError := by
    simp [resolveVersion.unrecognized, methodNameError]
  unfold resolveVersion
  split
  · split
    · exact detectVersion_ne_methodNameError value
    · exact hunrecognized
  · split
    · simp
    · split
      · simp
      · exact hunrecognized
  · exact hunrecognized

end

section

variable {outside : Outside} {original options : Options}

/-- What `loadObject` returns depends on what is read of the options. -/
theorem loadObject_fst (camelCase : String → String) (value : Reflection κ) (options : Options) :
    (loadObject camelCase value options).1 = (resolveVersion value (version options)).bind fun v =>
      loadVersion camelCase (loadOptions (loadObjectDefaults options)) v value := by
  unfold loadObject version
  generalize loadObjectDefaults options = filled
  rfl

theorem loadObject_eq_iff (h : Follows outside original options) (value : Reflection κ) :
    (loadObject outside.camelCase value options).1 =
        (loadObject outside.camelCase value original).1 ↔
      version options = version original ∨ LoadsAs5 value (version original) := by
  rw [loadObject_fst, loadObject_fst, h.loadOptions_eq]
  rcases h.version with hsame | hfive
  · exact iff_of_true (by rw [hsame]) (.inl hsame)
  · have hresolve : resolveVersion value (.number (.finite 5)) = .ok .five := rfl
    rw [hfive, hresolve]
    unfold LoadsAs5
    by_cases hversion : (JsValue.number (.finite 5)) = version original
    · exact iff_of_true (by rw [← hversion, hresolve]) (.inl hversion)
    · cases horiginal : resolveVersion value (version original) with
      | error e =>
          refine iff_of_false (fun heq => ?_) (by simp [hversion])
          have hname := loadVersion_five_error _ _ heq
          exact resolveVersion_ne_methodNameError value _ (hname ▸ horiginal)
      | ok v =>
          cases v with
          | five => exact iff_of_true rfl (.inr (.inl rfl))
          | six =>
              refine (loadVersion_six_eq_iff _ _ value).trans ?_
              simp [hversion]

theorem load_eq (h : Follows outside original options) (format : String)
    (file : FileFormat → Option JsValue → Except JsError (ProtobufJs5.Node κ)) :
    (load outside format file options).1 = (load outside format file original).1 := by
  have horiginal : Follows outside original (loadDefaults original) := Follows.refl.loadDefaults
  have hlookup : ∀ name, name ≠ "grpc.primary_user_agent" → name ≠ "protobufjsVersion" →
      (loadDefaults options).lookup name = (loadDefaults original).lookup name := by
    intro name hname hversion
    rw [loadDefaults, loadDefaults, OrderedMap.lookup_put_of_ne _ _ hversion,
      OrderedMap.lookup_put_of_ne _ _ hversion, h.others name hname hversion]
  have hconvert : convertFieldsToCamelCase outside (loadDefaults options) =
      convertFieldsToCamelCase outside (loadDefaults original) := by
    rw [convertFieldsToCamelCase, convertFieldsToCamelCase, property, property,
      hlookup _ (by decide) (by decide), hlookup _ (by decide) (by decide)]
  have hload : ∀ ns : ProtobufJs5.Node κ,
      (loadObject outside.camelCase (.js5 ns) (loadDefaults options)).1 =
        (loadObject outside.camelCase (.js5 ns) (loadDefaults original)).1 := by
    intro ns
    rw [loadObject_fst, loadObject_fst, h.loadDefaults.loadOptions_eq, horiginal.loadOptions_eq,
      version_loadDefaults, version_loadDefaults]
  unfold load
  dsimp only
  rw [hconvert]
  split
  · rfl
  · rename_i ns _
    exact hload ns

/-- A call that is not disturbed has the outcome that it has with a copy, and no other call has. -/
theorem perform_eq_iff (houtside : outside.Documented) {s : State κ}
    (h : Follows outside original s.options) (call : Call κ) :
    (call.perform outside s.options).1 = (call.perform outside original).1 ↔
      Undisturbed outside original s call := by
  cases call with
  | client address credentials =>
      exact Iff.trans ⟨Outcome.channel.inj, congrArg _⟩
        (client_eq_iff houtside h address credentials)
  | load format file => exact iff_of_true (congrArg Outcome.object (load_eq h format file)) trivial
  | loadObject value =>
      exact Iff.trans ⟨Outcome.object.inj, congrArg _⟩ (loadObject_eq_iff h value)

end

/-! ### Runs -/

theorem asIfFresh_step_iff {outside : Outside} {original : Options} (houtside : outside.Documented)
    {s s' : State κ} (call : Call κ) (h : Follows outside original s.options)
    (hfresh : AsIfFresh outside original s) (hstep : step outside s call = some s') :
    AsIfFresh outside original s' ↔ Undisturbed outside original s call := by
  obtain rfl := Option.some.inj hstep
  rw [← perform_eq_iff houtside h call]
  constructor
  · intro hall
    exact hall _ (List.mem_append_right _ (List.mem_singleton_self _))
  · intro hcall e he
    rcases List.mem_append.mp he with he | he
    · exact hfresh e he
    · rw [List.mem_singleton.mp he]
      exact hcall

/-- **Calls that share an options object behave as if each had a copy of its own exactly if none of
them is disturbed** by what the others have put there. -/
theorem asIfFresh_iff {outside : Outside} (houtside : outside.Documented) (original : Options)
    (calls : List (Call κ)) :
    Runs.Always (step outside) (AsIfFresh outside original) { options := original } calls ↔
      Runs.Guarded (step outside) (Undisturbed outside original) { options := original } calls := by
  refine Runs.always_iff_guarded (J := fun s => Follows outside original s.options)
    (fun s call s' h hfresh hstep => asIfFresh_step_iff houtside call h hfresh hstep) ?_
    Follows.refl (fun e he => absurd he (by simp))
  intro s call s' h _ _ hstep
  obtain rfl := Option.some.inj hstep
  exact h.perform houtside call

/-! ### Two calls -/

/-- What strings and symbols do where they are added to a string; other values are not needed. -/
def nodeOutside : Outside where
  text
    | .string s => .ok s
    | .symbol _ => .error (.typeError "Cannot convert a Symbol value to a string")
    | _ => .ok "[object Object]"
  version := "1.7.0-dev"
  camelCase := lowerFirst
  hasOwnProperty := true

theorem nodeOutside_documented : nodeOutside.Documented := ⟨fun _ => rfl⟩

/-- A client -/
def newClient : Call Unit := .client (.string "localhost:50051") true

/-- One client and a file do not disturb each other, in this order. -/
theorem asIfFresh_client_load :
    Runs.Always (step nodeOutside) (AsIfFresh nodeOutside .empty) { options := .empty }
      [newClient, .load "proto" fun _ _ => .ok (.nameSpace [])] :=
  (asIfFresh_iff nodeOutside_documented .empty _).mpr
    fun _ _ => ⟨.inl rfl, fun _ _ => ⟨trivial, trivial⟩⟩

/-- The second of two calls -/
theorem second_eq {outside : Outside} {original : Options} {first second : Call κ}
    (h : Runs.Always (step outside) (AsIfFresh outside original) { options := original }
      [first, second]) :
    (second.perform outside (first.perform outside original).2).1 =
      (second.perform outside original).1 :=
  h.last rfl _ (List.mem_append_right _ (List.mem_singleton_self _))

/-- The second of two clients gets another user agent string than the first, and after `load` an
object of Protobuf.js 6 is not loaded. -/
theorem not_asIfFresh :
    (¬ Runs.Always (step nodeOutside) (AsIfFresh nodeOutside .empty) { options := .empty }
      [newClient, newClient]) ∧
    ¬ Runs.Always (step nodeOutside) (AsIfFresh nodeOutside .empty) { options := .empty }
      [.load "proto" fun _ _ => .ok (.nameSpace []),
        .loadObject (.js6 (.nameSpace []) : Reflection Unit)] := by
  refine ⟨fun h => ?_, fun h => ?_⟩
  · have hfirst : (newClient.perform nodeOutside .empty).1 =
        .channel (.ok [("grpc.primary_user_agent", .string "grpc-node/1.7.0-dev")]) := rfl
    have hsecond : (newClient.perform nodeOutside (newClient.perform nodeOutside .empty).2).1 =
        .channel (.ok [("grpc.primary_user_agent",
          .string "grpc-node/1.7.0-dev grpc-node/1.7.0-dev")]) := rfl
    have heq := second_eq h
    rw [hfirst, hsecond] at heq
    exact absurd (Outcome.channel.inj heq) (by simp)
  · have hfresh : (loadObject nodeOutside.camelCase (.js6 (.nameSpace []) : Reflection Unit) .empty).1 =
        .ok (.node []) := by
      rw [loadObject_of_expects6 (.inl rfl),
        ProtobufJs6.loadObject_of_nested _ _ (.nameSpace []) rfl rfl,
        ProtobufJs6.loadNested]
      rfl
    have hloaded : (loadObject nodeOutside.camelCase (.js6 (.nameSpace []) : Reflection Unit)
        (load nodeOutside "proto" (fun _ _ => .ok (.nameSpace [] : ProtobufJs5.Node Unit)) .empty).2).1 =
        .ok (.leaf (.value (.js6 (.nameSpace [])))) := rfl
    have heq := hloaded.symm.trans ((Outcome.object.inj (second_eq h)).trans hfresh)
    exact absurd (Except.ok.inj heq) (by simp)

end SharedOptions

end GrpcNode.NativeCore
