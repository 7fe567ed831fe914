import GrpcNode.Lib.Memory
import GrpcNode.NativeCore.SharedOptions

/-!
# GrpcNode.NativeCore.ChannelArgs

The memory of the options that `channel.cc` and `server.cc` hand to the core: `ParseChannelArgs`
copies the keys and the strings of an options object, and `DeallocateChannelArgs` frees the copies,
also those of an object that is refused halfway. A step that uses a block that is not allocated, or
reads past its end, is `none`.

Allocations do not fail. Properties are read without running anything of the user.
-/

namespace GrpcNode.NativeCore

open GrpcNode.Js

namespace ChannelArgs

/-! ### Memory -/

/-- The type of a `grpc_arg` with its value. The type of what `calloc` has cleared is
`GRPC_ARG_STRING`. -/
inductive Value
  | string (pointer : Option Nat)
  | integer (value : Int)

/-- A `grpc_arg` -/
structure Arg where
  key : Option Nat := none
  value : Value := .string none

/-- What a block of memory holds. -/
inductive Block
  | uninitialized
  /-- A `grpc_channel_args` -/
  | channelArgs (numArgs args : Nat)
  | args (args : List Arg)
  | chars (bytes : Buffer)

/-- The arguments in a block that holds an array of them. -/
def Block.args? : Block → Option (List Arg)
  | .args list => some list
  | .uninitialized | .channelArgs _ _ | .chars _ => none

theorem Block.args?_args (list : List Arg) : args? (.args list) = some list := rfl

/-- `channel_args->args[i]` -/
def getArg (m : Memory Block) (args i : Nat) : Option Arg := m.getElement Block.args? args i

/-- An assignment to members of `channel_args->args[i]` -/
def setArg (m : Memory Block) (args i : Nat) (f : Arg → Arg) : Option (Memory Block) :=
  m.setElement .args Block.args? args i f

/-- A copy of a string, with the null character that ends it -/
def copyString (m : Memory Block) (s : String) : Nat × Memory Block :=
  m.alloc (.chars (toUtf8 s ++ [0]))

/-- The value of an argument. A string is copied. -/
def copyValue (m : Memory Block) : ArgValue → Value × Memory Block
  | .integer value => (.integer value, m)
  | .string s => let (pointer, m) := copyString m s; (.string (some pointer), m)

/-! ### `ParseChannelArgs` -/

/-- The body of the loop, for a value that is an integer or a string -/
def parseArg (args i : Nat) (key : String) (arg : ArgValue) (m : Memory Block) :
    Option (Memory Block) := do
  let (value, m) := copyValue m arg
  let m ← setArg m args i fun a => { a with value }
  let (key, m) := copyString m key
  setArg m args i fun a => { a with key := some key }

/-- The loop of `ParseChannelArgs` over the keys from the `i`-th on. -/
def parseLoop (args i : Nat) :
    List (String × JsValue) → Memory Block → Option (Bool × Memory Block)
  | [], m => some (true, m)
  | (key, value) :: entries, m =>
      match argValue? value with
      | none => some (false, m)
      | some arg => do
          let m ← parseArg args i key arg m
          parseLoop args (i + 1) entries m

/-- `ParseChannelArgs` for the own properties of an object -/
def parseObject (entries : List (String × JsValue)) (m : Memory Block) :
    Option (Bool × Option Nat × Memory Block) := do
  let (channelArgs, m) := m.alloc .uninitialized
  let (args, m) := m.alloc (.args (List.replicate entries.length {}))
  let m ← m.write channelArgs (.channelArgs entries.length args)
  let (parsed, m) ← parseLoop args 0 entries m
  return (parsed, some channelArgs, m)

/-- `ParseChannelArgs`, with the pointer that it sets -/
def parse (options : JsValue) (m : Memory Block) :
    Option (Bool × Option Nat × Memory Block) :=
  match options with
  | .undefined | .null => some (true, none, m)
  | options =>
      if options.isObject then parseObject options.ownProperties m else some (false, none, m)

/-! ### `DeallocateChannelArgs` -/

/-- `free` -/
def free (m : Memory Block) : Option Nat → Option (Memory Block)
  | none => some m
  | some a => m.free a

/-- A string is freed with the argument that holds it. -/
def freeValue (m : Memory Block) : Value → Option (Memory Block)
  | .string pointer => free m pointer
  | .integer _ => some m

/-- `remaining` is `num_args - i`. -/
def deallocateLoop (args : Nat) (i : Nat) : (remaining : Nat) → Memory Block → Option (Memory Block)
  | 0, m => some m
  | remaining + 1, m => do
      let arg ← getArg m args i
      match arg.key with
      | none => return m
      | some key =>
          let m ← m.free key
          let m ← freeValue m arg.value
          deallocateLoop args (i + 1) remaining m

/-- `DeallocateChannelArgs`. Null is left alone. -/
def deallocate (m : Memory Block) : Option Nat → Option (Memory Block)
  | none => some m
  | some channelArgs =>
      match m.block channelArgs with
      | some (.channelArgs numArgs args) => do
          let m ← deallocateLoop args 0 numArgs m
          let m ← m.free args
          m.free channelArgs
      | _ => none

/-! ### What the core gets -/

/-- The characters before the first null character -/
def cString (bytes : Buffer) : Buffer := bytes.takeWhile (· ≠ 0)

/-- A string at an address, which has to end within its block. -/
def readString (m : Memory Block) (a : Nat) : Option Buffer :=
  match m.block a with
  | some (.chars bytes) => if 0 ∈ bytes then some (cString bytes) else none
  | _ => none

/-- A value as the core reads it, with no pointer in it. -/
inductive CoreValue
  | string (bytes : Buffer)
  | integer (value : Int)
  deriving DecidableEq

/-- The value behind an argument, if what it points to is there. -/
def readValue (m : Memory Block) : Value → Option CoreValue
  | .string none => none
  | .string (some a) => (readString m a).map .string
  | .integer value => some (.integer value)

/-- Key and value of an argument. -/
def readArg (m : Memory Block) (arg : Arg) : Option (Buffer × CoreValue) := do
  let key ← readString m (← arg.key)
  let value ← readValue m arg.value
  return (key, value)

/-- The arguments at a pointer, as the core reads them -/
def read (m : Memory Block) : Option Nat → Option (Option (List (Buffer × CoreValue)))
  | none => some none
  | some channelArgs =>
      match m.block channelArgs with
      | some (.channelArgs numArgs args) => do
          let args ← (List.range numArgs).mapM fun i => do
            readArg m (← getArg m args i)
          return some args
      | _ => none

end ChannelArgs

open ChannelArgs (cString CoreValue)

/-- What `grpc_insecure_channel_create` or `grpc_secure_channel_create` is called with. -/
structure CoreChannel (κ : Type) where
  host : Buffer
  /-- The first function is called if there are none. -/
  credentials : Option κ
  args : Option (List (Buffer × CoreValue))
  deriving DecidableEq

/-- `Channel::New`. The credentials are those in a `ChannelCredentials` object, if it is one. -/
def Channel.new {κ : Type} (host : JsValue) (credentials : Option (Option κ)) (options : JsValue)
    (m : Memory ChannelArgs.Block) :
    Option (Except JsError (CoreChannel κ) × Memory ChannelArgs.Block) :=
  match host.string?, credentials with
  | none, _ =>
      some (.error (.typeError "Channel expects a string, a credential and an object"), m)
  | some _, none =>
      some (.error (.typeError "Channel's second argument must be a ChannelCredentials"), m)
  | some host, some credentials => do
      let (parsed, pointer, m) ← ChannelArgs.parse options m
      if parsed then
        let args ← ChannelArgs.read m pointer
        let m ← ChannelArgs.deallocate m pointer
        return (.ok { host := cString (toUtf8 host), credentials, args }, m)
      else
        let m ← ChannelArgs.deallocate m pointer
        return (.error (.typeError
          "Channel options must be an object with string keys and integer or string values"), m)

/-- `Server::New`, with what `grpc_server_create` is called with -/
def Server.new (options : JsValue) (m : Memory ChannelArgs.Block) :
    Option (Except JsError (Option (List (Buffer × CoreValue))) × Memory ChannelArgs.Block) := do
  let (parsed, pointer, m) ← ChannelArgs.parse options m
  if parsed then
    let args ← ChannelArgs.read m pointer
    let m ← ChannelArgs.deallocate m pointer
    return (.ok args, m)
  else
    let m ← ChannelArgs.deallocate m pointer
    return (.error (.typeError
      "Server options must be an object with string keys and integer or string values"), m)

namespace ChannelArgs

/-! ### Reading what has been copied -/

/-- What the core reads of a copy. -/
def coreArg (e : String × ArgValue) : Buffer × CoreValue :=
  (cString (toUtf8 e.1), match e.2 with
    | .integer value => .integer value
    | .string s => .string (cString (toUtf8 s)))

/-- A copy of a string is read up to its first zero byte. -/
theorem readString_copy {m : Memory Block} {a : Nat} {bytes : Buffer}
    (h : m.block a = some (.chars (bytes ++ [0]))) : readString m a = some (cString bytes) := by
  have hmem : (0 : UInt8) ∈ bytes ++ [0] := List.mem_append_right _ List.mem_cons_self
  simp only [readString, h, if_pos hmem, cString]
  rw [List.takeWhile_append]
  split
  · next hlength =>
      rw [(List.takeWhile_prefix _).eq_of_length hlength]
      simp
  · rfl

/-- The blocks that a value points to. -/
def Value.blocks : Value → List Nat
  | .string pointer => pointer.toList
  | .integer _ => []

/-- The blocks that an argument points to -/
def Arg.blocks (arg : Arg) : List Nat := arg.key.toList ++ arg.value.blocks

/-- A value is a copy of what was in the options. -/
inductive Value.Copies (m : Memory Block) : Value → ArgValue → Prop
  | integer (value : Int) : Copies m (.integer value) (.integer value)
  | string {s : String} {pointer : Nat}
      (h : m.block pointer = some (.chars (toUtf8 s ++ [0]))) :
      Copies m (.string (some pointer)) (.string s)

/-- An argument is a copy of a key and a value. -/
structure Arg.Copies (m : Memory Block) (arg : Arg) (e : String × ArgValue) : Prop where
  key : ∃ a, arg.key = some a ∧ m.block a = some (.chars (toUtf8 e.1 ++ [0]))
  value : arg.value.Copies m e.2

theorem Arg.Copies.readArg {m : Memory Block} {arg : Arg} {e : String × ArgValue}
    (h : Arg.Copies m arg e) : readArg m arg = some (coreArg e) := by
  obtain ⟨key, value⟩ := arg
  obtain ⟨name, v⟩ := e
  obtain ⟨⟨a, rfl, ha⟩, hvalue⟩ := h
  cases hvalue with
  | integer value => simp [ChannelArgs.readArg, readValue, readString_copy ha, coreArg]
  | string hs => simp [ChannelArgs.readArg, readValue, readString_copy ha, readString_copy hs, coreArg]

/-- Other blocks do not matter. -/
theorem Value.Copies.mono {m m' : Memory Block} {value : Value} {v : ArgValue}
    (h : Value.Copies m value v) (hsame : ∀ a ∈ value.blocks, m'.block a = m.block a) :
    Value.Copies m' value v := by
  cases h with
  | integer value => exact .integer value
  | string hs => exact .string ((hsame _ (by simp [Value.blocks])).trans hs)

theorem Arg.Copies.mono {m m' : Memory Block} {arg : Arg} {e : String × ArgValue}
    (h : Arg.Copies m arg e) (hsame : ∀ a ∈ arg.blocks, m'.block a = m.block a) :
    Arg.Copies m' arg e := by
  obtain ⟨a, hkey, ha⟩ := h.key
  refine ⟨⟨a, hkey, (hsame a ?_).trans ha⟩, h.value.mono fun b hb => hsame b ?_⟩
  · rw [Arg.blocks, hkey]
    exact List.mem_cons_self
  · exact List.mem_append_right _ hb

theorem forall₂_copies {m m' : Memory Block} {copied : List Arg} {es : List (String × ArgValue)}
    (h : List.Forall₂ (Arg.Copies m) copied es)
    (hsame : ∀ a ∈ copied.flatMap Arg.blocks, m'.block a = m.block a) :
    List.Forall₂ (Arg.Copies m') copied es := by
  induction h with
  | nil => exact .nil
  | cons harg _ ih =>
      rw [List.flatMap_cons] at hsame
      exact .cons (harg.mono fun a ha => hsame a (List.mem_append_left _ ha))
        (ih fun a ha => hsame a (List.mem_append_right _ ha))

/-! ### The loop of `ParseChannelArgs` -/

/-- After some steps of the loop: the blocks that have been allocated since `m₀` are those of the
arguments that are complete, the array and the `grpc_channel_args`. -/
structure Held (m₀ m : Memory Block) (channelArgs args n : Nat) (copied : List Arg)
    (es : List (String × ArgValue)) : Prop where
  since : Memory.Since m₀ m (copied.flatMap Arg.blocks ++ [args, channelArgs])
  header : m.block channelArgs = some (.channelArgs n args)
  array : m.block args = some (.args (copied ++ List.replicate (n - copied.length) ({} : Arg)))
  copies : List.Forall₂ (Arg.Copies m) copied es
  length : copied.length ≤ n

theorem copyValue_since {m₀ m : Memory Block} {as : List Nat} (h : Memory.Since m₀ m as)
    (arg : ArgValue) {value : Value} {m' : Memory Block} (hcopy : copyValue m arg = (value, m')) :
    Memory.Since m₀ m' (value.blocks ++ as) ∧ value.Copies m' arg ∧
      ∀ a, m.block a ≠ none → m'.block a = m.block a := by
  cases arg with
  | integer n =>
      obtain ⟨rfl, rfl⟩ := Prod.mk.inj hcopy
      exact ⟨h, .integer n, fun _ _ => rfl⟩
  | string s =>
      obtain ⟨rfl, rfl⟩ := Prod.mk.inj hcopy
      exact ⟨h.alloc _, .string (m.alloc_block_self _), fun a ha => m.alloc_block_of_ne _ ha⟩

/-- An argument that is copied adds its blocks to those that are held. -/
theorem parseArg_held {m₀ m : Memory Block} {channelArgs args n : Nat} {copied : List Arg}
    {es : List (String × ArgValue)} (h : Held m₀ m channelArgs args n copied es)
    (hlt : copied.length < n) (key : String) (arg : ArgValue) :
    ∃ m' new, parseArg args copied.length key arg m = some m' ∧
      Held m₀ m' channelArgs args n (copied ++ [new]) (es ++ [(key, arg)]) := by
  have hmem : args ∈ copied.flatMap Arg.blocks ++ [args, channelArgs] := by simp
  rcases hcopy : copyValue m arg with ⟨value, m₁⟩
  obtain ⟨hsince₁, hvalue, hkept₁⟩ := copyValue_since h.since arg hcopy
  have harray₁ : m₁.block args =
      some (.args (copied ++ ({} : Arg) :: List.replicate (n - (copied.length + 1)) {})) := by
    rw [hkept₁ args (h.since.live args hmem), h.array, ← List.replicate_succ]
    congr
    omega
  have hmem₁ := List.mem_append_right value.blocks hmem
  obtain ⟨m₂, hset₂, hsince₂, hblock₂⟩ := hsince₁.setElement Block.args Block.args?_args hmem₁
    harray₁ fun a => { a with value }
  rcases hcopyKey : copyString m₂ key with ⟨a, m₃⟩
  obtain ⟨hsince₃, hkey₃, hold₃⟩ := hsince₂.of_alloc hcopyKey
  have harray₃ : m₃.block args =
      some (.args (copied ++ { value } :: List.replicate (n - (copied.length + 1)) ({} : Arg))) := by
    rw [hold₃ args (hsince₂.live args hmem₁), hblock₂, Function.update_self]
  obtain ⟨m₄, hset₄, hsince₄, hblock₄⟩ := hsince₃.setElement Block.args Block.args?_args
    (List.mem_cons_of_mem a hmem₁) harray₃ fun arg => { arg with key := some a }
  -- Apart from the array, all that has been there is still there.
  have hkept : ∀ a ≠ args, m₁.block a ≠ none → m₄.block a = m₁.block a := by
    intro a hne ha
    have ha₂ : m₂.block a = m₁.block a := by rw [hblock₂, Function.update_of_ne hne]
    rw [hblock₄, Function.update_of_ne hne, hold₃ a (ha₂ ▸ ha), ha₂]
  have hne : ∀ a ∈ value.blocks, a ≠ args := by
    rintro a ha rfl
    exact List.disjoint_of_nodup_append hsince₁.nodup ha hmem
  have hold : ∀ a ∈ copied.flatMap Arg.blocks ++ [channelArgs], m₄.block a = m.block a := by
    intro a ha
    have hlive := h.since.live a (List.perm_middle.mem_iff.mpr (List.mem_cons_of_mem _ ha))
    have hne : a ≠ args := (h.since.perm List.perm_middle).ne_of_mem ha
    exact (hkept a hne (hkept₁ a hlive ▸ hlive)).trans (hkept₁ a hlive)
  have hkey : m₄.block a = some (.chars (toUtf8 key ++ [0])) := by
    rw [hblock₄, Function.update_of_ne (hsince₃.ne_of_mem hmem₁).symm]
    exact hkey₃
  have hvalue₄ : value.Copies m₄ arg := hvalue.mono fun a ha =>
    hkept a (hne a ha) (hsince₁.live a (List.mem_append_left _ ha))
  refine ⟨m₄, { key := some a, value }, ?_, ?_, ?_, ?_, ?_, ?_⟩
  · simp only [parseArg, setArg, hcopy, hset₂, hcopyKey, Option.bind_eq_bind, Option.bind_some]
    exact hset₄
  · refine hsince₄.perm ?_
    simp only [List.flatMap_append, List.flatMap_singleton, List.append_assoc]
    exact List.perm_append_comm_assoc (a :: value.blocks) _ _
  · rw [hold channelArgs (List.mem_append_right _ List.mem_cons_self)]
    exact h.header
  · rw [hblock₄, Function.update_self, List.append_assoc, List.length_append]
    rfl
  · refine List.rel_append (forall₂_copies h.copies fun a ha => ?_)
      (.cons ⟨⟨_, rfl, hkey⟩, hvalue₄⟩ .nil)
    exact hold a (List.mem_append_left _ ha)
  · rw [List.length_append]
    exact hlt

/-- The loop holds what it has copied, also where it stops at a value of another type. By induction
on the entries. -/
theorem parseLoop_held {m₀ m : Memory Block} {channelArgs args n : Nat} {copied : List Arg}
    {es : List (String × ArgValue)} (h : Held m₀ m channelArgs args n copied es)
    (entries : List (String × JsValue)) (hn : copied.length + entries.length = n) :
    ∃ parsed m' copied' es', parseLoop args copied.length entries m = some (parsed, m') ∧
      Held m₀ m' channelArgs args n copied' es' ∧ (parsed = true → copied'.length = n) ∧
      (parseChannelArgs entries).map (es ++ ·) = if parsed then some es' else none := by
  induction entries generalizing m copied es with
  | nil =>
      refine ⟨true, m, copied, es, rfl, h, fun _ => hn, ?_⟩
      simp [parseChannelArgs]
  | cons e entries ih =>
      obtain ⟨key, value⟩ := e
      rw [parseLoop]
      cases harg : argValue? value with
      | none =>
          refine ⟨false, m, copied, es, rfl, h, fun h => absurd h Bool.false_ne_true, ?_⟩
          simp [parseChannelArgs, harg]
      | some arg =>
          rw [List.length_cons] at hn
          obtain ⟨m', new, hparse, h'⟩ := parseArg_held h (by omega) key arg
          obtain ⟨parsed, m'', copied', es', hloop, hheld, hlength, hes⟩ := ih h' (by
            rw [List.length_append, List.length_singleton]
            omega)
          refine ⟨parsed, m'', copied', es', ?_, hheld, hlength, ?_⟩
          · simp only [hparse, Option.bind_eq_bind, Option.bind_some]
            rw [← hloop, List.length_append, List.length_singleton]
          · rw [← hes]
            cases hrest : parseChannelArgs entries with
            | none => simp [parseChannelArgs, harg, hrest]
            | some rest => simp [parseChannelArgs, harg, hrest]

/-! ### `DeallocateChannelArgs` -/

/-- The argument that stands behind `before` in the array. -/
theorem getArg_eq {m : Memory Block} {args : Nat} {before after : List Arg} {arg : Arg}
    (h : m.block args = some (.args (before ++ arg :: after))) :
    getArg m args before.length = some arg :=
  Memory.getElement_eq .args Block.args?_args h

/-- What the loop frees for an argument with a key. -/
theorem freeArg_since {m₀ m : Memory Block} {as : List Nat} {a : Nat} {value : Value}
    (h : Memory.Since m₀ m (a :: (value.blocks ++ as))) :
    ∃ m₁ m', m.free a = some m₁ ∧ freeValue m₁ value = some m' ∧
      Memory.Since m₀ m' as ∧ ∀ b ∈ as, m'.block b = m.block b := by
  obtain ⟨m₁, hfree, hsince, hsame⟩ := h.free
  have hkept : ∀ b ∈ value.blocks ++ as, m₁.block b = m.block b := fun b hb =>
    hsame b (h.ne_of_mem hb)
  cases value with
  | integer n => exact ⟨m₁, m₁, hfree, rfl, hsince, hkept⟩
  | string pointer =>
      cases pointer with
      | none => exact ⟨m₁, m₁, hfree, rfl, hsince, hkept⟩
      | some p =>
          obtain ⟨m', hfree', hsince', hsame'⟩ := hsince.free
          refine ⟨m₁, m', hfree, hfree', hsince', fun b hb => ?_⟩
          rw [hsame' b (hsince.ne_of_mem hb)]
          exact hkept b (List.mem_cons_of_mem p hb)

/-- The loop ends with the arguments, or at the first one without a key. -/
theorem deallocateLoop_since {m₀ m : Memory Block} {as : List Nat} {args k : Nat}
    (before : List Arg) {rest : List Arg} (h : Memory.Since m₀ m (rest.flatMap Arg.blocks ++ as))
    (hmem : args ∈ as)
    (harray : m.block args = some (.args (before ++ (rest ++ List.replicate k ({} : Arg)))))
    (hkeys : ∀ arg ∈ rest, arg.key ≠ none) :
    ∃ m', deallocateLoop args before.length (rest.length + k) m = some m' ∧
      Memory.Since m₀ m' as ∧ ∀ a ∈ as, m'.block a = m.block a := by
  induction rest generalizing m before with
  | nil =>
      refine ⟨m, ?_, h, fun _ _ => rfl⟩
      cases k with
      | zero => rfl
      | succ k =>
          rw [List.nil_append, List.replicate_succ] at harray
          simp only [List.length_nil, deallocateLoop, getArg_eq harray,
            Option.bind_eq_bind, Option.bind_some, Option.pure_def]
  | cons arg rest ih =>
      obtain ⟨key, value⟩ := arg
      obtain ⟨a, rfl⟩ := Option.ne_none_iff_exists'.mp (hkeys _ List.mem_cons_self)
      rw [List.flatMap_cons, List.append_assoc] at h
      have hblocks : Memory.Since m₀ m (a :: (value.blocks ++ (rest.flatMap Arg.blocks ++ as))) := by
        simpa [Arg.blocks] using h
      obtain ⟨m₁, m₂, hfree, hvalue, hsince, hsame⟩ := freeArg_since hblocks
      have harray₂ : m₂.block args = some (.args ((before ++ [⟨some a, value⟩]) ++
          (rest ++ List.replicate k ({} : Arg)))) := by
        rw [hsame args (List.mem_append_right _ hmem), harray, List.append_assoc]
        rfl
      obtain ⟨m', hloop, hsince', hsame'⟩ := ih _ hsince harray₂ fun arg harg =>
        hkeys arg (List.mem_cons_of_mem _ harg)
      refine ⟨m', ?_, hsince', fun b hb =>
        (hsame' b hb).trans (hsame b (List.mem_append_right _ hb))⟩
      rw [List.length_cons, Nat.add_right_comm]
      simp only [deallocateLoop, getArg_eq harray, hfree, hvalue, Option.bind_eq_bind,
        Option.bind_some]
      rw [← hloop, List.length_append, List.length_singleton]

/-- Every key of the copies is there to be freed. -/
theorem key_ne_none {m : Memory Block} {copied : List Arg} {es : List (String × ArgValue)}
    (h : List.Forall₂ (Arg.Copies m) copied es) : ∀ arg ∈ copied, arg.key ≠ none := by
  induction h with
  | nil => exact List.forall_mem_nil _
  | cons harg _ ih =>
      obtain ⟨a, hkey, -⟩ := harg.key
      refine List.forall_mem_cons.mpr ⟨?_, ih⟩
      rw [hkey]
      exact Option.some_ne_none a

/-- All that is held is freed, and the memory is what it was before. -/
theorem Held.deallocate {m₀ m : Memory Block} {channelArgs args n : Nat} {copied : List Arg}
    {es : List (String × ArgValue)} (h : Held m₀ m channelArgs args n copied es) :
    ∃ m', deallocate m (some channelArgs) = some m' ∧ m'.block = m₀.block := by
  obtain ⟨m₁, hloop, hsince₁, -⟩ := deallocateLoop_since [] h.since List.mem_cons_self h.array (key_ne_none h.copies)
  obtain ⟨m₂, hfree₂, hsince₂, -⟩ := hsince₁.free
  obtain ⟨m₃, hfree₃, hsince₃, -⟩ := hsince₂.free
  rw [Nat.add_sub_cancel' h.length] at hloop
  refine ⟨m₃, ?_, hsince₃.block_eq⟩
  simp only [ChannelArgs.deallocate, h.header, List.length_nil] at hloop ⊢
  simp only [hloop, hfree₂, Option.bind_eq_bind, Option.bind_some]
  exact hfree₃

/-! ### Constructors -/

/-- The core reads the arguments in the order of the array. By induction on those that are left. -/
theorem mapM_readArg {m : Memory Block} {args : Nat} (before : List Arg) {copied : List Arg}
    {es : List (String × ArgValue)} (harray : m.block args = some (.args (before ++ copied)))
    (h : List.Forall₂ (Arg.Copies m) copied es) :
    ((List.range' before.length copied.length).mapM fun i => do
      readArg m (← getArg m args i)) = some (es.map coreArg) := by
  induction h generalizing before with
  | nil => rfl
  | @cons arg e copied es harg _ ih =>
      have hrest := ih (before ++ [arg]) (by rw [harray, List.append_assoc]; rfl)
      rw [List.length_append, List.length_singleton] at hrest
      rw [List.length_cons, List.range'_succ, List.mapM_cons, hrest]
      simp [getArg_eq harray, harg.readArg]

/-- What is held is read as the options that were copied. -/
theorem Held.read {m₀ m : Memory Block} {channelArgs args n : Nat} {copied : List Arg}
    {es : List (String × ArgValue)} (h : Held m₀ m channelArgs args n copied es)
    (hn : copied.length = n) : read m (some channelArgs) = some (some (es.map coreArg)) := by
  have harray : m.block args = some (.args ([] ++ copied)) := by
    rw [h.array, hn, Nat.sub_self, List.replicate_zero, List.append_nil, List.nil_append]
  have hread := mapM_readArg [] harray h.copies
  rw [hn, List.length_nil, ← List.range_eq_range'] at hread
  simp only [ChannelArgs.read, h.header, hread]
  rfl

/-- The arguments that the core should get for some options, if they are not refused. -/
def coreArgs? : JsValue → Option (Option (List (Buffer × CoreValue)))
  | .undefined | .null => some none
  | options =>
      if options.isObject then
        (parseChannelArgs options.ownProperties).map fun es => some (es.map coreArg)
      else none

/-- What comes of parsing: whether the options are accepted, and, with `args`, what the core can
read. After `DeallocateChannelArgs` the memory is as it was. -/
def Released (m : Memory Block) (args : Option (Option (List (Buffer × CoreValue)))) :
    Option (Bool × Option Nat × Memory Block) → Prop
  | none => False
  | some (parsed, pointer, m₁) =>
      (∃ m₂, deallocate m₁ pointer = some m₂ ∧ m₂.block = m.block) ∧
        match args with
        | none => parsed = false
        | some args => parsed = true ∧ read m₁ pointer = some args

/-- An object is parsed to arguments that can be read and freed. -/
theorem parseObject_released (entries : List (String × JsValue)) (m : Memory Block) :
    Released m ((parseChannelArgs entries).map fun es => some (es.map coreArg))
      (parseObject entries m) := by
  rcases hheader : m.alloc .uninitialized with ⟨channelArgs, m₁⟩
  obtain ⟨hsince₁, -, -⟩ := (Memory.Since.refl m).of_alloc hheader
  rcases hargs : m₁.alloc (.args (List.replicate entries.length {})) with ⟨args, m₂⟩
  obtain ⟨hsince₂, harray, -⟩ := hsince₁.of_alloc hargs
  obtain ⟨m₃, hwrite, hsince₃, hblock₃⟩ := hsince₂.write
    (List.mem_cons_of_mem args List.mem_cons_self) (.channelArgs entries.length args)
  have hne : args ≠ channelArgs := (hsince₂.ne_of_mem List.mem_cons_self).symm
  have hheld : Held m m₃ channelArgs args entries.length [] [] :=
    ⟨hsince₃, by rw [hblock₃, Function.update_self],
      by rw [hblock₃, Function.update_of_ne hne, harray]; rfl, .nil, Nat.zero_le _⟩
  obtain ⟨parsed, m₄, copied, es, hloop, hheld₄, hlength, hes⟩ :=
    parseLoop_held hheld entries (Nat.zero_add _)
  obtain ⟨m₅, hdeallocate, hblock₅⟩ := hheld₄.deallocate
  have hparse : parseObject entries m = some (parsed, some channelArgs, m₄) := by
    simp only [parseObject, hheader, hargs, hwrite, Option.bind_eq_bind, Option.bind_some]
    rw [show parseLoop args 0 entries m₃ = _ from hloop]
    rfl
  rw [hparse]
  refine ⟨⟨m₅, hdeallocate, hblock₅⟩, ?_⟩
  simp only [List.nil_append, Option.map_id'] at hes
  rw [hes]
  cases parsed with
  | false => rfl
  | true => exact ⟨rfl, hheld₄.read (hlength rfl)⟩

/-- The same for any value of the options. -/
theorem parse_released (options : JsValue) (m : Memory Block) :
    Released m (coreArgs? options) (parse options m) := by
  cases options with
  | undefined | null => exact ⟨⟨m, rfl, rfl⟩, rfl, rfl⟩
  | boolean _ | number _ | string _ | symbol _ => exact ⟨⟨m, rfl, rfl⟩, rfl⟩
  | function | buffer _ _ | array _ | object _ => exact parseObject_released _ m

/-- The two ends of `ParseChannelArgs`; in both, what it allocated can be freed. -/
theorem parse_cases (options : JsValue) (m : Memory Block) :
    ∃ pointer m₁ m₂, deallocate m₁ pointer = some m₂ ∧ m₂.block = m.block ∧
      (coreArgs? options = none ∧ parse options m = some (false, pointer, m₁) ∨
        ∃ args, coreArgs? options = some args ∧ parse options m = some (true, pointer, m₁) ∧
          read m₁ pointer = some args) := by
  have h := parse_released options m
  cases hparse : parse options m with
  | none => exact (hparse ▸ h : Released m _ none).elim
  | some result =>
      obtain ⟨parsed, pointer, m₁⟩ := result
      rw [hparse] at h
      obtain ⟨⟨m₂, hdeallocate, hblock⟩, hargs⟩ := h
      refine ⟨pointer, m₁, m₂, hdeallocate, hblock, ?_⟩
      cases hcore : coreArgs? options with
      | none =>
          obtain rfl : parsed = false := by simpa only [hcore] using hargs
          exact .inl ⟨rfl, rfl⟩
      | some args =>
          obtain ⟨rfl, hread⟩ : parsed = true ∧ _ := by simpa only [hcore] using hargs
          exact .inr ⟨args, rfl, rfl, hread⟩

end ChannelArgs

/-! ### Any number of constructors -/

variable {κ : Type}

/-- What `Channel::New` should call the core with. -/
def Channel.expected (host : JsValue) (credentials : Option (Option κ)) (options : JsValue) :
    Except JsError (CoreChannel κ) :=
  match host.string?, credentials, ChannelArgs.coreArgs? options with
  | none, _, _ => .error (.typeError "Channel expects a string, a credential and an object")
  | some _, none, _ =>
      .error (.typeError "Channel's second argument must be a ChannelCredentials")
  | some _, some _, none => .error (.typeError
      "Channel options must be an object with string keys and integer or string values")
  | some host, some credentials, some args =>
      .ok { host := cString (toUtf8 host), credentials, args }

/-- What `Server::New` should call the core with. -/
def Server.expected (options : JsValue) : Except JsError (Option (List (Buffer × CoreValue))) :=
  match ChannelArgs.coreArgs? options with
  | none => .error (.typeError
      "Server options must be an object with string keys and integer or string values")
  | some args => .ok args

/-- The constructor of a channel gives what its arguments call for and leaves no block behind. -/
theorem Channel.new_eq (host : JsValue) (credentials : Option (Option κ)) (options : JsValue)
    (m : Memory ChannelArgs.Block) :
    ∃ m', Channel.new host credentials options m =
        some (Channel.expected host credentials options, m') ∧ m'.block = m.block := by
  unfold Channel.new Channel.expected
  cases host.string? with
  | none => exact ⟨m, rfl, rfl⟩
  | some s =>
      cases credentials with
      | none => exact ⟨m, rfl, rfl⟩
      | some credentials =>
          obtain ⟨pointer, m₁, m₂, hdeallocate, hblock, ⟨hcore, hparse⟩ | ⟨args, hcore, hparse, hread⟩⟩ :=
            ChannelArgs.parse_cases options m
          · exact ⟨m₂, by simp [hcore, hparse, hdeallocate], hblock⟩
          · exact ⟨m₂, by simp [hcore, hparse, hread, hdeallocate], hblock⟩

/-- The constructor of a server gives what its options call for and leaves no block behind. -/
theorem Server.new_eq (options : JsValue) (m : Memory ChannelArgs.Block) :
    ∃ m', Server.new options m = some (Server.expected options, m') ∧ m'.block = m.block := by
  unfold Server.new Server.expected
  obtain ⟨pointer, m₁, m₂, hdeallocate, hblock, ⟨hcore, hparse⟩ | ⟨args, hcore, hparse, hread⟩⟩ :=
    ChannelArgs.parse_cases options m
  · exact ⟨m₂, by simp [hcore, hparse, hdeallocate], hblock⟩
  · exact ⟨m₂, by simp [hcore, hparse, hread, hdeallocate], hblock⟩

/-- For an options object the arguments are those of `channelNew`, up to null characters. -/
theorem Channel.expected_object (host : JsValue) (credentials : Option (Option κ))
    (options : Options) :
    (Channel.expected host credentials (.object options.entries)).map CoreChannel.args =
      (channelNew host credentials.isSome options).map fun es => some (es.map ChannelArgs.coreArg) := by
  unfold Channel.expected channelNew
  have hcore : ChannelArgs.coreArgs? (.object options.entries) =
      (parseChannelArgs options.entries).map fun es => some (es.map ChannelArgs.coreArg) := rfl
  rw [hcore]
  cases host.string? with
  | none => rfl
  | some s =>
      cases credentials with
      | none => rfl
      | some credentials => cases parseChannelArgs options.entries <;> rfl

/-- A call of a constructor of the addon -/
inductive Construction (κ : Type)
  | channel (host : JsValue) (credentials : Option (Option κ)) (options : JsValue)
  | server (options : JsValue)

/-- What the core is called with, or the exception. -/
inductive Constructed (κ : Type)
  | channel (result : Except JsError (CoreChannel κ))
  | server (result : Except JsError (Option (List (Buffer × CoreValue))))

/-- A constructor is called. -/
def Construction.perform (m : Memory ChannelArgs.Block) :
    Construction κ → Option (Constructed κ × Memory ChannelArgs.Block)
  | .channel host credentials options =>
      (Channel.new host credentials options m).map fun (result, m) => (.channel result, m)
  | .server options => (Server.new options m).map fun (result, m) => (.server result, m)

/-- What a constructor gives, without the memory. -/
def Construction.expected : Construction κ → Constructed κ
  | .channel host credentials options => .channel (Channel.expected host credentials options)
  | .server options => .server (Server.expected options)

/-- Constructors that are called one after the other -/
def performAll : List (Construction κ) → Memory ChannelArgs.Block →
    Option (List (Constructed κ) × Memory ChannelArgs.Block)
  | [], m => some ([], m)
  | construction :: constructions, m => do
      let (result, m) ← construction.perform m
      let (results, m) ← performAll constructions m
      return (result :: results, m)

/-- The two constructors together. -/
theorem Construction.perform_eq (construction : Construction κ) (m : Memory ChannelArgs.Block) :
    ∃ m', construction.perform m = some (construction.expected, m') ∧ m'.block = m.block := by
  cases construction with
  | channel host credentials options =>
      obtain ⟨m', hnew, hblock⟩ := Channel.new_eq host credentials options m
      exact ⟨m', by rw [perform, hnew]; rfl, hblock⟩
  | server options =>
      obtain ⟨m', hnew, hblock⟩ := Server.new_eq options m
      exact ⟨m', by rw [perform, hnew]; rfl, hblock⟩

/-- **Options leave nothing behind.** Whatever channels and servers are made of, with options that
are accepted or refused: no block is used or freed that is not allocated, the core can read exactly
the options that are accepted, and in the end all copies are freed and nothing else is. -/
theorem performAll_released (constructions : List (Construction κ)) (m : Memory ChannelArgs.Block) :
    ∃ m', performAll constructions m = some (constructions.map Construction.expected, m') ∧
      m'.block = m.block := by
  induction constructions generalizing m with
  | nil => exact ⟨m, rfl, rfl⟩
  | cons construction constructions ih =>
      obtain ⟨m₁, hperform, hblock₁⟩ := construction.perform_eq m
      obtain ⟨m₂, hall, hblock₂⟩ := ih m₁
      exact ⟨m₂, by simp [performAll, hperform, hall], hblock₂.trans hblock₁⟩

/-- The second option is refused, after the first one has been copied. -/
example : (performAll [Construction.channel (κ := Unit) (.string "host") (some none)
      (.object [("a", .string "b"), ("c", .boolean true)])] Memory.empty).map
      (fun e => (e.2.next, (List.range e.2.next).map fun a => (e.2.block a).isSome)) =
    some (4, [false, false, false, false]) := by decide

end GrpcNode.NativeCore
