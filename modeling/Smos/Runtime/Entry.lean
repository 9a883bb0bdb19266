/-
Smos.Runtime.Entry — how a program finds its arguments and environment.

`_start` takes `argc` and two pointers from the stack and the runtime copies
the pointer arrays into arrays of 32 entries: `argv` as far as `argc` says,
`envp` up to a null pointer. What the pointers lead to is read each time it is
asked for: an argument is the string up to the next NUL below the top of the
stack, which is the first entry of the environment; the others are words.

The program's memory is a function from addresses to bytes and any of it can
be read; whether it is mapped is not the runtime's business.
-/
import Smos.Base.Bytes
import Smos.Ipc.SpawnStrings

namespace Smos.Runtime

open Smos.Base Smos.Ipc

/-! ## Programs -/

inductive Panic where
  | arithmeticOverflow
  | indexOutOfBounds
  | unwrapNone
  | assertionFailed
  | corruptedEnvp
  deriving DecidableEq, Repr

/-- What a program does to its own memory. -/
abbrev UProg (α : Type) := Prog Panic Memory Empty α

/-- `LittleEndian::read_u64`. -/
def readU64 (m : Memory) (a : Nat) : Nat := leValue (load m a 8)

/-- The length of the arrays of `ArgsInner` and `EnvVarsInner`. -/
def innerLength : Nat := 32

/-- `ENVP_MIN_SIZE`. -/
def envpMinSize : Nat := 3

/-- `ENVP_STACK_TOP`. -/
def envpStackTop : Nat := 0

/-- `ENVP_IPC_BUFFER`. -/
def envpIpcBuffer : Nat := 1

/-- `ENVP_RS_SHARED_BUF`. -/
def envpRsSharedBuf : Nat := 2

/-! ## The environment -/

structure EnvVarsInner where
  inner : List Nat
  size : Nat
  index : Nat

/-- The loop of `init_env` from entry `i` on: the array, and the size if a null pointer came. -/
def readEnvp (envp : Nat) : Nat → Nat → List Nat → UProg (List Nat × Nat)
  | 0, _, inner => pure (inner, 0)
  | n + 1, i, inner => do
    let word ← Prog.gets fun m => readU64 m (envp + 8 * i)
    if word = 0 then pure (inner.set i word, i) else readEnvp envp n (i + 1) (inner.set i word)

/-- `init_env`. -/
def initEnv (envp : Nat) : UProg EnvVarsInner := do
  let (inner, size) ← readEnvp envp innerLength 0 (List.replicate innerLength 0)
  if size < envpMinSize then Prog.panic .corruptedEnvp else pure ⟨inner, size, 0⟩

namespace EnvVarsInner

/-- `EnvVarsInner::next`. -/
def next (e : EnvVarsInner) : UProg (Option Nat × EnvVarsInner) :=
  if e.index < e.size then do
    let pointer ← e.inner[e.index]? |> Prog.unwrap .indexOutOfBounds
    let res ← Prog.gets fun m => readU64 m pointer
    pure (some res, { e with index := e.index + 1 })
  else pure (none, e)

/-- `Iterator::nth`. -/
def nth : Nat → EnvVarsInner → UProg (Option Nat)
  | 0, e => do
    let (word, _) ← e.next
    pure word
  | n + 1, e => do
    let (word, e) ← e.next
    if word.isNone then pure none else nth n e

/-- `Iterator::collect`; every turn that goes on takes the index further. -/
def collect : Nat → EnvVarsInner → UProg (List Nat)
  | 0, _ => pure []
  | n + 1, e => do
    match ← e.next with
    | (none, _) => pure []
    | (some word, e) => do
      let words ← collect n e
      pure (word :: words)

end EnvVarsInner

/-! ## The arguments -/

structure ArgsInner where
  inner : List Nat
  size : Nat
  index : Nat

/-- `init_args`. -/
def initArgs (argc argv : Nat) : UProg ArgsInner :=
  if argc > 0 then do
    -- `&mut inner[0..argc]`
    Prog.assert .indexOutOfBounds (argc ≤ innerLength)
    let words ← Prog.gets fun m => (List.range argc).map fun i => readU64 m (argv + 8 * i)
    pure ⟨words ++ List.replicate (innerLength - argc) 0, argc, 0⟩
  else pure ⟨List.replicate innerLength 0, argc, 0⟩

/-- What the two `static mut`s are set to. -/
structure Statics where
  argsInner : ArgsInner
  envInner : EnvVarsInner

namespace Statics

variable (t : Statics)

/-- `env::stack_top`. -/
def stackTop : UProg Nat := do (← t.envInner.nth envpStackTop) |> Prog.unwrap .unwrapNone

/-- `env::ipc_buffer`. -/
def ipcBuffer : UProg Nat := do (← t.envInner.nth envpIpcBuffer) |> Prog.unwrap .unwrapNone

/-- `env::rs_shared_buf`. -/
def rsSharedBuf : UProg Nat := do (← t.envInner.nth envpRsSharedBuf) |> Prog.unwrap .unwrapNone

/-- `ArgsInner::next`; a string that cannot be read ends the list. -/
def nextArg (a : ArgsInner) : UProg (Option String × ArgsInner) :=
  if a.index < a.size then do
    let pointer ← a.inner[a.index]? |> Prog.unwrap .indexOutOfBounds
    let top ← t.stackTop
    Prog.assert .arithmeticOverflow (pointer ≤ top)
    let slice ← Prog.gets fun m => load m pointer (top - pointer)
    match rustStrFromBuffer slice with
    | .ok (s, _) => pure (some s, { a with index := a.index + 1 })
    | .error _ => pure (none, a)
  else pure (none, a)

/-- `Iterator::collect`. -/
def collectArgs : Nat → ArgsInner → UProg (List String)
  | 0, _ => pure []
  | n + 1, a => do
    match ← t.nextArg a with
    | (none, _) => pure []
    | (some s, a) => do
      let args ← collectArgs n a
      pure (s :: args)

/-- `args().collect()`. -/
def args : UProg (List String) := t.collectArgs (t.argsInner.size - t.argsInner.index) t.argsInner

/-- `env_vars().collect()`. -/
def envVars : UProg (List Nat) :=
  t.envInner.collect (t.envInner.size - t.envInner.index)

end Statics

/-- `_start` and `sel4_runtime_rust_entry`, with the stack pointer at `sp`. -/
def entry (sp : Nat) : UProg Statics := do
  let argc ← Prog.gets fun m => leValue (load m sp 4)
  let argv ← Prog.gets fun m => readU64 m (sp + 4)
  let envp ← Prog.gets fun m => readU64 m (sp + 12)
  let argsInner ← initArgs argc argv
  let envInner ← initEnv envp
  pure ⟨argsInner, envInner⟩

/-- A program that is started with its stack pointer at `sp` reads these arguments and words. -/
def Reads (m : Memory) (sp : Nat) (args : List String) (env : List Nat) : Prop :=
  ∃ t : Statics, entry sp m = .ok t m ∧ t.args m = .ok args m ∧ t.envVars m = .ok env m

end Smos.Runtime
