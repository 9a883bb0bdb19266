/-
Smos.Loader.Stack — the stack that the loader fills for its program.

The loader is started on a stack of its own and finds there the name of the
file, the name of the file server and the arguments of the program. It maps a
new stack and writes to it through its own memory: the environment with the
new top, the arguments from the third on, the arrays and the count. Where
there are no arguments the pointer to their array is null.

Pointers that would wrap are a panic here; the slices are as long as what is
written to them.
-/
import Smos.Runtime.StackLayout

namespace Smos.Loader

open Smos.Base Smos.Runtime Smos.Ipc

/-! ## The code -/

/-- `STACK_TOP`. -/
def stackTop : Nat := 0xA0000000

/-- `STACK_PAGES`. -/
def stackPages : Nat := 100

/-- Where the stack's window starts. -/
def stackBottom : Nat := stackTop - stackPages * 4096

/-- `ptr.sub`. -/
def ptrSub (p n : Nat) : UProg Nat :=
  if n ≤ p then pure (p - n) else Prog.panic .arithmeticOverflow

/-- Write to a slice made from a pointer. -/
def writeSlice (p : Nat) (bytes : List UInt8) : UProg Unit := Prog.modify (put p bytes)

/-- The strings, downwards: the pointer after them, and where they are. -/
def copyArgs : List String → Nat → List Nat → UProg (Nat × List Nat)
  | [], currSp, argv => pure (currSp, argv)
  | arg :: args, currSp, argv => do
    let currSp ← ptrSub currSp ((strBytes arg).length + 1)
    writeSlice currSp (strBytes arg ++ [0])
    copyArgs args currSp (argv ++ [currSp])

/-- The environment of the program: where the array of its pointers is. -/
def writeEnvp (t : Statics) : UProg Nat := do
  let currSp ← ptrSub stackTop 8
  writeSlice currSp (leBytes 8 0xA0000000)
  let envp := [currSp]
  let currSp ← ptrSub currSp 8
  writeSlice currSp (leBytes 8 (← t.ipcBuffer))
  let envp := envp ++ [currSp]
  let currSp ← ptrSub currSp 8
  writeSlice currSp (leBytes 8 (← t.rsSharedBuf))
  let envp := envp ++ [currSp, 0]
  let currSp ← ptrSub currSp (8 * envp.length)
  writeSlice currSp (envp.flatMap (leBytes 8))
  pure currSp

/-- The arguments of the program below `currSp`: the pointer after them, the pointer to their
array, and how many they are. -/
def writeArgv (args : List String) (currSp : Nat) : UProg (Nat × Nat × Nat) :=
  if args.length > 0 then do
    let (currSp, argv) ← copyArgs args currSp []
    let currSp ← ptrSub currSp (currSp % 8)
    let currSp ← ptrSub currSp (8 * argv.length)
    writeSlice currSp (argv.flatMap (leBytes 8))
    pure (currSp, currSp, argv.length)
  else pure (currSp, 0, 0)

/-- The stack set-up of `main`: the program's stack pointer. -/
def setUpStack (t : Statics) (args : List String) : UProg Nat := do
  let envpPtr ← writeEnvp t
  let (currSp, argvPtr, argc) ← writeArgv args envpPtr
  let currSp ← ptrSub currSp 8
  writeSlice currSp (leBytes 8 envpPtr)
  let currSp ← ptrSub currSp 8
  writeSlice currSp (leBytes 8 argvPtr)
  let currSp ← ptrSub currSp 4
  -- `argv.len().try_into().unwrap()`
  Prog.assert .unwrapNone (argc < 2 ^ 32)
  writeSlice currSp (leBytes 4 argc)
  pure currSp

/-- What `main` does with its arguments, once the new stack is mapped. -/
def mainStack (sp : Nat) : UProg Nat := do
  let t ← entry sp
  let args ← t.args
  Prog.assert .assertionFailed (2 ≤ args.length)
  setUpStack t (args.drop 2)

/-! ## What is written -/

section Writing

variable {m m' : Memory} {p n top sp : Nat} {ss : List String} {bytes : List UInt8}

theorem ptrSub_ok (h : n ≤ p) : ptrSub p n m = .ok (p - n) m := by
  unfold ptrSub
  rw [if_pos h]
  rfl

theorem writeSlice_ok : writeSlice p bytes m = .ok () (put p bytes m) := rfl

theorem copyArgs_ok : ∀ (ss : List String) (currSp : Nat) (argv : List Nat) (m : Memory),
    stringBytes ss ≤ currSp → copyArgs ss currSp argv m =
      .ok (currSp - stringBytes ss, argv ++ stringAddrs ss currSp) (puts (stringWrites ss currSp) m)
  | [], currSp, argv, m, _ => by
    rw [stringBytes, Nat.sub_zero, show stringAddrs [] currSp = [] from rfl, List.append_nil]
    rfl
  | s :: ss, currSp, argv, m, h => by
    rw [stringBytes] at h
    have hlen := length_terminatedBytes s
    have hsub : ptrSub currSp ((strBytes s).length + 1) m =
        .ok (currSp - (terminatedBytes s).length) m := by
      rw [← hlen]
      exact ptrSub_ok (by omega)
    have hrest := copyArgs_ok ss (currSp - (terminatedBytes s).length)
      (argv ++ [currSp - (terminatedBytes s).length])
      (put (currSp - (terminatedBytes s).length) (terminatedBytes s) m) (by omega)
    refine (Prog.bind_of_ok hsub).trans ((Prog.bind_of_ok writeSlice_ok).trans ?_)
    refine hrest.trans ?_
    rw [Nat.sub_sub, List.append_assoc]
    rfl

/-- The environment is written, and does not depend on what is written. -/
theorem writeEnvp_ok {t : Statics} {e : Environment} (h : EnvReady m top t.envInner e.words)
    (hindex : t.envInner.index = 0) (htop : top ≤ stackTop - 56) :
    writeEnvp t m = .ok (envpAt stackTop)
      (puts (envWrites stackTop ⟨stackTop, e.ipcBuffer, e.rsSharedBuf⟩) m) := by
  have hbelow : ∀ (ws : List (Nat × List UInt8)) (m₁ : Memory), (∀ w ∈ ws, top ≤ w.1) →
      ∀ x < top, puts ws m₁ x = m₁ x := by
    intro ws
    induction ws with
    | nil => exact fun _ _ _ _ => rfl
    | cons w ws ih =>
      intro m₁ hw x hx
      have hfirst := hw w List.mem_cons_self
      refine (ih _ (fun w' hw' => hw w' (List.mem_cons_of_mem _ hw')) x hx).trans ?_
      exact put_of_lt (by omega)
  have htop' : top ≤ 0xA0000000 - 56 := htop
  have hw₁ : ∀ w ∈ [(stackTop - 8, leBytes 8 0xA0000000)], top ≤ w.1 := by
    intro w hw
    obtain rfl := List.mem_singleton.mp hw
    show top ≤ 0xA0000000 - 8
    omega
  have hw₂ : ∀ w ∈ [(stackTop - 8, leBytes 8 0xA0000000), (stackTop - 8 - 8,
      leBytes 8 e.ipcBuffer)], top ≤ w.1 := by
    intro w hw
    rcases List.mem_cons.mp hw with rfl | hw
    · exact hw₁ _ (List.mem_singleton_self _)
    · obtain rfl := List.mem_singleton.mp hw
      show top ≤ 0xA0000000 - 8 - 8
      omega
  have hipc := (Prog.bind_of_ok ((h.congr (hbelow _ m hw₁)).start (n := 1) hindex rfl)).trans
    (show Prog.unwrap Panic.unwrapNone (some e.ipcBuffer) _ = Outcome.ok e.ipcBuffer _ from rfl)
  have hrs := (Prog.bind_of_ok ((h.congr (hbelow _ m hw₂)).start (n := 2) hindex rfl)).trans
    (show Prog.unwrap Panic.unwrapNone (some e.rsSharedBuf) _ = Outcome.ok e.rsSharedBuf _ from rfl)
  unfold writeEnvp
  refine (Prog.bind_of_ok (ptrSub_ok (by decide))).trans ((Prog.bind_of_ok writeSlice_ok).trans ?_)
  refine (Prog.bind_of_ok (ptrSub_ok (by decide))).trans ((Prog.bind_of_ok hipc).trans ?_)
  refine (Prog.bind_of_ok writeSlice_ok).trans ?_
  refine (Prog.bind_of_ok (ptrSub_ok (by decide))).trans ((Prog.bind_of_ok hrs).trans ?_)
  refine (Prog.bind_of_ok writeSlice_ok).trans ?_
  exact (Prog.bind_of_ok (ptrSub_ok (by decide))).trans rfl

/-- The pointer to the strings' array. -/
def argvPtr (ss : List String) : Nat := if ss = [] then 0 else argvAt stackTop ss

/-- The arguments, and their array. -/
theorem writeArgv_ok (hroom : Room stackTop ss) (m : Memory) :
    writeArgv ss (envpAt stackTop) m = .ok (argvAt stackTop ss, argvPtr ss, ss.length)
      (puts (stringWrites ss (envpAt stackTop) ++ argvWrites stackTop ss) m) := by
  have hsize := hroom.room
  have hend := argvEnd_le stackTop ss
  have henvp : envpAt stackTop = stackTop - 56 := rfl
  unfold writeArgv argvPtr
  by_cases hss : ss = []
  · subst hss
    have hargv : argvAt stackTop [] = envpAt stackTop := rfl
    have hno : ¬ ([] : List String).length > 0 := Nat.lt_irrefl 0
    rw [if_neg hno, if_pos rfl, hargv]
    -- an empty array changes nothing
    have hnone : puts (stringWrites [] (envpAt stackTop) ++ argvWrites stackTop []) m = m := by
      funext x
      show put _ [] m x = m x
      unfold put
      split <;> rfl
    rw [hnone]
    rfl
  · have hpos : ss.length > 0 := List.length_pos_iff.mpr hss
    have hcopy := copyArgs_ok ss (envpAt stackTop) [] m (by omega)
    have hargvEnd : envpAt stackTop - stringBytes ss - (envpAt stackTop - stringBytes ss) % 8 =
        argvEnd stackTop ss := rfl
    rw [if_pos hpos, if_neg hss, puts_append]
    refine (Prog.bind_of_ok hcopy).trans ((Prog.bind_of_ok (ptrSub_ok (Nat.mod_le _ _))).trans ?_)
    rw [List.nil_append, length_stringAddrs, hargvEnd]
    refine (Prog.bind_of_ok (ptrSub_ok (by omega))).trans ?_
    exact (Prog.bind_of_ok writeSlice_ok).trans rfl

theorem setUpStack_ok {t : Statics} {e : Environment} (h : EnvReady m top t.envInner e.words)
    (hindex : t.envInner.index = 0) (htop : top ≤ stackTop - 56) (hroom : Room stackTop ss)
    (hfew : ss.length < 2 ^ 32) :
    setUpStack t ss m = .ok (stackPointer stackTop ss) (puts (stackWrites stackTop (argvPtr ss)
      ⟨stackTop, e.ipcBuffer, e.rsSharedBuf⟩ ss) m) := by
  have hsize := hroom.room
  have hend := argvEnd_le stackTop ss
  have henvp : envpAt stackTop = stackTop - 56 := rfl
  have hargv : argvAt stackTop ss = argvEnd stackTop ss - 8 * ss.length := rfl
  have hassert : ∀ m₁ : Memory, (Prog.assert .unwrapNone (ss.length < 2 ^ 32) : UProg Unit) m₁ =
      .ok () m₁ := by
    intro m₁
    unfold Prog.assert
    rw [decide_eq_true hfew]
    rfl
  unfold setUpStack
  refine (Prog.bind_of_ok (writeEnvp_ok h hindex htop)).trans ?_
  refine (Prog.bind_of_ok (writeArgv_ok hroom _)).trans ?_
  refine (Prog.bind_of_ok (ptrSub_ok (by omega))).trans ((Prog.bind_of_ok writeSlice_ok).trans ?_)
  refine (Prog.bind_of_ok (ptrSub_ok (by omega))).trans ((Prog.bind_of_ok writeSlice_ok).trans ?_)
  refine (Prog.bind_of_ok (ptrSub_ok (by omega))).trans ((Prog.bind_of_ok (hassert _)).trans ?_)
  refine (Prog.bind_of_ok writeSlice_ok).trans ?_
  have hptr : argvAt stackTop ss - 8 - 8 = argvAt stackTop ss - 16 := by omega
  have hcount : argvAt stackTop ss - 20 = stackPointer stackTop ss := rfl
  simp only [stackWrites, List.append_assoc, puts_append, hptr, countWrites, hcount]
  rfl

/-- A loader that was started on an image passes the arguments from the third on. -/
theorem mainStack_ok {args : List String} {e : Environment}
    (h : StackImage m sp top args e.words) (hs : ∀ s ∈ args, NulFree s)
    (hn : args.length ≤ innerLength) (hargs : 2 ≤ args.length) (htop : top ≤ stackTop - 56)
    (hroom : Room stackTop (args.drop 2)) :
    mainStack sp m = .ok (stackPointer stackTop (args.drop 2))
      (puts (stackWrites stackTop (argvPtr (args.drop 2))
        ⟨stackTop, e.ipcBuffer, e.rsSharedBuf⟩ (args.drop 2)) m) := by
  have hno : ∀ p : Runtime.Panic, ¬ (p = .indexOutOfBounds ∧ innerLength < args.length) :=
    fun p hp => Nat.not_lt.mpr hn hp.2
  have hentry := Prog.wp_mono (entry_spec h hs) (fun _ _ hq => hq) (fun _ _ hf => hf)
    fun p hp => hno p hp
  obtain ⟨t, m₁, hok, hm₁, -, henv, hindex, hready, hindex'⟩ := Prog.exists_ok hentry
  obtain rfl : m = m₁ := hm₁.symm
  have hcollect := hready.collect (t.argsInner.size - t.argsInner.index)
    (by rw [hready.size, hindex']; omega)
  have hall : args.drop t.argsInner.index = args := by rw [hindex', List.drop_zero]
  rw [hall] at hcollect
  have hassert : (Prog.assert .assertionFailed (2 ≤ args.length) : UProg Unit) m = .ok () m := by
    unfold Prog.assert
    rw [decide_eq_true hargs]
    rfl
  have hfew : (args.drop 2).length < 2 ^ 32 := by
    have hbound : innerLength < 2 ^ 32 := by decide
    rw [List.length_drop]
    omega
  unfold mainStack
  refine (Prog.bind_of_ok hok).trans ((Prog.bind_of_ok hcollect).trans ?_)
  exact (Prog.bind_of_ok hassert).trans (setUpStack_ok henv hindex htop hroom hfew)

end Writing

end Smos.Loader
