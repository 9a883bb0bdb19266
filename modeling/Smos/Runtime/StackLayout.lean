/-
Smos.Runtime.StackLayout — a new program's stack, from the top downwards.

The three words of the environment come first, then the array of pointers to
them, then the strings one below the other. From there the addresses are a
multiple of eight again: the array of pointers to the strings, the pointers to
both arrays, and the count, where the stack pointer ends up.

Both writers follow this order (`stackWrites`); what they leave is an image
(`image_of_writes`), whatever was in memory before.
-/
import Smos.Runtime.StackImage

namespace Smos.Runtime

open Smos.Base Smos.Ipc

/-! ## The layout -/

/-- The environment: the top of the stack, the IPC buffer and the buffer shared with the root
server. -/
structure Environment where
  stackTop : Nat
  ipcBuffer : Nat
  rsSharedBuf : Nat

def Environment.words (e : Environment) : List Nat := [e.stackTop, e.ipcBuffer, e.rsSharedBuf]

/-- The bytes that strings take up with their terminators. -/
def stringBytes : List String → Nat
  | [] => 0
  | s :: ss => (terminatedBytes s).length + stringBytes ss

/-- The strings, each below the one before. -/
def stringWrites : List String → Nat → List (Nat × List UInt8)
  | [], _ => []
  | s :: ss, top =>
    let a := top - (terminatedBytes s).length
    (a, terminatedBytes s) :: stringWrites ss a

/-- Where the strings are. -/
def stringAddrs (ss : List String) (top : Nat) : List Nat := (stringWrites ss top).map Prod.fst

/-- The array of pointers to the environment. -/
def envpAt (top : Nat) : Nat := top - 56

def envWrites (top : Nat) (e : Environment) : List (Nat × List UInt8) :=
  [(top - 8, leBytes 8 e.stackTop), (top - 16, leBytes 8 e.ipcBuffer),
    (top - 24, leBytes 8 e.rsSharedBuf),
    (envpAt top, [top - 8, top - 16, top - 24, 0].flatMap (leBytes 8))]

/-- The end of the array of pointers to the strings. -/
def argvEnd (top : Nat) (ss : List String) : Nat :=
  let vaddr := envpAt top - stringBytes ss
  vaddr - vaddr % 8

/-- The array of pointers to the strings. -/
def argvAt (top : Nat) (ss : List String) : Nat := argvEnd top ss - 8 * ss.length

def argvWrites (top : Nat) (ss : List String) : List (Nat × List UInt8) :=
  [(argvAt top ss, (stringAddrs ss (envpAt top)).flatMap (leBytes 8))]

/-- What is below the arrays: the pointers to them, and the count. -/
def countWrites (top argvPtr : Nat) (ss : List String) : List (Nat × List UInt8) :=
  let vaddr := argvAt top ss
  [(vaddr - 8, leBytes 8 (envpAt top)), (vaddr - 16, leBytes 8 argvPtr),
    (vaddr - 20, leBytes 4 ss.length)]

/-- The writes, in their order. -/
def stackWrites (top argvPtr : Nat) (e : Environment) (ss : List String) :
    List (Nat × List UInt8) :=
  envWrites top e ++ stringWrites ss (envpAt top) ++ argvWrites top ss ++ countWrites top argvPtr ss

/-- The stack pointer. -/
def stackPointer (top : Nat) (ss : List String) : Nat := argvAt top ss - 20

section Layout

variable {top argvPtr : Nat} {e : Environment} {s : String} {ss : List String}

theorem length_terminatedBytes (s : String) : (terminatedBytes s).length = (strBytes s).length + 1 :=
  List.length_append

theorem stringBytes_append (ss ss' : List String) :
    stringBytes (ss ++ ss') = stringBytes ss + stringBytes ss' := by
  induction ss with
  | nil => simp [stringBytes]
  | cons s ss ih =>
    rw [List.cons_append, stringBytes, stringBytes, ih, Nat.add_assoc]

theorem length_le_stringBytes (ss : List String) : ss.length ≤ stringBytes ss := by
  induction ss with
  | nil => exact Nat.zero_le _
  | cons s ss ih =>
    rw [List.length_cons, stringBytes, length_terminatedBytes]
    omega

/-! ## The strings -/

theorem stringWrites_descends (h : stringBytes ss ≤ top) :
    Descends top (stringWrites ss top) ∧ lowest top (stringWrites ss top) = top - stringBytes ss := by
  induction ss generalizing top with
  | nil => exact ⟨trivial, rfl⟩
  | cons s ss ih =>
    rw [stringBytes] at h
    have hrest : stringBytes ss ≤ top - (terminatedBytes s).length := by omega
    obtain ⟨hrest, hlow⟩ := ih hrest
    refine ⟨⟨by simp only; omega, hrest⟩, ?_⟩
    simp only [stringWrites, lowest, stringBytes]
    rw [hlow, Nat.sub_sub]

theorem stringWrites_append (ss ss' : List String) : ∀ top, stringWrites (ss ++ ss') top =
    stringWrites ss top ++ stringWrites ss' (top - stringBytes ss) := by
  induction ss with
  | nil => exact fun _ => rfl
  | cons s ss ih =>
    intro top
    simp only [List.cons_append, stringWrites, stringBytes, ih, Nat.sub_sub]

@[simp] theorem length_stringAddrs (ss : List String) (top : Nat) :
    (stringAddrs ss top).length = ss.length := by
  unfold stringAddrs
  rw [List.length_map]
  induction ss generalizing top with
  | nil => rfl
  | cons s ss ih => exact congrArg Nat.succ (ih _)

/-- Each string is written where its pointer says. -/
theorem forall₂_stringAddrs (ss : List String) (top : Nat) :
    List.Forall₂ (fun a s => (a, terminatedBytes s) ∈ stringWrites ss top) (stringAddrs ss top) ss := by
  induction ss generalizing top with
  | nil => exact .nil
  | cons s ss ih =>
    refine .cons List.mem_cons_self ((ih _).imp fun a s' h => ?_)
    exact List.mem_cons_of_mem _ h

/-! ## All writes -/

/-- There is room for it below the top, which is a multiple of eight. -/
structure Room (top : Nat) (ss : List String) : Prop where
  aligned : top % 8 = 0
  room : 96 + stringBytes ss + 8 * ss.length ≤ top
  top_lt : top < wordBound

theorem argvEnd_le (top : Nat) (ss : List String) :
    argvEnd top ss ≤ envpAt top - stringBytes ss ∧ argvEnd top ss % 8 = 0 ∧
      envpAt top - stringBytes ss < argvEnd top ss + 8 := by
  unfold argvEnd
  simp only
  omega

theorem stackWrites_descends (h : Room top ss) :
    Descends top (stackWrites top argvPtr e ss) ∧
      lowest top (stackWrites top argvPtr e ss) = stackPointer top ss := by
  have hroom := h.room
  have hend := argvEnd_le top ss
  have henvp : envpAt top = top - 56 := rfl
  have hargv : argvAt top ss = argvEnd top ss - 8 * ss.length := rfl
  have henv : Descends top (envWrites top e) ∧ lowest top (envWrites top e) = envpAt top := by
    simp only [envWrites, Descends, lowest, length_leBytes, List.length_flatMap, List.map_cons,
      List.map_nil, List.sum_cons, List.sum_nil, and_true]
    omega
  have hroomFor : stringBytes ss ≤ envpAt top := by omega
  have hstrings := stringWrites_descends hroomFor
  have hargvWrites : Descends (envpAt top - stringBytes ss) (argvWrites top ss) ∧
      lowest (envpAt top - stringBytes ss) (argvWrites top ss) = argvAt top ss := by
    have hlen : ((stringAddrs ss (envpAt top)).flatMap (leBytes 8)).length = 8 * ss.length := by
      simp [List.length_flatMap, Nat.mul_comm]
    simp only [argvWrites, Descends, lowest, hlen, and_true]
    omega
  have hcount : Descends (argvAt top ss) (countWrites top argvPtr ss) ∧
      lowest (argvAt top ss) (countWrites top argvPtr ss) = stackPointer top ss := by
    simp only [countWrites, Descends, lowest, length_leBytes, stackPointer, and_true]
    omega
  unfold stackWrites
  simp only [descends_append, lowest_append, henv.2, hstrings.2, hargvWrites.2]
  exact ⟨⟨⟨⟨henv.1, hstrings.1⟩, hargvWrites.1⟩, hcount.1⟩, hcount.2⟩

/-- Memory that is as the writes left it below the top is an image. -/
theorem image_of_writes (h : Room top ss) (hfew : ss.length < 256 ^ 4)
    (htop : e.stackTop = top) (hipc : e.ipcBuffer < wordBound) (hrs : e.rsSharedBuf < wordBound)
    (hargvPtr : ss = [] ∧ argvPtr = 0 ∨ argvPtr = argvAt top ss) {m m' : Memory}
    (hm : ∀ a, stackPointer top ss ≤ a → a < top → m' a = puts (stackWrites top argvPtr e ss) m a) :
    StackImage m' (stackPointer top ss) top ss e.words := by
  obtain ⟨hdesc, hlow⟩ : Descends top (stackWrites top argvPtr e ss) ∧
      lowest top (stackWrites top argvPtr e ss) = stackPointer top ss := stackWrites_descends h
  have hroom := h.room
  have htopLt := h.top_lt
  have hend := argvEnd_le top ss
  have henvp : envpAt top = top - 56 := rfl
  have hargv : argvAt top ss = argvEnd top ss - 8 * ss.length := rfl
  -- what was written is still there
  have hthere : ∀ {a bs}, (a, bs) ∈ stackWrites top argvPtr e ss → Holds m' a bs := by
    intro a bs hw
    obtain ⟨hlo, hhi⟩ := mem_bounds hdesc hw
    exact (holds_puts hdesc hw m).congr fun x hx hx' => hm x (by omega) (by omega)
  have hsp : stackPointer top ss + 4 = argvAt top ss - 16 ∧
      stackPointer top ss + 12 = argvAt top ss - 8 := by
    unfold stackPointer
    omega
  have hstrings : ∀ a s, (a, terminatedBytes s) ∈ stringWrites ss (envpAt top) →
      a < wordBound ∧ a + (terminatedBytes s).length ≤ top ∧ Holds m' a (terminatedBytes s) := by
    intro a s hw
    have hroomFor : stringBytes ss ≤ envpAt top := by omega
    obtain ⟨hdesc', -⟩ := stringWrites_descends hroomFor
    obtain ⟨-, hhi⟩ := mem_bounds hdesc' hw
    exact ⟨by omega, by omega, hthere (by simp [stackWrites, hw])⟩
  refine ⟨⟨argvPtr, envpAt top, stringAddrs ss (envpAt top), [top - 8, top - 16, top - 24],
    hthere (by simp [stackWrites, countWrites, stackPointer]), ?_, ?_, ?_, by omega, ?_,
    hthere (by simp [stackWrites, envWrites]), ?_, ?_⟩, hfew,
    ⟨Nat.le_refl 3, show 3 < 32 by decide⟩, by rw [← htop]; rfl⟩
  · rw [hsp.1]
    exact hthere (by simp [stackWrites, countWrites])
  · rw [hsp.2]
    exact hthere (by simp [stackWrites, countWrites])
  · rcases hargvPtr with ⟨-, rfl⟩ | rfl
    · decide
    · omega
  · rcases hargvPtr with ⟨rfl, -⟩ | rfl
    · exact rfl
    · exact hthere (by simp [stackWrites, argvWrites])
  · exact (forall₂_stringAddrs ss (envpAt top)).imp hstrings
  · refine .cons ⟨by omega, by omega, by omega, by omega, ?_⟩ (.cons
      ⟨by omega, by omega, by omega, hipc, ?_⟩ (.cons
      ⟨by omega, by omega, by omega, hrs, ?_⟩ .nil))
    all_goals exact hthere (by simp [stackWrites, envWrites])

end Layout

end Smos.Runtime
