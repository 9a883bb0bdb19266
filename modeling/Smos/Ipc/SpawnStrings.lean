/-
Smos.Ipc.SpawnStrings — the strings of `ProcSpawn` in the shared buffer.

The client writes the names and the arguments one after the other, each with
a terminator, into what is left of the buffer; the server is told how many
arguments there are and reads up to the next terminator each time. Here the
buffer is a part of memory, so that a write past its end would be seen, and a
range that does not lie in a slice is a panic.

Nothing is written outside the buffer. If all strings fit they are read back
as they were just if none has a NUL byte: a string that has one ends there,
and its rest is taken for the next string.
-/
import Smos.Ipc.RequestRoundTrip

namespace Smos.Ipc

open Smos.Base

/-! ## Slices of memory -/

abbrev Memory := Nat → UInt8

/-- A range that a slice does not have. -/
inductive SlicePanic where
  | outOfBounds
  deriving DecidableEq, Repr

/-- `&mut [u8]`. -/
structure Slice where
  start : Nat
  length : Nat
  deriving DecidableEq, Repr

/-- The memory after bytes are stored from an address on. -/
def store (a : Nat) (bytes : List UInt8) (m : Memory) : Memory := fun x =>
  if a ≤ x then bytes[x - a]?.getD (m x) else m x

namespace Slice

variable {ε : Type}

/-- What the slice holds. -/
def bytes (b : Slice) (m : Memory) : List UInt8 := (List.range b.length).map fun i => m (b.start + i)

/-- `buffer[offset..][..bytes.len()].copy_from_slice(bytes)`. -/
def write (b : Slice) (offset : Nat) (bytes : List UInt8) : Prog SlicePanic Memory ε Unit :=
  if offset + bytes.length ≤ b.length then Prog.modify (store (b.start + offset) bytes)
  else Prog.panic .outOfBounds

/-- `&mut buffer[n..length]`. -/
def drop (b : Slice) (n : Nat) : Prog SlicePanic Memory ε Slice :=
  if n ≤ b.length then pure ⟨b.start + n, b.length - n⟩ else Prog.panic .outOfBounds

/-- No byte outside the slice has changed. -/
def Confines (b : Slice) (m m' : Memory) : Prop :=
  ∀ x, x < b.start ∨ b.start + b.length ≤ x → m' x = m x

end Slice

/-- Stores one behind the other. -/
theorem store_append (a : Nat) (xs ys : List UInt8) (m : Memory) :
    store (a + xs.length) ys (store a xs m) = store a (xs ++ ys) m := by
  funext x
  unfold store
  by_cases hx : a ≤ x
  · by_cases hlt : a + xs.length ≤ x
    · have hnone : xs[x - a]? = none := List.getElem?_eq_none (by omega)
      rw [if_pos hlt, if_pos hx, if_pos hx, List.getElem?_append_right (by omega), hnone]
      rw [Nat.sub_sub]
      rfl
    · rw [if_neg hlt, if_pos hx, if_pos hx, List.getElem?_append_left (by omega)]
  · rw [if_neg (by omega), if_neg hx, if_neg hx]

theorem store_nil (a : Nat) (m : Memory) : store a [] m = m := by
  funext x
  unfold store
  simp

/-- A store that fits does not leave the slice. -/
theorem Slice.confines_store {b : Slice} {bytes : List UInt8} (h : bytes.length ≤ b.length)
    (m : Memory) : b.Confines m (store b.start bytes m) := by
  intro x hx
  unfold store
  by_cases hle : b.start ≤ x
  · rw [if_pos hle, List.getElem?_eq_none (by omega)]
    rfl
  · rw [if_neg hle]

theorem Slice.getElem?_bytes (b : Slice) (m : Memory) (i : Nat) :
    (b.bytes m)[i]? = if i < b.length then some (m (b.start + i)) else none := by
  unfold bytes
  rw [List.getElem?_map]
  split
  · next hi =>
    rw [List.getElem?_range hi]
    rfl
  · next hi =>
    rw [List.getElem?_eq_none (by rw [List.length_range]; omega)]
    rfl

/-- The slice begins with what was stored at its start. -/
theorem Slice.bytes_store {b : Slice} {xs : List UInt8} (h : xs.length ≤ b.length) (m : Memory) :
    b.bytes (store b.start xs m) = xs ++ (b.bytes m).drop xs.length := by
  refine List.ext_getElem? fun i => ?_
  rw [getElem?_bytes]
  by_cases hi : i < xs.length
  · rw [List.getElem?_append_left hi, if_pos (by omega)]
    simp [store, hi]
  · have hindex : xs.length + (i - xs.length) = i := by omega
    rw [List.getElem?_append_right (by omega), List.getElem?_drop, hindex, getElem?_bytes]
    simp [store, hi]

/-! ## Copying -/

/-- `copy_terminated_rust_string_to_buffer`, in memory. -/
def copyTerminatedTo (buffer : Slice) (s : String) :
    Prog SlicePanic Memory InvocationError Slice :=
  if (strBytes s).length + 1 > buffer.length then Prog.fail .bufferTooLarge
  else do
    buffer.write 0 (strBytes s)
    buffer.write (strBytes s).length [0]
    buffer.drop ((strBytes s).length + 1)

/-- Each string into what the last one left of the buffer. -/
def copyAllTo : List String → Slice → Prog SlicePanic Memory InvocationError Slice
  | [], buffer => pure buffer
  | s :: ss, buffer => do
    let buffer ← copyTerminatedTo buffer s
    copyAllTo ss buffer

/-- The copying of `process_spawn`. -/
def spawnCopies (executableName fsName : String) (argv : Option (List String)) (sharedBuf : Slice) :
    Prog SlicePanic Memory InvocationError Slice := do
  let sharedBuf ← copyTerminatedTo sharedBuf executableName
  let sharedBuf ← copyTerminatedTo sharedBuf fsName
  match argv with
  | some argv => copyAllTo argv sharedBuf
  | none => pure sharedBuf

/-- A string is stored with its terminator if it fits, and else nothing is. -/
theorem copyTerminatedTo_spec (buffer : Slice) (s : String) (m : Memory) :
    (copyTerminatedTo buffer s).wp
      (fun rest m' => (strBytes s ++ [0]).length ≤ buffer.length ∧
        rest = ⟨buffer.start + (strBytes s ++ [0]).length,
          buffer.length - (strBytes s ++ [0]).length⟩ ∧
        m' = store buffer.start (strBytes s ++ [0]) m)
      (fun _ m' => buffer.length < (strBytes s ++ [0]).length ∧ m' = m) (fun _ => False) m := by
  have hlength : (strBytes s ++ [0]).length = (strBytes s).length + 1 := by simp
  rw [hlength]
  simp only [copyTerminatedTo, Slice.write, Slice.drop, Prog.wp_ite, Prog.wp_bind, Prog.wp_fail,
    Prog.wp_modify, Prog.wp_pure, Prog.wp_panic, Nat.add_zero]
  refine ⟨fun hlarge => ⟨hlarge, trivial⟩, fun hfits => ?_⟩
  rw [Nat.not_lt] at hfits
  refine ⟨fun _ => ⟨fun _ => ⟨fun _ => ⟨hfits, trivial, store_append _ _ _ _⟩, ?_⟩, ?_⟩, ?_⟩
  · intro h
    exact h hfits
  · intro h
    exact h (by simpa using hfits)
  · intro h
    exact h (by omega)

theorem terminated_cons (s : String) (ss : List String) :
    terminated (s :: ss) = strBytes s ++ [0] ++ terminated ss := by
  simp [terminated]

/-- All strings are stored if they fit. Nothing else is stored outside the buffer. -/
theorem copyAllTo_spec : ∀ (ss : List String) (buffer : Slice) (m : Memory),
    (copyAllTo ss buffer).wp
      (fun _ m' => (terminated ss).length ≤ buffer.length ∧
        m' = store buffer.start (terminated ss) m)
      (fun _ m' => buffer.length < (terminated ss).length ∧ buffer.Confines m m')
      (fun _ => False) m
  | [], buffer, m => ⟨Nat.zero_le _, (store_nil _ _).symm⟩
  | s :: ss, buffer, m => by
      rw [copyAllTo, Prog.wp_bind, terminated_cons, List.length_append]
      refine Prog.wp_mono (copyTerminatedTo_spec buffer s m) ?_ ?_ fun _ h => h
      · intro rest m₁ ⟨hfits, hrest, hm₁⟩
        have hrec := copyAllTo_spec ss rest m₁
        rw [hrest] at hrec ⊢
        refine Prog.wp_mono hrec ?_ ?_ fun _ h => h
        · intro _ m₂ ⟨hle, hm₂⟩
          refine ⟨by simp only at hle; omega, ?_⟩
          rw [hm₂, hm₁]
          exact store_append _ _ _ _
        · intro e m₂ ⟨hlt, hconfined⟩
          refine ⟨by simp only at hlt; omega, fun x hx => ?_⟩
          rw [hconfined x (by simp only; omega), hm₁]
          exact Slice.confines_store hfits m x hx
      · intro e m₁ ⟨hlt, hm₁⟩
        refine ⟨by omega, fun x _ => ?_⟩
        rw [hm₁]

/-- The copying of `process_spawn` is that of all strings in their order. -/
theorem spawnCopies_eq (executableName fsName : String) (argv : Option (List String))
    (sharedBuf : Slice) : spawnCopies executableName fsName argv sharedBuf =
      copyAllTo (executableName :: fsName :: argv.getD []) sharedBuf := by
  cases argv <;> rfl

/-! ## Reading -/

theorem strBytes_fromUtf8 {bytes : List UInt8} {s : String} (h : fromUtf8 bytes = some s) :
    strBytes s = bytes := by
  unfold fromUtf8 String.fromUTF8? at h
  split at h
  · cases h
    show (bytes.toByteArray.data).toList = bytes
    rw [List.data_toByteArray]
  · cases h

/-- What is read as a string ended at the first NUL. -/
theorem nulFree_of_read {buffer rest : List UInt8} {s : String}
    (h : rustStrFromBuffer buffer = .ok (s, rest)) : NulFree s := by
  unfold rustStrFromBuffer at h
  split at h
  · cases h
  · next index hindex =>
    split at h
    · cases h
    · next s' hutf8 =>
      cases h
      obtain ⟨hlt, -, hbefore⟩ := List.findIdx?_eq_some_iff_getElem.mp hindex
      intro hzero
      rw [strBytes_fromUtf8 hutf8] at hzero
      obtain ⟨i, hi, heq⟩ := List.mem_take_iff_getElem.mp hzero
      have hnot := hbefore i (by omega)
      simp [heq] at hnot

theorem nulFree_of_readStr {buffer rest : List UInt8} {s : String} {b b' : IpcBuffer}
    (h : readStr buffer b = .ok (s, rest) b') : NulFree s := by
  unfold readStr at h
  cases hread : rustStrFromBuffer buffer with
  | error e =>
    rw [hread] at h
    cases h
  | ok x =>
    rw [hread] at h
    cases h
    exact nulFree_of_read hread

theorem nulFree_of_readArgs : ∀ {n : Nat} {buffer : List UInt8} {args : List String}
    {b b' : IpcBuffer}, readArgs n buffer b = .ok args b' → ∀ arg ∈ args, NulFree arg
  | 0, _, _, _, _, h, arg, harg => by
      cases h
      exact absurd harg List.not_mem_nil
  | n + 1, buffer, args, b, b', h, arg, harg => by
      obtain ⟨⟨first, rest⟩, b₁, hfirst, hrest⟩ := Prog.bind_ok h
      obtain ⟨others, b₂, hothers, hdone⟩ := Prog.bind_ok hrest
      cases hdone
      obtain heq | hmem := List.mem_cons.mp harg
      · rw [heq]
        exact nulFree_of_readStr hfirst
      · exact nulFree_of_readArgs hothers arg hmem

section Decoding

variable {info : MessageInfo} {buffer : List UInt8} {slot : Word} {b b' : IpcBuffer}

/-- No string of a decoded `ProcSpawn` has a NUL. -/
theorem nulFree_of_decoded {execName fsName : String} {prio : UInt8} {args : Option (List String)}
    (h : decodeArm info (some buffer) slot .procSpawn b =
      .ok (.processSpawn execName fsName prio args) b') :
    NulFree execName ∧ NulFree fsName ∧ ∀ arg ∈ args.getD [], NulFree arg := by
  rw [decodeArm] at h
  obtain ⟨buffer', b₁, hbuffer, h⟩ := Prog.bind_ok h
  cases hbuffer
  by_cases hlength : info.length ≠ 2
  · rw [if_pos hlength] at h
    cases h
  rw [if_neg hlength] at h
  obtain ⟨⟨exec, rest⟩, b₂, hexec, h⟩ := Prog.bind_ok h
  obtain ⟨⟨fs, rest'⟩, b₃, hfs, h⟩ := Prog.bind_ok h
  obtain ⟨argc, b₄, hargc, h⟩ := Prog.bind_ok h
  have hend : ∀ {args' : Option (List String)} {b₁ : IpcBuffer},
      (do
        let prio ← fMsg 1
        if prio.toNat < 256 then pure (.processSpawn exec fs prio.toUInt8 args')
        else Prog.panic .expect : Decoder SMOS_Invocation) b₁ =
          .ok (.processSpawn execName fsName prio args) b' →
        exec = execName ∧ fs = fsName ∧ args' = args := by
    intro args' b₁ h
    obtain ⟨prio', b₂, -, h⟩ := Prog.bind_ok h
    split at h
    · cases h
      exact ⟨rfl, rfl, rfl⟩
    · cases h
  by_cases hzero : argc = 0
  · simp only [if_pos hzero] at h
    obtain ⟨args', b₅, hargs, h⟩ := Prog.bind_ok h
    cases hargs
    obtain ⟨rfl, rfl, rfl⟩ := hend h
    exact ⟨nulFree_of_readStr hexec, nulFree_of_readStr hfs, fun arg harg => absurd harg List.not_mem_nil⟩
  · simp only [if_neg hzero] at h
    obtain ⟨read, b₅, hread, h⟩ := Prog.bind_ok h
    obtain ⟨args', b₆, hargs, h⟩ := Prog.bind_ok h
    cases hargs
    obtain ⟨rfl, rfl, rfl⟩ := hend h
    exact ⟨nulFree_of_readStr hexec, nulFree_of_readStr hfs, nulFree_of_readArgs hread⟩

end Decoding

/-! ## The round trip -/

section RoundTrip

/-- The message that `process_spawn` sends. -/
def spawnInfo : MessageInfo := { label := SMOSInvocation.procSpawn.label, length := 2 }

/-- The message registers of `process_spawn`. -/
def spawnRegs (argv : Option (List String)) (prio : UInt8) (b : IpcBuffer) : IpcBuffer :=
  (b.setReg 0 (UInt64.ofNat (argv.getD []).length)).setReg 1 prio.toUInt64

variable (executableName fsName : String) (prio : UInt8) (argv : Option (List String))

/-- What the client asked for; no list is as good as an empty one. -/
def asked : SMOS_Invocation :=
  .processSpawn executableName fsName prio (if argv.getD [] = [] then none else argv)

/-- The copying stays in the buffer and, if it succeeds, is decoded to what was asked for. -/
def SpawnRoundTrips (buffer : Slice) (m : Memory) (slot : Word) (b : IpcBuffer) : Prop :=
  (spawnCopies executableName fsName argv buffer).wp
    (fun _ m' => buffer.Confines m m' ∧
      getWith spawnInfo (some (buffer.bytes m')) slot false (spawnRegs argv prio b) =
        .ok (asked executableName fsName prio argv) (spawnRegs argv prio b))
    (fun _ m' => buffer.Confines m m') (fun _ => False) m

variable {executableName fsName prio argv} {buffer : Slice} {m : Memory} {slot : Word}
  {b : IpcBuffer}

theorem length_le_terminated (ss : List String) : ss.length ≤ (terminated ss).length := by
  induction ss with
  | nil => exact Nat.zero_le _
  | cons s ss ih =>
    rw [terminated_cons, List.length_append, List.length_cons, List.length_append]
    simp only [List.length_cons, List.length_nil]
    omega

/-- Strings that do not fit are refused. The others are read back just if none has a NUL. -/
theorem spawnRoundTrips_iff (hb : buffer.length < 2 ^ 64) :
    SpawnRoundTrips executableName fsName prio argv buffer m slot b ↔
      (buffer.length < (terminated (executableName :: fsName :: argv.getD [])).length ∨
        NulFree executableName ∧ NulFree fsName ∧ ∀ arg ∈ argv.getD [], NulFree arg) := by
  have hspec := copyAllTo_spec (executableName :: fsName :: argv.getD []) buffer m
  unfold SpawnRoundTrips
  rw [spawnCopies_eq]
  cases hrun : copyAllTo (executableName :: fsName :: argv.getD []) buffer m with
  | panic p => exact (Prog.wp_panic_of hspec hrun).elim
  | err e m' =>
    obtain ⟨hlt, hconfined⟩ := Prog.wp_err hspec hrun
    rw [Prog.wp_of_err hrun]
    exact ⟨fun _ => .inl hlt, fun _ => hconfined⟩
  | ok rest m' =>
    obtain ⟨hfits, hm'⟩ := Prog.wp_ok hspec hrun
    rw [Prog.wp_of_ok hrun, hm']
    have hdecode : getWith spawnInfo (some (buffer.bytes (store buffer.start
        (terminated (executableName :: fsName :: argv.getD [])) m))) slot false
          (spawnRegs argv prio b) =
        decodeArm spawnInfo (some (terminated (executableName :: fsName :: argv.getD []) ++
          (buffer.bytes m).drop (terminated (executableName :: fsName :: argv.getD [])).length))
          slot .procSpawn (spawnRegs argv prio b) := by
      rw [Slice.bytes_store hfits]
      rfl
    rw [hdecode]
    constructor
    · intro ⟨_, hasked⟩
      obtain ⟨hexec, hfs, hargs⟩ := nulFree_of_decoded hasked
      refine .inr ⟨hexec, hfs, fun arg harg => hargs arg ?_⟩
      split
      · next hnil =>
        rw [hnil] at harg
        exact absurd harg List.not_mem_nil
      · exact harg
    · intro hcase
      obtain hlt | ⟨hexec, hfs, hargs⟩ := hcase
      · exact absurd hfits (Nat.not_le.mpr hlt)
      · refine ⟨Slice.confines_store hfits m, ?_⟩
        have hcount : (argv.getD []).length < 2 ^ 64 := by
          have hle := length_le_terminated (executableName :: fsName :: argv.getD [])
          simp only [List.length_cons] at hle
          omega
        refine (procSpawnArm_ok hexec hfs hargs hcount rfl rfl rfl).trans ?_
        unfold asked
        cases argv with
        | none => rfl
        | some args => cases args <;> rfl

/-- Nothing but the names, in a buffer that they fill. -/
theorem spawnRoundTrips_full : SpawnRoundTrips "ls" "fs" 7 (some []) ⟨4096, 6⟩ (fun _ => 1) 0
    .blank :=
  (spawnRoundTrips_iff (by decide)).mpr (.inr ⟨by decide, by decide, by decide⟩)

/-- The second part of the first argument is taken for the second one. -/
theorem spawnRoundTrips_not : ¬ SpawnRoundTrips "ls" "fs" 7 (some ["a\x00b", "c"]) ⟨4096, 64⟩
    (fun _ => 0) 0 .blank := by
  intro h
  obtain ⟨rest, m', hrun⟩ : ∃ rest m', spawnCopies "ls" "fs" (some ["a\x00b", "c"]) ⟨4096, 64⟩
      (fun _ => 0) = .ok rest m' := ⟨_, _, rfl⟩
  have hdecoded : decodeArm spawnInfo (some (Slice.bytes ⟨4096, 64⟩ m')) 0 .procSpawn
      (spawnRegs (some ["a\x00b", "c"]) 7 .blank) =
        .ok (.processSpawn "ls" "fs" 7 (some ["a\x00b", "c"])) (spawnRegs (some ["a\x00b", "c"]) 7
          .blank) :=
    (Prog.wp_ok h hrun).2
  obtain ⟨-, -, hargs⟩ := nulFree_of_decoded hdecoded
  exact hargs "a\x00b" (by decide) (by decide)

end RoundTrip

end Smos.Ipc
