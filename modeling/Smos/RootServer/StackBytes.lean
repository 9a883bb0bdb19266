/-
Smos.RootServer.StackBytes — what the root server writes to a new stack.

The pages of a new stack are frames of its object before the process runs, and
the root server writes the arguments through its own mappings of these frames.
`stackByte` is the byte the process will find at an address. A write that lies
in one page is one write to the process's memory; any other is a panic, and so
is a string that would begin on another page (`writeArgsToStack_spec`).
-/
import Smos.RootServer.SegmentImage
import Smos.Runtime.StackLayout

namespace Smos.RootServer

open Smos.Base Smos.Runtime Smos.Ipc

/-! ## The bytes of the stack -/

/-- The frame behind an address of a stack. -/
def State.stackObj (s : State) (stack : WindowRef) (a : Nat) : Option Nat := do
  let v ← (s.windows stack).boundView
  let o ← (s.views v).boundObject
  let frame ← (s.objects o).lookupFrame (a - stackBottom)
  let e ← s.res.kernel.pages rootVSpace (frameDataAddr frame.frameRef)
  some e.obj

/-- The byte at an address of a stack. -/
def State.stackByte (s : State) (stack : WindowRef) (a : Nat) : Option UInt8 :=
  (s.stackObj stack a).map fun obj => UInt8.ofNat (s.res.kernel.mem obj (a % pageSize4K))

/-- The state but for the bytes in frames. -/
def State.withMem (s : State) (mem : Nat → Nat → Nat) : State :=
  { s with res := { s.res with kernel := { s.res.kernel with mem := mem } } }

/-- The page of the stack that an address is in. -/
def stackPage (a : Nat) : Nat := (a - stackBottom) / pageSize4K

/-- Page `i` of the stack is the frame `obj i`, which the root server can write to, and these are
different frames. -/
structure StackReady (s : State) (stack : WindowRef) (obj : Nat → Nat) : Prop where
  frames : ∃ v o, (s.windows stack).boundView = some v ∧ (s.views v).boundObject = some o ∧
    ∀ i < stackPages, ∃ frame e, (s.objects o).lookupFrame (i * pageSize4K) = some frame ∧
      frame.frameRef < s.res.frameTable.capacity ∧
      s.res.kernel.pages rootVSpace (frameDataAddr frame.frameRef) = some e ∧ e.obj = obj i
  apart : ∀ i j, i < stackPages → j < stackPages → obj i = obj j → i = j

/-- The bytes at the stack's addresses. -/
def stackMemory (s : State) (obj : Nat → Nat) : Ipc.Memory := fun a =>
  UInt8.ofNat (s.res.kernel.mem (obj (stackPage a)) (a % pageSize4K))

/-- Since `s₀`, nothing has happened but some writes to the stack. -/
structure StackWritten (obj : Nat → Nat) (ws : List (Nat × List UInt8)) (s₀ s : State) : Prop where
  eq : s = s₀.withMem s.res.kernel.mem
  others : ∀ frame, (∀ i < stackPages, obj i ≠ frame) →
    s.res.kernel.mem frame = s₀.res.kernel.mem frame
  bytes : ∀ a, stackBottom ≤ a → a < processStackTop →
    stackMemory s obj a = puts ws (stackMemory s₀ obj) a

section Stack

variable {s s₀ s' : State} {stack : WindowRef} {obj : Nat → Nat} {ws : List (Nat × List UInt8)}
  {a x vaddr : Nat} {bytes : List Nat} {ε : Type}

theorem stackPage_lt (hx : x < processStackTop) : stackPage x < stackPages := by
  unfold stackPage stackBottom processStackTop stackPages pageSize4K at *
  omega

/-- Lookups go by pages. -/
theorem lookupFrame_page (object : AnonymousMemoryObject) (ha : stackBottom ≤ a)
    (ha' : a < processStackTop) : object.lookupFrame (a - stackBottom) =
      object.lookupFrame (stackPage a * pageSize4K) := by
  have hpath : path (a - stackBottom) = path (stackPage a * pageSize4K) := by
    have hlt : a - stackBottom < tableBytes := by
      have htable : processStackTop < tableBytes := by decide
      omega
    have hle : stackPage a * pageSize4K ≤ a - stackBottom := Nat.div_mul_le_self _ _
    rw [path_eq_iff hlt (hle.trans_lt hlt), Nat.mul_div_cancel _ pageSize4K_pos]
    rfl
  exact congrArg (Table.lookup object.frames) hpath

namespace StackReady

theorem withMem (h : StackReady s stack obj) (mem : Nat → Nat → Nat) :
    StackReady (s.withMem mem) stack obj := ⟨h.frames, h.apart⟩

/-- The frame behind an address. -/
theorem stackObj (h : StackReady s stack obj) (ha : stackBottom ≤ a) (ha' : a < processStackTop) :
    s.stackObj stack a = some (obj (stackPage a)) := by
  obtain ⟨v, o, hv, ho, hpages⟩ := h.frames
  obtain ⟨frame, e, hframe, -, he, hobj⟩ := hpages _ (stackPage_lt ha')
  have hlook := (lookupFrame_page (s.objects o) ha ha').trans hframe
  simp [State.stackObj, hv, ho, hlook, he, hobj]

theorem stackByte (h : StackReady s stack obj) (ha : stackBottom ≤ a) (ha' : a < processStackTop) :
    s.stackByte stack a = some (stackMemory s obj a) := by
  unfold State.stackByte
  rw [h.stackObj ha ha']
  rfl

end StackReady

namespace StackWritten

protected theorem refl (s : State) : StackWritten obj [] s s := ⟨rfl, fun _ _ => rfl, fun _ _ _ => rfl⟩

theorem ready (h : StackWritten obj ws s₀ s) (hr : StackReady s₀ stack obj) :
    StackReady s stack obj := by
  rw [h.eq]
  exact hr.withMem _

/-- A write to one page of the stack. -/
theorem write (h : StackWritten obj ws s₀ s) (hr : StackReady s₀ stack obj)
    (ha : stackBottom ≤ a) (ha' : a < processStackTop)
    (hin : a % pageSize4K + bytes.length ≤ pageSize4K) :
    StackWritten obj (ws ++ [(a, bytes.map UInt8.ofNat)]) s₀ (s.withMem
      (Function.update s.res.kernel.mem (obj (stackPage a))
        (overwrite (a % pageSize4K) bytes (s.res.kernel.mem (obj (stackPage a)))))) where
  eq := by
    conv_rhs => rw [State.withMem]
    rw [h.eq]
    rfl
  others frame hframe := by
    have hne : frame ≠ obj (stackPage a) := fun heq => hframe _ (stackPage_lt ha') heq.symm
    exact (Function.update_of_ne hne _ _).trans (h.others frame hframe)
  bytes x hx hx' := by
    have hold := h.bytes x hx hx'
    rw [puts_append]
    show stackMemory _ obj x = put a (bytes.map UInt8.ofNat) (puts ws (stackMemory s₀ obj)) x
    unfold put
    rw [← hold]
    by_cases hpage : stackPage x = stackPage a
    · -- the same page, so the same distance in it
      have hle : a ≤ x ↔ a % pageSize4K ≤ x % pageSize4K := by
        unfold stackPage stackBottom processStackTop stackPages pageSize4K at *
        omega
      have hdist : a ≤ x → x % pageSize4K - a % pageSize4K = x - a := by
        unfold stackPage stackBottom processStackTop stackPages pageSize4K at *
        omega
      have hmem : stackMemory (s.withMem (Function.update s.res.kernel.mem (obj (stackPage a))
          (overwrite (a % pageSize4K) bytes (s.res.kernel.mem (obj (stackPage a)))))) obj x =
          UInt8.ofNat (overwrite (a % pageSize4K) bytes (s.res.kernel.mem (obj (stackPage a)))
            (x % pageSize4K)) := by
        unfold stackMemory State.withMem
        rw [hpage]
        simp
      rw [hmem]
      unfold overwrite
      by_cases hax : a ≤ x
      · rw [if_pos (hle.mp hax), if_pos hax, hdist hax, List.getElem?_map]
        cases bytes[x - a]? with
        | none =>
          unfold stackMemory
          rw [hpage]
          rfl
        | some b => rfl
      · rw [if_neg fun hc => hax (hle.mpr hc), if_neg hax]
        unfold stackMemory
        rw [hpage]
    · have hne : obj (stackPage x) ≠ obj (stackPage a) :=
        fun heq => hpage (hr.apart _ _ (stackPage_lt hx') (stackPage_lt ha') heq)
      have hout : a ≤ x → bytes.length ≤ x - a := by
        unfold stackPage stackBottom processStackTop stackPages pageSize4K at *
        omega
      have hmem : stackMemory (s.withMem (Function.update s.res.kernel.mem (obj (stackPage a))
          (overwrite (a % pageSize4K) bytes (s.res.kernel.mem (obj (stackPage a)))))) obj x =
          stackMemory s obj x := by
        unfold stackMemory State.withMem
        simp [Function.update_of_ne hne]
      rw [hmem]
      split
      · next hax =>
        rw [List.getElem?_eq_none (by rw [List.length_map]; exact hout hax)]
        rfl
      · rfl

end StackWritten

/-- A write to the stack succeeds if it lies in one page, and panics otherwise. -/
theorem writeToStack_spec (hr : StackReady s₀ stack obj) (h : StackWritten obj ws s₀ s)
    (ha' : a < processStackTop) :
    (writeToStack stack a bytes : SProg ε Unit).wp
      (fun _ s' => (stackBottom ≤ a ∧ a % pageSize4K + bytes.length ≤ pageSize4K) ∧
        StackWritten obj (ws ++ [(a, bytes.map UInt8.ofNat)]) s₀ s')
      (fun _ _ => False)
      (fun _ => ¬ (stackBottom ≤ a ∧ a % pageSize4K + bytes.length ≤ pageSize4K)) s := by
  obtain ⟨v, o, hv, ho, hpages⟩ := (h.ready hr).frames
  obtain ⟨frame, e, hframe, hcap, he, hobj⟩ := hpages _ (stackPage_lt ha')
  simp only [writeToStack, Prog.wp_bind, wp_subU, wp_getWindow, Prog.wp_unwrap, wp_getView,
    wp_getObject, Prog.wp_ite, Prog.wp_panic]
  refine ⟨fun ha => ?_, fun ha hc => ha hc.1⟩
  have hlook := (lookupFrame_page (s.objects o) ha ha').trans hframe
  refine ⟨fun v' hv' => ⟨fun o' ho' => ⟨fun frame' hframe' => ⟨fun hin => ?_, fun hout hc =>
    hout hc.2⟩, fun hnone => ?_⟩, fun hnone => ?_⟩, fun hnone => ?_⟩
  · obtain rfl := Option.some.inj (hv.symm.trans hv')
    obtain rfl := Option.some.inj (ho.symm.trans ho')
    obtain rfl := Option.some.inj (hlook.symm.trans hframe')
    simp only [wp_onRes, writeFrameData, kmodify, Prog.wp_bind, Prog.wp_gets, Prog.wp_assert,
      Prog.wp_unwrap, Prog.wp_modify, decide_eq_true_eq, decide_eq_false_iff_not]
    refine ⟨fun _ => ⟨fun e' he' => ⟨⟨ha, hin⟩, ?_⟩, fun hnone => ?_⟩, fun hno => absurd hcap hno⟩
    · obtain rfl := Option.some.inj (he.symm.trans he')
      rw [hobj]
      exact h.write hr ha ha' hin
    · rw [he] at hnone
      cases hnone
  · obtain rfl := Option.some.inj (hv.symm.trans hv')
    obtain rfl := Option.some.inj (ho.symm.trans ho')
    rw [hlook] at hnone
    cases hnone
  · obtain rfl := Option.some.inj (hv.symm.trans hv')
    rw [ho] at hnone
    cases hnone
  · rw [hv] at hnone
    cases hnone

/-! ## The bytes of words and strings -/

theorem asBytes_terminated (s : String) :
    (asBytes s ++ [0]).map UInt8.ofNat = terminatedBytes s := by
  have hbytes : (asBytes s).map UInt8.ofNat = strBytes s := by
    unfold asBytes strBytes
    rw [List.map_map]
    refine (List.map_congr_left fun b _ => ?_).trans (List.map_id _)
    exact UInt8.ofNat_toNat
  rw [List.map_append, hbytes]
  rfl

theorem length_asBytes (s : String) : (asBytes s).length = (strBytes s).length := List.length_map ..

theorem littleEndian_words (n : Nat) (words : List Nat) :
    (words.flatMap (littleEndian n)).map UInt8.ofNat = words.flatMap (leBytes n) := by
  rw [List.map_flatMap]
  refine List.flatMap_congr fun word _ => ?_
  unfold littleEndian leBytes
  rw [List.map_map]
  rfl

theorem length_littleEndian (n : Nat) (words : List Nat) :
    (words.flatMap (littleEndian n)).length = n * words.length := by
  have hlen := congrArg List.length (littleEndian_words n words)
  rw [List.length_map] at hlen
  rw [hlen]
  simp [List.length_flatMap, Nat.mul_comm]

/-! ## The strings -/

theorem roundUp_eq_top_iff (hx : x ≤ processStackTop) :
    roundUp x = processStackTop ↔ processStackTop - pageSize4K < x := by
  unfold roundUp processStackTop pageSize4K at *
  split <;> omega

/-- The strings are written as long as they begin on the first page of the stack. -/
theorem writeArgStrings_spec (hr : StackReady s₀ stack obj) (ss : List String) :
    ∀ (vaddr : Nat) (argv : List Nat) (ws : List (Nat × List UInt8)) (s : State),
      StackWritten obj ws s₀ s → processStackTop - pageSize4K < vaddr → vaddr ≤ processStackTop →
      (writeArgStrings stack ss vaddr argv : SProg ε (Nat × List Nat)).wp
        (fun r s' => processStackTop - pageSize4K + stringBytes ss < vaddr ∧
          r = (vaddr - stringBytes ss, argv ++ stringAddrs ss vaddr) ∧
          StackWritten obj (ws ++ stringWrites ss vaddr) s₀ s')
        (fun _ _ => False)
        (fun _ => ¬ processStackTop - pageSize4K + stringBytes ss < vaddr) s := by
  induction ss with
  | nil =>
    intro vaddr argv ws s h hlo hhi
    refine ⟨hlo, ?_, ?_⟩
    · simp [stringBytes, stringAddrs, stringWrites]
    · rw [stringWrites, List.append_nil]
      exact h
  | cons arg ss ih =>
    intro vaddr argv ws s h hlo hhi
    have hlen : (asBytes arg).length + 1 = (terminatedBytes arg).length := by
      rw [length_asBytes, length_terminatedBytes]
    have hpos : 0 < (terminatedBytes arg).length := by rw [length_terminatedBytes]; omega
    have hbytes : stringBytes (arg :: ss) = (terminatedBytes arg).length + stringBytes ss := rfl
    have hround := (roundUp_eq_top_iff hhi).mpr hlo
    simp only [writeArgStrings, Prog.wp_bind, wp_subU, Prog.wp_ite, Prog.wp_panic, hlen, hround]
    refine ⟨fun hle => ⟨fun hne => ?_, fun heq => ?_⟩, fun _ => by omega⟩
    · -- it would begin on the next page
      have hnot : ¬ processStackTop - pageSize4K < vaddr - (terminatedBytes arg).length :=
        fun hc => hne ((roundUp_eq_top_iff (by omega)).mpr hc).symm
      omega
    · have hnext : processStackTop - pageSize4K < vaddr - (terminatedBytes arg).length :=
        (roundUp_eq_top_iff (by omega)).mp (not_not.mp heq).symm
      have hin : stackBottom ≤ vaddr - (terminatedBytes arg).length ∧
          (vaddr - (terminatedBytes arg).length) % pageSize4K + (asBytes arg ++ [0]).length ≤
            pageSize4K := by
        rw [List.length_append, List.length_singleton, hlen]
        unfold stackBottom processStackTop stackPages pageSize4K at *
        omega
      refine Prog.wp_mono (writeToStack_spec hr h (by omega)) ?_ (fun _ _ hf => hf)
        fun _ hp => absurd hin hp
      rintro _ s₁ ⟨-, h₁⟩
      rw [asBytes_terminated] at h₁
      refine Prog.wp_mono (ih _ (argv ++ [vaddr - (terminatedBytes arg).length]) _ s₁ h₁ hnext
        (by omega)) ?_ (fun _ _ hf => hf) fun _ hp => by omega
      rintro r s₂ ⟨hfit, rfl, h₂⟩
      refine ⟨by omega, ?_, ?_⟩
      · rw [List.append_assoc, hbytes, Nat.sub_sub]
        rfl
      · rw [List.append_assoc] at h₂
        exact h₂

/-! ## All of it -/

/-- Everything from the strings' end to the top, in words. -/
def paddedBytes (ss : List String) : Nat := (56 + stringBytes ss + 7) / 8 * 8

/-- The strings begin on the first page of the stack, and their array lies in one page. -/
def RootFits (ss : List String) : Prop :=
  56 + stringBytes ss < pageSize4K ∧ (paddedBytes ss + 8 * ss.length ≤ pageSize4K ∨
    paddedBytes ss = pageSize4K ∧ 8 * ss.length ≤ pageSize4K)

instance (ss : List String) : Decidable (RootFits ss) := inferInstanceAs (Decidable (_ ∧ _))

/-- What the root server puts in the environment. -/
def rootEnvironment : Environment :=
  ⟨processStackTop, processIpcBuffer, processRsDataTransferPage⟩

theorem writeWord_spec (hr : StackReady s₀ stack obj) (h : StackWritten obj ws s₀ s) {n : Nat}
    {words : List Nat} (ha : stackBottom ≤ a) (ha' : a < processStackTop)
    (hin : a % pageSize4K + n * words.length ≤ pageSize4K) :
    (writeToStack stack a (words.flatMap (littleEndian n)) : SProg ε Unit).wp
      (fun _ s' => StackWritten obj (ws ++ [(a, words.flatMap (leBytes n))]) s₀ s')
      (fun _ _ => False) (fun _ => False) s := by
  have hin' : a % pageSize4K + (words.flatMap (littleEndian n)).length ≤ pageSize4K := by
    rw [length_littleEndian]
    exact hin
  refine Prog.wp_mono (writeToStack_spec hr h ha') ?_ (fun _ _ hf => hf)
    fun _ hp => absurd ⟨ha, hin'⟩ hp
  rintro _ s' ⟨-, h'⟩
  rw [← littleEndian_words]
  exact h'

theorem writeEnv_spec (hr : StackReady s stack obj) :
    (writeEnv stack : SProg ε Nat).wp
      (fun envpPtr s' => envpPtr = envpAt processStackTop ∧
        StackWritten obj (envWrites processStackTop rootEnvironment) s s')
      (fun _ _ => False) (fun _ => False) s := by
  simp only [writeEnv, writeWordsToStack, Prog.wp_bind, Prog.wp_pure]
  refine Prog.wp_mono (writeWord_spec hr (.refl s) (by decide) (by decide) (by decide)) ?_
    (fun _ _ hf => hf) fun _ hf => hf
  intro _ s₁ h₁
  refine Prog.wp_mono (writeWord_spec hr h₁ (by decide) (by decide) (by decide)) ?_
    (fun _ _ hf => hf) fun _ hf => hf
  intro _ s₂ h₂
  refine Prog.wp_mono (writeWord_spec hr h₂ (by decide) (by decide) (by decide)) ?_
    (fun _ _ hf => hf) fun _ hf => hf
  intro _ s₃ h₃
  refine Prog.wp_mono (writeWord_spec hr h₃ (by decide) (by decide) (by decide)) ?_
    (fun _ _ hf => hf) fun _ hf => hf
  intro _ s₄ h₄
  exact ⟨rfl, h₄⟩

/-- The arguments are written if the strings fit on the first page and their array in one. -/
theorem writeArgv_spec (hr : StackReady s₀ stack obj) (h : StackWritten obj ws s₀ s)
    (loaderArgs : List String) (execArgs : Option (List String)) :
    (RootServer.writeArgv stack (some loaderArgs) execArgs (envpAt processStackTop) :
        SProg ε (Nat × Nat × Nat)).wp
      (fun r s' => RootFits (loaderArgs ++ execArgs.getD []) ∧
        r = (argvAt processStackTop (loaderArgs ++ execArgs.getD []),
          argvAt processStackTop (loaderArgs ++ execArgs.getD []),
          (loaderArgs ++ execArgs.getD []).length) ∧
        StackWritten obj (ws ++ stringWrites (loaderArgs ++ execArgs.getD []) (envpAt processStackTop)
          ++ argvWrites processStackTop (loaderArgs ++ execArgs.getD [])) s₀ s')
      (fun _ _ => False) (fun _ => ¬ RootFits (loaderArgs ++ execArgs.getD [])) s := by
  generalize hexec : execArgs.getD [] = rest
  have hstart : processStackTop - pageSize4K < envpAt processStackTop ∧
      envpAt processStackTop ≤ processStackTop := by decide
  have hbytes := stringBytes_append loaderArgs rest
  have henvp : envpAt processStackTop = processStackTop - 56 := rfl
  -- the strings fit on the page
  have hpage : ¬ processStackTop - pageSize4K + stringBytes (loaderArgs ++ rest) <
      envpAt processStackTop → ¬ RootFits (loaderArgs ++ rest) := by
    rintro hno ⟨hfit, -⟩
    unfold processStackTop pageSize4K at *
    omega
  simp only [RootServer.writeArgv, Option.isSome_some, true_or, if_true, Option.getD_some, hexec,
    Prog.wp_bind, wp_subU]
  refine Prog.wp_mono (writeArgStrings_spec hr loaderArgs _ [] ws s h hstart.1 hstart.2) ?_
    (fun _ _ hf => hf) fun _ hp => hpage (by omega)
  rintro ⟨vaddr, argv⟩ s₁ ⟨hfit₁, heq, h₁⟩
  obtain ⟨rfl, rfl⟩ := Prod.mk.inj heq
  refine Prog.wp_mono (writeArgStrings_spec hr rest _ _ _ s₁ h₁ (by omega) (by omega)) ?_
    (fun _ _ hf => hf) fun _ hp => hpage (by omega)
  rintro ⟨vaddr, argv⟩ s₂ ⟨hfit₂, heq, h₂⟩
  obtain ⟨rfl, rfl⟩ := Prod.mk.inj heq
  have hvaddr : envpAt processStackTop - stringBytes loaderArgs - stringBytes rest =
      envpAt processStackTop - stringBytes (loaderArgs ++ rest) := by omega
  have haddrs : [] ++ stringAddrs loaderArgs (envpAt processStackTop) ++
      stringAddrs rest (envpAt processStackTop - stringBytes loaderArgs) =
      stringAddrs (loaderArgs ++ rest) (envpAt processStackTop) := by
    unfold stringAddrs
    rw [stringWrites_append, List.map_append, List.nil_append]
  rw [List.append_assoc, ← stringWrites_append] at h₂
  rw [haddrs, hvaddr]
  generalize loaderArgs ++ rest = ss at *
  have hend : envpAt processStackTop - stringBytes ss -
      (envpAt processStackTop - stringBytes ss) % 8 = argvEnd processStackTop ss := rfl
  have hargv : argvEnd processStackTop ss - 8 * ss.length = argvAt processStackTop ss := rfl
  have hpadded : argvEnd processStackTop ss = processStackTop - paddedBytes ss ∧
      paddedBytes ss ≤ pageSize4K := by
    rw [← hend]
    unfold paddedBytes processStackTop pageSize4K at *
    omega
  have hlen : (stringAddrs ss (envpAt processStackTop)).length * 8 = 8 * ss.length := by
    rw [length_stringAddrs, Nat.mul_comm]
  rw [hend, hlen, hargv]
  -- the array lies in a page if it does not reach beyond the first one, or begins a new one
  have harray : RootFits ss ↔ 8 * ss.length ≤ argvEnd processStackTop ss ∧
      stackBottom ≤ argvAt processStackTop ss ∧
      argvAt processStackTop ss % pageSize4K + 8 * ss.length ≤ pageSize4K := by
    unfold RootFits
    rw [← hargv, hpadded.1]
    have hle := hpadded.2
    have hmod : paddedBytes ss % 8 = 0 := Nat.mul_mod_left _ _
    unfold stackBottom processStackTop stackPages pageSize4K at *
    omega
  have hlen' : ((stringAddrs ss (envpAt processStackTop)).flatMap (littleEndian 8)).length =
      8 * ss.length := by rw [length_littleEndian, length_stringAddrs]
  refine ⟨fun hle => ?_, fun hno hfits => hno (harray.mp hfits).1⟩
  refine Prog.wp_mono (writeToStack_spec hr h₂ ?_) ?_ (fun _ _ hf => hf) fun p hp hfits => ?_
  · have henvpLt : envpAt processStackTop < processStackTop := by decide
    rw [← hargv, ← hend]
    omega
  · rintro _ s₃ ⟨hin, h₃⟩
    rw [hlen'] at hin
    rw [littleEndian_words] at h₃
    rw [Prog.wp_pure, length_stringAddrs]
    exact ⟨harray.mpr ⟨hle, hin⟩, rfl, h₃⟩
  · rw [hlen'] at hp
    exact hp (harray.mp hfits).2

/-- `write_args_to_stack` leaves the layout on the stack if the strings fit, and panics otherwise. -/
theorem writeArgsToStack_spec (hr : StackReady s stack obj) (loaderArgs : List String)
    (execArgs : Option (List String)) :
    (writeArgsToStack stack (some loaderArgs) execArgs : SProg ε Nat).wp
      (fun sp s' => RootFits (loaderArgs ++ execArgs.getD []) ∧
        sp = stackPointer processStackTop (loaderArgs ++ execArgs.getD []) ∧
        StackWritten obj (stackWrites processStackTop
          (argvAt processStackTop (loaderArgs ++ execArgs.getD [])) rootEnvironment
          (loaderArgs ++ execArgs.getD [])) s s')
      (fun _ _ => False) (fun _ => ¬ RootFits (loaderArgs ++ execArgs.getD [])) s := by
  simp only [writeArgsToStack, writeWordsToStack, writeHalfWordsToStack, Prog.wp_bind, wp_subU,
    Prog.wp_assert, Prog.wp_pure, decide_eq_true_eq, decide_eq_false_iff_not]
  refine Prog.wp_mono (writeEnv_spec hr) ?_ (fun _ _ hf => hf.elim) fun _ hf => hf.elim
  rintro envpPtr s₁ ⟨rfl, h₁⟩
  refine Prog.wp_mono (writeArgv_spec hr h₁ loaderArgs execArgs) ?_ (fun _ _ hf => hf)
    fun _ hp => hp
  rintro _ s₂ ⟨hfits, rfl, h₂⟩
  generalize loaderArgs ++ execArgs.getD [] = ss at *
  dsimp only
  have hend := argvEnd_le processStackTop ss
  have henvp : envpAt processStackTop = processStackTop - 56 := rfl
  have hargv : argvAt processStackTop ss = argvEnd processStackTop ss - 8 * ss.length := rfl
  have hfit := hfits.1
  have hcount := length_le_stringBytes ss
  -- there is more than a page of stack below
  have hroom : argvAt processStackTop ss % 8 = 0 ∧ stackBottom + 20 ≤ argvAt processStackTop ss ∧
      argvAt processStackTop ss < processStackTop := by
    unfold stackBottom processStackTop stackPages pageSize4K at *
    omega
  have hlow : ∀ n, n = 8 ∨ n = 16 → (argvAt processStackTop ss - n) % pageSize4K + 8 ≤ pageSize4K := by
    unfold pageSize4K
    omega
  have hlast : (argvAt processStackTop ss - 20) % pageSize4K + 4 ≤ pageSize4K := by
    unfold pageSize4K
    omega
  have h16 : argvAt processStackTop ss - 8 - 8 = argvAt processStackTop ss - 16 := by omega
  have h20 : argvAt processStackTop ss - 8 - 8 - 4 = argvAt processStackTop ss - 20 := by omega
  refine ⟨fun _ => ?_, fun hno => absurd hno (by omega)⟩
  refine Prog.wp_mono (writeWord_spec hr h₂ (by omega) (by omega) (hlow 8 (.inl rfl))) ?_
    (fun _ _ hf => hf) fun _ hf => hf.elim
  intro _ s₃ h₃
  refine ⟨fun _ => ?_, fun hno => absurd hno (by omega)⟩
  refine Prog.wp_mono (writeWord_spec hr h₃ (by omega) (by omega)
    (by rw [h16]; exact hlow 16 (.inr rfl))) ?_ (fun _ _ hf => hf) fun _ hf => hf.elim
  intro _ s₄ h₄
  refine ⟨fun _ => ⟨fun _ => ?_, fun hno => absurd hno ?_⟩, fun hno => absurd hno (by omega)⟩
  · refine Prog.wp_mono (writeWord_spec hr h₄ (by omega) (by omega) (by rw [h20]; exact hlast)) ?_
      (fun _ _ hf => hf) fun _ hf => hf.elim
    intro _ s₅ h₅
    refine ⟨hfits, h20, ?_⟩
    rw [h20, h16] at h₅
    simpa [stackWrites, countWrites] using h₅
  · unfold pageSize4K at hfit
    omega

end Stack

/-! ## The stack of a new process -/

/-- The frame table has room for the frames in use, and knows how much it has. -/
structure Roomy (r : Res) : Prop where
  used : r.frameTable.used ≤ r.frameTable.capacity
  capacity : r.frameTable.capacity = r.frameTable.byteLength / frameSize

section NewStack

variable {r : Res} {s s' : State} {stack : WindowRef}

theorem Quiet.roomy {r' : Res} (hq : Quiet r r') (h : Roomy r) : Roomy r' := by
  obtain ⟨hused, hcap⟩ := h
  have ht := hq.frameTable
  exact ⟨by rw [ht]; exact hused, by rw [ht]; exact hcap⟩

/-- A new frame. -/
theorem allocFreshFrame_roomy (hr : Rooted r) (h : Roomy r) :
    allocFreshFrame.wp (fun _ r' => Roomy r') (fun _ _ => True) (fun _ => True) r := by
  have hrest : ∀ r₁ : Res, Rooted r₁ → r₁.frameTable.capacity = r₁.frameTable.byteLength / frameSize →
      Prog.wp (do
        let t ← Prog.gets Res.frameTable
        Prog.assert .assertionFailed (t.used < t.capacity)
        let frameRef := t.used
        modifyFrameTable fun t => { t with used := t.used + 1 }
        let cap ← (allocFrameAt (frameDataAddr frameRef)).catchErr fun e => do
          modifyFrameTable fun t => { t with used := t.used - 1 }
          Prog.fail e
        modifyFrameTable fun t => { t with cap := Function.update t.cap frameRef cap }
        pure frameRef : RProg Sel4Error Nat)
      (fun _ r' => Roomy r') (fun _ _ => True) (fun _ => True) r₁ := by
    intro r₁ hr₁ hcap
    simp only [Prog.wp_bind, Prog.wp_gets, Prog.wp_assert, modifyFrameTable, Prog.wp_modify,
      Prog.wp_catchErr, Prog.wp_fail, Prog.wp_pure, decide_eq_true_eq]
    refine ⟨fun hlt => ?_, fun _ => trivial⟩
    have hr₂ : Rooted { r₁ with
        frameTable := { r₁.frameTable with used := r₁.frameTable.used + 1 } } :=
      ⟨hr₁.allocated, hr₁.cap⟩
    refine Prog.wp_mono (allocFrameAt_spec hr₂ (.refl _) _) ?_ (fun _ _ _ => trivial)
      fun _ _ => trivial
    rintro c r₃ ⟨hq, -⟩
    have hroomy : Roomy r₃ := hq.roomy ⟨hlt, hcap⟩
    exact ⟨hroomy.used, hroomy.capacity⟩
  unfold allocFreshFrame
  simp only [Prog.wp_bind, Prog.wp_gets, Prog.wp_assert, Prog.wp_ite, bumpCapacity,
    modifyFrameTable, Prog.wp_modify] at hrest ⊢
  refine ⟨fun _ => ⟨fun _ => ?_, fun _ => hrest r hr h.capacity⟩, fun _ => trivial⟩
  refine Prog.wp_mono (allocFrameAt_spec hr (.refl r) _) ?_ (fun _ _ _ => trivial) fun _ _ => trivial
  rintro c r₁ ⟨hq, -⟩
  have hr₁ := hq.grow.rooted hr
  exact hrest { r₁ with
    frameTable :=
      { r₁.frameTable with
        byteLength := r₁.frameTable.byteLength + pageSize4K
        capacity := (r₁.frameTable.byteLength + pageSize4K) / frameSize } }
    ⟨hr₁.allocated, hr₁.cap⟩ rfl

theorem allocFrame_roomy (hr : Rooted r) (h : Roomy r) :
    allocFrame.wp (fun _ r' => Roomy r') (fun _ _ => True) (fun _ => True) r := by
  unfold allocFrame
  simp only [Prog.wp_bind, Prog.wp_gets]
  cases hfree : r.frameTable.free with
  | cons f rest =>
    simp only [Prog.wp_bind, modifyFrameTable, Prog.wp_modify, Prog.wp_pure]
    exact ⟨h.used, h.capacity⟩
  | nil =>
    simp only [Prog.wp_bind, Prog.wp_catchErr, Prog.wp_fail, modifyFrameTable, Prog.wp_modify,
      Prog.wp_pure]
    refine Prog.wp_mono (allocFreshFrame_roomy hr h) ?_ (fun _ _ _ => trivial) fun _ _ => trivial
    exact fun _ _ hroomy => ⟨hroomy.used, hroomy.capacity⟩

theorem addPage_roomy (hr : Rooted s.res) (h : Roomy s.res) (o : ObjectRef) (v : ViewRef) (i : Nat) :
    (addPage o v i).wp (fun _ s' => Roomy s'.res) (fun _ _ => True) (fun _ => True) s := by
  simp only [addPage, Prog.wp_bind, wp_onRes, Prog.wp_catchErr, Prog.wp_fail]
  refine Prog.wp_mono (allocFrame_roomy hr h) ?_ (fun _ _ _ => trivial) fun _ _ => trivial
  intro f r hroomy
  refine Prog.wp_mono (frameCap_spec r f) ?_ (fun _ _ _ => trivial) fun _ _ => trivial
  rintro cap r' ⟨hsame, -⟩
  obtain rfl : r = r' := hsame.symm
  have hinsert : ∀ (offset : Nat) (frame : ObjectFrame), Keeping (fun s => Roomy s.res)
      (insertFrame o offset frame : SProg Sel4Error Unit) := by
    intro offset frame s hs
    simp only [insertFrame, Prog.wp_bind, wp_getObject]
    cases (s.objects o).insertFrameAt offset frame with
    | error e => trivial
    | ok object => exact ⟨trivial, hs⟩
  refine Prog.wp_mono (hinsert _ _ _ hroomy) ?_ (fun _ _ _ => trivial) fun _ _ => trivial
  rintro _ s₁ ⟨-, hroomy₁⟩
  refine Prog.wp_mono (allocSlot_spec (.refl s₁.res)) ?_ (fun _ _ _ => trivial) fun _ _ => trivial
  rintro c r₂ ⟨hq, -⟩
  have hroomy₂ := hq.roomy hroomy₁
  simp only [copyCap, kcall, Prog.wp_expect, Prog.wp_zoom, Prog.wp_ofExcept]
  refine ⟨fun k _ => ?_, fun _ _ => trivial⟩
  simp only [insertCap, Prog.wp_bind, wp_getView]
  split
  · exact ⟨hroomy₂.used, hroomy₂.capacity⟩
  · trivial

/-- After `n` pages of the stack: each is a frame in use, and no two are the same. -/
structure StackPages (w : WindowRef) (v : ViewRef) (o : ObjectRef) (n : Nat) (s : State) : Prop where
  frames : Frames s.res
  noStray : NoStray s.res
  roomy : Roomy s.res
  window : (s.windows w).boundView = some v
  view : (s.views v).boundObject = some o
  page : ∀ j < n, ∃ frame, (s.objects o).lookupFrame (j * pageSize4K) = some frame ∧
    frame.frameRef ∈ s.res.frameTable.allocated
  apart : ∀ j k frame frame', j < n → k < n →
    (s.objects o).lookupFrame (j * pageSize4K) = some frame →
    (s.objects o).lookupFrame (k * pageSize4K) = some frame' →
    frame.frameRef = frame'.frameRef → j = k

theorem StackPages.add {w : WindowRef} {v : ViewRef} {o : ObjectRef} {n f : Nat} {c : Slot}
    {vs : VSpaceId} (h : StackPages w v o n s) (hn : n < stackPages)
    (ha : PageAdded vs ∅ o v n f c s s') (hroomy : Roomy s'.res) : StackPages w v o (n + 1) s' := by
  obtain ⟨object, view, hobject, hview, hs'⟩ := ha.heaps
  obtain ⟨hframe, hframes⟩ := lookupFrame_inserted hobject
  obtain ⟨t, -, hview'⟩ := insertCapAt_ok hview
  have ho : s'.objects o = object := by rw [hs']; simp
  have hv : s'.views v = view := by rw [hs']; simp
  have hw : s'.windows = s.windows := by rw [hs']
  have hsmall : ∀ j ≤ n, j * pageSize4K < tableBytes := by
    intro j hj
    have hbound : stackPages * pageSize4K < tableBytes := by decide
    exact (Nat.mul_le_mul_right _ (by omega)).trans_lt hbound
  have hold : ∀ j < n, (s'.objects o).lookupFrame (j * pageSize4K) =
      (s.objects o).lookupFrame (j * pageSize4K) := by
    intro j hj
    rw [ho]
    exact hframes _ (path_ne_of_page_ne (hsmall j hj.le) (hsmall n (Nat.le_refl n)) hj.ne)
  have hnew : (s'.objects o).lookupFrame (n * pageSize4K) =
      some ⟨s'.res.frameTable.cap f, f⟩ := by
    rw [ho]
    exact hframe
  -- an older page has an older frame
  have holder : ∀ j < n, ∀ frame, (s'.objects o).lookupFrame (j * pageSize4K) = some frame →
      frame.frameRef ≠ f := by
    intro j hj frame hlook heq
    obtain ⟨frame', hlook', hheld⟩ := h.page j hj
    rw [hold j hj, hlook'] at hlook
    obtain rfl := Option.some.inj hlook
    exact ha.fresh (heq ▸ hheld)
  refine ⟨ha.frames, ha.noStray, hroomy, by rw [hw, h.window], ?_, ?_, ?_⟩
  · rw [hv, hview']
    exact h.view
  · intro j hj
    rcases Nat.lt_succ_iff_lt_or_eq.mp hj with hj | rfl
    · obtain ⟨frame, hlook, hheld⟩ := h.page j hj
      exact ⟨frame, (hold j hj).trans hlook, ha.adds.held _ hheld⟩
    · exact ⟨_, hnew, ha.held⟩
  · intro j k frame frame' hj hk hlook hlook' heq
    rcases Nat.lt_succ_iff_lt_or_eq.mp hj with hj | rfl <;>
      rcases Nat.lt_succ_iff_lt_or_eq.mp hk with hk | rfl
    · rw [hold j hj] at hlook
      rw [hold k hk] at hlook'
      exact h.apart j k frame frame' hj hk hlook hlook' heq
    · obtain rfl := Option.some.inj (hnew.symm.trans hlook')
      exact absurd heq (holder j hj frame hlook)
    · obtain rfl := Option.some.inj (hnew.symm.trans hlook)
      exact absurd heq.symm (holder k hk frame' hlook')
    · rfl

theorem StackPages.ready {w : WindowRef} {v : ViewRef} {o : ObjectRef}
    (h : StackPages w v o stackPages s) : ∃ obj, StackReady s w obj := by
  -- the frame behind each page
  have hpages : ∀ j < stackPages, ∃ obj frame, (s.objects o).lookupFrame (j * pageSize4K) =
      some frame ∧ frame.frameRef < s.res.frameTable.used ∧ Shown s.res frame.frameRef obj := by
    intro j hj
    obtain ⟨frame, hlook, hheld⟩ := h.page j hj
    have hused := h.frames.held_used hheld
    obtain ⟨obj, hs⟩ := h.frames.shown _ hused
    exact ⟨obj, frame, hlook, hused, hs⟩
  choose! obj hobj using hpages
  refine ⟨obj, ⟨v, o, h.window, h.view, fun j hj => ?_⟩, fun j k hj hk heq => ?_⟩
  · obtain ⟨frame, hlook, hused, hs⟩ := hobj j hj
    exact ⟨frame, _, hlook, hused.trans_le h.roomy.used, hs.page, rfl⟩
  · obtain ⟨frame, hlook, hused, hs⟩ := hobj j hj
    obtain ⟨frame', hlook', hused', hs'⟩ := hobj k hk
    rw [heq] at hs
    exact h.apart j k frame frame' hj hk hlook hlook'
      (h.frames.distinct _ _ _ hused hused' hs hs')

/-- The stack that `init_process_stack` makes can be written. -/
theorem initProcessStack_ready (hr : Frames s.res) (hn : NoStray s.res) (hroomy : Roomy s.res)
    (hrun : initProcessStack s = .ok stack s') : ∃ obj, StackReady s' stack obj := by
  have hspec : initProcessStack.wp (fun stack s' => ∃ v o, StackPages stack v o stackPages s')
      (fun _ _ => True) (fun _ => True) s := by
    unfold initProcessStack
    simp only [Prog.wp_bind]
    have hregion : (newRegion stackBottom (stackPages * pageSize4K) .all .all :
        SProg Sel4Error (WindowRef × ObjectRef × ViewRef)).wp
        (fun region s' => s'.res = s.res ∧ (s'.windows region.1).boundView = some region.2.2 ∧
          (s'.views region.2.2).boundObject = some region.2.1)
        (fun _ _ => False) (fun _ => False) s := by
      simp only [newRegion, Prog.wp_bind, wp_newWindow, wp_newObject, wp_newView, wp_modifyWindow,
        wp_modifyObject, Prog.wp_pure, Heap.alloc_update_self]
      exact ⟨trivial, congrArg Window.boundView (Heap.alloc_self _ _),
        congrArg View.boundObject (Heap.alloc_self _ _)⟩
    refine Prog.wp_mono hregion ?_ (fun _ _ hf => hf.elim) fun _ hf => hf.elim
    rintro ⟨w, o, v⟩ s₁ ⟨hres, hw, hv⟩
    have hstart : StackPages w v o 0 s₁ :=
      ⟨hres ▸ hr, hres ▸ hn, hres ▸ hroomy, hw, hv, fun j hj => absurd hj (Nat.not_lt_zero j),
        fun j _ _ _ hj => absurd hj (Nat.not_lt_zero j)⟩
    have hloop : (Prog.forEach (fun i => do let _ ← addPage o v i; pure ())
        (List.range stackPages) : SProg Sel4Error Unit).wp (fun _ => StackPages w v o stackPages)
        (fun _ _ => True) (fun _ => True) s₁ := by
      refine Prog.wp_forEach_range hstart fun i hi s hs => ?_
      simp only [Prog.wp_bind, Prog.wp_pure]
      have hne : rootVSpace + 1 ≠ rootVSpace := Nat.succ_ne_self _
      have hadded : (addPage o v i).wp
          (fun page s' => PageAdded (rootVSpace + 1) ∅ o v i page.1 page.2 s s')
          (fun _ _ => True) (fun _ => True) s := addPage_spec hne hs.frames hs.noStray
      refine Prog.wp_mono (Prog.wp_and hadded (addPage_roomy hs.frames.rooted hs.roomy o v i)) ?_
        (fun _ _ _ => trivial) fun _ _ => trivial
      rintro ⟨f, c⟩ s₂ ⟨hadd, hroomy₂⟩
      exact hs.add hi hadd hroomy₂
    exact Prog.wp_mono hloop (fun _ s₂ hs => ⟨v, o, hs⟩) (fun _ _ _ => trivial) fun _ _ => trivial
  obtain ⟨v, o, hpages⟩ := Prog.wp_ok hspec hrun
  exact hpages.ready

end NewStack

end Smos.RootServer
