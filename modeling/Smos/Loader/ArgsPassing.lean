/-
Smos.Loader.ArgsPassing — arguments from `ProcSpawn` to the program.

The root server writes the names and the arguments to the loader's stack, the
loader reads them and writes the arguments to the stack of the program, and
the program reads them there. Between the decoder and the program there are
two limits that the decoder does not know: the root server gives up on strings
that do not begin on the first page of the stack, or whose array of pointers
crosses a page (`RootFits`), and the runtime has room for 32 arguments.
-/
import Smos.Loader.Stack
import Smos.RootServer.StackBytes
import Smos.Ipc.SpawnStrings

namespace Smos.Loader

open Smos.Base Smos.Runtime Smos.Ipc Smos.RootServer

/-- Only bytes of the stack have changed. -/
structure OnlyStack (stack : WindowRef) (s s' : State) : Prop where
  eq : s' = s.withMem s'.res.kernel.mem
  others : ∀ frame, (∀ a, RootServer.stackBottom ≤ a → a < processStackTop →
    s.stackObj stack a ≠ some frame) → s'.res.kernel.mem frame = s.res.kernel.mem frame

/-- The arguments get to the loader, which finds the names before them, and from there to the
program; both find the same environment but for their stacks, and nothing is written outside the
two stacks. -/
def ArgsPassed (s : State) (stack : WindowRef) (execName fsName : String)
    (args : Option (List String)) : Prop :=
  ∃ sp s', (writeArgsToStack stack (some [execName, fsName]) args : SProg Sel4Error Nat) s =
      .ok sp s' ∧ OnlyStack stack s s' ∧
    ∀ m : Ipc.Memory, (∀ a, sp ≤ a → a < processStackTop → s'.stackByte stack a = some (m a)) →
      Reads m sp (execName :: fsName :: args.getD [])
        [processStackTop, processIpcBuffer, processRsDataTransferPage] ∧
      ∃ sp' m', mainStack sp m = .ok sp' m' ∧
        (∀ a, a < stackBottom ∨ stackTop ≤ a → m' a = m a) ∧
        Reads m' sp' (args.getD []) [stackTop, processIpcBuffer, processRsDataTransferPage]

section Passing

variable {s s' : State} {stack : WindowRef} {obj : Nat → Nat} {execName fsName : String}
  {args : Option (List String)} {ws : List (Nat × List UInt8)}

theorem StackWritten.onlyStack (h : StackWritten obj ws s s') (hr : StackReady s stack obj) :
    OnlyStack stack s s' := by
  refine ⟨h.eq, fun frame hframe => h.others frame fun i hi heq => ?_⟩
  -- an address on page `i`
  have hlo : RootServer.stackBottom ≤ RootServer.stackBottom + i * pageSize4K := Nat.le_add_right _ _
  have hhi : RootServer.stackBottom + i * pageSize4K < processStackTop := by
    unfold RootServer.stackBottom processStackTop RootServer.stackPages pageSize4K at *
    omega
  have hpage : stackPage (RootServer.stackBottom + i * pageSize4K) = i := by
    unfold stackPage
    rw [Nat.add_sub_cancel_left, Nat.mul_div_cancel _ pageSize4K_pos]
  refine hframe _ hlo hhi ?_
  rw [hr.stackObj hlo hhi, hpage, heq]

/-- There is room on both stacks for what fits on a page. -/
theorem room_of_fits {top : Nat} {ss : List String} (hfit : 56 + stringBytes ss < pageSize4K)
    (haligned : top % 8 = 0) (hlo : 10 * pageSize4K ≤ top) (hhi : top < wordBound) :
    Room top ss := by
  have hlen := length_le_stringBytes ss
  unfold pageSize4K at *
  exact ⟨haligned, by omega, hhi⟩

/-- What fits on a page is far from the end of the loader's stack. -/
theorem stackBottom_le_of_fits {ss : List String} (hfits : RootFits ss) :
    RootServer.stackBottom ≤ stackPointer processStackTop ss := by
  have hfit := hfits.1
  have hlen := length_le_stringBytes ss
  have hend := argvEnd_le processStackTop ss
  have henvp : envpAt processStackTop = processStackTop - 56 := rfl
  have hargv : argvAt processStackTop ss = argvEnd processStackTop ss - 8 * ss.length := rfl
  unfold stackPointer
  unfold RootServer.stackBottom processStackTop RootServer.stackPages pageSize4K at *
  omega

/-- What the loader finds on its stack. -/
theorem image_of_written (hr : StackReady s stack obj) {ss : List String} (hfits : RootFits ss)
    (h : StackWritten obj (stackWrites processStackTop (argvAt processStackTop ss) rootEnvironment ss)
      s s') {m : Ipc.Memory} (hm : ∀ a, stackPointer processStackTop ss ≤ a → a < processStackTop →
        s'.stackByte stack a = some (m a)) :
    StackImage m (stackPointer processStackTop ss) processStackTop ss rootEnvironment.words := by
  have hroom : Room processStackTop ss :=
    room_of_fits hfits.1 (by decide) (by decide) (by decide)
  have hlen := length_le_stringBytes ss
  have hfit := hfits.1
  have hbottom := stackBottom_le_of_fits hfits
  refine image_of_writes hroom ?_ rfl (by decide) (by decide) (.inr rfl)
    (m := stackMemory s obj) fun a ha ha' => ?_
  · unfold pageSize4K at hfit
    omega
  · have hbyte := hm a ha ha'
    rw [(h.ready hr).stackByte (hbottom.trans ha) ha'] at hbyte
    rw [← Option.some.inj hbyte]
    exact h.bytes a (hbottom.trans ha) ha'

/-- What the loader passes on: its own environment but for the stack. -/
def programEnvironment : Environment :=
  ⟨stackTop, rootEnvironment.ipcBuffer, rootEnvironment.rsSharedBuf⟩

/-- What the loader writes is an image, and stays on the new stack. -/
theorem loader_passes {m : Ipc.Memory} {sp : Nat}
    (himage : StackImage m sp processStackTop (execName :: fsName :: args.getD [])
      rootEnvironment.words)
    (hs : ∀ t ∈ execName :: fsName :: args.getD [], NulFree t)
    (hfits : RootFits (execName :: fsName :: args.getD []))
    (hn : (execName :: fsName :: args.getD []).length ≤ innerLength) :
    ∃ sp' m', mainStack sp m = .ok sp' m' ∧ (∀ a, a < stackBottom ∨ stackTop ≤ a → m' a = m a) ∧
      Reads m' sp' (args.getD []) [stackTop, processIpcBuffer, processRsDataTransferPage] := by
  generalize hrest : args.getD [] = rest at *
  have hbytes : stringBytes (execName :: fsName :: rest) = (terminatedBytes execName).length +
      ((terminatedBytes fsName).length + stringBytes rest) := rfl
  have hfit : 56 + stringBytes rest < pageSize4K := by
    have hall := hfits.1
    omega
  have hroom : Room stackTop rest := room_of_fits hfit (by decide) (by decide) (by decide)
  have hlen := length_le_stringBytes rest
  have hargs : 2 ≤ (execName :: fsName :: rest).length := by simp
  have hdrop : rest = (execName :: fsName :: rest).drop 2 := rfl
  have hok : mainStack sp m = .ok (stackPointer stackTop rest)
      (puts (stackWrites stackTop (argvPtr rest) programEnvironment rest) m) := by
    have hroom' := hroom
    rw [hdrop] at hroom'
    have hrun := mainStack_ok himage hs hn hargs (by decide) hroom'
    rw [← hdrop] at hrun
    exact hrun
  obtain ⟨hdesc, hlow⟩ : Descends stackTop (stackWrites stackTop (argvPtr rest)
      programEnvironment rest) ∧ lowest stackTop (stackWrites stackTop (argvPtr rest)
      programEnvironment rest) = stackPointer stackTop rest := stackWrites_descends hroom
  have hbottom : stackBottom ≤ stackPointer stackTop rest := by
    have hend := argvEnd_le stackTop rest
    have henvp : envpAt stackTop = stackTop - 56 := rfl
    have hargv : argvAt stackTop rest = argvEnd stackTop rest - 8 * rest.length := rfl
    unfold stackPointer
    unfold stackBottom stackTop stackPages pageSize4K at *
    omega
  refine ⟨_, _, hok, fun a ha => ?_, ?_⟩
  · rcases ha with ha | ha
    · exact puts_of_lt hdesc (by rw [hlow]; exact ha.trans_le hbottom)
    · exact puts_of_ge hdesc ha
  · have hptr : rest = [] ∧ argvPtr rest = 0 ∨ argvPtr rest = argvAt stackTop rest := by
      unfold argvPtr
      split
      · next hnil => exact .inl ⟨hnil, rfl⟩
      · exact .inr rfl
    have hfew : rest.length < 256 ^ 4 := by
      unfold pageSize4K at hfit
      omega
    have himage' : StackImage (puts (stackWrites stackTop (argvPtr rest) programEnvironment rest) m)
        (stackPointer stackTop rest) stackTop rest programEnvironment.words :=
      image_of_writes hroom hfew rfl (by decide) (by decide) hptr fun _ _ _ => rfl
    refine (reads_image himage' fun t ht => hs t ?_).mpr ?_
    · exact List.mem_cons_of_mem _ (List.mem_cons_of_mem _ ht)
    · have hle := hn
      simp only [List.length_cons] at hle
      omega

theorem passed_of_fits (hr : StackReady s stack obj)
    (hs : ∀ t ∈ execName :: fsName :: args.getD [], NulFree t)
    (hfits : RootFits (execName :: fsName :: args.getD []))
    (hn : (execName :: fsName :: args.getD []).length ≤ innerLength) :
    ArgsPassed s stack execName fsName args := by
  obtain ⟨sp, s', hok, -, rfl, hwritten⟩ := Prog.exists_ok (Prog.wp_mono
    (writeArgsToStack_spec hr [execName, fsName] args : (writeArgsToStack stack _ args :
      SProg Sel4Error Nat).wp _ _ _ s) (fun _ _ hq => hq) (fun _ _ hf => hf) fun _ hp => hp hfits)
  refine ⟨_, s', hok, StackWritten.onlyStack hwritten hr, fun m hm => ?_⟩
  have himage := image_of_written hr hfits hwritten hm
  exact ⟨(reads_image himage hs).mpr hn, loader_passes himage hs hfits hn⟩

theorem fits_of_passed (hr : StackReady s stack obj)
    (hs : ∀ t ∈ execName :: fsName :: args.getD [], NulFree t)
    (h : ArgsPassed s stack execName fsName args) :
    RootFits (execName :: fsName :: args.getD []) ∧
      (execName :: fsName :: args.getD []).length ≤ innerLength := by
  obtain ⟨sp, s', hok, -, hread⟩ := h
  obtain ⟨hfits, rfl, hwritten⟩ := Prog.wp_ok
    (writeArgsToStack_spec hr [execName, fsName] args) hok
  -- the bytes of the stack are a memory of the loader
  have hm : ∀ a, stackPointer processStackTop (execName :: fsName :: args.getD []) ≤ a →
      a < processStackTop → s'.stackByte stack a = some (stackMemory s' obj a) := by
    intro a ha ha'
    exact (hwritten.ready hr).stackByte ((stackBottom_le_of_fits hfits).trans ha) ha'
  have himage := image_of_written hr hfits hwritten hm
  exact ⟨hfits, (reads_image himage hs).mp (hread _ hm).1⟩

/-- The arguments that a request brings get to the program if the strings of both stacks fit
where the root server writes them, and the runtime has room for all of them; otherwise one of the
two panics. -/
theorem args_passed_iff {s₀ : State} {info : MessageInfo} {buffer : List UInt8} {slot : Word}
    {b b' : IpcBuffer} {prio : UInt8} (hr : Frames s₀.res) (hn : NoStray s₀.res)
    (hroomy : Roomy s₀.res) (hstack : initProcessStack s₀ = .ok stack s)
    (hdecoded : decodeArm info (some buffer) slot .procSpawn b =
      .ok (.processSpawn execName fsName prio args) b') :
    ArgsPassed s stack execName fsName args ↔ RootFits (execName :: fsName :: args.getD []) ∧
      (execName :: fsName :: args.getD []).length ≤ innerLength := by
  obtain ⟨obj, hready⟩ := initProcessStack_ready hr hn hroomy hstack
  obtain ⟨hexec, hfs, hargs⟩ := nulFree_of_decoded hdecoded
  have hs : ∀ t ∈ execName :: fsName :: args.getD [], NulFree t :=
    List.forall_mem_cons.mpr ⟨hexec, List.forall_mem_cons.mpr ⟨hfs, hargs⟩⟩
  exact ⟨fits_of_passed hready hs, fun h => passed_of_fits hready hs h.1 h.2⟩

end Passing

/-! ## A new stack -/

theorem noSlots_length : List.length [(0 : BitVec 64), 0, 0, 0] = 4 := rfl

/-- The small system with 128 free frames, their capabilities in the slots from 20 on. -/
def stackDemo : State :=
  { demo with
    res :=
      { demo.res with
        kernel :=
          { demo.res.kernel with
            caps := fun c =>
              if c = rootVSpaceSlot then some (.vspace rootVSpace) else
              if 20 ≤ c ∧ c < 148 then
                some (.frame (100 + (c - 20)) true ⟨true, true⟩
                  (some (rootVSpace, frameDataAddr (c - 20))))
              else none
            pages := fun vs va =>
              if vs = rootVSpace then
                ((List.range 128).find? fun f => frameDataAddr f == va).map fun f =>
                  ⟨100 + f, ⟨true, true⟩⟩
              else none
            nextObj := 300 }
        cspace :=
          { topBf := [1]
            topLvlSlots := 64
            botLvlNodes := [[⟨[-1, -1, -1, -1], rfl⟩, ⟨[0, 0, 0, 0], noSlots_length⟩]] }
        frameTable :=
          { demo.res.frameTable with
            used := 128
            free := List.range 128
            allocated := [] } } }

theorem stackDemo_allocated {c : Slot} (hc : c < 256) : stackDemo.res.cspace.Allocated c := by
  have hall : ∀ c < 256, stackDemo.res.cspace.Allocated c := by decide +kernel
  exact hall c hc

theorem stackDemo_shown {f : Nat} (hf : f < 128) : Shown stackDemo.res f (100 + f) := by
  have hall : ∀ f < 128, stackDemo.res.kernel.caps (20 + f) =
        some (.frame (100 + f) true ⟨true, true⟩ (some (rootVSpace, frameDataAddr f))) ∧
      stackDemo.res.kernel.pages rootVSpace (frameDataAddr f) =
        some ⟨100 + f, ⟨true, true⟩⟩ := by decide +kernel
  obtain ⟨hcap, hpage⟩ := hall f hf
  exact ⟨stackDemo_allocated (show 20 + f < 256 by omega), hcap, hpage,
    show 100 + f < 300 by omega⟩

theorem stackDemo_frames : Frames stackDemo.res where
  rooted := ⟨stackDemo_allocated (by decide), rfl⟩
  shown f hf := ⟨100 + f, stackDemo_shown hf⟩
  distinct f g obj hf hg hs hs' := by
    have h₁ := hs.unique (stackDemo_shown hf)
    have h₂ := hs'.unique (stackDemo_shown hg)
    omega
  created := by decide +kernel
  once := by decide +kernel

theorem stackDemo_noStray : NoStray stackDemo.res := by
  intro (c : Nat) hne
  refine stackDemo_allocated ?_
  by_contra hc
  refine hne ?_
  show (if c = rootVSpaceSlot then _ else if 20 ≤ c ∧ c < 148 then _ else _) = none
  have hle : 256 ≤ c := Nat.le_of_not_lt hc
  have hroot : c ≠ rootVSpaceSlot := by
    rintro rfl
    exact hc (by decide)
  rw [if_neg hroot, if_neg fun h => absurd (h.2.trans_le (by decide : 148 ≤ 256)) (Nat.not_lt.mpr hle)]

theorem stackDemo_roomy : Roomy stackDemo.res := ⟨Nat.le_refl 128, rfl⟩

theorem stackDemo_stack : ∃ stack s, initProcessStack stackDemo = .ok stack s := by
  have hrun : (initProcessStack stackDemo).toOption.isSome = true := by decide +kernel
  obtain ⟨⟨stack, s⟩, hok⟩ := Option.isSome_iff_exists.mp hrun
  exact ⟨stack, s, Outcome.toOption_eq_some.mp hok⟩

/-- A request for `a` from the file server `b`. -/
theorem spawn_decoded {args : List String} (hs : ∀ t ∈ args, NulFree t) (hne : args ≠ [])
    (hlt : args.length < 2 ^ 64) : ∃ info buffer slot b b',
      decodeArm info (some buffer) slot .procSpawn b =
        .ok (.processSpawn "a" "b" 0 (some args)) b' := by
  have hok : decodeArm spawnInfo (some (terminated ("a" :: "b" :: args) ++ [])) 0 .procSpawn
      (spawnRegs (some args) 0 .blank) = .ok (.processSpawn "a" "b" 0
        (if args = [] then none else some args)) (spawnRegs (some args) 0 .blank) :=
    procSpawnArm_ok (by decide) (by decide) hs hlt rfl rfl rfl
  rw [if_neg hne] at hok
  exact ⟨_, _, _, _, _, hok⟩

theorem args_passed_demo : ∃ stack s, initProcessStack stackDemo = .ok stack s ∧
    ArgsPassed s stack "a" "b" (some ["x", "y"]) := by
  obtain ⟨stack, s, hstack⟩ := stackDemo_stack
  have hs : ∀ t ∈ ["x", "y"], NulFree t := by decide
  obtain ⟨info, buffer, slot, b, b', hdecoded⟩ := spawn_decoded hs (by decide) (by decide)
  exact ⟨stack, s, hstack, (args_passed_iff stackDemo_frames stackDemo_noStray stackDemo_roomy hstack
    hdecoded).mpr ⟨by decide, by decide⟩⟩

/-- Requests with 31 or 460 arguments are decoded, and the arguments are not passed. -/
theorem args_passed_not : ∃ stack s, initProcessStack stackDemo = .ok stack s ∧
    ∀ n, n = 31 ∨ n = 460 → (∃ info buffer slot b b',
      decodeArm info (some buffer) slot .procSpawn b =
        .ok (.processSpawn "a" "b" 0 (some (List.replicate n ""))) b') ∧
      ¬ ArgsPassed s stack "a" "b" (some (List.replicate n "")) := by
  obtain ⟨stack, s, hstack⟩ := stackDemo_stack
  obtain ⟨obj, hready⟩ := initProcessStack_ready stackDemo_frames stackDemo_noStray stackDemo_roomy
    hstack
  refine ⟨stack, s, hstack, fun n hn => ?_⟩
  have hs : ∀ t ∈ List.replicate n "", NulFree t := by
    intro t ht
    obtain rfl := List.eq_of_mem_replicate ht
    decide
  have hlen : (List.replicate n "").length = n := List.length_replicate
  refine ⟨spawn_decoded hs ?_ (by rw [hlen]; omega), fun hpassed => ?_⟩
  · intro hnil
    rw [hnil] at hlen
    simp only [List.length_nil] at hlen
    omega
  · have hall : ∀ t ∈ "a" :: "b" :: (some (List.replicate n "")).getD [], NulFree t :=
      List.forall_mem_cons.mpr ⟨by decide, List.forall_mem_cons.mpr ⟨by decide, hs⟩⟩
    have hle := (fits_of_passed hready hall hpassed).2
    have hmany : n + 2 ≤ innerLength := hlen ▸ hle
    unfold innerLength at hmany
    omega

end Smos.Loader
