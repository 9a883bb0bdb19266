/-
Smos.Runtime.StackImage — what the runtime reads from a stack.

`StackImage` is the agreement between who fills a stack and who is started on
it: the count and the two pointers at the stack pointer, the pointer arrays
they lead to, and behind these the strings and the words. The runtime reads
an image back as it is if there are no more arguments than its array has
entries, and panics if there are more (`reads_image`).

`stackWrites` is the layout both writers use, from the top downwards.
-/
import Mathlib.Data.List.Forall2
import Smos.Runtime.Entry

namespace Smos.Runtime

open Smos.Base Smos.Ipc

/-- Numbers of eight bytes. -/
def wordBound : Nat := 256 ^ 8

/-- The bytes of a string with its terminator. -/
def terminatedBytes (s : String) : List UInt8 := strBytes s ++ [0]

/-- There is a list of arguments and an environment at `sp`, all of it below `top`. -/
structure StackImage (m : Memory) (sp top : Nat) (args : List String) (env : List Nat) : Prop where
  image : ∃ argvPtr envpPtr argv envp,
    Holds m sp (leBytes 4 args.length) ∧ Holds m (sp + 4) (leBytes 8 argvPtr) ∧
    Holds m (sp + 12) (leBytes 8 envpPtr) ∧ argvPtr < wordBound ∧ envpPtr < wordBound ∧
    Holds m argvPtr (argv.flatMap (leBytes 8)) ∧ Holds m envpPtr ((envp ++ [0]).flatMap (leBytes 8)) ∧
    List.Forall₂ (fun a s => a < wordBound ∧ a + (terminatedBytes s).length ≤ top ∧
      Holds m a (terminatedBytes s)) argv args ∧
    List.Forall₂ (fun a word => 0 < a ∧ a < wordBound ∧ a + 8 ≤ top ∧ word < wordBound ∧
      Holds m a (leBytes 8 word)) envp env
  few : args.length < 256 ^ 4
  environment : envpMinSize ≤ env.length ∧ env.length < innerLength
  top : env[envpStackTop]? = some top

section Reading

variable {m : Memory} {a sp top i n x : Nat} {s : String} {args : List String} {env ptrs : List Nat}

theorem readU64_holds (h : Holds m a (leBytes 8 x)) (hx : x < wordBound) : readU64 m a = x := by
  have hload : load m a 8 = leBytes 8 x := by simpa [Holds] using h
  unfold readU64
  rw [hload, leValue_leBytes hx]

/-! ## The environment -/

/-- The pointers that are left, with the null after them. -/
theorem readEnvp_spec {envp : Nat} (hptrs : Holds m envp ((ptrs ++ [0]).flatMap (leBytes 8)))
    (hbound : ∀ p ∈ ptrs, 0 < p ∧ p < wordBound) :
    ∀ (n i : Nat) (inner : List Nat), i ≤ ptrs.length → ptrs.length < i + n →
      i + n ≤ inner.length → (∀ j < i, inner[j]? = ptrs[j]?) →
      (readEnvp envp n i inner).wp
        (fun r m' => m' = m ∧ r.2 = ptrs.length ∧ ∀ j < ptrs.length, r.1[j]? = ptrs[j]?)
        (fun _ _ => False) (fun _ => False) m := by
  intro n
  induction n with
  | zero =>
    intro i inner hi hlt
    omega
  | succ n ih =>
    intro i inner hi hlt hlen hbefore
    have hin : i < (ptrs ++ [0]).length := by
      rw [List.length_append]
      exact Nat.lt_succ_of_le hi
    have hword := hptrs.word hin
    simp only [readEnvp, Prog.wp_bind, Prog.wp_gets, Prog.wp_ite, Prog.wp_pure]
    rcases Nat.lt_or_eq_of_le hi with hlt' | rfl
    · -- a pointer of the list
      rw [List.getElem_append_left hlt'] at hword
      have hp := hbound _ (List.getElem_mem hlt')
      have hread := readU64_holds hword hp.2
      refine ⟨fun hzero => by omega, fun _ => ?_⟩
      refine ih (i + 1) _ hlt' (by omega) (by simp; omega) fun j hj => ?_
      rw [hread]
      rcases Nat.lt_succ_iff_lt_or_eq.mp hj with hj | rfl
      · rw [List.getElem?_set_ne (by omega), hbefore j hj]
      · rw [List.getElem?_set_self (by omega), List.getElem?_eq_getElem hlt']
    · -- the null pointer
      rw [List.getElem_concat_length rfl] at hword
      have hread := readU64_holds hword (by decide)
      refine ⟨fun _ => ⟨trivial, rfl, fun j hj => ?_⟩, fun hno => absurd hread hno⟩
      rw [List.getElem?_set_ne (by omega), hbefore j hj]

/-- The words behind the pointers, all of them below `top`. -/
def EnvReady (m : Memory) (top : Nat) (e : EnvVarsInner) (env : List Nat) : Prop :=
  e.size = env.length ∧ ∀ (j word : Nat), env[j]? = some word →
    ∃ p, e.inner[j]? = some p ∧ p + 8 ≤ top ∧ word < wordBound ∧ Holds m p (leBytes 8 word)

/-- Changes above do not matter. -/
theorem EnvReady.congr {m' : Memory} {e : EnvVarsInner} (h : EnvReady m top e env)
    (hm : ∀ x < top, m' x = m x) : EnvReady m' top e env := by
  refine ⟨h.1, fun j word hj => ?_⟩
  obtain ⟨p, hp, hle, hlt, hholds⟩ := h.2 j word hj
  refine ⟨p, hp, hle, hlt, hholds.congr fun x _ hx => hm x ?_⟩
  rw [length_leBytes] at hx
  omega

theorem EnvReady.next {e : EnvVarsInner} (h : EnvReady m top e env) (hi : e.index < env.length) :
    e.next m = .ok (some env[e.index], { e with index := e.index + 1 }) m := by
  obtain ⟨p, hp, -, hlt, hholds⟩ := h.2 e.index env[e.index] (List.getElem?_eq_getElem hi)
  unfold EnvVarsInner.next
  rw [if_pos (h.1 ▸ hi), hp]
  refine (Prog.bind_of_ok rfl).trans ?_
  rw [Prog.gets_bind, readU64_holds hholds hlt]
  rfl

theorem EnvReady.advance {e : EnvVarsInner} (h : EnvReady m top e env) (i : Nat) :
    EnvReady m top { e with index := i } env := h

/-- An entry of the environment. -/
theorem EnvReady.nth (n : Nat) : ∀ {e : EnvVarsInner}, EnvReady m top e env →
    ∀ hi : e.index + n < env.length, e.nth n m = .ok (some env[e.index + n]) m := by
  induction n with
  | zero =>
    intro e h hi
    exact (Prog.bind_of_ok (h.next hi)).trans rfl
  | succ n ih =>
    intro e h hi
    refine (Prog.bind_of_ok (h.next (by omega))).trans ?_
    have hrest := ih (h.advance (e.index + 1)) (by simp only; omega)
    have hindex : e.index + 1 + n = e.index + (n + 1) := by omega
    simp only [hindex] at hrest
    exact hrest

theorem EnvReady.collect (n : Nat) : ∀ {e : EnvVarsInner}, EnvReady m top e env →
    e.index + n = env.length → e.collect n m = .ok (env.drop e.index) m := by
  induction n with
  | zero =>
    intro e h hn
    rw [List.drop_eq_nil_of_le (by omega)]
    rfl
  | succ n ih =>
    intro e h hn
    have hi : e.index < env.length := by omega
    refine (Prog.bind_of_ok (h.next hi)).trans ?_
    have hrest := ih (h.advance (e.index + 1)) (by simp only; omega)
    rw [List.drop_eq_getElem_cons hi]
    exact (Prog.bind_of_ok hrest).trans rfl

/-! ## The arguments -/

/-- The strings behind the pointers, and the top of the stack. -/
structure ArgsReady (m : Memory) (t : Statics) (top : Nat) (a : ArgsInner) (args : List String) :
    Prop where
  stackTop : t.stackTop m = .ok top m
  size : a.size = args.length
  strings : ∀ (j : Nat) (s : String), args[j]? = some s → ∃ p, a.inner[j]? = some p ∧
    p + (terminatedBytes s).length ≤ top ∧ Holds m p (terminatedBytes s) ∧ NulFree s

theorem rustStrFromBuffer_holds (hs : NulFree s) (hle : a + (terminatedBytes s).length ≤ top)
    (h : Holds m a (terminatedBytes s)) :
    ∃ rest, rustStrFromBuffer (load m a (top - a)) = .ok (s, rest) := by
  have hsplit : top - a = (terminatedBytes s).length + (top - a - (terminatedBytes s).length) := by
    omega
  rw [hsplit, load_append, h]
  exact ⟨_, rustStrFromBuffer_append hs _⟩

theorem ArgsReady.next {t : Statics} {b : ArgsInner} (h : ArgsReady m t top b args)
    (hi : b.index < args.length) :
    t.nextArg b m = .ok (some args[b.index], { b with index := b.index + 1 }) m := by
  obtain ⟨p, hp, hle, hholds, hs⟩ := h.strings b.index _ (List.getElem?_eq_getElem hi)
  obtain ⟨rest, hread⟩ := rustStrFromBuffer_holds hs hle hholds
  unfold Statics.nextArg
  rw [if_pos (h.size ▸ hi), hp]
  refine (Prog.bind_of_ok rfl).trans ((Prog.bind_of_ok h.stackTop).trans ?_)
  have hassert : (Prog.assert .arithmeticOverflow (p ≤ top) : UProg Unit) m = .ok () m := by
    unfold Prog.assert
    rw [decide_eq_true (by omega : p ≤ top)]
    rfl
  refine (Prog.bind_of_ok hassert).trans ?_
  rw [Prog.gets_bind, hread]
  rfl

theorem ArgsReady.collect {t : Statics} (n : Nat) : ∀ {b : ArgsInner}, ArgsReady m t top b args →
    b.index + n = args.length → t.collectArgs n b m = .ok (args.drop b.index) m := by
  induction n with
  | zero =>
    intro b h hn
    rw [List.drop_eq_nil_of_le (by omega)]
    rfl
  | succ n ih =>
    intro b h hn
    have hi : b.index < args.length := by omega
    refine (Prog.bind_of_ok (h.next hi)).trans ?_
    have hadvance : ArgsReady m t top { b with index := b.index + 1 } args :=
      ⟨h.stackTop, h.size, h.strings⟩
    have hrest := ih hadvance (by simp only; omega)
    rw [List.drop_eq_getElem_cons hi]
    exact (Prog.bind_of_ok hrest).trans rfl

/-! ## The image -/

theorem EnvReady.start {e : EnvVarsInner} (h : EnvReady m top e env) (he : e.index = 0)
    (hx : env[n]? = some x) : e.nth n m = .ok (some x) m := by
  obtain ⟨hn, rfl⟩ := List.getElem?_eq_some_iff.mp hx
  have hnth := h.nth n (by omega)
  simpa only [he, Nat.zero_add] using hnth

/-- `argv` is copied, if it fits. -/
theorem initArgs_spec {argv : Nat} (h : Holds m argv (ptrs.flatMap (leBytes 8)))
    (hbound : ∀ p ∈ ptrs, p < wordBound) :
    (initArgs ptrs.length argv).wp
      (fun a m' => m' = m ∧ ptrs.length ≤ innerLength ∧ a.size = ptrs.length ∧ a.index = 0 ∧
        ∀ j < ptrs.length, a.inner[j]? = ptrs[j]?)
      (fun _ _ => False) (fun p => p = .indexOutOfBounds ∧ innerLength < ptrs.length) m := by
  unfold initArgs
  simp only [Prog.wp_ite, Prog.wp_bind, Prog.wp_assert, Prog.wp_gets, Prog.wp_pure,
    decide_eq_true_eq, decide_eq_false_iff_not]
  refine ⟨fun _ => ⟨fun hle => ⟨trivial, hle, trivial, trivial, fun j hj => ?_⟩,
    fun hno => ⟨trivial, Nat.not_le.mp hno⟩⟩, fun hno => ⟨trivial, by omega, trivial, trivial, fun j hj => by omega⟩⟩
  rw [List.getElem?_append_left (by simpa using hj), List.getElem?_map, List.getElem?_range hj,
    Option.map_some, List.getElem?_eq_getElem hj]
  exact congrArg some (readU64_holds (h.word hj) (hbound _ (List.getElem_mem hj)))

/-- `envp` is copied up to its null pointer. -/
theorem initEnv_ok {envp : Nat} (h : Holds m envp ((ptrs ++ [0]).flatMap (leBytes 8)))
    (hbound : ∀ p ∈ ptrs, 0 < p ∧ p < wordBound) (hmin : envpMinSize ≤ ptrs.length)
    (hmax : ptrs.length < innerLength) :
    ∃ e, initEnv envp m = .ok e m ∧ e.size = ptrs.length ∧ e.index = 0 ∧
      ∀ j < ptrs.length, e.inner[j]? = ptrs[j]? := by
  unfold initEnv
  -- the loop is not to be unrolled
  generalize innerLength = n at hmax ⊢
  have hread := readEnvp_spec h hbound n 0 (List.replicate n 0) (Nat.zero_le _) (by omega)
    (by simp) fun j hj => absurd hj (Nat.not_lt_zero j)
  obtain ⟨⟨inner, size⟩, m', hok, rfl, hsize, hinner⟩ := Prog.exists_ok hread
  refine ⟨⟨inner, size, 0⟩, (Prog.bind_of_ok hok).trans ?_, hsize, rfl, hinner⟩
  have hno : ¬ size < envpMinSize := by
    rw [show size = ptrs.length from hsize]
    exact Nat.not_lt.mpr hmin
  simp only [if_neg hno]
  rfl

/-- The runtime copies the pointers of an image, if there is room for them. -/
theorem entry_spec (h : StackImage m sp top args env) (hs : ∀ s ∈ args, NulFree s) :
    (entry sp).wp
      (fun t m' => m' = m ∧ args.length ≤ innerLength ∧ EnvReady m top t.envInner env ∧
        t.envInner.index = 0 ∧ ArgsReady m t top t.argsInner args ∧ t.argsInner.index = 0)
      (fun _ _ => False) (fun p => p = .indexOutOfBounds ∧ innerLength < args.length) m := by
  obtain ⟨argvPtr, envpPtr, argv, envp, hargc, hargvPtr, henvpPtr, hargvLt, henvpLt, hargv, henvp,
    hstrings, hwords⟩ := h.image
  have hcount : leValue (load m sp 4) = argv.length := by
    have hload : load m sp 4 = leBytes 4 args.length := by simpa [Holds] using hargc
    rw [hload, leValue_leBytes h.few, hstrings.length_eq]
  have hlen := hwords.length_eq
  have hlen' := hstrings.length_eq
  simp only [entry, Prog.wp_bind, Prog.wp_gets, hcount, readU64_holds hargvPtr hargvLt,
    readU64_holds henvpPtr henvpLt]
  have hargvBound : ∀ p ∈ argv, p < wordBound := by
    intro p hp
    obtain ⟨j, hj, rfl⟩ := List.getElem_of_mem hp
    exact ((List.forall₂_iff_get.mp hstrings).2 j hj (by omega)).1
  have henvpBound : ∀ p ∈ envp, 0 < p ∧ p < wordBound := by
    intro p hp
    obtain ⟨j, hj, rfl⟩ := List.getElem_of_mem hp
    have hword := (List.forall₂_iff_get.mp hwords).2 j hj (by omega)
    exact ⟨hword.1, hword.2.1⟩
  have hmin : envpMinSize ≤ envp.length := hlen ▸ h.environment.1
  have hmax : envp.length < innerLength := hlen ▸ h.environment.2
  obtain ⟨e, hok, hsize', hindex', hinner'⟩ := initEnv_ok henvp henvpBound hmin hmax
  refine Prog.wp_mono (initArgs_spec hargv hargvBound) ?_ (fun _ _ hf => hf) ?_
  · intro a m₁ hargs
    rw [hargs.1, Prog.wp_of_ok hok]
    obtain ⟨-, hfit, hsize, hindex, hinner⟩ := hargs
    have henv : EnvReady m top e env := by
      refine ⟨by omega, fun j word hj => ?_⟩
      obtain ⟨hj', rfl⟩ := List.getElem?_eq_some_iff.mp hj
      have hword := (List.forall₂_iff_get.mp hwords).2 j (by omega) hj'
      exact ⟨envp[j], by rw [hinner' j (by omega), List.getElem?_eq_getElem],
        hword.2.2.1, hword.2.2.2.1, hword.2.2.2.2⟩
    refine ⟨rfl, hlen' ▸ hfit, henv, hindex', ⟨?_, hsize.trans hlen', fun j s hj => ?_⟩, hindex⟩
    · exact (Prog.bind_of_ok (henv.start hindex' h.top)).trans rfl
    · obtain ⟨hj', rfl⟩ := List.getElem?_eq_some_iff.mp hj
      have hstring := (List.forall₂_iff_get.mp hstrings).2 j (by omega) hj'
      exact ⟨argv[j], by rw [hinner j (by omega), List.getElem?_eq_getElem],
        hstring.2.1, hstring.2.2, hs _ (List.getElem_mem hj')⟩
  · rintro p ⟨hp, hlt⟩
    exact ⟨hp, by omega⟩

/-- What the runtime answers from an image. -/
theorem reads_image (h : StackImage m sp top args env) (hs : ∀ s ∈ args, NulFree s) :
    Reads m sp args env ↔ args.length ≤ innerLength := by
  constructor
  · rintro ⟨t, hentry, -⟩
    exact (Prog.wp_ok (entry_spec h hs) hentry).2.1
  · intro hn
    have hno : ∀ p : Panic, ¬ (p = .indexOutOfBounds ∧ innerLength < args.length) :=
      fun p hp => Nat.not_lt.mpr hn hp.2
    have hentry := Prog.wp_mono (entry_spec h hs) (fun _ _ hq => hq) (fun _ _ hf => hf)
      fun p hp => hno p hp
    obtain ⟨t, m', hok, hm', -, henv, hindex, hready, hindex'⟩ := Prog.exists_ok hentry
    obtain rfl : m = m' := hm'.symm
    refine ⟨t, hok, ?_, ?_⟩
    · have hcollect := hready.collect (t.argsInner.size - t.argsInner.index)
        (by rw [hready.size, hindex']; omega)
      have hall : args.drop t.argsInner.index = args := by rw [hindex', List.drop_zero]
      rwa [hall] at hcollect
    · have hcollect := henv.collect (t.envInner.size - t.envInner.index)
        (by rw [henv.1, hindex]; omega)
      have hall : env.drop t.envInner.index = env := by rw [hindex, List.drop_zero]
      rwa [hall] at hcollect

end Reading

end Smos.Runtime
