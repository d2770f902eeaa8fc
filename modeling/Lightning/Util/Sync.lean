import Lightning.Util.EnforcingTraitImpls

/-!
# Calls that take a mutex, side by side

Both mutexes of the sources are used the same way. A call checks its arguments without the
lock (`sign_remote_commitment`'s input count), runs a block holding the guard of a
`std::sync::Mutex` (`{ let mut data = m.lock().unwrap(); ... }`), and does the rest of its work
after the guard is dropped (the inner signer's call, `find_route`). `LockedCall` is such a call
and `LockedCall.call` what it does with no other thread about.

`Threads` runs one call per thread side by side, and a schedule says which thread moves next. A
thread takes the guard only when no other guard is alive (`lock()` blocks), `lock().unwrap()`
panics on a poisoned mutex, and a panic inside the block poisons it. A thread making several
calls is covered too: its calls are threads that the schedule runs one after another.

`Linearizes` is what holds after every schedule (`linearizes_run`). The mutex is the one the
calls leave when made one after another, in the order the threads passed `lock()`. Each thread
is where its call, made at its place in that order, leaves it. A thread not yet past `lock()`
is still waiting there, or panicked on its own checks.
-/

namespace Lightning.Util

/-- A call on arguments `ι` that runs part of its work holding the guard of a
`Mutex σ`. `pre` is whether it gets past the checks it makes before `lock()` (it panics
otherwise). `body` is the block run holding the guard: it returns a value, or panics (`none`),
and leaves the guarded data as given. `tail` is the rest of the call, after the guard is
dropped. -/
structure LockedCall (ι σ β γ : Type) where
  pre : ι → Bool
  body : ι → σ → Option β × σ
  tail : ι → β → γ

/-- Where a thread is in a `LockedCall`. A thread holding the guard is still `ready`: the block
has not run yet. -/
inductive Phase (β γ : Type) where
  /-- Not yet past the guarded block. -/
  | ready
  /-- Past the block with its value, the guard dropped. -/
  | unlocked (b : β)
  /-- Returned `some r`, or panicked. -/
  | finished (r : Option γ)
deriving DecidableEq

/-- Where the guarded block leaves a thread: past the lock with its value, or panicked. -/
def Phase.ofBlock {β γ : Type} : Option β → Phase β γ
  | none => .finished none
  | some b => .unlocked b

/-- `n` threads, each making one call on one mutex: the mutex, the thread whose guard on it is
alive, and each thread's phase. -/
structure Threads (σ β γ : Type) (n : Nat) where
  mutex : Mutex σ
  holder : Option (Fin n)
  phase : Fin n → Phase β γ

namespace Threads

variable {σ β γ : Type} {n : Nat}

/-- No guard alive and every thread before its call. -/
def init (m : Mutex σ) : Threads σ β γ n := ⟨m, none, fun _ => .ready⟩

/-- Thread `i` moves to phase `ph`. -/
def setPhase (s : Threads σ β γ n) (i : Fin n) (ph : Phase β γ) : Threads σ β γ n :=
  { s with phase := Function.update s.phase i ph }

variable {s : Threads σ β γ n} {i k : Fin n} {ph : Phase β γ}

@[simp] theorem mutex_setPhase : (s.setPhase i ph).mutex = s.mutex := rfl

@[simp] theorem holder_setPhase : (s.setPhase i ph).holder = s.holder := rfl

@[simp] theorem phase_setPhase_self : (s.setPhase i ph).phase i = ph :=
  Function.update_same _ _ _

theorem phase_setPhase_of_ne (h : k ≠ i) : (s.setPhase i ph).phase k = s.phase k :=
  Function.update_noteq h _ _

end Threads

namespace LockedCall

variable {ι σ β γ : Type} (p : LockedCall ι σ β γ) {n : Nat}

/-- The call up to the end of its guarded block, with no other thread about. It panics before
`lock()` when its checks fail, and at `lock().unwrap()` on a poisoned mutex. A panic in the
block poisons the mutex. -/
def guarded (m : Mutex σ) (x : ι) : Option β × Mutex σ :=
  if p.pre x then
    if m.poisoned then (none, m)
    else
      let result := p.body x m.data
      (result.1, ⟨result.2, result.1.isNone⟩)
  else (none, m)

/-- The whole call with no other thread about: its result (`none` where it panics), and the
mutex after it. -/
def call (m : Mutex σ) (x : ι) : Option γ × Mutex σ :=
  ((p.guarded m x).1.map (p.tail x), (p.guarded m x).2)

/-- The mutex after calls made one after another. -/
def lockAll (m : Mutex σ) (xs : List ι) : Mutex σ :=
  xs.foldl (fun m x => (p.guarded m x).2) m

/-- Thread `i`, calling with `input i`, moves once. Holding the guard, it runs the block and
drops the guard, poisoning the mutex if the block panicked. Otherwise, before its call, it
panics if its own checks fail, waits in `lock()` while another guard is alive, panics on a
poisoned mutex (the guard it got is dropped at once), and else takes the guard. Past the block
it runs the tail. -/
def step (input : Fin n → ι) (s : Threads σ β γ n) (i : Fin n) : Threads σ β γ n :=
  match s.phase i with
  | .ready =>
      if s.holder = some i then
        let result := p.body (input i) s.mutex.data
        { s.setPhase i (Phase.ofBlock result.1) with
          mutex := ⟨result.2, s.mutex.poisoned || result.1.isNone⟩
          holder := none }
      else if !p.pre (input i) then s.setPhase i (.finished none)
      else if s.holder.isSome then s
      else if s.mutex.poisoned then s.setPhase i (.finished none)
      else { s with holder := some i }
  | .unlocked b => s.setPhase i (.finished (some (p.tail (input i) b)))
  | .finished _ => s

/-- The threads after a schedule, each entry the thread that moves next. -/
def run (input : Fin n → ι) (s : Threads σ β γ n) (sched : List (Fin n)) : Threads σ β γ n :=
  sched.foldl (p.step input) s

@[simp] theorem run_nil (input : Fin n → ι) (s : Threads σ β γ n) : p.run input s [] = s := rfl

@[simp] theorem run_cons (input : Fin n → ι) (s : Threads σ β γ n) (i : Fin n)
    (sched : List (Fin n)) : p.run input s (i :: sched) = p.run input (p.step input s i) sched :=
  rfl

theorem guarded_of_live {m : Mutex σ} {x : ι} (hx : p.pre x = true) (hm : m.poisoned = false) :
    p.guarded m x = ((p.body x m.data).1, ⟨(p.body x m.data).2, (p.body x m.data).1.isNone⟩) := by
  simp [guarded, hx, hm]

theorem guarded_of_poisoned {m : Mutex σ} {x : ι} (hx : p.pre x = true)
    (hm : m.poisoned = true) : p.guarded m x = (none, m) := by
  simp [guarded, hx, hm]

theorem lockAll_concat (m : Mutex σ) (xs : List ι) (x : ι) :
    p.lockAll m (xs ++ [x]) = (p.guarded (p.lockAll m xs) x).2 :=
  List.foldl_concat _ _ _ _

theorem getElem?_concat_eq_some {α : Type} {l : List α} {a b : α} {j : Nat} :
    (l ++ [a])[j]? = some b ↔ l[j]? = some b ∨ (j = l.length ∧ a = b) := by
  rcases Nat.lt_or_ge j l.length with h | h
  · rw [List.getElem?_append_left h]
    exact ⟨.inl, fun h' => h'.resolve_right fun ⟨hj, _⟩ => by omega⟩
  · rw [List.getElem?_append_right h, List.getElem?_eq_none h]
    rcases Nat.eq_zero_or_pos (j - l.length) with h0 | h0
    · rw [h0, List.getElem?_cons_zero]
      simp only [Option.some.injEq, reduceCtorEq, false_or]
      exact ⟨fun hab => ⟨by omega, hab⟩, fun h' => h'.2⟩
    · rw [List.getElem?_eq_none (by simp only [List.length_singleton]; omega)]
      simp only [reduceCtorEq, false_or, false_iff, not_and]
      omega

/-! ## The invariant of every schedule -/

/-- The phases a thread calling with `x` can be in once its guarded block returned `r`:
panicked if the block or `lock()` did, and otherwise past the block or returned from the
tail. -/
def Passed (x : ι) : Option β → Phase β γ → Prop
  | none, ph => ph = .finished none
  | some b, ph => ph = .unlocked b ∨ ph = .finished (some (p.tail x b))

/-- What the invariant asks of thread `i` in phase `ph`. Once it is `j`-th in `order`, it is
where its guarded block, run after the first `j` calls of `order`, leaves it. Before that it
waits at `lock()` or has panicked on its own checks. -/
def Placed (input : Fin n → ι) (m₀ : Mutex σ) (order : List (Fin n)) (i : Fin n)
    (ph : Phase β γ) : Prop :=
  (∀ j, order[j]? = some i →
    p.Passed (input i) (p.guarded (p.lockAll m₀ ((order.take j).map input)) (input i)).1 ph) ∧
  (i ∉ order → ph = .ready ∨ (ph = .finished none ∧ p.pre (input i) = false))

/-- The threads `s`, started on the mutex `m₀`, are the calls of `order` made one after
another: `order` lists the threads past `lock()` in the order they passed it, the mutex is
the one those calls leave, every thread is `Placed`, and the holder of the guard is a thread
that passed its checks and locked a mutex that is not poisoned. -/
structure Linearizes (input : Fin n → ι) (m₀ : Mutex σ) (s : Threads σ β γ n)
    (order : List (Fin n)) : Prop where
  nodup : order.Nodup
  mutex_eq : s.mutex = p.lockAll m₀ (order.map input)
  placed : ∀ i, p.Placed input m₀ order i (s.phase i)
  holder_live : ∀ i, s.holder = some i →
    i ∉ order ∧ p.pre (input i) = true ∧ s.mutex.poisoned = false

variable {p} {input : Fin n → ι} {m₀ : Mutex σ} {s : Threads σ β γ n} {order : List (Fin n)}

theorem passed_ready {x : ι} {r : Option β} : ¬p.Passed x r .ready := by
  cases r <;> simp [Passed]

/-- A thread still `ready` has not passed `lock()`. -/
theorem Linearizes.not_mem_of_ready (hs : p.Linearizes input m₀ s order) {i : Fin n}
    (hi : s.phase i = .ready) : i ∉ order := by
  intro hmem
  obtain ⟨j, hj⟩ := List.mem_iff_getElem?.1 hmem
  exact passed_ready (hi ▸ (hs.placed i).1 j hj)

/-- A step that moves only thread `i`, leaves the mutex alone and keeps `i` placed keeps the
invariant, provided the holder is still a live thread outside `order`. -/
theorem Linearizes.keep (hs : p.Linearizes input m₀ s order) {s' : Threads σ β γ n}
    {i : Fin n} (hm : s'.mutex = s.mutex) (hph : ∀ k, k ≠ i → s'.phase k = s.phase k)
    (hi : p.Placed input m₀ order i (s'.phase i))
    (hholder : ∀ k, s'.holder = some k →
      k ∉ order ∧ p.pre (input k) = true ∧ s.mutex.poisoned = false) :
    p.Linearizes input m₀ s' order where
  nodup := hs.nodup
  mutex_eq := hm ▸ hs.mutex_eq
  placed k := by
    by_cases hk : k = i
    · exact hk ▸ hi
    · exact hph k hk ▸ hs.placed k
  holder_live := hm ▸ hholder

/-- The step at which thread `i` passes `lock()` (its block runs, or it finds the mutex
poisoned) appends it to `order`. -/
theorem Linearizes.extend (hs : p.Linearizes input m₀ s order) {s' : Threads σ β γ n}
    {i : Fin n} (hi : i ∉ order) (hm : s'.mutex = (p.guarded s.mutex (input i)).2)
    (hph : ∀ k, k ≠ i → s'.phase k = s.phase k)
    (hpass : p.Passed (input i) (p.guarded s.mutex (input i)).1 (s'.phase i))
    (hholder : s'.holder = none) :
    p.Linearizes input m₀ s' (order ++ [i]) where
  nodup := List.nodup_append.2 ⟨hs.nodup, List.nodup_singleton i,
    List.disjoint_singleton.2 hi⟩
  mutex_eq := by rw [hm, hs.mutex_eq, List.map_append, List.map_singleton, lockAll_concat]
  placed k := by
    by_cases hk : k = i
    · subst hk
      refine ⟨fun j hj => ?_, fun h => absurd (List.mem_append_right _ (List.mem_singleton_self k)) h⟩
      rcases getElem?_concat_eq_some.1 hj with hj | ⟨rfl, -⟩
      · exact absurd (List.getElem?_mem hj) hi
      · rw [List.take_left' rfl, ← hs.mutex_eq]
        exact hpass
    · rw [hph k hk]
      obtain ⟨hpl, hwait⟩ := hs.placed k
      refine ⟨fun j hj => ?_, fun h => hwait fun hmem => h (List.mem_append_left _ hmem)⟩
      rcases getElem?_concat_eq_some.1 hj with hj | ⟨-, rfl⟩
      · rw [List.take_append_of_le_length (List.getElem?_eq_some_iff.1 hj).1.le]
        exact hpl j hj
      · exact absurd rfl hk
  holder_live k hk := by rw [hholder] at hk; cases hk

/-- One step of any thread keeps the invariant, `order` growing by the thread that passes
`lock()`. -/
theorem Linearizes.step (hs : p.Linearizes input m₀ s order) (i : Fin n) :
    ∃ order', p.Linearizes input m₀ (p.step input s i) order' := by
  unfold LockedCall.step
  split
  · rename_i hready
    have hi := hs.not_mem_of_ready hready
    split
    · -- holding the guard: the block runs
      rename_i hhold
      obtain ⟨-, hpre, hpois⟩ := hs.holder_live i hhold
      rcases hb : p.body (input i) s.mutex.data with ⟨_ | b, d⟩ <;>
        exact ⟨_, hs.extend hi (by simp [guarded_of_live p hpre hpois, hpois, hb])
          (fun k hk => Threads.phase_setPhase_of_ne hk)
          (by simp [guarded_of_live p hpre hpois, hb, Phase.ofBlock, Passed]) rfl⟩
    · rename_i hnot
      split
      · -- its own checks fail
        rename_i hpre
        refine ⟨_, hs.keep rfl (fun k hk => Threads.phase_setPhase_of_ne hk)
          ⟨fun j hj => absurd (List.getElem?_mem hj) hi, fun _ => .inr ⟨?_, ?_⟩⟩
          (fun k hk => hs.holder_live k hk)⟩
        · simp
        · simpa using hpre
      · rename_i hpre
        simp only [Bool.not_eq_true', Bool.not_eq_false] at hpre
        split
        · exact ⟨order, hs⟩
        · rename_i hfree
          have hnone : s.holder = none := Option.not_isSome_iff_eq_none.1 hfree
          split
          · -- the mutex is poisoned: `lock().unwrap()` panics
            rename_i hpois
            refine ⟨_, hs.extend hi (by simp [guarded_of_poisoned p hpre hpois])
              (fun k hk => Threads.phase_setPhase_of_ne hk) ?_ hnone⟩
            simp [guarded_of_poisoned p hpre hpois, Passed]
          · -- the guard is taken
            rename_i hpois
            refine ⟨order, hs.keep rfl (fun _ _ => rfl) (hs.placed i) ?_⟩
            intro k hk
            cases hk
            exact ⟨hi, hpre, by simpa using hpois⟩
  · -- past the block, the tail runs
    rename_i b hunl
    refine ⟨order, hs.keep rfl (fun k hk => Threads.phase_setPhase_of_ne hk)
      ⟨fun j hj => ?_, fun h => ?_⟩ (fun k hk => hs.holder_live k hk)⟩
    · have h := (hs.placed i).1 j hj
      rw [hunl] at h
      revert h
      rcases (p.guarded (p.lockAll m₀ ((order.take j).map input)) (input i)).1 with _ | c
      · simp [Passed]
      · rintro (h | h) <;> cases h
        exact .inr (Threads.phase_setPhase_self)
    · rcases (hs.placed i).2 h with h | ⟨h, -⟩ <;> rw [hunl] at h <;> cases h
  · exact ⟨order, hs⟩

theorem linearizes_init (input : Fin n → ι) (m₀ : Mutex σ) :
    p.Linearizes input m₀ (Threads.init m₀) [] where
  nodup := List.nodup_nil
  mutex_eq := rfl
  placed _ := ⟨fun _ hj => (by simp at hj), fun _ => .inl rfl⟩
  holder_live _ h := by cases h

theorem Linearizes.run (hs : p.Linearizes input m₀ s order) (sched : List (Fin n)) :
    ∃ order', p.Linearizes input m₀ (p.run input s sched) order' := by
  induction sched generalizing s order with
  | nil => exact ⟨order, hs⟩
  | cons i sched ih =>
    obtain ⟨order', hs'⟩ := hs.step i
    exact ih hs'

/-- Every schedule of threads started together on `m₀` is linearizable: some order of the
threads past `lock()` explains the mutex and every thread's phase. -/
theorem linearizes_run (p : LockedCall ι σ β γ) (input : Fin n → ι) (m₀ : Mutex σ)
    (sched : List (Fin n)) :
    ∃ order, p.Linearizes input m₀ (p.run input (Threads.init m₀) sched) order :=
  (linearizes_init input m₀).run sched

end LockedCall

end Lightning.Util
