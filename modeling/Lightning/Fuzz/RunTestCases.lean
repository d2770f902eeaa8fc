import Mathlib.Algebra.BigOperators.Fin

/-!
# The fuzz test-case runner's thread throttle

`fuzz/src/bin/msg_closing_signed_target.rs`, `run_test_cases`; every target of the fuzz crate
is generated from one template and has the same function. It runs one thread for each file of
`test_cases/`. The atomic `threads_running` counts the threads: the main thread adds one
before it spawns a thread, and each thread takes one off and `unpark`s the main thread once
its test is done. The main thread `park`s while the count is above 32. It then joins the
threads in order and panics at the first whose test panicked.

`Runner` holds the main thread, the test threads and the two shared values. `step` is one
atomic action of one of them, with `park`'s token and its spurious wake-ups included.
`Throttled` is the invariant: the count is the number of running threads, plus one while a
spawn is pending. `run_test_cases_throttle` is the law of every schedule: at most 33 test
threads run at once, the run passes only if every test passed and otherwise panics at the
first failed one, no state in which the main thread has not finished is stuck, and with 33 or
more test files the main thread alone reaches 33 running threads.
-/

namespace Lightning.Fuzz

/-- The main thread's program point. `add k` is before `threads_running.fetch_add(1)` for the
`k`-th test file, or the loop's end once `k` is the number of files. `spawn k` is between
that and `std::thread::spawn`. `check k` is the loop guard `threads_running.load() > 32`, and
`park k` is inside `std::thread::park()`. `join j` is `thread.join()` on the `j`-th thread of
`threads.drain(..)`. `passed` is the return, and `panicked j` the `panic!()` after printing
the `j`-th thread's output. -/
inductive Main where
  | add (k : Nat)
  | spawn (k : Nat)
  | check (k : Nat)
  | park (k : Nat)
  | join (j : Nat)
  | passed
  | panicked (j : Nat)
deriving DecidableEq

/-- A test thread's program point: not spawned yet; running its test under `catch_unwind`;
past `thread_count_ref.fetch_sub(1)`; past `main_thread_ref.unpark()`, so returned. -/
inductive Worker where
  | unspawned
  | running
  | counted
  | exited
deriving DecidableEq

/-- The runner for `n` test files: `threads_running`, the main thread's park token, and each
thread's program point. -/
structure Runner (n : Nat) where
  threadsRunning : Nat
  token : Bool
  main : Main
  workers : Fin n → Worker

/-- Who acts: the main thread, the main thread returning from `park` spuriously, or a test
thread. -/
inductive Actor (n : Nat) where
  | main
  | wake
  | worker (i : Fin n)

namespace Runner

variable {n : Nat} (panics : Fin n → Bool)

/-- Before the loop: nothing counted, no token, no thread spawned. -/
def init (n : Nat) : Runner n := ⟨0, false, .add 0, fun _ => .unspawned⟩

/-- The main thread's next action; `panics i` is whether the `i`-th test panicked, which its
thread returns as `Some(output)`. A `park` without the token and a `join` on a thread that has
not returned wait. -/
def mainStep (s : Runner n) : Runner n :=
  match s.main with
  | .add k =>
      if k < n then { s with threadsRunning := s.threadsRunning + 1, main := .spawn k }
      else { s with main := .join 0 }
  | .spawn k =>
      if h : k < n then
        { s with workers := Function.update s.workers ⟨k, h⟩ .running, main := .check k }
      else s
  | .check k =>
      if 32 < s.threadsRunning then { s with main := .park k } else { s with main := .add (k + 1) }
  | .park k => if s.token then { s with token := false, main := .check k } else s
  | .join j =>
      if h : j < n then
        if s.workers ⟨j, h⟩ = .exited then
          { s with main := if panics ⟨j, h⟩ then .panicked j else .join (j + 1) }
        else s
      else { s with main := .passed }
  | .passed | .panicked _ => s

/-- `park` returns without the token. -/
def wake (s : Runner n) : Runner n :=
  match s.main with
  | .park k => { s with main := .check k }
  | _ => s

/-- Test thread `i`'s next action: the `fetch_sub` once its test is done, then the `unpark`. -/
def workerStep (s : Runner n) (i : Fin n) : Runner n :=
  match s.workers i with
  | .running =>
      { s with
        threadsRunning := s.threadsRunning - 1
        workers := Function.update s.workers i .counted }
  | .counted => { s with token := true, workers := Function.update s.workers i .exited }
  | .unspawned | .exited => s

/-- One atomic action. -/
def step (s : Runner n) : Actor n → Runner n
  | .main => mainStep panics s
  | .wake => wake s
  | .worker i => workerStep s i

/-- The actors act in the order `sched`. -/
def run (s : Runner n) (sched : List (Actor n)) : Runner n := sched.foldl (step panics) s

end Runner

/-- One for a thread running its test. -/
def Worker.live : Worker → Nat
  | .running => 1
  | _ => 0

@[simp] theorem Worker.live_running : Worker.running.live = 1 := rfl
@[simp] theorem Worker.live_unspawned : Worker.unspawned.live = 0 := rfl
@[simp] theorem Worker.live_counted : Worker.counted.live = 0 := rfl
@[simp] theorem Worker.live_exited : Worker.exited.live = 0 := rfl

/-- The number of test threads running their tests. -/
def Runner.running {n : Nat} (s : Runner n) : Nat := ∑ i, (s.workers i).live

/-- How many threads the main thread has spawned at each of its points. -/
def Main.spawned (n : Nat) : Main → Nat
  | .add k | .spawn k => k
  | .check k | .park k => k + 1
  | .join _ | .passed | .panicked _ => n

/-- One while the main thread has counted a thread it has not spawned yet. -/
def Main.pending : Main → Nat
  | .spawn _ => 1
  | _ => 0

namespace Runner

variable {n : Nat} {panics : Fin n → Bool} {s : Runner n}

theorem sum_live_update (workers : Fin n → Worker) (i : Fin n) (w : Worker) :
    ∑ j, (Function.update workers i w j).live + (workers i).live =
      ∑ j, (workers j).live + w.live := by
  have hupd : (fun j => (Function.update workers i w j).live) =
      Function.update (fun j => (workers j).live) i w.live :=
    funext fun j => Function.apply_update (fun _ => Worker.live) workers i w j
  rw [hupd, Finset.sum_update_of_mem (Finset.mem_univ i),
    Finset.sum_eq_add_sum_diff_singleton (Finset.mem_univ i) (fun j => (workers j).live)]
  omega

variable (panics) in
/-- What each point of the main thread knows, given the count, its token and the threads.
About to add: at most 32 counted. Parked: it has its token, or the count is above 32, or a
thread is about to `unpark` it. Joining the `j`-th thread: the threads before it returned
from passing tests. Passed: all did. Panicked at `j`: the `j`-th test failed and those before
passed. -/
def MainOk (tr : Nat) (token : Bool) (workers : Fin n → Worker) : Main → Prop
  | .add k => k ≤ n ∧ tr ≤ 32
  | .spawn k | .check k => k < n
  | .park k => k < n ∧ (token = true ∨ 32 < tr ∨ ∃ i, workers i = .counted)
  | .join j => j ≤ n ∧ ∀ i : Fin n, i.val < j → workers i = .exited ∧ panics i = false
  | .passed => ∀ i, workers i = .exited ∧ panics i = false
  | .panicked j => ∃ h : j < n, panics ⟨j, h⟩ = true ∧ ∀ i : Fin n, i.val < j → panics i = false

variable (panics) in
/-- What holds in every state of the runner: the threads spawned are those the main thread
has passed, `threads_running` counts the running threads and a pending spawn and stays at most
33, and the main thread's point holds what `MainOk` says. -/
structure Throttled (s : Runner n) : Prop where
  spawned : ∀ i : Fin n, s.workers i ≠ .unspawned ↔ i.val < s.main.spawned n
  counted : s.threadsRunning = s.running + s.main.pending
  bound : s.threadsRunning ≤ 33
  mainOk : MainOk panics s.threadsRunning s.token s.workers s.main

theorem throttled_init : Throttled panics (init n) where
  spawned i := by simp [init, Main.spawned]
  counted := by simp [init, running, Worker.live, Main.pending]
  bound := by simp [init]
  mainOk := by simp [init, MainOk]

namespace Throttled

theorem mainStep (h : Throttled panics s) : Throttled panics (Runner.mainStep panics s) := by
  have ⟨hsp, hc, hb, hok⟩ := h
  unfold Runner.mainStep
  split
  next k hm =>
    simp only [hm, MainOk, Main.spawned, Main.pending] at hsp hc hok
    split
    next hk =>
      exact ⟨by simpa [Main.spawned] using hsp, by simp only [running, Main.pending] at hc ⊢; omega,
        by dsimp only; omega, hk⟩
    next hk =>
      have hkn : k = n := by omega
      subst hkn
      exact ⟨by simpa [Main.spawned] using hsp, by simpa [Main.pending] using hc, hb,
        ⟨Nat.zero_le _, fun i hi => absurd hi (Nat.not_lt_zero _)⟩⟩
  next k hm =>
    simp only [hm, MainOk, Main.spawned, Main.pending] at hsp hc hok
    rw [dif_pos hok]
    have hk : s.workers ⟨k, hok⟩ = .unspawned := by
      by_contra hne; exact Nat.lt_irrefl k ((hsp _).1 hne)
    refine ⟨fun i => ?_, ?_, hb, hok⟩
    · by_cases hi : i = ⟨k, hok⟩
      · subst hi; simp [Main.spawned]
      · have : i.val ≠ k := fun e => hi (Fin.ext e)
        simp only [Function.update_noteq hi, Main.spawned, hsp]
        omega
    · have := sum_live_update s.workers ⟨k, hok⟩ .running
      simp only [hk, Worker.live_unspawned, Worker.live_running] at this
      simp only [running, Main.pending] at hc ⊢
      omega
  next k hm =>
    simp only [hm, MainOk, Main.spawned, Main.pending] at hsp hc hok
    split
    next ht => exact ⟨by simpa [Main.spawned] using hsp, by simpa [Main.pending] using hc, hb,
      hok, .inr (.inl ht)⟩
    next ht => exact ⟨by simpa [Main.spawned] using hsp, by simpa [Main.pending] using hc, hb,
      hok, by dsimp only; omega⟩
  next k hm =>
    simp only [hm, MainOk, Main.spawned, Main.pending] at hsp hc hok
    split
    next => exact ⟨by simpa [Main.spawned] using hsp, by simpa [Main.pending] using hc, hb, hok.1⟩
    next => exact h
  next j hm =>
    simp only [hm, MainOk, Main.spawned, Main.pending] at hsp hc hok
    split
    next hj =>
      split
      next hx =>
        split
        next hp =>
          exact ⟨by simpa [Main.spawned] using hsp, by simpa [Main.pending] using hc, hb,
            hj, hp, fun i hi => (hok.2 i hi).2⟩
        next hp =>
          refine ⟨by simpa [Main.spawned] using hsp, by simpa [Main.pending] using hc, hb, hj,
            fun i hi => ?_⟩
          rcases Nat.lt_succ_iff_lt_or_eq.1 hi with hi | hi
          · exact hok.2 i hi
          · obtain rfl : i = ⟨j, hj⟩ := Fin.ext hi
            exact ⟨hx, by simpa using hp⟩
      next => exact h
    next hj =>
      have hjn : j = n := by omega
      subst hjn
      exact ⟨by simpa [Main.spawned] using hsp, by simpa [Main.pending] using hc, hb,
        fun i => hok.2 i i.2⟩
  next => exact h
  next => exact h

theorem wake (h : Throttled panics s) : Throttled panics (Runner.wake s) := by
  unfold Runner.wake
  split
  next k hm =>
    have ⟨hsp, hc, hb, hok⟩ := h
    simp only [hm, MainOk, Main.spawned, Main.pending] at hsp hc hok
    exact ⟨by simpa [Main.spawned] using hsp, by simpa [Main.pending] using hc, hb, hok.1⟩
  next => exact h

theorem workerStep (h : Throttled panics s) (i : Fin n) :
    Throttled panics (Runner.workerStep s i) := by
  have ⟨hsp, hc, hb, hok⟩ := h
  unfold Runner.workerStep
  split
  next hw =>
    have hlive := sum_live_update s.workers i .counted
    simp only [hw, Worker.live_running, Worker.live_counted] at hlive
    refine ⟨fun j => ?_, ?_, by dsimp only; omega, ?_⟩
    · by_cases hj : j = i
      · subst hj; simpa [hw] using hsp j
      · simpa [Function.update_noteq hj] using hsp j
    · simp only [running] at hc ⊢; omega
    · cases hm : s.main <;> simp only [hm, MainOk] at hok ⊢
      case add => exact ⟨hok.1, by omega⟩
      case park => exact ⟨hok.1, .inr (.inr ⟨i, by simp⟩)⟩
      case join j =>
        refine ⟨hok.1, fun i' hi' => ?_⟩
        have hne : i' ≠ i := fun e => by rw [e] at hi'; simpa [hw] using (hok.2 i hi').1
        simpa [Function.update_noteq hne] using hok.2 i' hi'
      case passed => exact absurd (hok i).1 (by simp [hw])
      all_goals exact hok
  next hw =>
    have hlive := sum_live_update s.workers i .exited
    simp only [hw, Worker.live_exited, Worker.live_counted] at hlive
    refine ⟨fun j => ?_, ?_, hb, ?_⟩
    · by_cases hj : j = i
      · subst hj; simpa [hw] using hsp j
      · simpa [Function.update_noteq hj] using hsp j
    · simp only [running] at hc ⊢; omega
    · cases hm : s.main <;> simp only [hm, MainOk] at hok ⊢
      case park => exact ⟨hok.1, by simp⟩
      case join j =>
        refine ⟨hok.1, fun i' hi' => ?_⟩
        have hne : i' ≠ i := fun e => by rw [e] at hi'; simpa [hw] using (hok.2 i hi').1
        simpa [Function.update_noteq hne] using hok.2 i' hi'
      case passed => exact absurd (hok i).1 (by simp [hw])
      all_goals exact hok
  all_goals exact h

theorem step (h : Throttled panics s) : ∀ a, Throttled panics (Runner.step panics s a)
  | .main => h.mainStep
  | .wake => h.wake
  | .worker i => h.workerStep i

theorem run (h : Throttled panics s) (sched : List (Actor n)) :
    Throttled panics (Runner.run panics s sched) := by
  induction sched generalizing s with
  | nil => exact h
  | cons a sched ih => exact ih (h.step a)

theorem main_moves (h : (Runner.mainStep panics s).main ≠ s.main) :
    Runner.step panics s .main ≠ s :=
  fun e => h (congrArg Runner.main e)

/-- A thread running its test, or about to `unpark`, can always move. -/
theorem worker_moves {i : Fin n} (hw : s.workers i = .running ∨ s.workers i = .counted) :
    Runner.step panics s (.worker i) ≠ s := fun e => by
  have := congrArg (fun t => t.workers i) e
  rcases hw with hw | hw <;> simp [Runner.step, Runner.workerStep, hw] at this

/-- No lost wake-up and no deadlock: until the main thread has returned or panicked, the main
thread or a test thread can move without a spurious wake-up. A parked main thread has its
token, or a thread that will `unpark` it is running or about to. -/
theorem progress (h : Throttled panics s) (hp : s.main ≠ .passed)
    (hx : ∀ j, s.main ≠ .panicked j) : ∃ a, a ≠ .wake ∧ Runner.step panics s a ≠ s := by
  have hok := h.mainOk
  rcases hm : s.main with k | k | k | k | j | _ | j <;> simp only [hm, MainOk] at hok
  · refine ⟨.main, nofun, main_moves ?_⟩
    simp only [Runner.mainStep, hm]; split <;> simp
  · exact ⟨.main, nofun, main_moves (by simp [Runner.mainStep, hm, hok])⟩
  · refine ⟨.main, nofun, main_moves ?_⟩
    simp only [Runner.mainStep, hm]; split <;> simp
  · rcases hok.2 with ht | ht | ⟨i, hi⟩
    · exact ⟨.main, nofun, main_moves (by simp [Runner.mainStep, hm, ht])⟩
    · have hr : s.running ≠ 0 := by have := h.counted; simp only [hm, Main.pending] at this; omega
      obtain ⟨i, -, hi⟩ := Finset.exists_ne_zero_of_sum_ne_zero hr
      refine ⟨.worker i, nofun, worker_moves (.inl ?_)⟩
      revert hi; cases s.workers i <;> simp
    · exact ⟨.worker i, nofun, worker_moves (.inr hi)⟩
  · by_cases hj : j < n
    · by_cases hx : s.workers ⟨j, hj⟩ = .exited
      · refine ⟨.main, nofun, main_moves ?_⟩
        simp only [Runner.mainStep, hm, dif_pos hj, if_pos hx]; split <;> simp
      · have hsp : s.workers ⟨j, hj⟩ ≠ .unspawned := (h.spawned _).2 (by simp [hm, Main.spawned, hj])
        refine ⟨.worker ⟨j, hj⟩, nofun, worker_moves ?_⟩
        revert hsp hx; cases s.workers ⟨j, hj⟩ <;> simp
    · exact ⟨.main, nofun, main_moves (by simp [Runner.mainStep, hm, hj])⟩
  · exact absurd hm hp
  · exact absurd hm (hx j)

end Throttled

theorem run_append (s : Runner n) (a b : List (Actor n)) :
    Runner.run panics s (a ++ b) = Runner.run panics (Runner.run panics s a) b :=
  List.foldl_append _ _ _ _

variable (panics) in
/-- One round of the loop, `fetch_add`, `spawn` and the guard, with no test thread moving. -/
theorem run_round {k : Nat} (hm : s.main = .add k) (hk : k < n) :
    (Runner.run panics s [.main, .main, .main]).main =
      (if 32 < s.threadsRunning + 1 then .park k else .add (k + 1)) ∧
    (Runner.run panics s [.main, .main, .main]).threadsRunning = s.threadsRunning + 1 := by
  simp only [Runner.run, List.foldl_cons, List.foldl_nil, Runner.step, Runner.mainStep, hm,
    if_pos hk, dif_pos hk]
  split <;> simp_all

variable (panics) in
/-- While the count stays at most 32 the main thread spawns one thread a round. -/
theorem run_rounds {j : Nat} (hn : j < n) (hj : j ≤ 32) :
    (Runner.run panics (init n) (List.replicate j [.main, .main, .main]).flatten).main = .add j ∧
    (Runner.run panics (init n) (List.replicate j [.main, .main, .main]).flatten).threadsRunning =
      j := by
  induction j with
  | zero => exact ⟨rfl, rfl⟩
  | succ j ih =>
    have ⟨hm, ht⟩ := ih (by omega) (by omega)
    have hr := run_round panics hm (by omega)
    rw [ht, if_neg (by omega)] at hr
    rwa [List.replicate_succ', List.flatten_append, List.flatten_singleton, run_append]

end Runner

/-- Every schedule of `run_test_cases`: at most 33 test threads run at once; the run passes
only after every thread has returned from a passing test, and otherwise panics at the first
test in directory order that failed; and until it has done one of these, the main thread or a
test thread can move. The bound is reached: with 33 or more test files, 33 rounds of the loop
with no thread finishing leave 33 threads running, the main thread parked. -/
theorem run_test_cases_throttle (n : Nat) (panics : Fin n → Bool) (sched : List (Actor n)) :
    (Runner.run panics (Runner.init n) sched).running ≤ 33 ∧
    ((Runner.run panics (Runner.init n) sched).main = .passed →
      ∀ i, (Runner.run panics (Runner.init n) sched).workers i = .exited ∧ panics i = false) ∧
    (∀ j, (Runner.run panics (Runner.init n) sched).main = .panicked j →
      ∃ h : j < n, panics ⟨j, h⟩ = true ∧ ∀ i : Fin n, i.val < j → panics i = false) ∧
    ((Runner.run panics (Runner.init n) sched).main ≠ .passed →
      (∀ j, (Runner.run panics (Runner.init n) sched).main ≠ .panicked j) →
      ∃ a, a ≠ .wake ∧ Runner.step panics (Runner.run panics (Runner.init n) sched) a ≠
        Runner.run panics (Runner.init n) sched) ∧
    (33 ≤ n → (Runner.run panics (Runner.init n)
      (List.replicate 33 [Actor.main, .main, .main]).flatten).running = 33) := by
  have h := (Runner.throttled_init : Runner.Throttled panics (Runner.init n)).run sched
  have hok := h.mainOk
  refine ⟨by have := h.counted; have := h.bound; omega, fun hp => ?_, fun j hp => ?_, h.progress,
    fun hn => ?_⟩
  · simpa only [hp, Runner.MainOk] using hok
  · simpa only [hp, Runner.MainOk] using hok
  · have ⟨hm, ht⟩ := Runner.run_rounds panics (j := 32) (by omega) le_rfl
    have ⟨hm', ht'⟩ := Runner.run_round panics hm (by omega)
    rw [ht, if_pos (by omega)] at hm'
    have hc := ((Runner.throttled_init : Runner.Throttled panics (Runner.init n)).run
      ((List.replicate 32 [Actor.main, .main, .main]).flatten ++ [.main, .main, .main])).counted
    rw [Runner.run_append, hm', ht', ht] at hc
    simp only [Main.pending] at hc
    rw [List.replicate_succ', List.flatten_append, List.flatten_singleton, Runner.run_append]
    omega

end Lightning.Fuzz
