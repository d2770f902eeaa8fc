import Lightning.Util.Bytes
import Mathlib.Data.UInt

/-!
# The fuzzing random-number generator

`src/util/rng.rs`, `fuzzy_rng`: under the `fuzztarget` feature every random draw reads and
bumps one global counter, `RNG_ITER`, so that a fuzz input replays exactly. `fill_bytes` writes
the counter big-endian into every full eight-byte chunk of the buffer and its top bytes into
the rest. `rand_u832` writes the counter little-endian four times, `rand_f32` reads the
counter's bits as a float, and `reset_rng_state` sets the counter back to `0`.

A run is a list of `Call`s on the counter. `runCalls_eq` is the law of every run without
a reset: draw `j` is the draw its kind makes at counter `c + j`, whatever came before it.
From it, `draws_distinct_after_reset`: within `2 ^ 32` draws after a reset, no two draws of
eight bytes or more by `fill_bytes` or `rand_u832` are equal, across the two kinds too.
`short_fill_zero_after_reset` covers the other case. A buffer shorter than eight bytes gets
the counter's top bytes, so after a reset each of the first `256 ^ (8 - len)` draws fills it
with zeros.
-/

namespace Lightning.Util.FuzzyRng

/-- `RNG_ITER`. The counter wraps at `2 ^ 64`, as a release build computes `RNG_ITER += 1`. It
is a `static mut` read without a lock, so the model is of a single thread, as the fuzz targets
run it. -/
structure RngState where
  rngIter : UInt64
deriving DecidableEq

/-- `RNG_ITER += 1; RNG_ITER - 1`: the counter's value before the bump, and the bumped state. -/
def nextRng (s : RngState) : UInt64 × RngState :=
  let rngIter := s.rngIter + 1
  (rngIter - 1, ⟨rngIter⟩)

/-- `byte_utils::be64_to_array`, which is outside the sources: the eight bytes of `x`, most
significant first. -/
def be64ToArray (x : UInt64) : List UInt8 := (u64ToBeBytes x).toList

/-- `byte_utils::le64_to_array`, which is outside the sources: the eight bytes of `x`, least
significant first. -/
def le64ToArray (x : UInt64) : List UInt8 := (be64ToArray x).reverse

/-- `data[off..off + src.len()].copy_from_slice(src)`, the slice in range. -/
def copyFromSlice (data : List UInt8) (off : Nat) (src : List UInt8) : List UInt8 :=
  data.take off ++ src ++ data.drop (off + src.length)

/-- `fill_bytes`: one draw, written big-endian into each full eight-byte chunk of `data`, and
its top `data.len() % 8` bytes into the rest. -/
def fillBytes (data : List UInt8) (s : RngState) : List UInt8 × RngState :=
  let (rng, s) := nextRng s
  let len := data.length
  let data := (List.range (len / 8)).foldl
    (fun data i => copyFromSlice data (i * 8) (be64ToArray rng)) data
  let rem := len % 8
  let off := len - rem
  (copyFromSlice data off ((be64ToArray rng).take rem), s)

/-- `rand_u832`: one draw, written little-endian into each eight-byte quarter of `[0; 32]`. -/
def randU832 (s : RngState) : List UInt8 × RngState :=
  let (rng, s) := nextRng s
  let data := le64ToArray rng
  let res := List.replicate 32 0
  let res := copyFromSlice res (8 * 0) data
  let res := copyFromSlice res (8 * 1) data
  let res := copyFromSlice res (8 * 2) data
  let res := copyFromSlice res (8 * 3) data
  (res, s)

/-- `rand_f32`: one draw, whose bits `f64::from_bits` reads; the float conversion is left
out. -/
def randF32 (s : RngState) : UInt64 × RngState := nextRng s

/-- `reset_rng_state`. -/
def resetRngState (_ : RngState) : RngState := ⟨0⟩

/-- A call on the generator. -/
inductive Call where
  | fillBytes (data : List UInt8)
  | randU832
  | randF32
  | resetRngState

/-- What a call returns: bytes, a float's bits, or nothing. -/
inductive Output where
  | bytes (b : List UInt8)
  | f64Bits (x : UInt64)
  | unit
deriving DecidableEq

/-- One call on the generator. -/
def Call.apply : Call → RngState → Output × RngState
  | .fillBytes data, s => let r := FuzzyRng.fillBytes data s; (.bytes r.1, r.2)
  | .randU832, s => let r := FuzzyRng.randU832 s; (.bytes r.1, r.2)
  | .randF32, s => let r := FuzzyRng.randF32 s; (.f64Bits r.1, r.2)
  | .resetRngState, s => (.unit, FuzzyRng.resetRngState s)

/-- The outputs of calls made in turn, and the generator after them. -/
def runCalls : RngState → List Call → List Output × RngState
  | s, [] => ([], s)
  | s, c :: cs =>
    let r := c.apply s
    let rest := runCalls r.2 cs
    (r.1 :: rest.1, rest.2)

/-! ## Each draw in closed form -/

@[simp] theorem nextRng_eq (s : RngState) : nextRng s = (s.rngIter, ⟨s.rngIter + 1⟩) := by
  simp [nextRng, add_sub_cancel_right]

@[simp] theorem length_be64ToArray (x : UInt64) : (be64ToArray x).length = 8 :=
  (u64ToBeBytes x).2

theorem copyFromSlice_append {pre mid post src : List UInt8} (hmid : mid.length = src.length) :
    copyFromSlice (pre ++ mid ++ post) pre.length src = pre ++ src ++ post := by
  have hdrop : (pre ++ mid ++ post).drop (pre.length + src.length) = post :=
    List.drop_left' (by simp [hmid])
  rw [copyFromSlice, hdrop, List.append_assoc pre mid post, List.take_left' rfl]

/-- After `i` turns of `fill_bytes`'s loop the first `i` chunks hold the draw. -/
theorem fillLoop_eq (rng : UInt64) (data : List UInt8) :
    ∀ i, 8 * i ≤ data.length →
      (List.range i).foldl (fun data i => copyFromSlice data (i * 8) (be64ToArray rng)) data =
        (List.replicate i (be64ToArray rng)).flatten ++ data.drop (8 * i)
  | 0, _ => rfl
  | i + 1, hi => by
    have hmid : (data.drop (8 * i)).take 8 ++ data.drop (8 * (i + 1)) = data.drop (8 * i) := by
      rw [show 8 * (i + 1) = 8 * i + 8 by omega, ← List.drop_drop, List.take_append_drop]
    have hlen : ((List.replicate i (be64ToArray rng)).flatten).length = i * 8 := by
      simp [List.length_flatten, List.sum_replicate, mul_comm]
    rw [List.range_succ, List.foldl_append, fillLoop_eq rng data i (by omega), List.foldl_cons,
      List.foldl_nil, ← hmid, ← List.append_assoc, ← hlen,
      copyFromSlice_append (by simp; omega), List.replicate_succ', List.flatten_append,
      List.flatten_singleton]

/-- `fill_bytes` overwrites the whole buffer: full chunks of the draw, big-endian, then its top
bytes. -/
theorem fillBytes_eq (data : List UInt8) (s : RngState) :
    fillBytes data s =
      ((List.replicate (data.length / 8) (be64ToArray s.rngIter)).flatten ++
        (be64ToArray s.rngIter).take (data.length % 8), ⟨s.rngIter + 1⟩) := by
  have hloop := fillLoop_eq s.rngIter data (data.length / 8) (Nat.mul_div_le _ _)
  have hlen : ((List.replicate (data.length / 8) (be64ToArray s.rngIter)).flatten).length =
      data.length - data.length % 8 := by
    simp [List.length_flatten, List.sum_replicate]
    omega
  have hrest : (data.drop (8 * (data.length / 8))).length =
      ((be64ToArray s.rngIter).take (data.length % 8)).length := by
    simp
    omega
  simp only [fillBytes, nextRng_eq, hloop]
  rw [← hlen, ← List.append_nil (List.drop _ data), ← List.append_assoc,
    copyFromSlice_append hrest, List.append_nil]

/-- `rand_u832` is the draw little-endian, four times. -/
theorem randU832_eq (s : RngState) :
    randU832 s = (le64ToArray s.rngIter ++ le64ToArray s.rngIter ++ le64ToArray s.rngIter ++
      le64ToArray s.rngIter, ⟨s.rngIter + 1⟩) := by
  have h8 : (le64ToArray s.rngIter).length = 8 := by simp [le64ToArray]
  have hcopy : ∀ (pre : List UInt8) (m : Nat), copyFromSlice (pre ++ List.replicate (8 + m) 0)
      pre.length (le64ToArray s.rngIter) = pre ++ le64ToArray s.rngIter ++ List.replicate m 0 := by
    intro pre m
    rw [List.replicate_add, ← List.append_assoc, copyFromSlice_append (by simp [h8])]
  simp only [randU832, nextRng_eq]
  rw [show List.replicate 32 (0 : UInt8) = [] ++ List.replicate (8 + 24) 0 from rfl,
    show 8 * 0 = ([] : List UInt8).length from rfl, hcopy, List.nil_append,
    show List.replicate 24 (0 : UInt8) = List.replicate (8 + 16) 0 from rfl,
    show 8 * 1 = (le64ToArray s.rngIter).length by rw [h8], hcopy,
    show List.replicate 16 (0 : UInt8) = List.replicate (8 + 8) 0 from rfl,
    show 8 * 2 = (le64ToArray s.rngIter ++ le64ToArray s.rngIter).length by simp [h8], hcopy,
    show List.replicate 8 (0 : UInt8) = List.replicate (8 + 0) 0 from rfl,
    show 8 * 3 = (le64ToArray s.rngIter ++ le64ToArray s.rngIter ++
      le64ToArray s.rngIter).length by simp [h8], hcopy, List.replicate_zero, List.append_nil]

/-! ## Runs -/

/-- The output a call draws at counter `rng`. -/
def drawAt : Call → UInt64 → Output
  | .fillBytes data, rng => .bytes ((List.replicate (data.length / 8) (be64ToArray rng)).flatten ++
      (be64ToArray rng).take (data.length % 8))
  | .randU832, rng => .bytes (le64ToArray rng ++ le64ToArray rng ++ le64ToArray rng ++
      le64ToArray rng)
  | .randF32, rng => .f64Bits rng
  | .resetRngState, _ => .unit

/-- Whether a call is a reset. -/
def Call.isReset : Call → Bool
  | .resetRngState => true
  | _ => false

/-- A draw is the draw its kind makes at the current counter, and bumps the counter. -/
theorem apply_of_not_isReset {c : Call} (hc : c.isReset = false) (s : RngState) :
    c.apply s = (drawAt c s.rngIter, ⟨s.rngIter + 1⟩) := by
  cases c with
  | fillBytes data => simp [Call.apply, fillBytes_eq, drawAt]
  | randU832 => simp [Call.apply, randU832_eq, drawAt]
  | randF32 => simp [Call.apply, randF32, drawAt]
  | resetRngState => cases hc

/-- A reset forgets the counter. -/
theorem apply_resetRngState (s : RngState) : Call.resetRngState.apply s = (.unit, ⟨0⟩) := rfl

theorem ofNat_succ (j : Nat) : UInt64.ofNat (j + 1) = UInt64.ofNat j + 1 :=
  UInt64.toNat.inj (by simp only [UInt64.toNat_ofNat, UInt64.toNat_add, UInt64.toNat_one]; omega)

/-- The law of a run without a reset: draw `j` is made at counter `c + j`, and the counter ends
`c` plus the number of draws. -/
theorem runCalls_getElem? (s : RngState) (calls : List Call)
    (hno : ∀ c ∈ calls, c.isReset = false) :
    (∀ j : Nat, (runCalls s calls).1[j]? =
      calls[j]?.map fun c => drawAt c (s.rngIter + UInt64.ofNat j)) ∧
      (runCalls s calls).2 = ⟨s.rngIter + UInt64.ofNat calls.length⟩ := by
  induction calls generalizing s with
  | nil => exact ⟨fun _ => rfl, by simp [runCalls]⟩
  | cons c calls ih =>
    have ih' := ih ⟨s.rngIter + 1⟩ fun c' hc' => hno c' (List.mem_cons_of_mem c hc')
    have hc := apply_of_not_isReset (hno c (List.mem_cons_self c calls)) s
    refine ⟨fun j => ?_, ?_⟩
    · cases j with
      | zero => simp [runCalls, hc]
      | succ j => simp only [runCalls, hc, List.getElem?_cons_succ, ih'.1 j, ofNat_succ, add_assoc,
          add_comm (1 : UInt64)]
    · simp only [runCalls, hc, ih'.2, List.length_cons, ofNat_succ, add_assoc, add_comm (1 : UInt64)]

/-- The law of a run without a reset, in closed form: draw `j` is the draw its kind makes at
counter `c + j`, whatever came before it, and the counter ends `c` plus the number of draws. -/
theorem runCalls_eq (s : RngState) (calls : List Call) (hno : ∀ c ∈ calls, c.isReset = false) :
    runCalls s calls = (calls.mapIdx fun j c => drawAt c (s.rngIter + UInt64.ofNat j),
      ⟨s.rngIter + UInt64.ofNat calls.length⟩) :=
  have h := runCalls_getElem? s calls hno
  Prod.ext (List.ext_getElem? fun j => by rw [h.1 j, List.getElem?_mapIdx]) h.2

/-- A draw of each kind. -/
def sampleCalls : List Call := [.randU832, .fillBytes (List.replicate 8 0), .fillBytes [0, 0, 0]]

theorem runCalls_eq_sample :
    (∀ c ∈ sampleCalls, c.isReset = false) ∧
      runCalls ⟨5⟩ sampleCalls = (sampleCalls.mapIdx fun j c =>
        drawAt c ((⟨5⟩ : RngState).rngIter + UInt64.ofNat j),
          ⟨(⟨5⟩ : RngState).rngIter + UInt64.ofNat sampleCalls.length⟩) :=
  ⟨by decide, runCalls_eq ⟨5⟩ sampleCalls (by decide)⟩

/-! ## What the draws never do -/

/-- An encoding of `m + k` bytes is the top `m` bytes followed by the low `k`. -/
theorem toBeBytes_add (m k x : Nat) :
    toBeBytes (m + k) x = toBeBytes m (x / 256 ^ k) ++ toBeBytes k x := by
  induction k generalizing x with
  | zero => simp [toBeBytes]
  | succ k ih =>
    rw [← Nat.add_assoc, toBeBytes, ih, toBeBytes, List.append_assoc, Nat.div_div_eq_div_mul,
      ← pow_succ']

theorem toBeBytes_zero_right (n : Nat) : toBeBytes n 0 = List.replicate n 0 := by
  induction n with
  | zero => rfl
  | succ n ih => rw [toBeBytes, Nat.zero_div, ih, List.replicate_succ']; rfl

/-- Equal encodings are of integers equal at the width written. -/
theorem mod_eq_of_toBeBytes_eq {n x y : Nat} (h : toBeBytes n x = toBeBytes n y) :
    x % 256 ^ n = y % 256 ^ n := by
  rw [← fromBeBytes_toBeBytes, h, fromBeBytes_toBeBytes]

/-- A counter below `2 ^ 32` is four zero bytes and then its own four bytes. -/
theorem be64ToArray_of_lt {x : UInt64} (hx : x.toNat < 2 ^ 32) :
    be64ToArray x = List.replicate 4 0 ++ toBeBytes 4 x.toNat := by
  rw [be64ToArray, u64ToBeBytes, Mathlib.Vector.toList_mk, show 8 = 4 + 4 from rfl,
    toBeBytes_add, Nat.div_eq_of_lt (by simpa using hx), toBeBytes_zero_right]

/-- Two draws at different counters below `2 ^ 32` differ in their first eight bytes, whether
each is written big-endian or little-endian. -/
theorem words_ne {a b : UInt64} (hab : a ≠ b) (ha : a.toNat < 2 ^ 32) (hb : b.toNat < 2 ^ 32)
    (f g : UInt64 → List UInt8) (hf : f = be64ToArray ∨ f = le64ToArray)
    (hg : g = be64ToArray ∨ g = le64ToArray) : f a ≠ g b := by
  have hne : a.toNat ≠ b.toNat := fun h => hab (UInt64.toNat.inj h)
  -- one word big-endian and the other little-endian: both counters are `0`
  have hcross : ∀ x y : UInt64, x.toNat < 2 ^ 32 → y.toNat < 2 ^ 32 →
      be64ToArray x = le64ToArray y → x.toNat = y.toNat := by
    intro x y hx hy h
    rw [le64ToArray, be64ToArray_of_lt hx, be64ToArray_of_lt hy, List.reverse_append,
      List.reverse_replicate] at h
    obtain ⟨h1, h2⟩ := List.append_inj h (by simp)
    have hy0 := mod_eq_of_toBeBytes_eq (show toBeBytes 4 y.toNat = toBeBytes 4 0 by
      rw [toBeBytes_zero_right, ← List.reverse_replicate, h1, List.reverse_reverse])
    have hx0 := mod_eq_of_toBeBytes_eq (show toBeBytes 4 x.toNat = toBeBytes 4 0 by
      rw [h2, toBeBytes_zero_right])
    simp only [Nat.reducePow, Nat.zero_mod] at hx0 hy0
    omega
  intro h
  rcases hf with rfl | rfl <;> rcases hg with rfl | rfl
  · exact hne (by simpa [Nat.mod_eq_of_lt (UInt64.toNat_lt_size _)] using mod_eq_of_toBeBytes_eq h)
  · exact hne (hcross a b ha hb h)
  · exact hne (hcross b a hb ha h.symm).symm
  · exact hne (by simpa [Nat.mod_eq_of_lt (UInt64.toNat_lt_size _)] using
      mod_eq_of_toBeBytes_eq (List.reverse_injective h))

/-- The first eight bytes of a draw of eight bytes or more. -/
def firstWord : Output → List UInt8
  | .bytes b => b.take 8
  | _ => []

theorem firstWord_fillBytes {data : List UInt8} (h : 8 ≤ data.length) (rng : UInt64) :
    firstWord (drawAt (.fillBytes data) rng) = be64ToArray rng := by
  obtain ⟨q, hq⟩ : ∃ q, data.length / 8 = q + 1 := ⟨data.length / 8 - 1, by omega⟩
  simp [drawAt, firstWord, hq, List.replicate_succ, List.flatten_cons, List.append_assoc,
    List.take_left' (length_be64ToArray rng)]

theorem firstWord_randU832 (rng : UInt64) :
    firstWord (drawAt .randU832 rng) = le64ToArray rng := by
  simp [drawAt, firstWord, List.append_assoc, le64ToArray]

/-- Whether a call draws eight bytes or more. -/
def Call.drawsWord : Call → Bool
  | .fillBytes data => 8 ≤ data.length
  | .randU832 => true
  | _ => false

theorem firstWord_of_drawsWord {c : Call} (hc : c.drawsWord = true) :
    ∃ f : UInt64 → List UInt8, (f = be64ToArray ∨ f = le64ToArray) ∧
      ∀ rng, firstWord (drawAt c rng) = f rng := by
  cases c with
  | fillBytes data =>
    exact ⟨_, .inl rfl, firstWord_fillBytes (by simpa [Call.drawsWord] using hc)⟩
  | randU832 => exact ⟨_, .inr rfl, firstWord_randU832⟩
  | randF32 => cases hc
  | resetRngState => cases hc

theorem toNat_ofNat_of_lt {j : Nat} (hj : j < 2 ^ 64) : (UInt64.ofNat j).toNat = j := by
  rw [UInt64.toNat_ofNat, Nat.mod_eq_of_lt hj]

/-- After a reset, and before `2 ^ 32` draws, no two draws of eight bytes or more are equal,
whichever of `fill_bytes` and `rand_u832` made them. -/
theorem draws_distinct_after_reset (calls : List Call) (hno : ∀ c ∈ calls, c.isReset = false)
    (hlen : calls.length ≤ 2 ^ 32) (j k : Nat) (hjk : j ≠ k) (cj ck : Call)
    (hcj : calls[j]? = some cj) (hck : calls[k]? = some ck) (hwj : cj.drawsWord = true)
    (hwk : ck.drawsWord = true) :
    (runCalls ⟨0⟩ calls).1[j]? ≠ (runCalls ⟨0⟩ calls).1[k]? := by
  have hj := (List.getElem?_eq_some_iff.1 hcj).1
  have hk := (List.getElem?_eq_some_iff.1 hck).1
  rw [(runCalls_getElem? ⟨0⟩ calls hno).1 j, (runCalls_getElem? ⟨0⟩ calls hno).1 k, hcj, hck]
  simp only [Option.map_some', zero_add, ne_eq, Option.some.injEq]
  intro h
  obtain ⟨f, hf, hfj⟩ := firstWord_of_drawsWord hwj
  obtain ⟨g, hg, hgk⟩ := firstWord_of_drawsWord hwk
  have hword := congrArg firstWord h
  rw [hfj, hgk] at hword
  refine words_ne (fun he => hjk ?_) ?_ ?_ f g hf hg hword
  · have := congrArg UInt64.toNat he
    rwa [toNat_ofNat_of_lt (by omega), toNat_ofNat_of_lt (by omega)] at this
  · rw [toNat_ofNat_of_lt (by omega)]
    omega
  · rw [toNat_ofNat_of_lt (by omega)]
    omega

theorem draws_distinct_after_reset_sample :
    (∀ c ∈ sampleCalls, c.isReset = false) ∧ sampleCalls.length ≤ 2 ^ 32 ∧ (0 : Nat) ≠ 1 ∧
      sampleCalls[0]? = some .randU832 ∧
      sampleCalls[1]? = some (.fillBytes (List.replicate 8 0)) ∧
      Call.randU832.drawsWord = true ∧ (Call.fillBytes (List.replicate 8 0)).drawsWord = true ∧
      (runCalls ⟨0⟩ sampleCalls).1[0]? ≠ (runCalls ⟨0⟩ sampleCalls).1[1]? :=
  ⟨by decide, by decide, by decide, rfl, rfl, rfl, by decide,
    draws_distinct_after_reset sampleCalls (by decide) (by decide) 0 1 (by decide) .randU832
      (.fillBytes (List.replicate 8 0)) rfl rfl rfl (by decide)⟩

/-- A buffer shorter than eight bytes, filled at a counter below `256 ^ (8 - len)`, is all
zeros: it gets the counter's top bytes. -/
theorem drawAt_short_fillBytes {data : List UInt8} (h : data.length < 8) {rng : UInt64}
    (hrng : rng.toNat < 256 ^ (8 - data.length)) :
    drawAt (.fillBytes data) rng = .bytes (List.replicate data.length 0) := by
  have htake : (be64ToArray rng).take data.length = List.replicate data.length 0 := by
    rw [be64ToArray, u64ToBeBytes, Mathlib.Vector.toList_mk,
      show 8 = data.length + (8 - data.length) by omega, toBeBytes_add,
      List.take_left' (length_toBeBytes _ _), Nat.div_eq_of_lt hrng, toBeBytes_zero_right]
  simp [drawAt, Nat.div_eq_of_lt h, Nat.mod_eq_of_lt h, htake]

/-- After a reset, each of the first `256 ^ (8 - len)` draws fills a buffer of `len < 8` bytes
with zeros. -/
theorem short_fill_zero_after_reset (calls : List Call) (hno : ∀ c ∈ calls, c.isReset = false)
    (j : Nat) (data : List UInt8) (hc : calls[j]? = some (.fillBytes data))
    (hshort : data.length < 8) (hj : j < 256 ^ (8 - data.length)) :
    (runCalls ⟨0⟩ calls).1[j]? = some (.bytes (List.replicate data.length 0)) := by
  have h8 : 256 ^ (8 - data.length) ≤ 2 ^ 64 :=
    calc 256 ^ (8 - data.length) ≤ 256 ^ 8 := Nat.pow_le_pow_right (by decide) (by omega)
      _ = 2 ^ 64 := by decide
  rw [(runCalls_getElem? ⟨0⟩ calls hno).1 j, hc, Option.map_some', zero_add,
    drawAt_short_fillBytes hshort (by rw [toNat_ofNat_of_lt (by omega)]; exact hj)]

theorem short_fill_zero_after_reset_sample :
    (∀ c ∈ sampleCalls, c.isReset = false) ∧ sampleCalls[2]? = some (.fillBytes [0, 0, 0]) ∧
      [(0 : UInt8), 0, 0].length < 8 ∧ 2 < 256 ^ (8 - [(0 : UInt8), 0, 0].length) ∧
      (runCalls ⟨0⟩ sampleCalls).1[2]? = some (.bytes (List.replicate [(0 : UInt8), 0, 0].length 0)) :=
  ⟨by decide, rfl, by decide, by decide,
    short_fill_zero_after_reset sampleCalls (by decide) 2 [0, 0, 0] rfl (by decide) (by decide)⟩

end Lightning.Util.FuzzyRng
