import Mathlib.Data.List.DropRight
import Mathlib.Data.Nat.Digits

/-!
# The block-sync REST client

`RestClient::request_resource` (`lightning-block-sync/src/rest.rs`) writes the `Host` value and
the request URI from its endpoint, hands the two to its HTTP client's `get`, and converts the
body that answers with `TryInto`. The HTTP client is not among the sources, so its `get` and
the conversion are arguments here.

The module's tests read a body as a `u32` with `TryInto<u32> for BinaryResponse`: the bytes go
through `std::str::from_utf8` and then `u32::from_str_radix(_, 10)`, and a failure of either
becomes an `io::Error` of kind `InvalidData`. Both library functions are modelled as the
standard library of the crate's time runs them. `binary_response_accepts_iff` says which
bodies the conversion accepts, with what value, and that every other body is rejected as
`InvalidData`.
-/

namespace Lightning.BlockSync

/-! ## `std::str::from_utf8` -/

/-- `core::str::Utf8Error`: the length of the longest valid prefix, and the length of the
invalid sequence after it, `none` where the input ends inside a character. -/
structure Utf8Error where
  validUpTo : Nat
  errorLen : Option Nat
deriving DecidableEq, Repr

/-- `UTF8_CHAR_WIDTH[b]`: the length of the character a first byte `b` starts, zero for a byte
no character starts with. -/
def utf8CharWidth (b : UInt8) : Nat :=
  if b < 0x80 then 1 else if b < 0xC2 then 0 else if b < 0xE0 then 2
  else if b < 0xF0 then 3 else if b < 0xF5 then 4 else 0

/-- `b & !CONT_MASK == TAG_CONT_U8`: `b` is a continuation byte `0b10xx_xxxx`. -/
def isCont (b : UInt8) : Bool := b &&& ~~~0x3F == 0x80

/-- The second bytes `run_utf8_validation` allows after the first byte of a three-byte
character: no overlong form and no surrogate. -/
def secondOfThree (first second : UInt8) : Bool :=
  first == 0xE0 && 0xA0 ≤ second && second ≤ 0xBF ||
  0xE1 ≤ first && first ≤ 0xEC && 0x80 ≤ second && second ≤ 0xBF ||
  first == 0xED && 0x80 ≤ second && second ≤ 0x9F ||
  0xEE ≤ first && first ≤ 0xEF && 0x80 ≤ second && second ≤ 0xBF

/-- The second bytes allowed after the first byte of a four-byte character: no overlong form
and nothing above `U+10FFFF`. -/
def secondOfFour (first second : UInt8) : Bool :=
  first == 0xF0 && 0x90 ≤ second && second ≤ 0xBF ||
  0xF1 ≤ first && first ≤ 0xF3 && 0x80 ≤ second && second ≤ 0xBF ||
  first == 0xF4 && 0x80 ≤ second && second ≤ 0x8F

/-- One turn of `run_utf8_validation`'s loop, on the character whose first byte `first` stands
at offset `index` with `v` after it: the character's length, or the error. An ASCII byte is a
character; any other first byte gives the width, the second byte's range depends on the first,
and every later byte is a continuation byte. A character cut short by the end of the input has
no error length. -/
def charWidth (index : Nat) (first : UInt8) (v : List UInt8) : Except Utf8Error Nat :=
  if first < 0x80 then .ok 1
  else match utf8CharWidth first, v with
    | 2, b :: _ => if isCont b then .ok 2 else .error ⟨index, some 1⟩
    | 3, b :: v =>
      if !secondOfThree first b then .error ⟨index, some 1⟩
      else match v with
        | c :: _ => if isCont c then .ok 3 else .error ⟨index, some 2⟩
        | [] => .error ⟨index, none⟩
    | 4, b :: v =>
      if !secondOfFour first b then .error ⟨index, some 1⟩
      else match v with
        | c :: d :: _ =>
          if !isCont c then .error ⟨index, some 2⟩
          else if isCont d then .ok 4 else .error ⟨index, some 3⟩
        | [c] => if isCont c then .error ⟨index, none⟩ else .error ⟨index, some 2⟩
        | [] => .error ⟨index, none⟩
    | 2, [] | 3, [] | 4, [] => .error ⟨index, none⟩
    | _, _ => .error ⟨index, some 1⟩

/-- `run_utf8_validation` from the offset `index`: character after character until the input
ends or one is refused. -/
def runUtf8Validation (index : Nat) (v : List UInt8) : Except Utf8Error Unit :=
  match v with
  | [] => .ok ()
  | first :: rest =>
    match charWidth index first rest with
    | .error e => .error e
    | .ok w => runUtf8Validation (index + w) (rest.drop (w - 1))
termination_by v.length
decreasing_by simp only [List.length_drop, List.length_cons]; omega

/-- `std::str::from_utf8`: the same bytes, now a `&str`, once they are validated. -/
def fromUtf8 (v : List UInt8) : Except Utf8Error (List UInt8) :=
  match runUtf8Validation 0 v with
  | .ok () => .ok v
  | .error e => .error e

/-- ASCII is valid UTF-8. -/
theorem runUtf8Validation_of_ascii (index : Nat) (v : List UInt8) (h : ∀ c ∈ v, c < 0x80) :
    runUtf8Validation index v = .ok () := by
  induction v generalizing index with
  | nil => rw [runUtf8Validation]
  | cons c v ih =>
    have hc : charWidth index c v = .ok 1 := if_pos (h c (List.mem_cons_self _ _))
    rw [runUtf8Validation, hc]
    exact ih _ fun c hc => h c (List.mem_cons_of_mem _ hc)

/-! ## `u32::from_str_radix` -/

/-- `core::num::IntErrorKind`, the cause a `ParseIntError` carries. -/
inductive IntErrorKind where
  | empty
  | invalidDigit
  | overflow
deriving DecidableEq, Repr

/-- `(c as char).to_digit(10)`. -/
def toDigit (c : UInt8) : Option UInt32 :=
  if 0x30 ≤ c ∧ c ≤ 0x39 then some (c - 0x30).toUInt32 else none

/-- `u32::checked_mul`. -/
def checkedMul (a b : UInt32) : Option UInt32 :=
  if a.toNat * b.toNat < 2 ^ 32 then some (a * b) else none

/-- `u32::checked_add`. -/
def checkedAdd (a b : UInt32) : Option UInt32 :=
  if a.toNat + b.toNat < 2 ^ 32 then some (a + b) else none

theorem checkedMul_eq_none {a b : UInt32} : checkedMul a b = none ↔ 2 ^ 32 ≤ a.toNat * b.toNat := by
  unfold checkedMul; split_ifs with h
  exacts [iff_of_false (by simp) (by omega), iff_of_true rfl (by omega)]

theorem toNat_of_checkedMul {a b r : UInt32} (h : checkedMul a b = some r) :
    r.toNat = a.toNat * b.toNat := by
  unfold checkedMul at h; split_ifs at h with hab; cases h; exact Nat.mod_eq_of_lt hab

theorem checkedAdd_eq_none {a b : UInt32} : checkedAdd a b = none ↔ 2 ^ 32 ≤ a.toNat + b.toNat := by
  unfold checkedAdd; split_ifs with h
  exacts [iff_of_false (by simp) (by omega), iff_of_true rfl (by omega)]

theorem toNat_of_checkedAdd {a b r : UInt32} (h : checkedAdd a b = some r) :
    r.toNat = a.toNat + b.toNat := by
  unfold checkedAdd at h; split_ifs at h with hab; cases h; exact Nat.mod_eq_of_lt hab

/-- The loop of `from_str_radix` over the digits of a number with no minus sign: each digit
multiplies the result by the radix and adds itself, both checked. -/
def digitLoop (result : UInt32) : List UInt8 → Except IntErrorKind UInt32
  | [] => .ok result
  | c :: digits =>
    match toDigit c with
    | none => .error .invalidDigit
    | some x =>
      match checkedMul result 10 with
      | none => .error .overflow
      | some result =>
        match checkedAdd result x with
        | none => .error .overflow
        | some result => digitLoop result digits

/-- `u32::from_str_radix(src, 10)` on the bytes of `src`: an empty string is `Empty`, one
leading `+` is skipped (`u32` being unsigned, a `-` stays and is an invalid digit), and a sign
with nothing after it is `Empty` again. -/
def fromStrRadix (src : List UInt8) : Except IntErrorKind UInt32 :=
  match src with
  | [] => .error .empty
  | c :: rest =>
    let digits := if c = 0x2B then rest else c :: rest
    if digits = [] then .error .empty else digitLoop 0 digits

/-- One digit of a decimal string read into the number before it. -/
def decimalStep (acc : Nat) (c : UInt8) : Nat := 10 * acc + (c.toNat - 0x30)

/-- The number a string of ASCII digits writes, most significant digit first. -/
def decimalValue (digits : List UInt8) : Nat := digits.foldl decimalStep 0

theorem le_foldl_decimalStep (acc : Nat) (digits : List UInt8) :
    acc ≤ digits.foldl decimalStep acc := by
  induction digits generalizing acc with
  | nil => exact le_refl _
  | cons c digits ih => exact le_trans (by unfold decimalStep; omega) (ih _)

theorem toNat_toDigit {c : UInt8} (hc : 0x30 ≤ c ∧ c ≤ 0x39) :
    ((c - 0x30).toUInt32).toNat = c.toNat - 0x30 ∧ c.toNat - 0x30 < 10 := by
  have h0 : (0x30 : UInt8).toNat = 0x30 := rfl
  have h1 : c.toNat ≤ 0x39 := hc.2
  exact ⟨(UInt8.toNat_sub_of_le _ _ hc.1).trans (by rw [h0]), by omega⟩

/-- The digit loop succeeds exactly on digits, with the number they write after `result`; an
overflow midway would leave the final number too large as well. -/
theorem digitLoop_eq_ok (result m : UInt32) (digits : List UInt8) :
    digitLoop result digits = .ok m ↔
      (∀ c ∈ digits, 0x30 ≤ c ∧ c ≤ 0x39) ∧ digits.foldl decimalStep result.toNat = m.toNat := by
  induction digits generalizing result with
  | nil =>
    simp only [digitLoop, Except.ok.injEq, List.not_mem_nil, false_implies, implies_true,
      true_and, List.foldl_nil]
    exact ⟨congrArg _, UInt32.toNat.inj⟩
  | cons c digits ih =>
    simp only [List.mem_cons, forall_eq_or_imp, List.foldl_cons]
    by_cases hc : 0x30 ≤ c ∧ c ≤ 0x39
    · obtain ⟨hx, hx10⟩ := toNat_toDigit hc
      have hstep : decimalStep result.toNat c = result.toNat * 10 + (c.toNat - 0x30) := by
        unfold decimalStep; omega
      have hle := hstep ▸ le_foldl_decimalStep (decimalStep result.toNat c) digits
      have hm : m.toNat < 2 ^ 32 := m.toNat_lt_size
      have h10 : (10 : UInt32).toNat = 10 := rfl
      rw [and_assoc, and_iff_right hc, hstep]
      simp only [digitLoop, toDigit, if_pos hc]
      rcases hmul : checkedMul result 10 with _ | r
      · have := h10 ▸ checkedMul_eq_none.1 hmul
        simp only [reduceCtorEq, false_iff]; rintro ⟨-, h⟩; omega
      · dsimp only
        rcases hadd : checkedAdd r (c - 0x30).toUInt32 with _ | r'
        · have := checkedAdd_eq_none.1 hadd
          rw [toNat_of_checkedMul hmul, h10, hx] at this
          simp only [reduceCtorEq, false_iff]; rintro ⟨-, h⟩; omega
        · rw [ih, toNat_of_checkedAdd hadd, toNat_of_checkedMul hmul, hx, h10]
    · simp only [digitLoop, toDigit, if_neg hc, reduceCtorEq, false_iff]
      exact fun h => hc h.1.1

/-- `from_str_radix` accepts an optional `+` and then one or more digits, and reads their
number. -/
theorem fromStrRadix_eq_ok (src : List UInt8) (m : UInt32) :
    fromStrRadix src = .ok m ↔ ∃ digits, (src = digits ∨ src = 0x2B :: digits) ∧ digits ≠ [] ∧
      (∀ c ∈ digits, 0x30 ≤ c ∧ c ≤ 0x39) ∧ decimalValue digits = m.toNat := by
  have hloop := fun digits => digitLoop_eq_ok 0 m digits
  cases src with
  | nil => simp [fromStrRadix]
  | cons c rest =>
    by_cases hplus : c = 0x2B
    · subst hplus
      simp only [fromStrRadix, if_true]
      constructor
      · intro h
        split_ifs at h with hr
        exact ⟨rest, .inr rfl, hr, (hloop rest).1 h⟩
      · rintro ⟨digits, h | h, hne, hd, hv⟩
        · exact absurd (hd _ (h ▸ List.mem_cons_self _ _)) (by decide)
        · obtain rfl := (List.cons.inj h).2
          rw [if_neg hne]; exact (hloop _).2 ⟨hd, hv⟩
    · simp only [fromStrRadix, if_neg hplus, reduceCtorEq, if_false]
      constructor
      · exact fun h => ⟨_, .inl rfl, List.cons_ne_nil _ _, (hloop _).1 h⟩
      · rintro ⟨digits, rfl | h, -, hd, hv⟩
        · exact (hloop _).2 ⟨hd, hv⟩
        · exact absurd (List.cons.inj h).1 hplus

/-! ## The tests' conversion -/

/-- `std::io::ErrorKind`, as the standard library of the crate's time lists it. -/
inductive ErrorKind where
  | notFound | permissionDenied | connectionRefused | connectionReset | connectionAborted
  | notConnected | addrInUse | addrNotAvailable | brokenPipe | alreadyExists | wouldBlock
  | invalidInput | invalidData | timedOut | writeZero | interrupted | other | unexpectedEof
deriving DecidableEq, Repr

/-- The error the conversion wraps into its `io::Error`. -/
inductive Cause where
  | utf8 (e : Utf8Error)
  | parseInt (kind : IntErrorKind)
deriving DecidableEq, Repr

/-- `std::io::Error` as `io::Error::new(kind, error)` builds it. -/
structure IoError where
  kind : ErrorKind
  cause : Cause
deriving DecidableEq, Repr

/-- `BinaryResponse`: a response body as bytes. -/
structure BinaryResponse where
  bytes : List UInt8
deriving DecidableEq, Repr

/-- `TryInto<u32> for BinaryResponse` of `rest.rs`'s tests: the body as UTF-8, then as a
decimal `u32`; each failure is an `InvalidData` error wrapping its cause. -/
def BinaryResponse.tryInto (self : BinaryResponse) : Except IoError UInt32 :=
  match fromUtf8 self.bytes with
  | .error e => .error ⟨.invalidData, .utf8 e⟩
  | .ok s =>
    match fromStrRadix s with
    | .error e => .error ⟨.invalidData, .parseInt e⟩
    | .ok n => .ok n

/-- What `from_str_radix` accepts is ASCII. -/
theorem ascii_of_fromStrRadix {src : List UInt8} {m : UInt32} (h : fromStrRadix src = .ok m) :
    ∀ c ∈ src, c < 0x80 := by
  obtain ⟨digits, hb, -, hd, -⟩ := (fromStrRadix_eq_ok src m).1 h
  have hdigit : ∀ c ∈ digits, c < 0x80 := fun c hc => by
    have : c.toNat ≤ 0x39 := (hd c hc).2
    exact (show c.toNat < 0x80 by omega)
  rcases hb with rfl | rfl
  · exact hdigit
  · rintro c (_ | ⟨_, hc⟩)
    exacts [by decide, hdigit c hc]

/-- The conversion succeeds exactly on an optional `+` followed by one or more ASCII digits,
with the number they write. -/
theorem tryInto_eq_ok (body : List UInt8) (n : UInt32) :
    (⟨body⟩ : BinaryResponse).tryInto = .ok n ↔
      ∃ digits, (body = digits ∨ body = 0x2B :: digits) ∧ digits ≠ [] ∧
        (∀ c ∈ digits, 0x30 ≤ c ∧ c ≤ 0x39) ∧ decimalValue digits = n.toNat := by
  rw [← fromStrRadix_eq_ok]
  unfold BinaryResponse.tryInto fromUtf8
  rcases hv : runUtf8Validation 0 body with e | ⟨⟩
  · simp only [reduceCtorEq, false_iff]
    intro h
    rw [runUtf8Validation_of_ascii 0 body (ascii_of_fromStrRadix h)] at hv
    cases hv
  · rcases hp : fromStrRadix body with _ | m <;> simp [hp]

/-- The conversion accepts exactly an optional `+` followed by one or more ASCII digits that
write a number below `2 ^ 32`, and gives that number; it rejects every other body as
`InvalidData`. So `"+42"` and `"0042"` are both read as `42`. -/
theorem binary_response_accepts_iff (body : List UInt8) (n : UInt32) :
    ((⟨body⟩ : BinaryResponse).tryInto = .ok n ↔
      ∃ digits, (body = digits ∨ body = 0x2B :: digits) ∧ digits ≠ [] ∧
        (∀ c ∈ digits, 0x30 ≤ c ∧ c ≤ 0x39) ∧ decimalValue digits = n.toNat) ∧
    ∀ e, (⟨body⟩ : BinaryResponse).tryInto = .error e → e.kind = .invalidData := by
  refine ⟨tryInto_eq_ok body n, fun e h => ?_⟩
  simp only [BinaryResponse.tryInto] at h
  split at h
  · cases h; rfl
  · split at h <;> cases h; rfl

/-! ## Requests -/

/-- `HttpEndpoint`, through the accessors `request_resource` reads. -/
structure HttpEndpoint where
  host : String
  port : UInt16
  path : String

/-- `RestClient` with its endpoint; its `HttpClient` is the `get` each request is given. -/
structure RestClient where
  endpoint : HttpEndpoint

/-- `RestClient::request_resource`: the host as `host:port`, the URI as the endpoint's path
without its trailing slashes, a `/` and the resource path, a `get` of the two, and the body it
answers converted. -/
def RestClient.requestResource {ε F T : Type} (self : RestClient)
    (get : String → String → Except ε F) (tryInto : F → Except ε T) (resourcePath : String) :
    Except ε T := do
  let host := self.endpoint.host ++ ":" ++ toString self.endpoint.port
  let uri := String.mk (self.endpoint.path.data.rdropWhile (· == '/')) ++ "/" ++ resourcePath
  tryInto (← get uri host)

end Lightning.BlockSync
