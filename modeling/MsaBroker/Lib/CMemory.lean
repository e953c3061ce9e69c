import Mathlib.Algebra.Order.Ring.Int
import Mathlib.Logic.Basic
import Mathlib.Data.List.Basic
import Mathlib.Tactic.Common

/-! Memory as a C program sees it: byte strings, little-endian integers, C
strings read up to their terminator wherever it stands, and buffers of a fixed
size that a copy can never outgrow. Nothing here knows what the bytes mean. -/
namespace MsaBroker.CMemory

abbrev Bytes := List UInt8

/-! ## Little-endian integers -/

/-- The `width` bytes of `n`, lowest first. -/
def leBytes : Nat → Nat → Bytes
  | 0, _ => []
  | width + 1, n => UInt8.ofNat n :: leBytes width (n / 256)

/-- The number whose bytes these are, lowest first. -/
def leNat : Bytes → Nat
  | [] => 0
  | b :: bs => b.toNat + 256 * leNat bs

@[simp] theorem leBytes_length (width n : Nat) : (leBytes width n).length = width := by
  induction width generalizing n with
  | zero => rfl
  | succ width ih => simp [leBytes, ih]

theorem leNat_leBytes (width n : Nat) : leNat (leBytes width n) = n % 256 ^ width := by
  induction width generalizing n with
  | zero => simp [leBytes, leNat, Nat.mod_one]
  | succ width ih =>
    simp only [leBytes, leNat, ih, UInt8.toNat_ofNat', Nat.reducePow]
    rw [show 256 ^ (width + 1) = 256 * 256 ^ width from Nat.pow_succ', Nat.mod_mul]

theorem leNat_lt (bs : Bytes) : leNat bs < 256 ^ bs.length := by
  induction bs with
  | nil => simp [leNat]
  | cons b bs ih =>
    have byte : b.toNat < 256 := b.toNat_lt
    simp only [leNat, List.length_cons, Nat.pow_succ']
    omega

theorem leBytes_leNat (bs : Bytes) : leBytes bs.length (leNat bs) = bs := by
  induction bs with
  | nil => rfl
  | cons b bs ih =>
    have byte : b.toNat < 256 := b.toNat_lt
    have low : UInt8.ofNat (b.toNat + 256 * leNat bs) = b := by
      apply UInt8.toNat_inj.mp
      simp only [UInt8.toNat_ofNat']
      omega
    have high : (b.toNat + 256 * leNat bs) / 256 = leNat bs := by omega
    simp only [List.length_cons, leBytes, leNat, low, high, ih]

/-- A number below a power of 256 has a zero byte above that power. -/
theorem zero_mem_leBytes {width n : Nat} (small : n < 256 ^ width) :
    (0 : UInt8) ∈ leBytes (width + 1) n := by
  induction width generalizing n with
  | zero =>
    obtain rfl : n = 0 := by simpa using small
    simp [leBytes]
  | succ width ih =>
    have rest : n / 256 < 256 ^ width := by
      rw [Nat.pow_succ] at small
      exact Nat.div_lt_of_lt_mul (by omega)
    exact List.mem_cons_of_mem _ (ih rest)

/-! ### 32-bit fields -/

/-- An `unsigned int` in memory. -/
def u32Bytes (x : UInt32) : Bytes := leBytes 4 x.toNat

/-- An `int` in memory. -/
def i32Bytes (x : Int32) : Bytes := leBytes 4 x.toUInt32.toNat

/-- The `unsigned int` at the start of `mem`. -/
def loadU32 (mem : Bytes) : UInt32 := UInt32.ofNat (leNat (mem.take 4))

/-- The `int` at the start of `mem`. -/
def loadI32 (mem : Bytes) : Int32 := Int32.ofUInt32 (loadU32 mem)

@[simp] theorem u32Bytes_length (x : UInt32) : (u32Bytes x).length = 4 := leBytes_length _ _

@[simp] theorem i32Bytes_length (x : Int32) : (i32Bytes x).length = 4 := leBytes_length _ _

@[simp] theorem u32Bytes_drop (x : UInt32) {k : Nat} (past : 4 ≤ k) : (u32Bytes x).drop k = [] :=
  List.drop_of_length_le (by simpa using past)

@[simp] theorem i32Bytes_drop (x : Int32) {k : Nat} (past : 4 ≤ k) : (i32Bytes x).drop k = [] :=
  List.drop_of_length_le (by simpa using past)

@[simp] theorem loadU32_append (x : UInt32) (rest : Bytes) : loadU32 (u32Bytes x ++ rest) = x := by
  simp [loadU32, u32Bytes, leNat_leBytes]

@[simp] theorem loadI32_append (x : Int32) (rest : Bytes) : loadI32 (i32Bytes x ++ rest) = x := by
  have inner : loadU32 (i32Bytes x ++ rest) = x.toUInt32 := loadU32_append x.toUInt32 rest
  simp [loadI32, inner]

theorem u32Bytes_loadU32 {mem : Bytes} (enough : 4 ≤ mem.length) :
    u32Bytes (loadU32 mem) = mem.take 4 := by
  have width : (mem.take 4).length = 4 := by simp; omega
  have small := leNat_lt (mem.take 4)
  rw [width] at small
  have value : (loadU32 mem).toNat = leNat (mem.take 4) := by
    simp only [loadU32, UInt32.toNat_ofNat']
    omega
  have back := leBytes_leNat (mem.take 4)
  rw [width] at back
  rw [u32Bytes, value, back]

theorem i32Bytes_loadI32 {mem : Bytes} (enough : 4 ≤ mem.length) :
    i32Bytes (loadI32 mem) = mem.take 4 := u32Bytes_loadU32 enough

/-- A 32-bit number below `2 ^ 24` has a zero byte, so no string runs past it. -/
theorem zero_mem_u32Bytes {x : UInt32} (small : x.toNat < 2 ^ 24) : 0 ∈ u32Bytes x :=
  zero_mem_leBytes (show x.toNat < 256 ^ 3 from small)

theorem zero_mem_i32Bytes {x : Int32} (nonneg : 0 ≤ x.toInt) (small : x.toInt < 2 ^ 24) :
    0 ∈ i32Bytes x := by
  have value : (x.toUInt32.toNat : Int) = x.toInt := by
    have def_ : x.toInt = x.toBitVec.toInt := rfl
    have nat : x.toUInt32.toNat = x.toBitVec.toNat := rfl
    rw [def_, BitVec.toInt_eq_toNat_cond] at nonneg small ⊢
    rw [nat]
    split at nonneg <;> split <;> omega
  have below : x.toUInt32.toNat < 256 ^ 3 := by omega
  exact zero_mem_leBytes below

/-! ### 64-bit fields -/

/-- A `size_t` in memory. -/
def u64Bytes (x : UInt64) : Bytes := leBytes 8 x.toNat

/-- A `time_t` in memory. -/
def i64Bytes (x : Int64) : Bytes := leBytes 8 x.toUInt64.toNat

/-- The `size_t` at the start of `mem`. -/
def loadU64 (mem : Bytes) : UInt64 := UInt64.ofNat (leNat (mem.take 8))

/-- The `time_t` at the start of `mem`. -/
def loadI64 (mem : Bytes) : Int64 := (loadU64 mem).toInt64

@[simp] theorem u64Bytes_length (x : UInt64) : (u64Bytes x).length = 8 := leBytes_length _ _

@[simp] theorem i64Bytes_length (x : Int64) : (i64Bytes x).length = 8 := leBytes_length _ _

@[simp] theorem u64Bytes_drop (x : UInt64) {k : Nat} (past : 8 ≤ k) : (u64Bytes x).drop k = [] :=
  List.drop_of_length_le (by simpa using past)

@[simp] theorem loadU64_append (x : UInt64) (rest : Bytes) : loadU64 (u64Bytes x ++ rest) = x := by
  simp [loadU64, u64Bytes, leNat_leBytes]

@[simp] theorem loadI64_i64Bytes (x : Int64) : loadI64 (i64Bytes x) = x := by
  have inner : loadU64 (i64Bytes x ++ []) = x.toUInt64 := loadU64_append x.toUInt64 []
  rw [List.append_nil] at inner
  simp [loadI64, inner]

/-! ## C strings -/

/-- What `strlen`, `strcmp` and `%s` see at this address: the bytes up to the
first zero, whatever field or object that zero belongs to. -/
def cstr (mem : Bytes) : Bytes := mem.takeWhile (· ≠ 0)

theorem cstr_append_of_mem {mem : Bytes} (rest : Bytes) (terminated : 0 ∈ mem) :
    cstr (mem ++ rest) = cstr mem := by
  induction mem with
  | nil => simp at terminated
  | cons b mem ih =>
    by_cases zero : b = 0
    · simp [cstr, zero]
    · have tail : 0 ∈ mem := by simpa [Ne.symm zero] using terminated
      simpa [cstr, List.takeWhile_cons, zero] using ih tail

theorem cstr_no_zero (mem : Bytes) : 0 ∉ cstr mem := by
  intro member
  have nonzero := List.all_eq_true.mp List.all_takeWhile 0 member
  simp at nonzero

/-- A field without a zero byte runs on into what follows it. -/
theorem cstr_append_of_plain {s : Bytes} (rest : Bytes) (plain : 0 ∉ s) : cstr (s ++ rest) = s ++ cstr rest := by
  induction s with
  | nil => rfl
  | cons b s ih =>
    simp only [List.mem_cons, not_or] at plain
    simpa [cstr, List.takeWhile_cons, Ne.symm plain.1] using ih plain.2

/-- A string without a zero byte, stored with its terminator, reads back. -/
theorem cstr_terminated {s : Bytes} (rest : Bytes) (plain : 0 ∉ s) : cstr (s ++ 0 :: rest) = s := by
  rw [cstr_append_of_plain _ plain]
  simp [cstr]

theorem cstr_length_lt {mem : Bytes} (terminated : 0 ∈ mem) : (cstr mem).length < mem.length := by
  induction mem with
  | nil => simp at terminated
  | cons b mem ih =>
    by_cases zero : b = 0
    · simp [cstr, zero]
    · have tail : 0 ∈ mem := by simpa [Ne.symm zero] using terminated
      have shorter := ih tail
      simp only [cstr, List.takeWhile_cons, decide_not, zero, decide_false, Bool.not_false,
        ↓reduceIte, List.length_cons] at shorter ⊢
      omega

/-! ## Fixed-size buffers -/

/-- `char name[n]`: its size never changes, so no value of this type has
overflowed. -/
structure Buf (n : Nat) where
  bytes : Bytes
  size_eq : bytes.length = n
  deriving DecidableEq

namespace Buf

variable {n : Nat}

attribute [simp] Buf.size_eq

@[ext] theorem ext {a b : Buf n} (same : a.bytes = b.bytes) : a = b := by
  cases a; cases b; simp_all

/-- `memset(name, 0x00, n)`. -/
def zero (n : Nat) : Buf n := ⟨List.replicate n 0, by simp⟩

/-- As much of `data` as fits, copied to the start of the buffer. -/
def store (b : Buf n) (data : Bytes) : Buf n :=
  ⟨data.take n ++ b.bytes.drop data.length, by simp; omega⟩

/-- `snprintf(name, n, ...)` of a text: cut to `n - 1` bytes and terminated. -/
def snprintf (b : Buf n) (text : Bytes) : Buf n := b.store (text.take (n - 1) ++ [0])

/-- The field of this size at the start of `mem`; bytes past its end read as
zero. -/
def load (n : Nat) (mem : Bytes) : Buf n :=
  ⟨mem.take n ++ List.replicate (n - mem.length) 0, by simp; omega⟩

/-- The buffer ends in a terminator of its own. -/
def Terminated (b : Buf n) : Prop := 0 ∈ b.bytes

instance (b : Buf n) : Decidable b.Terminated := inferInstanceAs (Decidable (0 ∈ b.bytes))

@[simp] theorem bytes_drop (b : Buf n) {k : Nat} (past : n ≤ k) : b.bytes.drop k = [] :=
  List.drop_of_length_le (by simpa using past)

@[simp] theorem zero_bytes : (zero n).bytes = List.replicate n 0 := rfl

theorem store_bytes (b : Buf n) (data : Bytes) :
    (b.store data).bytes = data.take n ++ b.bytes.drop data.length := rfl

/-- The stored prefix is exactly what was copied in. -/
theorem store_take (b : Buf n) (data : Bytes) {k : Nat} (within : k ≤ data.length) (fits : k ≤ n) :
    (b.store data).bytes.take k = data.take k := by
  have long : k ≤ (data.take n).length := by simp; omega
  rw [store_bytes, List.take_append_of_le_length long, List.take_take, Nat.min_eq_left fits]

theorem snprintf_bytes (b : Buf n) (text : Bytes) (room : 0 < n) :
    (b.snprintf text).bytes = text.take (n - 1) ++ 0 :: b.bytes.drop ((text.take (n - 1)).length + 1) := by
  have fits : (text.take (n - 1) ++ [0]).take n = text.take (n - 1) ++ [0] :=
    List.take_of_length_le (by simp; omega)
  simp [snprintf, store_bytes, fits]

theorem snprintf_terminated (b : Buf n) (text : Bytes) (room : 0 < n) :
    (b.snprintf text).Terminated := by
  simp [Terminated, snprintf_bytes b text room]

/-- A formatted field reads back as the text cut to what fits. -/
theorem cstr_snprintf (b : Buf n) {text : Bytes} (rest : Bytes) (room : 0 < n) (plain : 0 ∉ text) :
    cstr ((b.snprintf text).bytes ++ rest) = text.take (n - 1) := by
  rw [snprintf_bytes b text room, List.append_assoc, List.cons_append]
  exact cstr_terminated _ fun member => plain (List.mem_of_mem_take member)

@[simp] theorem load_bytes_of_length {mem : Bytes} (exact : mem.length = n) :
    (load n mem).bytes = mem := by
  simp [load, exact, List.take_of_length_le (Nat.le_of_eq exact)]

/-- A field read from memory that starts with the field is that field. -/
@[simp] theorem load_append (b : Buf n) (rest : Bytes) : load n (b.bytes ++ rest) = b := by
  ext1
  simp [load]

@[simp] theorem load_bytes (b : Buf n) : load n b.bytes = b := by
  simpa using load_append b []

end Buf

/-! ## Text -/

/-- The bytes of an ASCII text. -/
def ascii (text : String) : Bytes := text.toList.map fun c => UInt8.ofNat c.toNat

/-- What `%d` prints. -/
def showInt (z : Int) : Bytes := ascii (toString z)

/-! ## A string used as a format

`sprintf(s, text)` with no further argument is defined only where every `%` of
the text is doubled; the result is then the text with each pair made single. -/

/-- `%` occurs only as `%%`. -/
def percentDoubled : Bytes → Bool
  | [] => true
  | 37 :: 37 :: s => percentDoubled s
  | 37 :: _ => false
  | _ :: s => percentDoubled s

/-- What the format expands to where it is defined. -/
def expand : Bytes → Bytes
  | [] => []
  | 37 :: 37 :: s => 37 :: expand s
  | c :: s => c :: expand s

/-- The text as a format without arguments; `undef` stands for what the library
does where the C standard leaves the call undefined. -/
def formatText (undef : Bytes → Bytes) (text : Bytes) : Bytes :=
  if percentDoubled text then expand text else undef text

theorem expand_length_le (s : Bytes) : (expand s).length ≤ s.length := by
  fun_induction expand s with
  | case1 => simp
  | case2 s ih => simp; omega
  | case3 c s _ ih => simpa using ih

theorem percentDoubled_of_plain {s : Bytes} (plain : 37 ∉ s) : percentDoubled s = true := by
  fun_induction percentDoubled s with
  | case1 => rfl
  | case2 s ih => simp at plain
  | case3 s _ => simp at plain
  | case4 c s _ _ ih => exact ih fun member => plain (List.mem_cons_of_mem _ member)

theorem expand_of_plain {s : Bytes} (plain : 37 ∉ s) : expand s = s := by
  fun_induction expand s with
  | case1 => rfl
  | case2 s ih => simp at plain
  | case3 c s _ ih => rw [ih fun member => plain (List.mem_cons_of_mem _ member)]

theorem formatText_of_plain (undef : Bytes → Bytes) {s : Bytes} (plain : 37 ∉ s) :
    formatText undef s = s := by
  rw [formatText, if_pos (percentDoubled_of_plain plain), expand_of_plain plain]

/-- Only a text with a `%` is changed by being used as a format. -/
theorem expand_length_lt {s : Bytes} (doubled : percentDoubled s = true) (percent : 37 ∈ s) :
    (expand s).length < s.length := by
  fun_induction percentDoubled s with
  | case1 => simp at percent
  | case2 s ih =>
    have shorter := expand_length_le s
    simp only [expand, List.length_cons]
    omega
  | case3 s _ => cases doubled
  | case4 c s notPair notPercent ih =>
    have tail : 37 ∈ s := by
      rcases List.mem_cons.mp percent with same | member
      · exact absurd same.symm notPercent
      · exact member
    have shorter := ih doubled tail
    rw [expand.eq_3 c s notPair]
    simpa using shorter

theorem zero_notMem_expand {s : Bytes} (text : 0 ∉ s) : 0 ∉ expand s := by
  fun_induction expand s with
  | case1 => simp
  | case2 s ih =>
    simp only [List.mem_cons, not_or] at text ⊢
    exact ⟨text.1, ih text.2.2⟩
  | case3 c s _ ih =>
    simp only [List.mem_cons, not_or] at text ⊢
    exact ⟨text.1, ih text.2⟩

/-- A text survives being used as a format and cut to `n` bytes exactly when it
has no `%` and fits. -/
theorem take_expand_eq_iff {s : Bytes} (doubled : percentDoubled s = true) (n : Nat) :
    (expand s).take n = s ↔ 37 ∉ s ∧ s.length ≤ n := by
  constructor
  · intro same
    have cut := congrArg List.length same
    rw [List.length_take] at cut
    have fits : s.length ≤ n := by omega
    refine ⟨fun percent => ?_, fits⟩
    have shorter := expand_length_lt doubled percent
    omega
  · rintro ⟨plain, fits⟩
    rw [expand_of_plain plain, List.take_of_length_le fits]

end MsaBroker.CMemory
