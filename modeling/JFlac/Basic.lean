import Mathlib

/-!
# Exceptions and machine integers

The vocabulary shared by the native registry, the decode callbacks and the JVM-side sessions:

* `Throwable`, what can be pending in a JNI environment or thrown to a Kotlin caller;
* the C arithmetic on `uint32_t`, `FLAC__uint64` and `jlong` at the places where the source
  could wrap around.
-/

namespace JFlac

/-- An exception object. The first five are raised by this repository's own code and carry the
message it builds; `java` is any object thrown by code outside it (a consumer, a transport, the
JVM itself), told apart by its identity. -/
inductive Throwable where
  | flacDecodeException (message : String)
  | flacEncodeException (message : String)
  | flacMetadataEditException (message : String)
  | illegalArgumentException (message : String)
  | illegalStateException (message : String)
  | java (identity : ℕ)
  deriving DecidableEq, Repr

/-- `===` on exceptions thrown by two calls: the repository's own code makes a new object whenever it
raises, so only an object of outside code can come twice. -/
def Throwable.sameObject : Throwable → Throwable → Bool
  | .java identity, .java identity' => identity == identity'
  | _, _ => false

/-! ## `jlong` -/

/-- `LLONG_MAX`. -/
def longMax : ℤ := 9223372036854775807

/-- `handle++` on a `jlong`, with the wrap-around the source guards against. -/
def longSucc (n : ℤ) : ℤ := if n = longMax then -longMax - 1 else n + 1

theorem longSucc_of_lt {n : ℤ} (h : n < longMax) : longSucc n = n + 1 := if_neg (by omega)

/-! ## Unsigned arithmetic -/

/-- `uint32_t` subtraction. -/
@[irreducible] def sub32 (a b : ℕ) : ℕ := (a + 4294967296 - b) % 4294967296

/-- `uint32_t` multiplication. -/
@[irreducible] def mul32 (a b : ℕ) : ℕ := a * b % 4294967296

/-- `uint32_t` addition. -/
@[irreducible] def add32 (a b : ℕ) : ℕ := (a + b) % 4294967296

/-- `FLAC__uint64` subtraction. -/
@[irreducible] def sub64 (a b : ℕ) : ℕ := (a + 18446744073709551616 - b) % 18446744073709551616

/-- `INT_MAX`, the largest length of a JVM array. -/
def intMax : ℕ := 2147483647

theorem sub32_of_le {a b : ℕ} (hab : b ≤ a) (ha : a < 4294967296) : sub32 a b = a - b := by
  unfold sub32; omega

theorem mul32_of_lt {a b : ℕ} (h : a * b < 4294967296) : mul32 a b = a * b := by
  unfold mul32; exact Nat.mod_eq_of_lt h

theorem add32_of_lt {a b : ℕ} (h : a + b < 4294967296) : add32 a b = a + b := by
  unfold add32; exact Nat.mod_eq_of_lt h

theorem sub64_of_le {a b : ℕ} (hab : b ≤ a) (ha : a < 18446744073709551616) :
    sub64 a b = a - b := by
  unfold sub64; omega

end JFlac
