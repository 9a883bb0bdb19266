/-
Smos.Ipc.Strings — NUL-terminated strings in the shared data buffer.

A `&str` is a Lean string: both are exactly the valid UTF-8 sequences. A
stub writes strings one after the other from the start of the buffer, each
with a terminating NUL, and the decoder takes them off in the same order.
A string that has a NUL of its own is cut at it, so the round trip is about
strings without one.
-/
import Smos.Ipc.Invocation

namespace Smos.Ipc

/-- `str::as_bytes`. -/
def strBytes (s : String) : List UInt8 := s.toByteArray.data.toList

/-- No byte of the string is NUL. -/
def NulFree (s : String) : Prop := 0 ∉ strBytes s

instance (s : String) : Decidable (NulFree s) := inferInstanceAs (Decidable (¬ _))

/-- `core::str::from_utf8`. -/
def fromUtf8 (bytes : List UInt8) : Option String := String.fromUTF8? bytes.toByteArray

/-- `copy_terminated_rust_string_to_buffer`: what is written, and what is left of the buffer. -/
def copyTerminatedRustString (buffer : List UInt8) (s : String) :
    Except InvocationError (List UInt8 × List UInt8) :=
  if (strBytes s).length + 1 > buffer.length then .error .bufferTooLarge
  else .ok (strBytes s ++ [0], buffer.drop ((strBytes s).length + 1))

/-- `rust_str_from_buffer`. -/
def rustStrFromBuffer (buffer : List UInt8) : Except InvocationError (String × List UInt8) :=
  match buffer.findIdx? (· == 0) with
  | none => .error .invalidArguments
  | some index =>
    match fromUtf8 (buffer.take index) with
    | none => .error .invalidArguments
    | some s => .ok (s, buffer.drop (index + 1))

theorem fromUtf8_strBytes (s : String) : fromUtf8 (strBytes s) = some s := by
  have hbytes : (strBytes s).toByteArray = s.toByteArray := by
    apply ByteArray.ext
    simp [strBytes]
  rw [fromUtf8, hbytes, String.fromUTF8?, dif_pos s.isValidUTF8]
  rfl

/-- The reader takes a written string off the front of the buffer. -/
theorem rustStrFromBuffer_append {s : String} (h : NulFree s) (rest : List UInt8) :
    rustStrFromBuffer (strBytes s ++ [0] ++ rest) = .ok (s, rest) := by
  have hfree : ∀ x ∈ strBytes s, (x == 0) = false := by
    intro x hx
    have hne : x ≠ 0 := fun h0 => h (h0 ▸ hx)
    simpa using hne
  have hidx : (strBytes s ++ [0] ++ rest).findIdx? (· == 0) = some (strBytes s).length := by
    rw [List.append_assoc, List.findIdx?_append, List.findIdx?_eq_none_iff.mpr hfree]
    simp [List.findIdx?_cons]
  have hlen : (strBytes s ++ [0]).length = (strBytes s).length + 1 := by simp
  have htake : (strBytes s ++ [0] ++ rest).take (strBytes s).length = strBytes s := by
    rw [List.append_assoc, List.take_left]
  have hdrop : (strBytes s ++ [0] ++ rest).drop ((strBytes s).length + 1) = rest := by
    rw [← hlen, List.drop_left]
  rw [rustStrFromBuffer, hidx]
  simp only [htake, fromUtf8_strBytes, hdrop]

end Smos.Ipc
