import FerroWg.Core.Externals
import FerroWg.Lib.Text

/-! Keys from base64 (`key.rs`). Blanks around the text are trimmed before it is decoded. -/

namespace FerroWg

open Lib

variable [Externals]

def decodeKeyBytes (s : String) : Except KeyError KeyBytes :=
  match Externals.base64Decode (Text.trim s) with
  | .error e => .error (.invalidBase64 e)
  | .ok bytes =>
    if h : bytes.length = 32 then .ok ⟨bytes.toArray, by simpa using h⟩
    else .error (.invalidLength 32 bytes.length)

def encodeKeyBytes (bytes : KeyBytes) : String := Externals.base64Encode bytes.toList

def PrivateKey.fromBase64 (s : String) : Except KeyError PrivateKey :=
  (decodeKeyBytes s).map .mk

def PublicKey.fromBase64 (s : String) : Except KeyError PublicKey :=
  (decodeKeyBytes s).map .mk

def PresharedKey.fromBase64 (s : String) : Except KeyError PresharedKey :=
  (decodeKeyBytes s).map .mk

def PrivateKey.toBase64 (k : PrivateKey) : String := encodeKeyBytes k.bytes
def PublicKey.toBase64 (k : PublicKey) : String := encodeKeyBytes k.bytes
def PresharedKey.toBase64 (k : PresharedKey) : String := encodeKeyBytes k.bytes

/-- The standard alphabet and its padding, by code point. -/
def isBase64Char (c : Char) : Bool :=
  let n := c.toNat
  (65 ≤ n && n ≤ 90) || (97 ≤ n && n ≤ 122) || (48 ≤ n && n ≤ 57) || n == 43 || n == 47 || n == 61

/-- The decoder takes no character from outside the alphabet, so in particular no blank. -/
def Base64Alphabet : Prop :=
  ∀ s bytes, Externals.base64Decode s = .ok bytes → ∀ c ∈ s.toList, isBase64Char c = true

omit [Externals] in
theorem isWhitespace_of_isBase64Char {c : Char} (good : isBase64Char c = true) :
    Text.isWhitespace c = false := by
  simp only [isBase64Char, Bool.or_eq_true, Bool.and_eq_true, decide_eq_true_eq, beq_iff_eq] at good
  simp only [Text.isWhitespace, Bool.or_eq_false_iff, Bool.and_eq_false_iff, decide_eq_false_iff_not,
    beq_eq_false_iff_ne, ne_eq]
  omega

/-- Trimming makes no difference to text that decodes as it stands. -/
theorem PublicKey.fromBase64_of_decode (alphabet : Base64Alphabet) {s : String}
    {bytes : List UInt8} (decoded : Externals.base64Decode s = .ok bytes)
    (length : bytes.length = 32) : ∃ key, PublicKey.fromBase64 s = .ok key := by
  have trimmed : Text.trim s = s := Text.trim_of_no_whitespace s fun c member =>
    isWhitespace_of_isBase64Char (alphabet s bytes decoded c member)
  simp [PublicKey.fromBase64, decodeKeyBytes, trimmed, decoded, length, Except.map]

end FerroWg
