-- SUMMARY: Reading bytes as text in UTF-8, Latin-1 or ASCII, with the place of the first fault.
import AsmHighlight.Text.Quoted

/-!
# Character encodings

A file is decoded as a whole. UTF-8 is read strictly: overlong forms,
surrogates and code points beyond U+10FFFF are faults. A fault names the bytes
that could not be read: the longest start of a sequence that was well formed
up to the byte that spoiled it, or everything up to the end of the data when
the data stopped inside a sequence.
-/

namespace AsmHighlight.Text

/-- The encodings a source file can have. -/
inductive Encoding where
  | utf8
  | latin1
  | ascii
  deriving DecidableEq, Repr

def Encoding.name : Encoding → String
  | .utf8 => "utf-8"
  | .latin1 => "latin-1"
  | .ascii => "ascii"

/-- Why bytes could not be read. -/
inductive EncodingFault.Reason where
  | invalidStart
  | invalidContinuation
  | unexpectedEnd
  | notAscii
  deriving DecidableEq, Repr

/-- The first bytes of a file that could not be read: the value of the first one,
    its position, how many there are, and why. -/
structure EncodingFault where
  encoding : Encoding
  byte : UInt8
  position : Nat
  count : Nat
  reason : EncodingFault.Reason
  deriving DecidableEq, Repr

def EncodingFault.Reason.text : EncodingFault.Reason → String
  | .invalidStart => "invalid start byte"
  | .invalidContinuation => "invalid continuation byte"
  | .unexpectedEnd => "unexpected end of data"
  | .notAscii => "ordinal not in range(128)"

/-- The message for bytes that could not be read: one byte is shown by its value,
    several by their positions. -/
def EncodingFault.message (f : EncodingFault) : String :=
  let codec := quoted f.encoding.name
  let reason := f.reason.text
  if f.count = 1 then
    let byte := String.ofList (hexDigits 2 f.byte.toNat)
    s!"{codec} codec can't decode byte 0x{byte} in position {f.position}: {reason}"
  else
    s!"{codec} codec can't decode bytes in position {f.position}-{f.position + f.count - 1}: {reason}"

-- ---------------------------------------------------------------------------
-- UTF-8
-- ---------------------------------------------------------------------------

/-- How many bytes a sequence with this first byte has, and the bounds of its
    second byte; nothing when no sequence starts so. -/
def sequenceShape (first : Nat) : Option (Nat × Nat × Nat) :=
  if first < 0x80 then some (1, 0, 0)
  else if first < 0xC2 then none
  else if first < 0xE0 then some (2, 0x80, 0xBF)
  else if first = 0xE0 then some (3, 0xA0, 0xBF)
  else if first = 0xED then some (3, 0x80, 0x9F)
  else if first < 0xF0 then some (3, 0x80, 0xBF)
  else if first = 0xF0 then some (4, 0x90, 0xBF)
  else if first < 0xF4 then some (4, 0x80, 0xBF)
  else if first = 0xF4 then some (4, 0x80, 0x8F)
  else none

/-- The value bits of the first byte of a sequence of the given length. -/
def leadBits (length first : Nat) : Nat :=
  match length with
  | 1 => first
  | 2 => first % 0x20
  | 3 => first % 0x10
  | _ => first % 0x08

/-- How reading the continuation bytes of a sequence ended. -/
inductive Continuation where
  | complete (code : Nat) (rest : List UInt8)
  | spoiled (read : Nat)
  | cut (read : Nat)

/-- Reads `missing` continuation bytes, the first of which lies between `low` and
    `high`; `read` bytes of the sequence, with value `code`, are behind. -/
def readContinuation : (missing low high code read : Nat) → List UInt8 → Continuation
  | 0, _, _, code, _, rest => .complete code rest
  | _ + 1, _, _, _, read, [] => .cut read
  | missing + 1, low, high, code, read, b :: rest =>
    if low ≤ b.toNat ∧ b.toNat ≤ high then
      readContinuation missing 0x80 0xBF (code * 0x40 + b.toNat % 0x40) (read + 1) rest
    else .spoiled read

/-- Decodes UTF-8 from the byte at `position` on, for at most `fuel` characters. -/
def decodeUtf8From : (fuel position : Nat) → List UInt8 → Except EncodingFault (List Char)
  | 0, _, _ => .ok []
  | _ + 1, _, [] => .ok []
  | fuel + 1, position, b :: rest =>
    match sequenceShape b.toNat with
    | none => .error ⟨.utf8, b, position, 1, .invalidStart⟩
    | some (length, low, high) =>
      match readContinuation (length - 1) low high (leadBits length b.toNat) 1 rest with
      | .spoiled read => .error ⟨.utf8, b, position, read, .invalidContinuation⟩
      | .cut read => .error ⟨.utf8, b, position, read, .unexpectedEnd⟩
      | .complete code rest =>
        (decodeUtf8From fuel (position + length) rest).map (Char.ofNat code :: ·)

/-- Decodes ASCII from the byte at `position` on. -/
def decodeAsciiFrom : (position : Nat) → List UInt8 → Except EncodingFault (List Char)
  | _, [] => .ok []
  | position, b :: rest =>
    if b.toNat < 0x80 then (decodeAsciiFrom (position + 1) rest).map (Char.ofNat b.toNat :: ·)
    else .error ⟨.ascii, b, position, 1, .notAscii⟩

/-- The text that the bytes of a file stand for. -/
def Encoding.decode (encoding : Encoding) (bytes : List UInt8) : Except EncodingFault String :=
  match encoding with
  | .utf8 => (decodeUtf8From bytes.length 0 bytes).map String.ofList
  | .latin1 => .ok (String.ofList (bytes.map fun b => Char.ofNat b.toNat))
  | .ascii => (decodeAsciiFrom 0 bytes).map String.ofList

end AsmHighlight.Text
