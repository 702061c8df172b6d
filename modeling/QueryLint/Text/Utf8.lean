import QueryLint.Text.Hex

/-!
# Texts as UTF-8 bytes

Source files are stored as bytes and every range in a syntax tree counts bytes, so texts and
bytes are converted in both directions here. Decoding is strict, and says where and why the bytes
stop being UTF-8; lossy decoding puts one replacement character for each faulty stretch.

A faulty stretch is the longest run of bytes that begins a character and cannot be completed. Its
first byte decides how many continuation bytes must follow, and the first of those is confined to
a narrower range after the bytes `E0`, `ED`, `F0` and `F4`, which rules out overlong forms,
surrogates and numbers past the last code point.
-/
namespace QueryLint.Text

/-- A sequence of bytes, such as the content of a file. -/
abbrev Bytes := List UInt8

def utf8 (s : String) : Bytes := s.toByteArray.data.toList

def byteLength (s : String) : Nat := s.utf8ByteSize

namespace Utf8

/-- Why bytes cannot be read as a character. -/
inductive Reason where
  /-- The byte cannot begin a character. -/
  | invalidStart
  /-- The byte after the stretch cannot continue its character. -/
  | invalidContinuation
  /-- The bytes end inside a character. -/
  | unexpectedEnd
  deriving DecidableEq, Repr

def Reason.message : Reason → String
  | .invalidStart => "invalid start byte"
  | .invalidContinuation => "invalid continuation byte"
  | .unexpectedEnd => "unexpected end of data"

/-- A stretch of `length` bytes from offset `start` that is no character. -/
structure Fault where
  start : Nat
  length : Nat
  first : UInt8
  reason : Reason
  deriving DecidableEq, Repr

/-- One byte is named by its value, a longer stretch by its first and last offset. -/
def Fault.message (f : Fault) : String :=
  let place :=
    if f.length = 1 then
      s!"byte 0x{String.ofList (hexDigits 2 f.first.toNat)} in position {f.start}"
    else s!"bytes in position {f.start}-{f.start + f.length - 1}"
  s!"'utf-8' codec can't decode {place}: {f.reason.message}"

/-- How many continuation bytes the first byte of a character asks for. -/
def following (lead : UInt8) : Option Nat :=
  if lead ≤ 0x7F then some 0
  else if 0xC2 ≤ lead ∧ lead ≤ 0xDF then some 1
  else if 0xE0 ≤ lead ∧ lead ≤ 0xEF then some 2
  else if 0xF0 ≤ lead ∧ lead ≤ 0xF4 then some 3
  else none

def continues (b : UInt8) : Bool := 0x80 ≤ b && b ≤ 0xBF

/-- Whether a byte may stand directly after the first byte `lead`. -/
def continuesAfter (lead b : UInt8) : Bool :=
  if lead = 0xE0 then 0xA0 ≤ b && b ≤ 0xBF
  else if lead = 0xED then 0x80 ≤ b && b ≤ 0x9F
  else if lead = 0xF0 then 0x90 ≤ b && b ≤ 0xBF
  else if lead = 0xF4 then 0x80 ≤ b && b ≤ 0x8F
  else continues b

/-- The continuation bytes of `lead` that are there, at most `n`. -/
def continuation (lead : UInt8) (n : Nat) : Bytes → Bytes
  | [] => []
  | b :: rest =>
    if n ≠ 0 ∧ continuesAfter lead b then b :: (rest.take (n - 1)).takeWhile continues else []

/-- The code point that a first byte and its continuation bytes spell. -/
def codePoint (lead : UInt8) (tail : Bytes) : Nat :=
  let start := match tail.length with
    | 0 => lead.toNat
    | 1 => lead.toNat % 32
    | 2 => lead.toNat % 16
    | _ => lead.toNat % 8
  tail.foldl (fun n b => n * 64 + b.toNat % 64) start

/-- A stretch at the front of some bytes: a character, or a fault with its reason. -/
inductive Stretch where
  | char (c : Char) (length : Nat)
  | fault (length : Nat) (reason : Reason)

def Stretch.length : Stretch → Nat
  | .char _ n => n
  | .fault n _ => n

/-- The stretch that begins with `lead`, followed by `rest`. -/
def stretch (lead : UInt8) (rest : Bytes) : Stretch :=
  match following lead with
  | none => .fault 1 .invalidStart
  | some n =>
    let tail := continuation lead n rest
    if tail.length = n then .char (Char.ofNat (codePoint lead tail)) (n + 1)
    else if tail.length = rest.length then .fault (tail.length + 1) .unexpectedEnd
    else .fault (tail.length + 1) .invalidContinuation

/-- The first faulty stretch of some bytes that begin at offset `start`. -/
def firstFault (start : Nat) : Bytes → Option Fault
  | [] => none
  | lead :: rest =>
    match stretch lead rest with
    | .char _ n => firstFault (start + n) (rest.drop (n - 1))
    | .fault n reason => some ⟨start, n, lead, reason⟩
  termination_by bytes => bytes.length
  decreasing_by simp only [List.length_drop, List.length_cons]; omega

/-- The characters of some bytes, with a replacement character for each faulty stretch. -/
def lossyChars : Bytes → List Char
  | [] => []
  | lead :: rest =>
    match stretch lead rest with
    | .char c n => c :: lossyChars (rest.drop (n - 1))
    | .fault n _ => '\uFFFD' :: lossyChars (rest.drop (n - 1))
  termination_by bytes => bytes.length
  decreasing_by all_goals (simp only [List.length_drop, List.length_cons]; omega)

end Utf8

/-- The text that the bytes spell, or the first stretch that is no character. -/
def decode (bytes : Bytes) : Except Utf8.Fault String :=
  if h : bytes.toByteArray.IsValidUTF8 then .ok (String.fromUTF8 bytes.toByteArray h)
  else .error ((Utf8.firstFault 0 bytes).getD ⟨0, 1, 0, .invalidStart⟩)

/-- The text that the bytes spell, faulty stretches replaced. -/
def decodeLossy (bytes : Bytes) : String :=
  if h : bytes.toByteArray.IsValidUTF8 then String.fromUTF8 bytes.toByteArray h
  else String.ofList (Utf8.lossyChars bytes)

@[simp] theorem toByteArray_utf8 (s : String) : (utf8 s).toByteArray = s.toByteArray := by
  apply ByteArray.ext
  simp [utf8]

@[simp] theorem length_utf8 (s : String) : (utf8 s).length = byteLength s := by
  simp [utf8, byteLength]

@[simp] theorem utf8_append (s t : String) : utf8 (s ++ t) = utf8 s ++ utf8 t := by
  simp [utf8]

/-- Writing a text as bytes and reading it back gives the text. -/
@[simp] theorem decode_utf8 (s : String) : decode (utf8 s) = .ok s := by
  simp [decode, s.isValidUTF8, String.fromUTF8]

@[simp] theorem decodeLossy_utf8 (s : String) : decodeLossy (utf8 s) = s := by
  simp [decodeLossy, s.isValidUTF8, String.fromUTF8]

end QueryLint.Text
