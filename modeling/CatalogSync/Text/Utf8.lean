/-!
UTF-8. `encode` writes a text as bytes; `decode` reads bytes back and refuses the first stretch
that begins no character. The stretch that a refusal reports is the longest start of a character
found there, or one byte where the first byte can start none.
-/

namespace CatalogSync.Text

/-- Why bytes are no UTF-8. -/
inductive Utf8Reason where
  | invalidStart
  | invalidContinuation
  | unexpectedEnd
deriving DecidableEq, Repr

/-- The refused stretch of bytes: where it starts, how long it is, its first byte. -/
structure Utf8Fault where
  position : Nat
  length : Nat
  firstByte : UInt8
  reason : Utf8Reason
deriving DecidableEq, Repr

def Utf8Reason.message : Utf8Reason → String
  | .invalidStart => "invalid start byte"
  | .invalidContinuation => "invalid continuation byte"
  | .unexpectedEnd => "unexpected end of data"

/-- The two hexadecimal digits of a byte. -/
def byteText (b : UInt8) : String :=
  let digits := Nat.toDigits 16 b.toNat
  String.ofList (List.replicate (2 - digits.length) '0' ++ digits)

def Utf8Fault.message (f : Utf8Fault) : String :=
  if f.length = 1 then
    s!"'utf-8' codec can't decode byte 0x{byteText f.firstByte} in position {f.position}: "
      ++ f.reason.message
  else
    s!"'utf-8' codec can't decode bytes in position {f.position}-{f.position + f.length - 1}: "
      ++ f.reason.message

/-- A byte that may follow the first byte of a character. -/
def isContinuation (b : UInt8) : Bool := 0x80 ≤ b.toNat && b.toNat < 0xC0

/-- A byte that may come second after `first`: a continuation that makes no overlong form, no
surrogate and no code point past the last. -/
def isSecond (first second : UInt8) : Bool :=
  isContinuation second
    && (first.toNat != 0xE0 || 0xA0 ≤ second.toNat) && (first.toNat != 0xED || second.toNat < 0xA0)
    && (first.toNat != 0xF0 || 0x90 ≤ second.toNat) && (first.toNat != 0xF4 || second.toNat < 0x90)

/-- The low six bits of a continuation byte. -/
def tailBits (b : UInt8) : Nat := b.toNat % 0x40

/-- Reads bytes as UTF-8, the first of them standing at `position`. -/
def decodeFrom (position : Nat) : List UInt8 → Except Utf8Fault (List Char)
  | [] => .ok []
  | a :: rest =>
    let refuse (length : Nat) (reason : Utf8Reason) : Except Utf8Fault (List Char) :=
      .error ⟨position, length, a, reason⟩
    if a.toNat < 0x80 then
      (decodeFrom (position + 1) rest).map (Char.ofNat a.toNat :: ·)
    else if a.toNat < 0xC2 ∨ 0xF4 < a.toNat then refuse 1 .invalidStart
    else match rest with
      | [] => refuse 1 .unexpectedEnd
      | b :: rest =>
        if !isSecond a b then refuse 1 .invalidContinuation
        else if a.toNat < 0xE0 then
          (decodeFrom (position + 2) rest).map
            (Char.ofNat (a.toNat % 0x20 * 0x40 + tailBits b) :: ·)
        else match rest with
          | [] => refuse 2 .unexpectedEnd
          | c :: rest =>
            if !isContinuation c then refuse 2 .invalidContinuation
            else if a.toNat < 0xF0 then
              (decodeFrom (position + 3) rest).map
                (Char.ofNat ((a.toNat % 0x10 * 0x40 + tailBits b) * 0x40 + tailBits c) :: ·)
            else match rest with
              | [] => refuse 3 .unexpectedEnd
              | d :: rest =>
                if !isContinuation d then refuse 3 .invalidContinuation
                else
                  (decodeFrom (position + 4) rest).map
                    (Char.ofNat (((a.toNat % 0x08 * 0x40 + tailBits b) * 0x40 + tailBits c) * 0x40
                      + tailBits d) :: ·)

/-- Reads bytes as UTF-8. -/
def decode (bytes : List UInt8) : Except Utf8Fault (List Char) := decodeFrom 0 bytes

/-- Writes a text as UTF-8. -/
def encode (s : List Char) : List UInt8 := s.flatMap String.utf8EncodeChar

end CatalogSync.Text
