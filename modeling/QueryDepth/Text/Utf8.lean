import QueryDepth.Text.Decimal

/-!
# Text from bytes

`Utf8.decode` reads bytes as UTF-8. A character is read from the longest run of bytes that may
begin one; a fault names the bytes of that run. `universalLines` then gives every line end the same
form, a line feed.
-/

namespace QueryDepth.Text

namespace Utf8

inductive Fault where
  | startByte
  | continuationByte
  | endOfData
deriving DecidableEq, Repr

def Fault.describe : Fault → String
  | .startByte => "invalid start byte"
  | .continuationByte => "invalid continuation byte"
  | .endOfData => "unexpected end of data"

/-- Some bytes, of which the first is given, that are no character. -/
structure DecodeError where
  fault : Fault
  first : UInt8
  position : Nat
  length : Nat
deriving DecidableEq, Repr

namespace DecodeError

def message (e : DecodeError) : String :=
  let place :=
    if e.length = 1 then
      "byte 0x" ++ String.ofList (Decimal.hexText 2 e.first.toNat) ++ " in position "
        ++ Decimal.natText e.position
    else
      "bytes in position " ++ Decimal.natText e.position ++ "-"
        ++ Decimal.natText (e.position + e.length - 1)
  "'utf-8' codec can't decode " ++ place ++ ": " ++ e.fault.describe

end DecodeError

/-- How a character begins: the number of bytes that follow the first, its share of the code point,
and the range of the second byte. -/
structure Lead where
  following : Nat
  bits : Nat
  low : Nat
  high : Nat

/-- What a byte beyond ASCII begins. The range of the second byte excludes overlong forms,
surrogates, and what is beyond the last code point. -/
def lead? (b : UInt8) : Option Lead :=
  let n := b.toNat
  if 0xC2 ≤ n ∧ n ≤ 0xDF then some ⟨1, n - 0xC0, 0x80, 0xBF⟩
  else if n = 0xE0 then some ⟨2, 0, 0xA0, 0xBF⟩
  else if n = 0xED then some ⟨2, 0xD, 0x80, 0x9F⟩
  else if 0xE1 ≤ n ∧ n ≤ 0xEF then some ⟨2, n - 0xE0, 0x80, 0xBF⟩
  else if n = 0xF0 then some ⟨3, 0, 0x90, 0xBF⟩
  else if n = 0xF4 then some ⟨3, 4, 0x80, 0x8F⟩
  else if 0xF1 ≤ n ∧ n ≤ 0xF3 then some ⟨3, n - 0xF0, 0x80, 0xBF⟩
  else none

/-- Reads so many continuation bytes, the first of them in a range. A failure tells the number of
bytes that were right. -/
def readFollowing : Nat → Nat → Nat → Nat → List UInt8 → Except (Fault × Nat) (Nat × List UInt8)
  | 0, _, _, bits, bytes => .ok (bits, bytes)
  | _ + 1, _, _, _, [] => .error (.endOfData, 0)
  | n + 1, low, high, bits, b :: bytes =>
    if low ≤ b.toNat ∧ b.toNat ≤ high then
      match readFollowing n 0x80 0xBF (bits * 64 + (b.toNat - 0x80)) bytes with
      | .ok r => .ok r
      | .error (fault, right) => .error (fault, right + 1)
    else .error (.continuationByte, 0)

theorem length_readFollowing {n low high bits : Nat} {bytes : List UInt8} {r : Nat × List UInt8}
    (h : readFollowing n low high bits bytes = .ok r) : r.2.length ≤ bytes.length := by
  induction n generalizing low high bits bytes with
  | zero => simp [readFollowing] at h; simp [← h]
  | succ n ih =>
    cases bytes with
    | nil => simp [readFollowing] at h
    | cons b bytes =>
      simp only [readFollowing] at h
      split at h
      · split at h
        · next r' hr =>
          injection h with h
          subst h
          exact Nat.le_trans (ih hr) (by simp)
        · simp at h
      · simp at h

/-- Reads bytes that begin at a position. -/
def decodeFrom (position : Nat) : List UInt8 → Except DecodeError (List Char)
  | [] => .ok []
  | b :: bytes =>
    if b.toNat < 0x80 then
      match decodeFrom (position + 1) bytes with
      | .ok cs => .ok (Char.ofNat b.toNat :: cs)
      | .error e => .error e
    else
      match lead? b with
      | none => .error ⟨.startByte, b, position, 1⟩
      | some l =>
        match _h : readFollowing l.following l.low l.high l.bits bytes with
        | .error (fault, right) => .error ⟨fault, b, position, right + 1⟩
        | .ok (code, rest) =>
          match decodeFrom (position + l.following + 1) rest with
          | .ok cs => .ok (Char.ofNat code :: cs)
          | .error e => .error e
termination_by bytes => bytes.length
decreasing_by
  · simp
  · have := length_readFollowing _h
    simp at this ⊢
    omega

def decode (bytes : List UInt8) : Except DecodeError (List Char) := decodeFrom 0 bytes

/-- The bytes of a text. -/
def encode (s : String) : List UInt8 := s.toUTF8.toList

end Utf8

/-- Turns a carriage return, alone or before a line feed, into a line feed. -/
def universalLines : List Char → List Char
  | [] => []
  | '\r' :: '\n' :: cs => '\n' :: universalLines cs
  | '\r' :: cs => '\n' :: universalLines cs
  | c :: cs => c :: universalLines cs

end QueryDepth.Text
