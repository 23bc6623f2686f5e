/-!
# Reading bytes as text

Bytes are read as UTF-8. A sequence that breaks off or cannot begin is one malformed
piece, as long as it could still have become a character. A lenient reader puts the
replacement character in the place of each malformed piece; a strict one accepts none.
-/

namespace Stubgen.Text

/-- What a leading byte announces. -/
structure Lead where
  /-- The number of bytes that follow. -/
  following : Nat
  /-- The smallest second byte. -/
  low : UInt8
  /-- The largest second byte. -/
  high : UInt8
  /-- The bits that the leading byte contributes. -/
  bits : Nat

/-- The announcement of a byte that begins a character of more than one byte. Second
bytes are restricted so that overlong forms, surrogates and code points above the last
one do not arise. -/
def Lead.of? (b : UInt8) : Option Lead :=
  if 0xc2 ≤ b ∧ b ≤ 0xdf then some ⟨1, 0x80, 0xbf, (b - 0xc0).toNat⟩
  else if b = 0xe0 then some ⟨2, 0xa0, 0xbf, 0⟩
  else if b = 0xed then some ⟨2, 0x80, 0x9f, 13⟩
  else if 0xe1 ≤ b ∧ b ≤ 0xef then some ⟨2, 0x80, 0xbf, (b - 0xe0).toNat⟩
  else if b = 0xf0 then some ⟨3, 0x90, 0xbf, 0⟩
  else if 0xf1 ≤ b ∧ b ≤ 0xf3 then some ⟨3, 0x80, 0xbf, (b - 0xf0).toNat⟩
  else if b = 0xf4 then some ⟨3, 0x80, 0x8f, 4⟩
  else none

/-- The bytes, at most `n`, that continue a character. Only the first of them has
bounds of its own. -/
def continuation (low high : UInt8) : Nat → List UInt8 → List UInt8
  | 0, _ => []
  | _, [] => []
  | n + 1, b :: bs => if low ≤ b ∧ b ≤ high then b :: continuation 0x80 0xbf n bs else []

/-- The character made of the bits of a leading byte and of the bytes after it. -/
def assemble (bits : Nat) (bytes : List UInt8) : Char :=
  Char.ofNat (bytes.foldl (fun value b => value * 64 + b.toNat % 64) bits)

/-- The characters of a sequence of bytes, with `none` for each malformed piece. -/
def scalars (bytes : List UInt8) : List (Option Char) :=
  match bytes with
  | [] => []
  | b :: bs =>
    if b < 0x80 then some (Char.ofNat b.toNat) :: scalars bs
    else
      match Lead.of? b with
      | none => none :: scalars bs
      | some lead =>
        let more := continuation lead.low lead.high lead.following bs
        let read := if more.length = lead.following then some (assemble lead.bits more) else none
        read :: scalars (bs.drop more.length)
termination_by bytes.length

/-- The text of a sequence of bytes, with the replacement character for malformed pieces. -/
def decodeLenient (bytes : ByteArray) : String :=
  String.ofList ((scalars bytes.toList).map (·.getD '\ufffd'))

/-- The text of a sequence of bytes without malformed pieces. -/
def decodeStrict? (bytes : ByteArray) : Option String :=
  ((scalars bytes.toList).mapM id).map String.ofList

end Stubgen.Text
