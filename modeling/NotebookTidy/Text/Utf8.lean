/-! Bytes as text.

Files and the output of formatters have to be well-formed UTF-8. Diagnostics do
not: in them every maximal piece that starts no character, or breaks one off, is
shown as one replacement character. -/
namespace NotebookTidy

/-- What files hold, what programs read and write, and what paths are made of. -/
abbrev Bytes := List UInt8

namespace Text

/-- What stands in place of bytes that are no text. -/
def replacement : Char := Char.ofNat 0xfffd

/-- What may follow a first byte: how many continuation bytes there are, and the
narrower range of the first of them, which rules out overlong forms, surrogates
and code points past the last one. -/
def leadBounds (b : UInt8) : Option (Nat × UInt8 × UInt8) :=
  if 0xc2 ≤ b && b ≤ 0xdf then some (1, 0x80, 0xbf)
  else if b == 0xe0 then some (2, 0xa0, 0xbf)
  else if b == 0xed then some (2, 0x80, 0x9f)
  else if 0xe1 ≤ b && b ≤ 0xef then some (2, 0x80, 0xbf)
  else if b == 0xf0 then some (3, 0x90, 0xbf)
  else if 0xf1 ≤ b && b ≤ 0xf3 then some (3, 0x80, 0xbf)
  else if b == 0xf4 then some (3, 0x80, 0x8f)
  else none

/-- The value of the low bits that a first byte contributes. -/
def leadValue (b : UInt8) (continuations : Nat) : Nat :=
  b.toNat % Nat.pow 2 (6 - continuations)

/-- A character read in part: its value so far, how many bytes it still needs, and
the range the next of them has to lie in. -/
structure Unfinished where
  value : Nat
  missing : Nat
  low : UInt8
  high : UInt8

/-- Reads bytes one at a time. A byte that cannot continue the character at hand
ends it with a replacement and is read again as a first byte. -/
def decodeLossyFrom : Option Unfinished → Bytes → List Char
  | none, [] => []
  | some _, [] => [replacement]
  | none, b :: bs => start b bs
  | some p, b :: bs =>
    if p.low ≤ b && b ≤ p.high then
      let value := p.value * 64 + b.toNat % 64
      if p.missing ≤ 1 then Char.ofNat value :: decodeLossyFrom none bs
      else decodeLossyFrom (some ⟨value, p.missing - 1, 0x80, 0xbf⟩) bs
    else replacement :: start b bs
where
  start (b : UInt8) (bs : Bytes) : List Char :=
    if b < 0x80 then Char.ofNat b.toNat :: decodeLossyFrom none bs
    else match leadBounds b with
      | some (n, low, high) => decodeLossyFrom (some ⟨leadValue b n, n, low, high⟩) bs
      | none => replacement :: decodeLossyFrom none bs

/-- Text for people: what is no UTF-8 is replaced. -/
def decodeLossy (bytes : Bytes) : String :=
  String.ofList (decodeLossyFrom none bytes)

/-- Text proper: `none` unless the bytes are well-formed UTF-8. -/
def decode? (bytes : Bytes) : Option String :=
  String.fromUTF8? ⟨bytes.toArray⟩

/-- The bytes of a text. -/
def encode (s : String) : Bytes :=
  s.toUTF8.data.toList

theorem decode?_encode (s : String) : decode? (encode s) = some s := by
  rw [decode?, encode, Array.toArray_toList]
  exact dif_pos s.isValidUTF8

theorem encode_eq_nil_iff {s : String} : encode s = [] ↔ s = "" := by
  constructor
  · intro h
    have hdecode := decode?_encode s
    rw [h] at hdecode
    exact Option.some.inj (hdecode.symm.trans (decode?_encode ""))
  · intro h
    rw [h]
    rfl

theorem encode_of_decode? {bytes : Bytes} {s : String} (h : decode? bytes = some s) :
    encode s = bytes := by
  rw [decode?, String.fromUTF8?] at h
  split at h
  · rw [← Option.some.inj h]
    rfl
  · cases h

end Text
end NotebookTidy
