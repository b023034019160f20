/-! Texts as bytes. UTF-8 is read with replacement characters for bytes that are none; the wider
encodings have no such way out, but they carry halves of pairs that stand alone, which UTF-8 does
not. Which encoding some bytes are in shows in their first zeros, if the
text is known to begin with an ASCII character. -/

namespace Phrasebook.Text

/-- The bytes of a text in UTF-8. -/
def utf8Bytes (s : String) : List Nat :=
  s.toUTF8.toList.map UInt8.toNat

/-! ### UTF-8 -/

/-- The number of bytes that follow a leading byte, and the range of the first of them. -/
def continuation? (lead : Nat) : Option (Nat × Nat × Nat) :=
  if 0xc2 ≤ lead ∧ lead ≤ 0xdf then some (1, 0x80, 0xbf)
  else if lead = 0xe0 then some (2, 0xa0, 0xbf)
  else if lead = 0xed then some (2, 0x80, 0x9f)
  else if 0xe1 ≤ lead ∧ lead ≤ 0xef then some (2, 0x80, 0xbf)
  else if lead = 0xf0 then some (3, 0x90, 0xbf)
  else if 0xf1 ≤ lead ∧ lead ≤ 0xf3 then some (3, 0x80, 0xbf)
  else if lead = 0xf4 then some (3, 0x80, 0x8f)
  else none

/-- The bytes of a character behind its leading byte, as far as they continue it. -/
def continuing (count low high : Nat) (bytes : List Nat) : List Nat :=
  match bytes with
  | [] => []
  | b :: rest =>
      if 0 < count ∧ low ≤ b ∧ b ≤ high then
        b :: (rest.take (count - 1)).takeWhile fun x => 0x80 ≤ x && x ≤ 0xbf
      else []

/-- The character of a leading byte, and how many bytes behind it belong to it. A character that
breaks off is replaced as one. -/
def character (lead : Nat) (rest : List Nat) : Char × Nat :=
  if lead < 0x80 then (Char.ofNat lead, 0)
  else
    match continuation? lead with
    | none => ('\ufffd', 0)
    | some (count, low, high) =>
        let tail := continuing count low high rest
        if tail.length = count then
          let bits := if count = 1 then lead % 32 else if count = 2 then lead % 16 else lead % 8
          (Char.ofNat (tail.foldl (fun n b => 64 * n + b % 64) bits), count)
        else ('\ufffd', tail.length)

/-- The characters of UTF-8 bytes. -/
def utf8Characters : List Nat → List Char
  | [] => []
  | b :: rest =>
      let r := character b rest
      r.1 :: utf8Characters (rest.drop r.2)
termination_by bytes => bytes.length
decreasing_by
  simp only [List.length_drop, List.length_cons]
  omega

/-! ### Code units -/

/-- Half of a pair that stands alone is a code point but no character, so characters of private use
stand for such halves in a text. Which ones is left open: they can be ones that no text at hand
holds otherwise. -/
class Surrogates where
  /-- The code of the character for the first of the halves; those for the others follow it. -/
  first : Nat
  isPrivate : 0xf0000 ≤ first ∧ first + 0x800 ≤ 0x110000

instance : Surrogates := ⟨0x10f000, by decide⟩

variable [Surrogates]

/-- Whether a character stands for half of a pair. -/
def isSurrogate (c : Char) : Bool :=
  Surrogates.first ≤ c.toNat && c.toNat < Surrogates.first + 0x800

/-- Whether a text can be encoded: half of a pair that stands alone cannot. -/
def isEncodable (s : String) : Bool :=
  s.toList.all (!isSurrogate ·)

/-- The character of a code point, or the one that stands for half of a pair. -/
def codePoint (n : Nat) : Char :=
  if 0xd800 ≤ n ∧ n < 0xe000 then Char.ofNat (Surrogates.first + (n - 0xd800)) else Char.ofNat n

/-- The characters of code units: two halves of a pair are one character. -/
def ofUnits : List Nat → List Char
  | [] => []
  | [n] => [codePoint n]
  | high :: low :: rest =>
      if 0xd800 ≤ high ∧ high < 0xdc00 ∧ 0xdc00 ≤ low ∧ low < 0xe000 then
        codePoint (0x10000 + (high - 0xd800) * 0x400 + (low - 0xdc00)) :: ofUnits rest
      else codePoint high :: ofUnits (low :: rest)

/-- The numbers that pairs of digits spell, if the digits come in pairs. -/
def paired? (base : Nat) (highFirst : Bool) : List Nat → Option (List Nat)
  | [] => some []
  | [_] => none
  | a :: b :: rest =>
      let n := if highFirst then base * a + b else base * b + a
      (paired? base highFirst rest).map (n :: ·)

/-! ### Encodings -/

inductive Encoding
  | utf8
  | utf16 (highFirst : Bool)
  | utf32 (highFirst : Bool)
  deriving DecidableEq

namespace Encoding

/-- The encoding of a text that begins with an ASCII character. -/
def guess : List Nat → Encoding
  | [0, _] => utf16 true
  | [_, 0] => utf16 false
  | 0 :: b :: _ :: _ :: _ => if b = 0 then utf32 true else utf16 true
  | _ :: 0 :: c :: d :: _ => if c = 0 ∧ d = 0 then utf32 false else utf16 false
  | _ => utf8

/-- The characters of bytes; a byte order mark in front of UTF-8 is none of them. -/
def decode? : Encoding → List Nat → Option (List Char)
  | utf8, 0xef :: 0xbb :: 0xbf :: bytes => some (utf8Characters bytes)
  | utf8, bytes => some (utf8Characters bytes)
  | utf16 highFirst, bytes => (paired? 0x100 highFirst bytes).map ofUnits
  | utf32 highFirst, bytes => do
      let halves ← paired? 0x100 highFirst bytes
      let points ← paired? 0x10000 highFirst halves
      if points.all (· < 0x110000) then some (points.map codePoint) else none

end Encoding

end Phrasebook.Text
