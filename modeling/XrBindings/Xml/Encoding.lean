/-!
# Encodings

A document is a sequence of bytes. How it begins shows whether its characters take one or two
bytes; what encoding it is then exactly, its declaration may say. A text that breaks the rules of
its encoding has no characters at all.
-/

namespace XrBindings.Xml

/-- How bytes stand for characters. -/
inductive Encoding where
  | utf8
  | utf16 (bigEndian : Bool)
  | latin1
  | ascii
  deriving DecidableEq, Repr

namespace Encoding

def isWide : Encoding → Bool
  | .utf16 _ => true
  | _ => false

/-- Each byte is the code point of a character. -/
def byteChars (bytes : List UInt8) : List Char := bytes.map fun b ↦ Char.ofNat b.toNat

/-- The units of two bytes; none if a byte is left over. -/
def units? (bigEndian : Bool) : List UInt8 → Option (List Nat)
  | [] => some []
  | [_] => none
  | a :: b :: rest =>
    (units? bigEndian rest).map
      ((if bigEndian then a.toNat * 256 + b.toNat else b.toNat * 256 + a.toNat) :: ·)

/-- The characters of units of two bytes. The halves of a surrogate pair come together. -/
def ofUnits? : List Nat → Option (List Char)
  | [] => some []
  | u :: rest =>
    if 0xD800 ≤ u && u < 0xDC00 then
      match rest with
      | v :: rest =>
        if 0xDC00 ≤ v && v < 0xE000 then
          (ofUnits? rest).map (Char.ofNat (0x10000 + (u - 0xD800) * 0x400 + (v - 0xDC00)) :: ·)
        else none
      | [] => none
    else if 0xDC00 ≤ u && u < 0xE000 then none
    else (ofUnits? rest).map (Char.ofNat u :: ·)

/-- The characters of a text. -/
def decode? (e : Encoding) (bytes : List UInt8) : Option (List Char) :=
  match e with
  | .utf8 => (String.fromUTF8? ⟨bytes.toArray⟩).map String.toList
  | .utf16 bigEndian => (units? bigEndian bytes).bind ofUnits?
  | .latin1 => some (byteChars bytes)
  | .ascii => if bytes.all (· < 128) then some (byteChars bytes) else none

/-- The encoding that the beginning of a text shows, and the text without its byte order mark. A
zero byte at the beginning is half of a wide character. -/
def detect (bytes : List UInt8) : Encoding × List UInt8 :=
  match bytes with
  | 0xFE :: 0xFF :: rest => (.utf16 true, rest)
  | 0xFF :: 0xFE :: rest => (.utf16 false, rest)
  | 0xEF :: 0xBB :: 0xBF :: rest => (.utf8, rest)
  | 0 :: _ :: _ => (.utf16 true, bytes)
  | _ :: 0 :: _ => (.utf16 false, bytes)
  | _ => (.utf8, bytes)

/-- What a declared encoding means for a text whose beginning shows another. -/
inductive Declared where
  | known (e : Encoding)
  /-- The declared encoding has characters of another width. -/
  | contradiction
  | unknown
  deriving DecidableEq, Repr

/-- The encoding of a declared name; letter case does not matter. -/
def declared (shown : Encoding) (name : String) : Declared :=
  let narrow (e : Encoding) : Declared := if shown.isWide then .contradiction else .known e
  let wide (e : Encoding) : Declared := if shown == e then .known e else .contradiction
  match String.ofList (name.toList.map Char.toLower) with
  | "utf-8" => narrow .utf8
  | "iso-8859-1" => narrow .latin1
  | "us-ascii" => narrow .ascii
  | "utf-16" => if shown.isWide then .known shown else .contradiction
  | "utf-16le" => wide (.utf16 false)
  | "utf-16be" => wide (.utf16 true)
  | _ => .unknown

end Encoding

end XrBindings.Xml
