/-! # Reading UTF-8

Bytes are read as characters from left to right. Where they are not well formed, the longest prefix
of a character that stands there is one faulty chunk; if there is none, one byte is.
-/

namespace PathGlob.Text.Utf8

def isContinuation (byte : UInt8) : Bool :=
  0x80 ≤ byte && byte ≤ 0xbf

/-- The second bytes that may follow the first byte of a character of three or four bytes. They rule
out characters that are too small for their length, surrogates, and code points above U+10FFFF. -/
def isSecond (first byte : UInt8) : Bool :=
  let low : UInt8 := if first = 0xe0 then 0xa0 else if first = 0xf0 then 0x90 else 0x80
  let high : UInt8 := if first = 0xed then 0x9f else if first = 0xf4 then 0x8f else 0xbf
  low ≤ byte && byte ≤ high

/-- The payload of the bytes of a character after the first one, put behind the payload of that. -/
def assemble (first : Nat) (others : List UInt8) : Char :=
  Char.ofNat (others.foldl (fun code byte => code * 64 + byte.toNat % 64) first)

/-- The characters and faulty chunks of some bytes, a faulty chunk as `none`. -/
def chunks : List UInt8 → List (Option Char)
  | [] => []
  | a :: rest =>
    if a < 0x80 then some (Char.ofNat a.toNat) :: chunks rest
    else if 0xc2 ≤ a ∧ a ≤ 0xdf then
      match rest with
      | b :: after =>
        if isContinuation b then some (assemble (a.toNat % 32) [b]) :: chunks after
        else none :: chunks (b :: after)
      | [] => [none]
    else if 0xe0 ≤ a ∧ a ≤ 0xef then
      match rest with
      | b :: c :: after =>
        if isSecond a b then
          if isContinuation c then some (assemble (a.toNat % 16) [b, c]) :: chunks after
          else none :: chunks (c :: after)
        else none :: chunks (b :: c :: after)
      | [b] => if isSecond a b then [none] else none :: chunks [b]
      | [] => [none]
    else if 0xf0 ≤ a ∧ a ≤ 0xf4 then
      match rest with
      | b :: c :: d :: after =>
        if isSecond a b then
          if isContinuation c then
            if isContinuation d then some (assemble (a.toNat % 8) [b, c, d]) :: chunks after
            else none :: chunks (d :: after)
          else none :: chunks (c :: d :: after)
        else none :: chunks (b :: c :: d :: after)
      | [b, c] =>
        if isSecond a b then
          if isContinuation c then [none] else none :: chunks [c]
        else none :: chunks [b, c]
      | [b] => if isSecond a b then [none] else none :: chunks [b]
      | [] => [none]
    else none :: chunks rest

def decode? (bytes : List UInt8) : Option (List Char) :=
  (chunks bytes).mapM id

/-- The text of some bytes, with the replacement character for every faulty chunk. -/
def decodeLossy (bytes : List UInt8) : List Char :=
  (chunks bytes).map (·.getD '\ufffd')

end PathGlob.Text.Utf8
