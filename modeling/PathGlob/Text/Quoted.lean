import PathGlob.Text.GraphemeExtend
import PathGlob.Text.Unprintable

/-! # Quoted text

Text in double quotes for messages. Quotes, backslashes and the common controls are written after a
backslash; a character that cannot be seen, or not on its own, is written by its code point in
lower-case hexadecimal digits, as in `\u{301}`.
-/

namespace PathGlob.Text

/-- A character as it stands in quoted text. -/
def quotedChar (c : Char) : List Char :=
  match c with
  | '\x00' => ['\\', '0']
  | '\t' => ['\\', 't']
  | '\r' => ['\\', 'r']
  | '\n' => ['\\', 'n']
  | '"' => ['\\', '"']
  | '\\' => ['\\', '\\']
  | c =>
    if extendsGrapheme c || isUnprintable c then
      '\\' :: 'u' :: '{' :: (Nat.toDigits 16 c.toNat ++ ['}'])
    else [c]

def quoted (text : String) : String :=
  String.ofList ('"' :: (text.toList.flatMap quotedChar ++ ['"']))

end PathGlob.Text
