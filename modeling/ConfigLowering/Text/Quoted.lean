import ConfigLowering.Text.Printable

/-!
# Quoted listings

A text inside double quotes, with the quote, the backslash and whatever cannot
be seen on its own written as an escape, and lists of such texts.
-/

namespace ConfigLowering.Text

private def codePointEscape (character : Char) : List Char :=
  ['\\', 'u', '\x7b'] ++ Nat.toDigits 16 character.toNat ++ ['\x7d']

def quotedCharacter (character : Char) : List Char :=
  match character with
  | '\x00' => ['\\', '0']
  | '\t' => ['\\', 't']
  | '\r' => ['\\', 'r']
  | '\n' => ['\\', 'n']
  | '\\' => ['\\', '\\']
  | '"' => ['\\', '"']
  | _ =>
      if extendsGrapheme character || !isPrintable character then
        codePointEscape character
      else [character]

def quoted (text : String) : String :=
  String.ofList ('"' :: text.toList.flatMap quotedCharacter ++ ['"'])

def quotedList (texts : List String) : String :=
  "[" ++ ", ".intercalate (texts.map quoted) ++ "]"

end ConfigLowering.Text
