import OwnedHandles.Text.Ascii

namespace OwnedHandles.Text.ShellWord

open Ascii

def isPrintable (b : UInt8) : Bool := space ≤ b && b < 0x7f

def isBare (b : UInt8) : Bool :=
  isLetter b || isDigit b
    || [percent, plus, 0x2c, minus, 0x2e, 0x2f, 0x40, closeBracket, 0x5f, openBrace,
      closeBrace].contains b

/-- A tilde and a number sign mean something at the start of a word only, a brace on its own. -/
def isBareWord : Bytes → Bool
  | [] => false
  | [b] => isBare b && b ≠ openBrace && b ≠ closeBrace
  | b :: rest =>
    isBare b && rest.all fun c => isBare c || c = hashSign || c = 0x7e

def isSoft (b : UInt8) : Bool :=
  isPrintable b && !([bang, doubleQuote, dollar, backslash, backquote].contains b)

def octalEscape (b : UInt8) : Bytes := [backslash, 48 + b / 64, 48 + b / 8 % 8, 48 + b % 8]

def escape (b : UInt8) : Bytes :=
  match ["a", "b", "t", "n", "v", "f", "r"][b.toNat - 7]? with
  | some letter => if 7 ≤ b then backslash :: Bytes.ofString letter else octalEscape b
  | none => octalEscape b

def inside (escaping : Bool) : Bytes → Bytes
  | [] => []
  | b :: rest =>
    if b = singleQuote then
      [singleQuote, backslash, singleQuote, singleQuote] ++ inside false rest
    else if isPrintable b then
      (if escaping then [singleQuote, singleQuote] else []) ++ b :: inside false rest
    else
      (if escaping then [] else [singleQuote, dollar, singleQuote]) ++ escape b
        ++ inside true rest

def write (bs : Bytes) : Bytes :=
  if isBareWord bs then bs
  else if bs.contains singleQuote && bs.all isSoft then doubleQuote :: bs ++ [doubleQuote]
  else singleQuote :: inside false bs ++ [singleQuote]

end OwnedHandles.Text.ShellWord
