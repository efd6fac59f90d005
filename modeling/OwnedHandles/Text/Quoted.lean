import OwnedHandles.Text.Ranges

namespace OwnedHandles.Text

def isPrintable (c : Char) : Bool := !inRanges unprintable c.toNat

def extendsGrapheme (c : Char) : Bool := inRanges graphemeExtending c.toNat

def lowerHexDigits (n : Nat) : List Char :=
  Nat.toDigits 16 n

def codePointEscape (c : Char) : List Char :=
  ['\\', 'u', '\x7b'] ++ lowerHexDigits c.toNat ++ ['\x7d']

def quoteChar (c : Char) : List Char :=
  if c = '\x00' then ['\\', '0']
  else if c = '\t' then ['\\', 't']
  else if c = '\r' then ['\\', 'r']
  else if c = '\n' then ['\\', 'n']
  else if c = '\\' ∨ c = '"' then ['\\', c]
  else if extendsGrapheme c ∨ !isPrintable c then codePointEscape c
  else [c]

def quote (s : String) : String :=
  String.ofList ('"' :: s.toList.flatMap quoteChar ++ ['"'])

end OwnedHandles.Text
