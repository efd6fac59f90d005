namespace OwnedHandles

abbrev Bytes := List UInt8

namespace Bytes

def ofString (s : String) : Bytes := s.toUTF8.data.toList

def hexDigit (n : UInt8) : Char :=
  if n < 10 then Char.ofNat (48 + n.toNat) else Char.ofNat (87 + n.toNat)

def toHex (bs : Bytes) : String :=
  String.ofList (bs.flatMap fun b => [hexDigit (b / 16), hexDigit (b % 16)])

def digit? (c : Char) : Option UInt8 :=
  if c.isDigit then some (UInt8.ofNat (c.toNat - 48))
  else if 'a' ≤ c ∧ c ≤ 'f' then some (UInt8.ofNat (c.toNat - 87))
  else if 'A' ≤ c ∧ c ≤ 'F' then some (UInt8.ofNat (c.toNat - 55))
  else none

def ofHexDigits : List Char → Option Bytes
  | [] => some []
  | h :: l :: rest => do
    let high ← digit? h
    let low ← digit? l
    return (16 * high + low) :: (← ofHexDigits rest)
  | [_] => none

def ofHex (s : String) : Option Bytes := ofHexDigits s.toList

def times (bs : Bytes) (n : Nat) : Bytes := (List.replicate n bs).flatten

end Bytes

end OwnedHandles
