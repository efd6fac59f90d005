import OwnedHandles.Text.Bytes

namespace OwnedHandles.Ascii

@[match_pattern] abbrev tab : UInt8 := 0x09

@[match_pattern] abbrev lineFeed : UInt8 := 0x0a

@[match_pattern] abbrev space : UInt8 := 0x20

@[match_pattern] abbrev bang : UInt8 := 0x21

@[match_pattern] abbrev doubleQuote : UInt8 := 0x22

@[match_pattern] abbrev hashSign : UInt8 := 0x23

@[match_pattern] abbrev dollar : UInt8 := 0x24

@[match_pattern] abbrev percent : UInt8 := 0x25

@[match_pattern] abbrev ampersand : UInt8 := 0x26

@[match_pattern] abbrev singleQuote : UInt8 := 0x27

@[match_pattern] abbrev openParen : UInt8 := 0x28

@[match_pattern] abbrev closeParen : UInt8 := 0x29

@[match_pattern] abbrev asterisk : UInt8 := 0x2a

@[match_pattern] abbrev plus : UInt8 := 0x2b

@[match_pattern] abbrev minus : UInt8 := 0x2d

@[match_pattern] abbrev zero : UInt8 := 0x30

@[match_pattern] abbrev colon : UInt8 := 0x3a

@[match_pattern] abbrev semicolon : UInt8 := 0x3b

@[match_pattern] abbrev less : UInt8 := 0x3c

@[match_pattern] abbrev equals : UInt8 := 0x3d

@[match_pattern] abbrev greater : UInt8 := 0x3e

@[match_pattern] abbrev question : UInt8 := 0x3f

@[match_pattern] abbrev openBracket : UInt8 := 0x5b

@[match_pattern] abbrev backslash : UInt8 := 0x5c

@[match_pattern] abbrev closeBracket : UInt8 := 0x5d

@[match_pattern] abbrev backquote : UInt8 := 0x60

@[match_pattern] abbrev openBrace : UInt8 := 0x7b

@[match_pattern] abbrev bar : UInt8 := 0x7c

@[match_pattern] abbrev closeBrace : UInt8 := 0x7d

def isDigit (b : UInt8) : Bool := 0x30 ≤ b && b ≤ 0x39

def isOctalDigit (b : UInt8) : Bool := 0x30 ≤ b && b ≤ 0x37

def isLetter (b : UInt8) : Bool := (0x41 ≤ b && b ≤ 0x5a) || (0x61 ≤ b && b ≤ 0x7a)

def startsName (b : UInt8) : Bool := isLetter b || b = 0x5f

def continuesName (b : UInt8) : Bool := startsName b || isDigit b

def isBlank (b : UInt8) : Bool := b = space || b = tab

def isName : Bytes → Bool
  | [] => false
  | b :: rest => startsName b && rest.all continuesName

def digitsToNat (ds : Bytes) : Nat := ds.foldl (fun n d => 10 * n + (d.toNat - 48)) 0

def nat? (ds : Bytes) : Option Nat :=
  if ds ≠ [] ∧ ds.all isDigit then some (digitsToNat ds) else none

def int? : Bytes → Option Int
  | minus :: ds => (nat? ds).map fun n => -(n : Int)
  | plus :: ds => (nat? ds).map Int.ofNat
  | ds => (nat? ds).map Int.ofNat

def ofNat (n : Nat) : Bytes := (Nat.toDigits 10 n).map fun c => UInt8.ofNat c.toNat

def ofInt (n : Int) : Bytes := if n < 0 then minus :: ofNat n.natAbs else ofNat n.natAbs

end OwnedHandles.Ascii
