import OwnedHandles.Errno
import OwnedHandles.Text.Ascii

namespace OwnedHandles.Kernel.Adjustment

def room : Nat := 12

def greatest : Nat := 1000

def isBlank (b : UInt8) : Bool := b = Ascii.space || (0x09 ≤ b && b ≤ 0x0d) || b = 0xa0

def trimmed (bs : Bytes) : Bytes :=
  (((bs.takeWhile (· ≠ 0)).dropWhile isBlank).reverse.dropWhile isBlank).reverse

def digit? (base : Nat) (b : UInt8) : Option Nat :=
  let value :=
    if Ascii.isDigit b then b.toNat - 48
    else if 0x41 ≤ b && b ≤ 0x46 then b.toNat - 55
    else if 0x61 ≤ b && b ≤ 0x66 then b.toNat - 87
    else base
  if value < base then some value else none

def inBase? (base : Nat) (bs : Bytes) : Option Nat :=
  if bs = [] then none
  else bs.foldl (fun n b => return base * (← n) + (← digit? base b)) (some 0)

def natural? : Bytes → Option Nat
  | Ascii.zero :: x :: d :: ds =>
    if (x = 0x58 || x = 0x78) && (digit? 16 d).isSome then inBase? 16 (d :: ds)
    else inBase? 8 (x :: d :: ds)
  | Ascii.zero :: ds => inBase? 8 (Ascii.zero :: ds)
  | ds => inBase? 10 ds

def integer? : Bytes → Option Int
  | Ascii.minus :: ds => (natural? ds).map fun n => -(n : Int)
  | Ascii.plus :: ds => (natural? ds).map Int.ofNat
  | ds => (natural? ds).map Int.ofNat

/-- The number that a text asks for. One below zero is for the privileged. -/
def ofText (bs : Bytes) : Except Errno Int :=
  match integer? (trimmed bs) with
  | none => .error .EINVAL
  | some n =>
    if n < -0x80000000 ∨ 0x7fffffff < n then .error .ERANGE
    else if greatest < n.natAbs then .error .EINVAL
    else if n < 0 then .error .EACCES
    else .ok n

def text (n : Int) : Bytes := Ascii.ofInt n ++ [Ascii.lineFeed]

example : (ofText (Bytes.ofString "000000001750")).toOption = some 1000 := by decide +kernel

end OwnedHandles.Kernel.Adjustment
