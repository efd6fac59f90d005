import OwnedHandles.Text.Bytes

namespace OwnedHandles.Text

/-- The range in which the second byte of a longer character must lie, by its first byte. -/
def secondRange (b : UInt8) : Option (UInt8 × UInt8) :=
  if 0xC2 ≤ b ∧ b ≤ 0xDF then some (0x80, 0xBF)
  else if b = 0xE0 then some (0xA0, 0xBF)
  else if b = 0xED then some (0x80, 0x9F)
  else if 0xE1 ≤ b ∧ b ≤ 0xEF then some (0x80, 0xBF)
  else if b = 0xF0 then some (0x90, 0xBF)
  else if 0xF1 ≤ b ∧ b ≤ 0xF3 then some (0x80, 0xBF)
  else if b = 0xF4 then some (0x80, 0x8F)
  else none

def following (b : UInt8) : Nat :=
  if b < 0xE0 then 1 else if b < 0xF0 then 2 else 3

def leading (b : UInt8) : Nat :=
  if b < 0xE0 then b.toNat % 32 else if b < 0xF0 then b.toNat % 16 else b.toNat % 8

/-- Reads `need` continuation bytes onto `value`; the count is of the bytes that were taken. -/
def continuation : Nat → Nat → Nat → Bytes → Option Nat × Nat
  | 0, value, taken, _ => (some value, taken)
  | need + 1, value, taken, b :: rest =>
    if 0x80 ≤ b ∧ b ≤ 0xBF then continuation need (64 * value + b.toNat % 64) (taken + 1) rest
    else (none, taken)
  | _ + 1, _, taken, [] => (none, taken)

def scalar (b : UInt8) (rest : Bytes) : Option Char × Nat :=
  if b < 0x80 then (some (Char.ofNat b.toNat), 0)
  else match secondRange b, rest with
    | some (low, high), c :: more =>
      if low ≤ c ∧ c ≤ high then
        let (value, taken) :=
          continuation (following b - 1) (64 * leading b + c.toNat % 64) 1 more
        (value.map Char.ofNat, taken)
      else (none, 0)
    | _, _ => (none, 0)

/-- Characters in reverse order, `none` for each ill-formed sequence. -/
def scalars (acc : List (Option Char)) : Bytes → List (Option Char)
  | [] => acc
  | b :: rest =>
    let (c, taken) := scalar b rest
    scalars (c :: acc) (rest.drop taken)
  termination_by bs => bs.length
  decreasing_by simp only [List.length_drop, List.length_cons]; omega

def replacement : Char := Char.ofNat 0xFFFD

def decodeLossy (bs : Bytes) : String :=
  String.ofList ((scalars [] bs).reverse.map fun c => c.getD replacement)

def decode? (bs : Bytes) : Option String :=
  let cs := (scalars [] bs).reverse
  if cs.all Option.isSome then some (String.ofList (cs.map fun c => c.getD replacement)) else none

end OwnedHandles.Text
