import OwnedHandles.Text.Bytes

namespace OwnedHandles.Kernel

/-- The bytes of a slot that are still to be read, behind `taken` bytes that have been. -/
structure PipeSlot where
  taken : Nat := 0
  data : Bytes
  deriving DecidableEq, Repr

structure PipeBuffer where
  slots : List PipeSlot := []
  deriving DecidableEq, Repr, Inhabited

namespace PipeBuffer

def slotSize : Nat := 4096

def slotLimit : Nat := 16

def isEmpty (b : PipeBuffer) : Bool := b.slots.isEmpty

def takeFrom : Nat → List PipeSlot → Bytes × List PipeSlot
  | _, [] => ([], [])
  | count, s :: rest =>
    if count = 0 then ([], s :: rest)
    else if s.data.length ≤ count then
      let (more, left) := takeFrom (count - s.data.length) rest
      (s.data ++ more, left)
    else (s.data.take count, ⟨s.taken + count, s.data.drop count⟩ :: rest)

def take (b : PipeBuffer) (count : Nat) : Bytes × PipeBuffer :=
  let (data, left) := takeFrom count b.slots
  (data, ⟨left⟩)

/-- Joins the part of a write that fills no page to the last slot, if it fits there. -/
def joinLast (b : PipeBuffer) (data : Bytes) : PipeBuffer × Bytes :=
  let part := data.length % slotSize
  match b.slots.getLast? with
  | none => (b, data)
  | some last =>
    if part = 0 ∨ slotSize < last.taken + last.data.length + part then (b, data)
    else
      (⟨b.slots.dropLast ++ [{ last with data := last.data ++ data.take part }]⟩, data.drop part)

def fill : Nat → PipeBuffer → Bytes → PipeBuffer × Bytes
  | 0, b, data => (b, data)
  | room + 1, b, data =>
    if data = [] then (b, data)
    else fill room ⟨b.slots ++ [⟨0, data.take slotSize⟩]⟩ (data.drop slotSize)

def put (b : PipeBuffer) (data : Bytes) : PipeBuffer × Bytes :=
  let (b, data) := b.joinLast data
  fill (slotLimit - b.slots.length) b data

end PipeBuffer

end OwnedHandles.Kernel
