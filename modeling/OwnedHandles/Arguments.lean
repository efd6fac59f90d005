import OwnedHandles.Failure
import OwnedHandles.Limits
import OwnedHandles.Text.Decoding

namespace OwnedHandles

structure Block where
  request : Nat
  bytes : Nat
  deriving DecidableEq, Repr

/-- An allocator: which requests it grants, by their number, the sizes asked for so far, and the
blocks that it has not got back; both lists have the latest first. -/
structure Heap where
  grants : Nat → Bool := fun _ => true
  requests : List Nat := []
  live : List Block := []

abbrev Allocating := ExceptT Failure (StateM Heap)

namespace Heap

def request (bytes : Nat) : Allocating Block := do
  let h ← getThe Heap
  let block : Block := ⟨h.requests.length, bytes⟩
  if h.grants block.request then
    set { h with requests := bytes :: h.requests, live := block :: h.live }
    return block
  else
    set { h with requests := bytes :: h.requests }
    throw (.allocationFailed bytes)

/-- Asks for `bytes` bytes; asking for none is no request. -/
def reserve (bytes : Nat) : Allocating (Option Block) :=
  if bytes = 0 then return none else some <$> request bytes

def release (h : Heap) (blocks : List Block) : Heap :=
  { h with live := blocks.foldl List.erase h.live }

end Heap

def Allocating.releasing {α : Type} (blocks : List Block) (rest : Allocating α) : Allocating α :=
  tryCatch rest fun f => do
    modifyThe Heap fun h => h.release blocks
    throw f

structure Environment where
  entries : List (Bytes × Bytes) := []
  deriving DecidableEq, Repr

namespace Environment

def keyBefore : Bytes → Bytes → Bool
  | [], [] => false
  | [], _ :: _ => true
  | _ :: _, [] => false
  | a :: as, b :: bs => a < b || (a == b && keyBefore as bs)

def insertEntry (key value : Bytes) : List (Bytes × Bytes) → List (Bytes × Bytes)
  | [] => [(key, value)]
  | (k, v) :: rest =>
    if k = key then (key, value) :: rest
    else if keyBefore key k then (key, value) :: (k, v) :: rest
    else (k, v) :: insertEntry key value rest

def insert (e : Environment) (key value : Bytes) : Environment :=
  ⟨insertEntry key value e.entries⟩

def ofList (pairs : List (Bytes × Bytes)) : Environment :=
  pairs.foldl (fun e p => e.insert p.1 p.2) {}

end Environment

structure ArgumentArray where
  strings : List Bytes
  deriving DecidableEq, Repr

structure CString where
  block : Block
  bytes : Bytes
  nul_not_mem : 0 ∉ bytes
  deriving DecidableEq, Repr

namespace ArgumentArray

def stringHeader : Nat := 16

def pointerSize : Nat := 8

def equals : UInt8 := 0x3d

/-- An array in memory: its strings with the room for the list of them, if there are any, and the
pointers to them with their table. A pointer leads to the start of a block, or nowhere. -/
structure Stored where
  strings : List CString
  room : Option Block
  pointers : List (Option Block)
  table : Block
  deriving DecidableEq, Repr

namespace Stored

def length (a : Stored) : Nat := a.strings.length

def isEmpty (a : Stored) : Bool := a.strings.isEmpty

def blocks (a : Stored) : List Block :=
  a.table :: (a.strings.map CString.block).reverse ++ a.room.toList

def seen (a : Stored) : ArgumentArray := ⟨a.strings.map CString.bytes⟩

instance : Coe Stored ArgumentArray := ⟨seen⟩

end Stored

def marshalString (parts : List Bytes) : Allocating CString :=
  let bytes := parts.flatten
  if h : 0 ∈ bytes then throw (.invalidString (Text.decodeLossy bytes))
  else return { block := ← Heap.request (bytes.length + 1), bytes, nul_not_mem := h }

def marshalWord (word : Bytes) : Allocating CString := marshalString [word]

def marshalEntry (entry : Bytes × Bytes) : Allocating CString := do
  if entry.1 = [] ∨ equals ∈ entry.1 then throw (.invalidString (Text.decodeLossy entry.1))
  marshalString [entry.1, [equals], entry.2]

def marshalAll {α : Type} (marshal : α → Allocating CString) : List α → Allocating (List CString)
  | [] => return []
  | x :: xs => do
    let s ← marshal x
    return s :: (← (marshalAll marshal xs).releasing [s.block])

def terminate (room : Option Block) (strings : List CString) : Allocating Stored := do
  let table ← (Heap.request (pointerSize * (strings.length + 1))).releasing
    ((strings.map CString.block).reverse ++ room.toList)
  return { strings, room, pointers := strings.map (fun s => some s.block) ++ [none], table }

def build {α : Type} (marshal : α → Allocating CString) (xs : List α) : Allocating Stored := do
  let room ← Heap.reserve (stringHeader * xs.length)
  terminate room (← (marshalAll marshal xs).releasing room.toList)

def ofArguments (program : Bytes) (params : List Bytes) : Allocating Stored :=
  build marshalWord (program :: params)

def ofEnvironment (env : Environment) : Allocating Stored := build marshalEntry env.entries

end ArgumentArray

def commandLine (program : Bytes) (params : List Bytes) : Bytes :=
  params.foldl (fun line p => line ++ 0x20 :: p) program

end OwnedHandles
