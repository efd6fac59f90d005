import OwnedHandles.Text.Decoding

namespace OwnedHandles

structure Route where
  absolute : Bool
  dotted : Bool
  steps : List Bytes
  deriving DecidableEq, Repr

namespace Route

def slash : UInt8 := 0x2f

def dot : Bytes := [0x2e]

def dotdot : Bytes := [0x2e, 0x2e]

def splitFrom (part : Bytes) : Bytes → List Bytes
  | [] => [part.reverse]
  | b :: rest => if b = slash then part.reverse :: splitFrom [] rest else splitFrom (b :: part) rest

def split (path : Bytes) : List Bytes := splitFrom [] path

/-- Empty parts and dots are no steps, except for a dot that starts a relative path. -/
def ofPath (path : Bytes) : Route :=
  let parts := split path
  let absolute := path.head? = some slash
  { absolute
    dotted := !absolute && parts.head? = some dot
    steps := parts.filter fun p => p ≠ [] ∧ p ≠ dot }

end Route

structure File where
  path : Bytes
  deriving DecidableEq, Repr

namespace File

def name (f : File) : String := Text.decodeLossy f.path

def route (f : File) : Route := Route.ofPath f.path

def same (f g : File) : Bool := f.route = g.route

@[simp] theorem same_iff {f g : File} : f.same g = true ↔ f.route = g.route := by simp [same]

def distinct (fs : List File) : List File :=
  (fs.foldl (fun (seen : List File) f => if seen.any f.same then seen else f :: seen) []).reverse

end File

end OwnedHandles
