import OwnedHandles.Shell.Frame

namespace OwnedHandles.Shell.Condition

open Kernel

abbrev Reader := StateT (List Bytes) (Except String)

def unaryOperators : List String :=
  ["-n", "-z", "-e", "-f", "-d", "-r", "-w", "-x", "-s", "-L", "-h", "-p", "-c", "-b", "-S", "-t"]

def binaryOperators : List String :=
  ["=", "!=", "<", ">", "-eq", "-ne", "-lt", "-le", "-gt", "-ge", "-ef"]

def integer (bs : Bytes) : Except String Int :=
  let blank (b : UInt8) : Bool := Ascii.isBlank b || b = Ascii.lineFeed
  match Ascii.int? (((bs.dropWhile blank).reverse.dropWhile blank).reverse) with
  | some n => .ok n
  | none => .error ("Illegal number: " ++ Text.decodeLossy bs)

def same (s : State) (pid : Pid) (a b : Bytes) : Bool :=
  match Walk.find s pid true a, Walk.find s pid true b with
  | .ok i, .ok j => i = j
  | _, _ => false

def binary (s : State) (pid : Pid) (op : String) (a b : Bytes) : Except String Bool := do
  match op with
  | "-ef" => return same s pid a b
  | "=" => return a = b
  | "!=" => return a ≠ b
  | "<" => return Environment.keyBefore a b
  | ">" => return Environment.keyBefore b a
  | _ =>
    let m ← integer a
    let n ← integer b
    match op with
    | "-eq" => return m = n
    | "-ne" => return m ≠ n
    | "-lt" => return m < n
    | "-le" => return m ≤ n
    | "-gt" => return m > n
    | _ => return m ≥ n

def sizeOf (c : Content) : Nat :=
  match c with
  | .regular data _ => data.size
  | .directory .. | .tool _ => 1
  | _ => 0

def file (s : State) (pid : Pid) (op : String) (path : Bytes) : Bool :=
  match Walk.find s pid (op != "-L" && op != "-h") path with
  | .error _ => false
  | .ok i =>
    let n := s.inode i
    match op with
    | "-f" => n.content.kind = .regular
    | "-d" => n.content.kind = .directory
    | "-r" => n.mode.ownerRead
    | "-w" => n.mode.ownerWrite
    | "-x" => n.mode.ownerExecute
    | "-s" => 0 < sizeOf n.content
    | "-L" | "-h" => n.content.kind = .symlink
    | "-p" => n.content.kind = .fifo
    | "-c" => n.content.kind = .device
    | "-b" | "-S" => false
    | _ => true

/-- No handle here is a terminal. -/
def unary (s : State) (pid : Pid) (op : String) (a : Bytes) : Bool :=
  match op with
  | "-n" => a ≠ []
  | "-z" => a = []
  | "-t" => false
  | _ => file s pid op a

def operator? (known : List String) (a : Bytes) : Option String :=
  known.find? fun op => Bytes.ofString op = a

def isText (t : String) (a : Bytes) : Bool := a = Bytes.ofString t

def primary (s : State) (pid : Pid) (whole : Reader Bool) : Nat → Reader Bool
  | 0 => throw "argument expected"
  | fuel + 1 => do
    match ← get with
    | [] => return false
    | a :: op :: b :: rest =>
      match operator? binaryOperators op with
      | some op =>
        set rest
        binary s pid op a b
      | none => special a (op :: b :: rest) fuel
    | [a, op] =>
      match operator? unaryOperators a, operator? binaryOperators op with
      | none, some op => throw (op ++ ": argument expected")
      | _, _ => special a [op] fuel
    | a :: rest => special a rest fuel
where
  special (a : Bytes) (rest : List Bytes) (fuel : Nat) : Reader Bool := do
    match rest, operator? unaryOperators a with
    | b :: rest, some op =>
      set rest
      return unary s pid op b
    | _ :: _, none =>
      if isText "!" a then
        set rest
        return !(← primary s pid whole fuel)
      if isText "(" a then
        set rest
        let r ← whole
        match ← get with
        | c :: rest =>
          if isText ")" c then
            set rest
            return r
          else throw "closing paren expected"
        | [] => throw "closing paren expected"
      set rest
      return a ≠ []
    | [], _ =>
      set ([] : List Bytes)
      return a ≠ []

def chain (sign : String) (join : Bool → Bool → Bool) (operand : Reader Bool) :
    Nat → Reader Bool
  | 0 => throw "argument expected"
  | rounds + 1 => do
    let left ← operand
    match ← get with
    | op :: rest =>
      if isText sign op then
        set rest
        return join left (← chain sign join operand rounds)
      else return left
    | [] => return left

/-- Conditions that are nested less than `depth` deep; `-a` binds more tightly than `-o`. -/
def whole (s : State) (pid : Pid) (rounds : Nat) : Nat → Reader Bool
  | 0 => throw "argument expected"
  | depth + 1 =>
    let operand := primary s pid (whole s pid rounds depth) rounds
    chain "-o" or (chain "-a" and operand rounds) rounds

def holds (s : State) (pid : Pid) (arguments : List Bytes) : Except String Bool :=
  match arguments with
  | [] => .ok false
  | as => do
    let size := as.length + 1
    let (r, rest) ← (whole s pid size size).run as
    match rest with
    | [] => return r
    | _ =>
      let last := (as.take (as.length - rest.length)).getLast?.getD []
      throw (Text.decodeLossy last ++ ": unexpected operator")

end OwnedHandles.Shell.Condition
