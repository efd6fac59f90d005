import OwnedHandles.Kernel.Tools
import OwnedHandles.Shell.Startup

namespace OwnedHandles.Kernel

namespace Exec

def stringLimit : Nat := 131072

def totalLimit : Nat := 2097152

def pointerSize : Nat := ArgumentArray.pointerSize

def fits (arguments environment : List Bytes) : Bool :=
  let strings := arguments ++ environment
  let total := strings.foldl (fun n s => n + s.length + 1 + pointerSize) 0
  strings.all (fun s => s.length < stringLimit) && total ≤ totalLimit

def program (s : State) (pid : Pid) (path : Bytes) : Except Errno Content := do
  let n := s.inode (← Walk.find s pid true path)
  if n.content.kind ≠ .regular ∨ !n.mode.ownerExecute then throw .EACCES
  return n.content

def scriptMark : Bytes := [Ascii.hashSign, Ascii.bang]

def headerSize : Nat := 256

def isBlank (b : UInt8) : Bool := Ascii.isBlank b

def withoutBlanksBehind (bs : Bytes) : Bytes := (bs.reverse.dropWhile isBlank).reverse

/-- The first line of a script behind its mark, up to the end of the line or, where that is too
far away, of the header. A name that the header may have cut short does not count. -/
def scriptLine? (header : Bytes) : Option Bytes :=
  let front := header.takeWhile fun b => b ≠ Ascii.lineFeed && b ≠ 0
  if header[front.length]? = some Ascii.lineFeed then some front
  else if (header.dropWhile isBlank).any fun b => isBlank b || b = 0 then some header.dropLast
  else none

def interpreter? (data : Bytes) : Option (Bytes × Option Bytes) := do
  guard (scriptMark.isPrefixOf data)
  let header := data.take headerSize ++ List.replicate (headerSize - data.length) 0
  let line :=
    (withoutBlanksBehind (← scriptLine? (header.drop scriptMark.length))).dropWhile isBlank
  guard (!line.isEmpty)
  let name := line.takeWhile fun b => !isBlank b && b ≠ 0
  let rest := line.drop name.length
  let argument := (rest.dropWhile isBlank).takeWhile fun b => b ≠ 0
  return (name, if (rest.head?.map isBlank).getD false then some argument else none)

def resolve (s : State) (pid : Pid) :
    Nat → Bytes → List Bytes → List Bytes → Except Errno (Tool × List Bytes)
  | 0, _, _, _ => .error .ELOOP
  | depth + 1, path, arguments, environment => do
    let content ← program s pid path
    if !fits arguments environment then throw .E2BIG
    match content with
    | .tool t => return (t, arguments)
    | .regular data _ =>
      match interpreter? (data.extract 0 headerSize).data.toList with
      | some ([], _) => throw .EACCES
      | some (name, argument) =>
        resolve s pid depth name (name :: argument.toList ++ path :: arguments.tail) environment
      | none => throw .ENOEXEC
    | _ => throw .ENOEXEC

def scriptDepth : Nat := 6

def becomeFresh (s : State) (pid : Pid) (environment : List Bytes) : State :=
  let s := s.closeHandles pid fun h => h.2.closeOnExec
  s.modifyProcess pid fun p =>
    { p with environment, dispositions := p.dispositions.afterExec }

def tool (launch : Launcher) (arguments environment : List Bytes) (t : Tool) : Image Nat :=
  let self := Tools.text (arguments.head?.getD [])
  match t with
  | .cat => Tools.cat self arguments.tail
  | .echo => Tools.echo self arguments.tail
  | .env => Tools.env self launch arguments.tail environment
  | .failure => return 1
  | .printf => Tools.printf self arguments.tail
  | .shell => Shell.Startup.main launch arguments environment
  | .sleep => Tools.sleep self arguments.tail
  | .success => return 0

def launcher : Nat → Launcher
  | 0, _, _, _, _ => return .error .EAGAIN
  | depth + 1, pid, path, arguments, environment => do
    let s ← getThe State
    match resolve s pid scriptDepth path arguments environment with
    | .error e => return .error e
    | .ok (t, arguments) =>
      set (becomeFresh s pid environment)
      match ← ((tool (launcher depth) arguments environment t).run pid).run with
      | .ok status => return .ok (.exited status)
      | .error e => return .ok e

def depth : Nat := 64

def launch : Launcher := launcher depth

end Exec

namespace State

def become (s : State) (pid : Pid) (arguments environment : List Bytes) :
    Except Errno State :=
  let (r, s) := (Exec.launch pid (arguments.head?.getD []) arguments environment).run s
  match r with
  | .error e => .error e
  | .ok (.exited status) => .ok (s.finish pid (WaitStatus.exitWord status))
  | .ok .killed => .ok s
  | .ok .blocked => .ok (s.stall pid)

end State

end OwnedHandles.Kernel
