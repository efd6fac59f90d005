import OwnedHandles.Kernel.Image
import OwnedHandles.Shell.Formatted
import OwnedHandles.Text.ShellWord

namespace OwnedHandles.Kernel.Tools

def text (bs : Bytes) : String := Text.decodeLossy bs

def shown (bs : Bytes) : String := text (Text.ShellWord.write bs)

def quoted (bs : Bytes) : String := "'" ++ text bs ++ "'"

def misuse (self complaint : String) : Image Nat := do
  Image.warn (self ++ ": " ++ complaint ++ "\nTry '" ++ self ++ " --help' for more information.")
  return 1

def write (data : Bytes) : Nat → Image (Option Errno)
  | 0 => return none
  | rounds + 1 => do
    if data = [] then return none
    match ← Image.sys fun pid => Sys.write pid 1 data with
    | .ok n => write (data.drop n) rounds
    | .error e => return some e

def output (self : String) (data : Bytes) (status : Nat) : Image Nat := do
  match ← write data data.length with
  | none => return status
  | some e =>
    Image.warn (self ++ ": write error: " ++ e.toolWording)
    return 1

structure EchoOptions where
  bare : Bool := false
  escapes : Bool := false

def echoOptions (o : EchoOptions) : Bytes → Option EchoOptions
  | [] => some o
  | b :: rest =>
    match Char.ofNat b.toNat with
    | 'n' => echoOptions { o with bare := true } rest
    | 'e' => echoOptions { o with escapes := true } rest
    | 'E' => echoOptions { o with escapes := false } rest
    | _ => none

def echoArguments (o : EchoOptions) : List Bytes → EchoOptions × List Bytes
  | [] => (o, [])
  | (Ascii.minus :: b :: bs) :: rest =>
    match echoOptions o (b :: bs) with
    | some o => echoArguments o rest
    | none => (o, (Ascii.minus :: b :: bs) :: rest)
  | rest => (o, rest)

def echo (self : String) (arguments : List Bytes) : Image Nat :=
  let (o, words) := echoArguments {} arguments
  let line := (words.intersperse [Ascii.space]).flatten
  let (line, stop) := if o.escapes then Shell.Formatted.resolve line else (line, false)
  output self (if o.bare || stop then line else line ++ [Ascii.lineFeed]) 0

def complaint : Shell.Formatted.Complaint → String
  | .notNumeric a => quoted a ++ ": expected a numeric value"
  | .incomplete a => quoted a ++ ": value not completely converted"
  | .outOfRange a => quoted a ++ ": " ++ Errno.ERANGE.toolWording

def operands (arguments : List Bytes) : List Bytes :=
  if arguments.head? = some (Bytes.ofString "--") then arguments.tail else arguments

def printf (self : String) (arguments : List Bytes) : Image Nat := do
  match operands arguments with
  | [] => misuse self "missing operand"
  | fmt :: rest =>
    let r := Shell.Formatted.format fmt rest
    for c in r.complaints do
      Image.warn (self ++ ": " ++ complaint c)
    let status ← output self r.output (if r.complaints.isEmpty then 0 else 1)
    match r.mistake with
    | none => return status
    | some .missingLetter =>
      Image.warn (self ++ ": %: invalid conversion specification")
      return 1
    | some (.unknown d) =>
      Image.warn (self ++ ": " ++ text d ++ ": invalid conversion specification")
      return 1

def copy (self name : String) (fd : Fd) : Nat → Image Nat
  | 0 => return 1
  | rounds + 1 => do
    match ← Image.sys fun pid => Sys.read pid fd Image.readChunk with
    | .error e =>
      Image.warn (self ++ ": " ++ name ++ ": " ++ e.toolWording)
      return 1
    | .ok [] => return 0
    | .ok chunk =>
      match ← output self chunk 0 with
      | 0 => copy self name fd rounds
      | status => Image.exit status

/-- Copying a file onto itself would never end. -/
def sameFile (fd : Fd) : Image Bool := do
  let s ← getThe State
  let pid ← read
  let file (fd : Fd) : Option OpenFile :=
    (s.handle? pid fd).map fun h => s.openFiles.getD h.openFile default
  match file fd, file 1 with
  | some a, some b =>
    match s.content a.inode with
    | .regular data _ => return a.inode = b.inode && a.offset < data.size
    | _ => return false
  | _, _ => return false

def catStream (self name : String) (fd : Fd) : Image Nat := do
  if ← sameFile fd then
    Image.warn (self ++ ": " ++ name ++ ": input file is output file")
    return 1
  copy self name fd Image.rounds

def catOne (self : String) (path : Bytes) : Image Nat := do
  if path = [Ascii.minus] then catStream self "-" 0
  else
    match ← Image.sys fun pid => Sys.openFile pid path 0#32 0#12 with
    | .error e =>
      Image.warn (self ++ ": " ++ shown path ++ ": " ++ e.toolWording)
      return 1
    | .ok fd =>
      let status ← catStream self (shown path) fd
      let _ ← Image.sys fun pid => Sys.close pid fd
      return status

def catAll (self : String) : List Bytes → Image Nat
  | [] => return 0
  | path :: rest => do
    let status ← catOne self path
    return max status (← catAll self rest)

def cat (self : String) (arguments : List Bytes) : Image Nat := do
  match ← Image.sys fun pid => Sys.handle pid 1 with
  | .error e =>
    Image.warn (self ++ ": standard output: " ++ e.toolWording)
    return 1
  | .ok _ =>
    let names := operands arguments
    let paths := if names.isEmpty then [[Ascii.minus]] else names
    let status ← catAll self paths
    if paths.contains [Ascii.minus] then
      if let .error e := ← Image.sys fun pid => Sys.close pid 0 then
        Image.warn (self ++ ": closing standard input: " ++ e.toolWording)
        return 1
    return status

def isDuration (bs : Bytes) : Bool :=
  let units := ["s", "m", "h", "d"].map Bytes.ofString
  let bare := match units.find? fun u => bs.drop (bs.length - 1) = u with
    | some _ => bs.dropLast
    | none => bs
  let digits := bare.filter fun b => b ≠ 0x2e
  digits ≠ [] && digits.all Ascii.isDigit && bare.length ≤ digits.length + 1

def strangeOption? (arguments : List Bytes) : Option UInt8 :=
  arguments.findSome? fun a => match a with
    | Ascii.minus :: b :: _ => some b
    | _ => none

def sleep (self : String) (arguments : List Bytes) : Image Nat := do
  if let some b := strangeOption? arguments then
    return ← misuse self ("invalid option -- " ++ quoted [b])
  match arguments with
  | [] => misuse self "missing operand"
  | as =>
    match as.find? fun a => !isDuration a && a ≠ Bytes.ofString "infinity" with
    | some a => misuse self ("invalid time interval " ++ quoted a)
    | none =>
      if as.contains (Bytes.ofString "infinity") then throw .blocked
      let pid ← read
      modifyThe State fun s => s.delaySleep pid
      return 0

def envSettings (environment : List Bytes) : List Bytes → List Bytes × List Bytes
  | [] => (environment, [])
  | a :: rest =>
    if a = Bytes.ofString "-i" ∨ a = Bytes.ofString "-" then envSettings [] rest
    else if a.contains Ascii.equals then
      let key := a.takeWhile fun b => b ≠ Ascii.equals
      let front := key ++ [Ascii.equals]
      let kept :=
        if environment.any front.isPrefixOf then
          environment.map fun e => if front.isPrefixOf e then a else e
        else environment ++ [a]
      envSettings kept rest
    else (environment, a :: rest)

def firstPlace (launch : Launcher) (arguments environment : List Bytes) :
    List Bytes → Image (Except Errno Nat)
  | [] => return .error .ENOENT
  | path :: rest => do
    let pid ← read
    let (r, s) := (launch pid path arguments environment).run (← getThe State)
    set s
    match r with
    | .ok (.exited status) => return .ok status
    | .ok e => throw e
    | .error .ENOENT => firstPlace launch arguments environment rest
    | .error e => return .error e

def env (self : String) (launch : Launcher) (arguments environment : List Bytes) : Image Nat := do
  match envSettings environment arguments with
  | (environment, []) =>
    output self (environment.flatMap fun e => e ++ [Ascii.lineFeed]) 0
  | (environment, name :: rest) =>
    let places := if name.contains Route.slash then [name]
      else ["/usr/bin/", "/bin/"].map fun d => Bytes.ofString d ++ name
    match ← firstPlace launch (name :: rest) environment places with
    | .ok status => return status
    | .error e =>
      Image.warn (self ++ ": " ++ quoted name ++ ": " ++ e.toolWording)
      return if e = .ENOENT then 127 else 126

end OwnedHandles.Kernel.Tools
