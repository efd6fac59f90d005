import OwnedHandles.Session.Files

namespace OwnedHandles.Session.FifoStep

def find (name : HandleName) : Work FifoEntry := do
  match (← Work.session).fifos.lookup name with
  | some f => return f
  | none => Work.refuse ("no fifo " ++ name)

def keep (name : HandleName) (f : FifoEntry) : Work Unit :=
  Work.update fun s => { s with fifos := put name f s.fifos }

def connection (name : HandleName) : Work FifoConnection := return (← find name).connection

def dropOld (name : HandleName) : Work Bool := do
  match (← Work.session).fifos.lookup name with
  | some old =>
    Work.run old.connection.drop
    return true
  | none => return false

/-- Sends a message some times and then once more. A failure before the last time says how often
it went well. -/
def sendTimes (c : FifoConnection) (message : Bytes) : Nat → Nat → Work Unit
  | 0, _ => Work.perform (c.send message)
  | times + 1, sent => do
    match ← Work.run (c.send message).attempt with
    | .ok () => sendTimes c message times (sent + 1)
    | .error f => throw (.failureAfter f sent)

def run (name : HandleName) : FifoStep → Work Report
  | new path => do
    let _ ← dropOld name
    keep name { connection := { file := ⟨path⟩ } }
    return .nothing
  | drop => do
    let there ← dropOld name
    Work.update fun s => { s with fifos := without name s.fifos }
    return .truth there
  | make perm => do
    Work.perform ((← connection name).file.makeFifo perm)
    return .nothing
  | openFile direction block => do
    let c ← Work.perform ((← connection name).openFile direction block)
    keep name { connection := c, lastHandle := c.descriptor.bind Descriptor.fd }
    match c.descriptor with
    | some d => return DescriptorStep.opened d
    | none => return .nothing
  | close => do
    let f ← find name
    let (result, c) ← Work.run f.connection.close
    keep name { f with connection := c }
    Work.ofResult result
    return .nothing
  | send message times => do
    sendTimes (← connection name) message (times - 1) 0
    return .nothing
  | read => return .text (← Work.perform ((← connection name).read Work.rounds))
  | sendMessage message => do
    Work.perform ((← connection name).sendMessage message)
    return .nothing
  | readMessage => return .text (← Work.perform ((← connection name).readMessage Work.rounds))
  | closeBehind => do DescriptorStep.closeNumber (← find name).lastHandle
  | state => do
    let c ← connection name
    return .record [("file", .text c.file.name), ("blocking", .truth c.blocking)]

end OwnedHandles.Session.FifoStep
