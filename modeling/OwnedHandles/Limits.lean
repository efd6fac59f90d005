namespace OwnedHandles.Limits

def readChunk : Nat := 4096

def execFailureStatus : Nat := 1

def shell : String := "/bin/sh"

def shellCommandParameter : String := "-c"

def sysexitsFirst : Int32 := 64

def sysexitsLast : Int32 := 78

def testExitFirst : Int32 := 182

def testExitLast : Int32 := 186

def fifoMessage : Nat := 512

def fifoPollMilliseconds : Nat := 100

def pageSize : Nat := 4096

end OwnedHandles.Limits
