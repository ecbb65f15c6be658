/-!
The kinds of failure that an operating system reports for reading, writing or connecting.
-/

namespace ModbusMaster

inductive IoError where
  | addrInUse | addrNotAvailable | alreadyExists | argumentListTooLong | brokenPipe
  | connectionAborted | connectionRefused | connectionReset | crossesDevices | deadlock
  | directoryNotEmpty | executableFileBusy | fileTooLarge | filesystemLoop | hostUnreachable
  | inProgress | interrupted | invalidData | invalidFilename | invalidInput | isADirectory
  | networkDown | networkUnreachable | notADirectory | notConnected | notFound | notSeekable
  | other | outOfMemory | permissionDenied | quotaExceeded | readOnlyFilesystem | resourceBusy
  | staleNetworkFileHandle | storageFull | timedOut | tooManyLinks | unexpectedEof
  | unsupported | wouldBlock | writeZero
  deriving DecidableEq

namespace IoError

/-- Each kind with its name and its description. -/
def table : List (IoError × String × String) :=
  [(addrInUse, "AddrInUse", "address in use"),
   (addrNotAvailable, "AddrNotAvailable", "address not available"),
   (alreadyExists, "AlreadyExists", "entity already exists"),
   (argumentListTooLong, "ArgumentListTooLong", "argument list too long"),
   (brokenPipe, "BrokenPipe", "broken pipe"),
   (connectionAborted, "ConnectionAborted", "connection aborted"),
   (connectionRefused, "ConnectionRefused", "connection refused"),
   (connectionReset, "ConnectionReset", "connection reset"),
   (crossesDevices, "CrossesDevices", "cross-device link or rename"),
   (deadlock, "Deadlock", "deadlock"),
   (directoryNotEmpty, "DirectoryNotEmpty", "directory not empty"),
   (executableFileBusy, "ExecutableFileBusy", "executable file busy"),
   (fileTooLarge, "FileTooLarge", "file too large"),
   (filesystemLoop, "FilesystemLoop", "filesystem loop or indirection limit (e.g. symlink loop)"),
   (hostUnreachable, "HostUnreachable", "host unreachable"),
   (inProgress, "InProgress", "in progress"),
   (interrupted, "Interrupted", "operation interrupted"),
   (invalidData, "InvalidData", "invalid data"),
   (invalidFilename, "InvalidFilename", "invalid filename"),
   (invalidInput, "InvalidInput", "invalid input parameter"),
   (isADirectory, "IsADirectory", "is a directory"),
   (networkDown, "NetworkDown", "network down"),
   (networkUnreachable, "NetworkUnreachable", "network unreachable"),
   (notADirectory, "NotADirectory", "not a directory"),
   (notConnected, "NotConnected", "not connected"),
   (notFound, "NotFound", "entity not found"),
   (notSeekable, "NotSeekable", "seek on unseekable file"),
   (other, "Other", "other error"),
   (outOfMemory, "OutOfMemory", "out of memory"),
   (permissionDenied, "PermissionDenied", "permission denied"),
   (quotaExceeded, "QuotaExceeded", "quota exceeded"),
   (readOnlyFilesystem, "ReadOnlyFilesystem", "read-only filesystem or storage medium"),
   (resourceBusy, "ResourceBusy", "resource busy"),
   (staleNetworkFileHandle, "StaleNetworkFileHandle", "stale network file handle"),
   (storageFull, "StorageFull", "no storage space"),
   (timedOut, "TimedOut", "timed out"),
   (tooManyLinks, "TooManyLinks", "too many links"),
   (unexpectedEof, "UnexpectedEof", "unexpected end of file"),
   (unsupported, "Unsupported", "unsupported"),
   (wouldBlock, "WouldBlock", "operation would block"),
   (writeZero, "WriteZero", "write zero")]

/-- The kind with the given name. -/
def ofName? (name : String) : Option IoError :=
  (table.find? fun row => row.2.1 == name).map (·.1)

def name (kind : IoError) : String :=
  ((table.find? fun row => row.1 == kind).map (·.2.1)).getD ""

def message (kind : IoError) : String :=
  ((table.find? fun row => row.1 == kind).map (·.2.2)).getD ""

end IoError

end ModbusMaster
