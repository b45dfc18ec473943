import FaultDrill.Rank
import FaultDrill.Signal
import FaultDrill.Text.Inspect
set_option autoImplicit false

namespace FaultDrill
open Text

inductive FaultKind where
  | notFound | permissionDenied | connectionRefused | connectionReset | hostUnreachable
  | networkUnreachable | connectionAborted | notConnected | addrInUse | addrNotAvailable
  | networkDown | brokenPipe | alreadyExists | wouldBlock | notADirectory | isADirectory
  | directoryNotEmpty | readOnlyFilesystem | filesystemLoop | staleNetworkFileHandle
  | invalidInput | invalidData | timedOut | writeZero | storageFull | notSeekable | quotaExceeded
  | fileTooLarge | resourceBusy | executableFileBusy | deadlock | crossesDevices | tooManyLinks
  | invalidFilename | argumentListTooLong | interrupted | unsupported | unexpectedEof
  | outOfMemory | inProgress | other | uncategorized
  deriving DecidableEq, Inhabited

namespace FaultKind

def all : List FaultKind :=
  [notFound, permissionDenied, connectionRefused, connectionReset, hostUnreachable,
   networkUnreachable, connectionAborted, notConnected, addrInUse, addrNotAvailable, networkDown,
   brokenPipe, alreadyExists, wouldBlock, notADirectory, isADirectory, directoryNotEmpty,
   readOnlyFilesystem, filesystemLoop, staleNetworkFileHandle, invalidInput, invalidData,
   timedOut, writeZero, storageFull, notSeekable, quotaExceeded, fileTooLarge, resourceBusy,
   executableFileBusy, deadlock, crossesDevices, tooManyLinks, invalidFilename,
   argumentListTooLong, interrupted, unsupported, unexpectedEof, outOfMemory, inProgress, other,
   uncategorized]

def name : FaultKind → String
  | notFound => "NotFound"
  | permissionDenied => "PermissionDenied"
  | connectionRefused => "ConnectionRefused"
  | connectionReset => "ConnectionReset"
  | hostUnreachable => "HostUnreachable"
  | networkUnreachable => "NetworkUnreachable"
  | connectionAborted => "ConnectionAborted"
  | notConnected => "NotConnected"
  | addrInUse => "AddrInUse"
  | addrNotAvailable => "AddrNotAvailable"
  | networkDown => "NetworkDown"
  | brokenPipe => "BrokenPipe"
  | alreadyExists => "AlreadyExists"
  | wouldBlock => "WouldBlock"
  | notADirectory => "NotADirectory"
  | isADirectory => "IsADirectory"
  | directoryNotEmpty => "DirectoryNotEmpty"
  | readOnlyFilesystem => "ReadOnlyFilesystem"
  | filesystemLoop => "FilesystemLoop"
  | staleNetworkFileHandle => "StaleNetworkFileHandle"
  | invalidInput => "InvalidInput"
  | invalidData => "InvalidData"
  | timedOut => "TimedOut"
  | writeZero => "WriteZero"
  | storageFull => "StorageFull"
  | notSeekable => "NotSeekable"
  | quotaExceeded => "QuotaExceeded"
  | fileTooLarge => "FileTooLarge"
  | resourceBusy => "ResourceBusy"
  | executableFileBusy => "ExecutableFileBusy"
  | deadlock => "Deadlock"
  | crossesDevices => "CrossesDevices"
  | tooManyLinks => "TooManyLinks"
  | invalidFilename => "InvalidFilename"
  | argumentListTooLong => "ArgumentListTooLong"
  | interrupted => "Interrupted"
  | unsupported => "Unsupported"
  | unexpectedEof => "UnexpectedEof"
  | outOfMemory => "OutOfMemory"
  | inProgress => "InProgress"
  | other => "Other"
  | uncategorized => "Uncategorized"

def message : FaultKind → String
  | notFound => "entity not found"
  | permissionDenied => "permission denied"
  | connectionRefused => "connection refused"
  | connectionReset => "connection reset"
  | hostUnreachable => "host unreachable"
  | networkUnreachable => "network unreachable"
  | connectionAborted => "connection aborted"
  | notConnected => "not connected"
  | addrInUse => "address in use"
  | addrNotAvailable => "address not available"
  | networkDown => "network down"
  | brokenPipe => "broken pipe"
  | alreadyExists => "entity already exists"
  | wouldBlock => "operation would block"
  | notADirectory => "not a directory"
  | isADirectory => "is a directory"
  | directoryNotEmpty => "directory not empty"
  | readOnlyFilesystem => "read-only filesystem or storage medium"
  | filesystemLoop => "filesystem loop or indirection limit (e.g. symlink loop)"
  | staleNetworkFileHandle => "stale network file handle"
  | invalidInput => "invalid input parameter"
  | invalidData => "invalid data"
  | timedOut => "timed out"
  | writeZero => "write zero"
  | storageFull => "no storage space"
  | notSeekable => "seek on unseekable file"
  | quotaExceeded => "quota exceeded"
  | fileTooLarge => "file too large"
  | resourceBusy => "resource busy"
  | executableFileBusy => "executable file busy"
  | deadlock => "deadlock"
  | crossesDevices => "cross-device link or rename"
  | tooManyLinks => "too many links"
  | invalidFilename => "invalid filename"
  | argumentListTooLong => "argument list too long"
  | interrupted => "operation interrupted"
  | unsupported => "unsupported"
  | unexpectedEof => "unexpected end of file"
  | outOfMemory => "out of memory"
  | inProgress => "in progress"
  | other => "other error"
  | uncategorized => "uncategorized error"

def ofName? (text : String) : Option FaultKind := all.find? fun kind => kind.name == text

/-- The failures that mean the other side of a connection no longer exists. -/
def isDisconnect : FaultKind → Bool
  | unexpectedEof | connectionReset | connectionAborted | brokenPipe => true
  | _ => false

end FaultKind

inductive Refusal where
  | noSuchFile
  | notPermitted
  | noSuchDevice
  | notADirectory
  | invalidArgument
  | nameTooLong
  | addressUnavailable
  | networkUnreachable
  | connectionRefused
  deriving DecidableEq

namespace Refusal

def code : Refusal → Nat
  | noSuchFile => 2
  | notPermitted => 13
  | noSuchDevice => 19
  | notADirectory => 20
  | invalidArgument => 22
  | nameTooLong => 36
  | addressUnavailable => 99
  | networkUnreachable => 101
  | connectionRefused => 111

def kind : Refusal → FaultKind
  | noSuchFile => .notFound
  | notPermitted => .permissionDenied
  | noSuchDevice => .uncategorized
  | notADirectory => .notADirectory
  | invalidArgument => .invalidInput
  | nameTooLong => .invalidFilename
  | addressUnavailable => .addrNotAvailable
  | networkUnreachable => .networkUnreachable
  | connectionRefused => .connectionRefused

def reason : Refusal → String
  | noSuchFile => "No such file or directory"
  | notPermitted => "Permission denied"
  | noSuchDevice => "No such device"
  | notADirectory => "Not a directory"
  | invalidArgument => "Invalid argument"
  | nameTooLong => "File name too long"
  | addressUnavailable => "Cannot assign requested address"
  | networkUnreachable => "Network is unreachable"
  | connectionRefused => "Connection refused"

def message (refusal : Refusal) : String := s!"{refusal.reason} (os error {refusal.code})"

def inspect (refusal : Refusal) : String :=
  inspectRecord "Os" [("code", toString refusal.code), ("kind", refusal.kind.name),
    ("message", quoted refusal.reason)]

end Refusal

/-- A failure of input or output: of a kind only, or as the operating system words it. -/
inductive TransferFault where
  | ofKind (kind : FaultKind)
  | system (refusal : Refusal)
  deriving DecidableEq

namespace TransferFault

def message : TransferFault → String
  | ofKind kind => kind.message
  | system refusal => refusal.message

def inspect : TransferFault → String
  | ofKind kind => inspectTuple "Kind" kind.name
  | system refusal => refusal.inspect

end TransferFault

inductive ComponentError where
  | serialization (reason : String)
  | deserialization (reason : String)
  | invalidSetting (field value : String)
  | protocol (reason : String)
  | transfer (fault : TransferFault)
  deriving DecidableEq

namespace ComponentError

def message : ComponentError → String
  | serialization reason => s!"Serialization failed: {reason}"
  | deserialization reason => s!"Deserialization failed: {reason}"
  | invalidSetting field value => s!"Invalid configuration: {field} = {value}"
  | protocol reason => s!"Message protocol error: {reason}"
  | transfer fault => s!"I/O error: {fault.message}"

def inspect : ComponentError → String
  | serialization reason => inspectRecord "SerializationError" [("message", quoted reason)]
  | deserialization reason => inspectRecord "DeserializationError" [("message", quoted reason)]
  | invalidSetting field value =>
    inspectRecord "InvalidConfig" [("field", quoted field), ("value", quoted value)]
  | protocol reason => inspectRecord "ProtocolError" [("message", quoted reason)]
  | transfer fault => inspectTuple "Io" fault.inspect

end ComponentError

inductive GroupError where
  | configuration (field value : String)
  | invalidRank (rank : Rank) (size : UInt32)
  | connect (address reason : String)
  | unroutable (source target : Rank)
  | peerDeparted (rank : Rank)
  | coordinatorLost
  | unexpectedDeparture (rank : Rank)
  | protocol (reason : String)
  | launch (rank : Rank) (reason : String)
  | component (error : ComponentError)
  | transfer (fault : TransferFault)
  deriving DecidableEq

namespace GroupError

def message : GroupError → String
  | configuration field value => s!"Configuration error: {field} = {value}"
  | invalidRank rank size => s!"Rank {rank} is outside a group of size {size}"
  | connect address reason => s!"Group bootstrap failed at {address}: {reason}"
  | unroutable source target => s!"No route from rank {source} to rank {target}"
  | peerDeparted rank => s!"Rank {rank} left the group"
  | coordinatorLost => "Lost connection to the coordinator"
  | unexpectedDeparture rank =>
    s!"Rank {rank} left the group but was not the designated failing participant"
  | protocol reason => s!"Group protocol error: {reason}"
  | launch rank reason => s!"Failed to launch rank {rank}: {reason}"
  | component error => s!"Shared component error: {error.message}"
  | transfer fault => s!"I/O error: {fault.message}"

def inspect : GroupError → String
  | configuration field value =>
    inspectRecord "ConfigurationError" [("field", quoted field), ("value", quoted value)]
  | invalidRank rank size =>
    inspectRecord "InvalidRank" [("rank", rank.inspect), ("size", toString size)]
  | connect address reason =>
    inspectRecord "ConnectError" [("addr", quoted address), ("message", quoted reason)]
  | unroutable source target =>
    inspectRecord "Unroutable" [("from", source.inspect), ("to", target.inspect)]
  | peerDeparted rank => inspectRecord "PeerDeparted" [("rank", rank.inspect)]
  | coordinatorLost => "CoordinatorLost"
  | unexpectedDeparture rank => inspectRecord "UnexpectedDeparture" [("rank", rank.inspect)]
  | protocol reason => inspectRecord "ProtocolError" [("message", quoted reason)]
  | launch rank reason =>
    inspectRecord "LaunchError" [("rank", rank.inspect), ("message", quoted reason)]
  | component error => inspectTuple "SharedError" error.inspect
  | transfer fault => inspectTuple "IoError" fault.inspect

end GroupError

inductive SignalRefusal where
  | unknown | notPermitted | noSuchProcess | interrupted | accessDenied | invalidArgument
  deriving DecidableEq

namespace SignalRefusal

def ofCode? : Nat → Option SignalRefusal
  | 0 => some unknown
  | 1 => some notPermitted
  | 3 => some noSuchProcess
  | 4 => some interrupted
  | 13 => some accessDenied
  | 22 => some invalidArgument
  | _ => none

def name : SignalRefusal → String
  | unknown => "UnknownErrno"
  | notPermitted => "EPERM"
  | noSuchProcess => "ESRCH"
  | interrupted => "EINTR"
  | accessDenied => "EACCES"
  | invalidArgument => "EINVAL"

def reason : SignalRefusal → String
  | unknown => "Unknown errno"
  | notPermitted => "Operation not permitted"
  | noSuchProcess => "No such process"
  | interrupted => "Interrupted system call"
  | accessDenied => "Permission denied"
  | invalidArgument => "Invalid argument"

def message (refusal : SignalRefusal) : String := s!"{refusal.name}: {refusal.reason}"

end SignalRefusal

inductive InjectionError where
  | delivery (signal : Signal) (refusal : SignalRefusal)
  | handlerReset (signal : Signal) (refusal : SignalRefusal)
  | notASignal (code : Int32)
  deriving DecidableEq

namespace InjectionError

def message : InjectionError → String
  | delivery signal refusal =>
    s!"Failed to deliver {signal} to own process: {refusal.message}"
  | handlerReset signal refusal =>
    s!"Failed to restore default handling of {signal}: {refusal.message}"
  | notASignal code => s!"Fault code {code} does not map to a signal"

def inspect : InjectionError → String
  | delivery signal refusal =>
    inspectRecord "SignalDelivery" [("signal", signal.name), ("source", refusal.name)]
  | handlerReset signal refusal =>
    inspectRecord "HandlerReset" [("signal", signal.name), ("source", refusal.name)]
  | notASignal code => inspectRecord "NotASignal" [("code", toString code)]

end InjectionError
end FaultDrill
