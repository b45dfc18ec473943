import FaultDrill.Failure
import FaultDrill.Net.Address
set_option autoImplicit false

namespace FaultDrill.Net

structure Host where
  listenRefusal : SocketAddress → Option Refusal
  connectRefusal : SocketAddress → Option Refusal
  /-- How the address shows that listening on a configured one ends up with. -/
  chosen : SocketAddress → String

namespace Host

def isPrivileged (port : UInt16) : Bool := 0 < port && port < 1024

/-- Why an unprivileged user cannot listen on an address of a machine without interfaces. Every
address of the older family is taken as its own, of the newer one only those that stand for an
older one and the one that stands for all. -/
def listenRefusalWithoutInterfaces : SocketAddress → Option Refusal
  | .v4 _ port => if isPrivileged port then some .notPermitted else none
  | .v6 ip port scope =>
    if ip.isMulticast then some .invalidArgument
    else if isPrivileged port then some .notPermitted
    else if ip.mapped?.isSome || ip.isUnspecified then none
    else if !ip.isLinkLocal || scope = 1 then some .addressUnavailable
    else if scope = 0 then some .invalidArgument
    else some .noSuchDevice

def connectRefusalWithoutInterfaces : SocketAddress → Refusal
  | .v4 .. => .networkUnreachable
  | .v6 ip _ scope =>
    if ip.isMulticast || ip.mapped?.isSome then .networkUnreachable
    else if ip.isLinkLocal && scope = 0 then .invalidArgument
    else .addressUnavailable

def chosenText (address : SocketAddress) : String :=
  if address.port = 0 then "<peer>" else address.render

/-- A machine without network interfaces, not even one to itself: listening works, and nothing
can be connected to. -/
def isolated : Host where
  listenRefusal := listenRefusalWithoutInterfaces
  connectRefusal address := some (connectRefusalWithoutInterfaces address)
  chosen := chosenText

def connected : Host where
  listenRefusal _ := none
  connectRefusal _ := none
  chosen := chosenText

/-- Whether a coordinator at an address and members that want to reach it come together. -/
def joins (host : Host) (address : SocketAddress) : Bool :=
  (host.listenRefusal address).isNone && (host.connectRefusal address).isNone

end Host
end FaultDrill.Net
