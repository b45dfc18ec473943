import FaultDrill.Frame
set_option autoImplicit false

namespace FaultDrill
open Wire

/-- A place to write bytes. It takes `room` bytes in all, everything when there is no limit;
what does not fit is taken in part and fails, as does every later write. -/
structure Sink where
  taken : List UInt8
  room : Option Nat
  writeFault : FaultKind
  flushFault : Option FaultKind

namespace Sink

def write (sink : Sink) (bytes : List UInt8) : Sink × Except FaultKind Unit :=
  match sink.room with
  | none => ({ sink with taken := sink.taken ++ bytes }, .ok ())
  | some room =>
    if bytes.length ≤ room then
      ({ sink with taken := sink.taken ++ bytes, room := some (room - bytes.length) }, .ok ())
    else
      ({ sink with taken := sink.taken ++ bytes.take room, room := some 0 },
        .error sink.writeFault)

def flush (sink : Sink) : Except FaultKind Unit :=
  match sink.flushFault with
  | none => .ok ()
  | some fault => .error fault

end Sink

/-- A source of bytes: each read hands out bytes of one chunk. After the last chunk it has
ended, or fails with `fault` when there is one. -/
structure Source where
  chunks : List (List UInt8)
  fault : Option FaultKind

namespace Source

def readChunks (fault : Option FaultKind) (count : Nat) (got : List UInt8) :
    List (List UInt8) → Except FaultKind (List UInt8) × List (List UInt8)
  | [] => if count = 0 then (.ok got, []) else (.error (fault.getD .unexpectedEof), [])
  | chunk :: rest =>
    if count ≤ chunk.length then (.ok (got ++ chunk.take count), chunk.drop count :: rest)
    else readChunks fault (count - chunk.length) (got ++ chunk) rest

def readExact (source : Source) (count : Nat) : Except FaultKind (List UInt8) × Source :=
  let (result, chunks) := readChunks source.fault count [] source.chunks
  (result, { source with chunks })

def remaining (source : Source) : Nat := source.chunks.flatten.length

end Source

namespace Frame

/-- Writes the length of the encoding, the encoding, and then flushes. A frame above the limit
is refused before anything is written. -/
def write (sink : Sink) (frame : Frame) : Sink × Except ComponentError Unit :=
  let body := encode frame
  if body.length > maxLength then (sink, .error (tooLarge body.length))
  else
    match sink.write (littleEndian 4 body.length) with
    | (sink, .error kind) => (sink, .error (.transfer (.ofKind kind)))
    | (sink, .ok ()) =>
      match sink.write body with
      | (sink, .error kind) => (sink, .error (.transfer (.ofKind kind)))
      | (sink, .ok ()) => (sink, sink.flush.mapError fun kind => .transfer (.ofKind kind))

/-- What a failed read means: the other side has gone, or an error. -/
def lost (kind : FaultKind) : Except ComponentError (Option Frame) :=
  if kind.isDisconnect then .ok none else .error (.transfer (.ofKind kind))

def read (source : Source) : Except ComponentError (Option Frame) × Source :=
  match source.readExact 4 with
  | (.error kind, source) => (lost kind, source)
  | (.ok header, source) =>
    let length := ofLittleEndian header
    if length > maxLength then (.error (tooLarge length), source)
    else
      match source.readExact length with
      | (.error kind, source) => (lost kind, source)
      | (.ok body, source) => ((ofBody body).map some, source)

def writeAll (sink : Sink) : List Frame → Sink × List (Except ComponentError Unit)
  | [] => (sink, [])
  | frame :: rest =>
    let (sink, result) := write sink frame
    let (sink, results) := writeAll sink rest
    (sink, result :: results)

def readMany (source : Source) : (count : Nat) →
    List (Except ComponentError (Option Frame)) × Source
  | 0 => ([], source)
  | count + 1 =>
    let (result, source) := read source
    let (results, source) := readMany source count
    (result :: results, source)

end Frame
end FaultDrill
