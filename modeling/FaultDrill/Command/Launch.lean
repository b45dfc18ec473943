import FaultDrill.Command.Grouprun
import FaultDrill.Outside.Programs
set_option autoImplicit false

/-!
# Programs by name

What a command starts by its name: a command of this library, or a program of the system. This is
the outer layer, in which the commands are run as they would be on a machine.
-/
namespace FaultDrill.Command
open Text Outside

/-- The commands of this library. `joined` says whether the others of its group take part. -/
def ownJob? (machine : Machine) (starter : Starter) (joined : Bool) (name : String)
    (start : Start) : Option Job :=
  match name with
  | "serial_sleep" => some (serialSleep start)
  | "faulty_serial_sleep" => some (faultySerialSleep start)
  | "parallel_sleep" => some (parallelSleep machine.toSurroundings joined start)
  | "faulty_parallel_sleep" => some (faultyParallelSleep machine.toSurroundings joined start)
  | "grouprun" => some (.ofCourse (launchCommand machine starter start))
  | _ => none

def Machine.ownName? (machine : Machine) (program : String) : Option String :=
  machine.ownPath.bind fun path =>
    if program.startsWith path then some (String.ofList (program.toList.drop path.length))
    else none

def worldOf (machine : Machine) (starter : Starter) : Shell.World where
  start program start :=
    (starter false program start).map fun job => job.course start.ignoredSignals
  isDirectory path := Files.known? machine.directory path == some .directory
  isFile path := match Files.known? machine.directory path with
    | some .plain | some (.program _) => true
    | _ => false
  isWritable path := ["/tmp", "/var/tmp", "/dev/shm", machine.directory].contains path

def searchPathOf (start : Start) : List String :=
  match lookupVariable start.environment "PATH" with
  | some path => path.splitOn ":"
  | none => Files.searchPath

/-- Starts a program that starts others at most so deep. -/
def starterOf (machine : Machine) : (depth : Nat) → Starter
  | 0, _, _, _ => .error (.refused .noSuchFile)
  | depth + 1, joined, program, start =>
    let starter := starterOf machine depth
    let own := (machine.ownName? program).bind fun name =>
      ownJob? machine starter joined name start
    match own with
    | some job => .ok job
    | none =>
      if program.toList.contains '\x00' then .error .zeroInName
      else
        match Files.find machine.directory (searchPathOf start) program with
        | .error refusal => .error (.refused refusal)
        | .ok name =>
          .ok (.ofCourse (Programs.course (worldOf machine starter) machine.directory name program
            start))

def mostStarts : Nat := 50

def run? (machine : Machine) (name : String) (start : Start) : Option Course :=
  (ownJob? machine (starterOf machine mostStarts) false name start).map fun job =>
    job.course start.ignoredSignals

end FaultDrill.Command
