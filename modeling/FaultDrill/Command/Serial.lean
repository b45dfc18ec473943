import FaultDrill.Command.Job
import FaultDrill.Serial
set_option autoImplicit false

namespace FaultDrill.Command

def Values.filter (values : Values) (program : String) : LogFilter :=
  .ofText (filterDirective program (some values.logLevel))

def serialGrammar : Grammar := ⟨[logLevel], .trailing⟩

def serialJob (program name : String) (values : Values) (body : Procedure Unit) : Job :=
  .noted (values.filter program) do
    Procedure.note (.startup .coordinator name)
    body
    Procedure.note (.shutdown .coordinator "fixture completed")
    return .exited 0

def missingSeconds : String :=
  "No argument given.  Please provide an integer value for which the program will sleep."

def serialSleep (start : Start) : Job :=
  match serialGrammar.read start.arguments with
  | .help => Job.help
  | .fault => Job.exit 2
  | .values values =>
    match values.positionals with
    | [] => Job.refuse [missingSeconds]
    | seconds :: _ =>
      serialJob "serial_sleep" "serial sleep fixture" values
        (FaultDrill.Serial.sleep (FaultDrill.Serial.sleepSeconds seconds))

def complaint (text : String) : List String := [text, FaultCode.table, ""]

def faultySerialSleep (start : Start) : Job :=
  let refused := Job.refuse
    (complaint "Bad arguments.  Expecting sleep parameter and a failure type.")
  match serialGrammar.read start.arguments with
  | .help => Job.help
  | .fault => refused
  | .values values =>
    match values.positionals with
    | [seconds, code] =>
      serialJob "faulty_serial_sleep" "faulty serial sleep fixture" values do
        let _ ← FaultDrill.Serial.faultySleep (FaultDrill.Serial.sleepSeconds seconds)
          (.ofInt32 (FaultDrill.Serial.leadingInteger code))
    | _ => refused

end FaultDrill.Command
