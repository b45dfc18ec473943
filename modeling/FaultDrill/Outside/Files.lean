import FaultDrill.Failure
set_option autoImplicit false

namespace FaultDrill.Outside.Files

inductive Nature where
  | directory
  | program (name : String)
  | plain
  deriving DecidableEq

def directories : List String :=
  ["/", "/bin", "/boot", "/dev", "/dev/shm", "/etc", "/home", "/lib", "/lib64", "/media", "/mnt",
    "/opt", "/proc", "/run", "/sbin", "/srv", "/sys", "/tmp", "/usr", "/usr/bin", "/usr/include",
    "/usr/lib", "/usr/local", "/usr/local/bin", "/usr/local/lib", "/usr/local/sbin", "/usr/sbin",
    "/usr/share", "/var", "/var/lib", "/var/log", "/var/tmp"]

def plainFiles : List String :=
  ["/dev/null", "/dev/zero", "/dev/full", "/dev/random", "/dev/urandom", "/dev/stdin",
    "/dev/stdout", "/dev/stderr", "/etc/group", "/etc/hostname", "/etc/hosts", "/etc/passwd",
    "/etc/resolv.conf", "/etc/profile", "/proc/cpuinfo", "/proc/meminfo", "/proc/version"]

def programs : List String :=
  ["true", "false", "echo", "sleep", "sh", "dash", "cat", "test", "["]

def searchPath : List String :=
  ["/usr/local/sbin", "/usr/local/bin", "/usr/sbin", "/usr/bin", "/sbin", "/bin"]

def resolve (directory path : String) : String :=
  let whole := if path.startsWith "/" then path else directory ++ "/" ++ path
  let steps := (whole.splitOn "/").foldl
    (fun (before : List String) step =>
      if step == "" || step == "." then before
      else if step == ".." then before.drop 1
      else step :: before) []
  "/" ++ "/".intercalate steps.reverse

def parent (path : String) : String :=
  "/" ++ "/".intercalate (((path.splitOn "/").filter (· != "")).dropLast)

def known? (here path : String) : Option Nature :=
  if directories.contains path || path == here then some .directory
  else if plainFiles.contains path then some .plain
  else
    ["/bin/", "/usr/bin/"].findSome? fun directory =>
      (programs.find? fun name => directory ++ name == path).map .program

def longestName : Nat := 255

def longestPath : Nat := 4095

/-- What a path names, or why it names nothing. A path that ends in a slash is a directory. -/
def nature (here path : String) : Except Refusal Nature :=
  let whole := resolve here path
  if path.isEmpty then .error .noSuchFile
  else if path.utf8ByteSize > longestPath ||
      (path.splitOn "/").any fun step => step.utf8ByteSize > longestName then
    .error .nameTooLong
  else
    match known? here whole with
    | some .directory => .ok .directory
    | some other => if path.endsWith "/" then .error .notADirectory else .ok other
    | none =>
      match known? here (parent whole) with
      | some .directory | none => .error .noSuchFile
      | some _ => .error .notADirectory

def runnable (here path : String) : Except Refusal String :=
  match nature here path with
  | .ok (.program name) => .ok name
  | .ok _ => .error .notPermitted
  | .error refusal => .error refusal

/-- The program that a command names: a name without a slash is looked for in the directories of
the search path, of which a nameless one is `here`. That one of them does not permit it is told if
it is found nowhere else. -/
def find (here : String) (search : List String) (command : String) : Except Refusal String :=
  if command.toList.contains '/' || command.isEmpty then runnable here command
  else
    let found := search.map fun directory =>
      runnable here (if directory.isEmpty then command else directory ++ "/" ++ command)
    let refusals := found.filterMap fun
      | .error refusal => some refusal
      | .ok _ => none
    match found.findSome? Except.toOption with
    | some name => .ok name
    | none =>
      .error (if refusals.contains .notPermitted then .notPermitted
        else if refusals.contains .nameTooLong then .nameTooLong else .noSuchFile)

end FaultDrill.Outside.Files
