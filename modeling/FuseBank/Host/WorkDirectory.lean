import FuseBank.Host

/-!
A directory of plain files, without subdirectories, in which the tool runs. Paths are resolved as
the system resolves them from that directory, and every failure has its error number. Outside it
there are the directories of the system, without files but for the null device.
-/

namespace FuseBank

structure WorkDirectory where
  files : List (String × List Byte) := []

namespace WorkDirectory

def find? (d : WorkDirectory) (name : String) : Option (List Byte) := d.files.lookup name

def put (d : WorkDirectory) (name : String) (content : List Byte) : WorkDirectory :=
  ⟨(name, content) :: d.files.filter fun f => f.1 ≠ name⟩

theorem find?_put (d : WorkDirectory) (name : String) (content : List Byte) :
    (d.put name content).find? name = some content := by
  simp [find?, put]

/-- What a path leads to; `slash` if the path goes on with a slash after its last name. -/
inductive Place where
  | directory
  | entry (name : String) (slash : Bool)
  | nullDevice (slash : Bool)
  | unreachable (errno : Errno) (slash : Bool)
deriving DecidableEq

def nameLimit : Nat := 255
def pathLimit : Nat := 4095

def lookUp (d : WorkDirectory) (name : String) : Except Errno (List Byte) :=
  if name.utf8ByteSize > nameLimit then .error Errno.nameTooLong
  else match d.find? name with
    | some content => .ok content
    | none => .error Errno.notFound

inductive Outside where
  | root
  | devices
  | system
  | above
deriving DecidableEq

namespace Outside

def parent : Outside → Outside
  | above => above
  | root | devices | system => root

def systemNames : List String :=
  ["bin", "boot", "etc", "home", "lib", "media", "mnt", "opt", "proc", "root", "run", "sbin", "srv",
    "sys", "tmp", "usr", "var"]

def child? : Outside → String → Option Outside
  | root, name =>
    if name = "dev" then some devices
    else if name ∈ systemNames then some system
    else none
  | _, _ => none

def follow (dir : Outside) : List String → Place
  | [] => .directory
  | name :: rest =>
    if name = "" ∨ name = "." then follow dir rest
    else if name = ".." then follow dir.parent rest
    else match dir.child? name with
      | some below => follow below rest
      | none =>
        let last := rest.all (· = "")
        let slash := last && !rest.isEmpty
        if dir = devices ∧ name = "null" then
          if last then .nullDevice slash else .unreachable Errno.notADirectory false
        else if name.utf8ByteSize > nameLimit then .unreachable Errno.nameTooLong slash
        else .unreachable Errno.notFound slash

end Outside

def follow (d : WorkDirectory) : List String → Place
  | [] => .directory
  | "" :: rest => d.follow rest
  | "." :: rest => d.follow rest
  | ".." :: rest => Outside.above.follow rest
  | name :: rest =>
    if rest.isEmpty then .entry name false
    else if rest.all (· = "") then .entry name true
    else match d.lookUp name with
      | .ok _ => .unreachable Errno.notADirectory false
      | .error errno => .unreachable errno false

def place (d : WorkDirectory) (path : String) : Place :=
  if path.isEmpty then .unreachable Errno.notFound false
  else if path.utf8ByteSize > pathLimit then .unreachable Errno.nameTooLong false
  else match path.splitToList (· = '/') with
    | "" :: rest => Outside.root.follow rest
    | parts => d.follow parts

def fileExists (d : WorkDirectory) (path : String) : Bool :=
  if path.contains '\x00' then false
  else match d.place path with
    | .directory => true
    | .entry name slash => !slash && (d.find? name).isSome
    | .nullDevice slash => !slash
    | .unreachable _ _ => false

def readFile (d : WorkDirectory) (path : String) : Except SystemError (List Byte) :=
  let ofFile (content : List Byte) (slash : Bool) : Except SystemError (List Byte) :=
    if slash then .error (.code Errno.notADirectory) else .ok content
  if path.contains '\x00' then .error .invalidPath
  else match d.place path with
    | .directory => .error (.code Errno.isADirectory)
    | .unreachable errno _ => .error (.code errno)
    | .nullDevice slash => ofFile [] slash
    | .entry name slash =>
      match d.lookUp name with
      | .error errno => .error (.code errno)
      | .ok content => ofFile content slash

/-- Writes a whole file. A path that ends in a slash can only name a directory, whatever the name
before the slash. -/
def writeFile (d : WorkDirectory) (path : String) (content : List Byte) :
    Except SystemError WorkDirectory :=
  if path.contains '\x00' then .error .invalidPath
  else match d.place path with
    | .directory | .entry _ true | .nullDevice true | .unreachable _ true =>
      .error (.code Errno.isADirectory)
    | .unreachable errno false => .error (.code errno)
    | .nullDevice false => .ok d
    | .entry name false =>
      if name.utf8ByteSize > nameLimit then .error (.code Errno.nameTooLong)
      else .ok (d.put name content)

end WorkDirectory

/-- A system that consists of one directory and the physical memory. -/
structure Workbench where
  directory : WorkDirectory := {}
  memory : Memory := {}
  mapping : MappingAnswers := .refusing Errno.notFound

instance : Host (StateM Workbench) where
  fileExists path := return (← get).directory.fileExists path
  readFile path := return (← get).directory.readFile path
  writeFile path content := do
    match (← get).directory.writeFile path content with
    | .error e => return .error e
    | .ok directory =>
      modify fun w => { w with directory }
      return .ok ()
  mapping := return (← get).mapping
  memory := return (← get).memory
  closeMemory memory := modify fun w => { w with memory }

end FuseBank
