import Overlay.Files.Access

/-! A file system as a value: a map from places to files and directories. A path is followed name by name
    from the working directory, or from the top directory if it begins with a slash, and each name but the
    last has to be that of a directory. The parent of the top directory is the top directory. -/

namespace Overlay

/-- What is at a place. --/
inductive Entry where
  | file (content : ByteArray)
  | directory

/-- Whether an entry is a directory. --/
def Entry.isDirectory : Entry → Bool
  | .directory => true
  | .file _ => false

/-- A place in a file system: the names on the way to it from the top directory. --/
abbrev Location := List String

/-- The working directory, and the entries other than it and the directories that it lies in. --/
structure FileSystem where
  workingDirectory : Location
  entries : List (Location × Entry)

namespace FileSystem

/-- What is at a place. --/
def entry? (fs : FileSystem) (place : Location) : Option Entry :=
  if place.isPrefixOf fs.workingDirectory then some .directory else fs.entries.lookup place

/-- Puts an entry at a place. --/
def put (fs : FileSystem) (place : Location) (entry : Entry) : FileSystem :=
  { fs with entries := (place, entry) :: fs.entries.filter (·.1 != place) }

/-- The files of the working directory by their names. --/
def localFiles (fs : FileSystem) : List (String × ByteArray) :=
  fs.entries.filterMap fun (place, entry) =>
    match entry with
    | .file content =>
      if place.dropLast == fs.workingDirectory then place.getLast?.map (·, content) else none
    | .directory => none

/-! ### Paths -/

/-- The names of a path, between its slashes. --/
def splitPath : List Char → List (List Char)
  | [] => [[]]
  | c :: rest =>
    match splitPath rest with
    | [] => [[c]]
    | name :: names => if c == '/' then [] :: name :: names else (c :: name) :: names

/-- The directory that a name leads to from the directory `here`. --/
def enter (fs : FileSystem) (here : Location) (name : String) : Except FileFault Location :=
  if name == "." then .ok here
  else if name == ".." then .ok here.dropLast
  else
    let place := here ++ [name]
    match fs.entry? place with
    | some .directory => .ok place
    | some (.file _) => .error .notADirectory
    | none => .error .notFound

/-- The place that names lead to from the directory `here`; nothing for a way that ends in a directory
    without naming it. --/
def follow (fs : FileSystem) (here : Location) : List String → Except FileFault (Option Location)
  | [] => .ok none
  | [name] => if name == "." || name == ".." then .ok none else .ok (some (here ++ [name]))
  | name :: names =>
    match fs.enter here name with
    | .ok next => fs.follow next names
    | .error fault => .error fault

/-- The place that a path leads to, and whether the path ends in a slash. --/
def locate (fs : FileSystem) (path : String) : Except FileFault (Option Location × Bool) :=
  let names := splitPath path.toList
  let start := if names.head? == some [] then [] else fs.workingDirectory
  if path.isEmpty then .error .notFound
  else
    match fs.follow start ((names.filter (!·.isEmpty)).map String.ofList) with
    | .ok place => .ok (place, names.getLast? == some [])
    | .error fault => .error fault

/-! ### Reading and writing -/

/-- The content of the file at a path. --/
def read (fs : FileSystem) (path : String) : Except FileFault ByteArray :=
  match fs.locate path with
  | .error fault => .error fault
  | .ok (none, _) => .error .isDirectory
  | .ok (some place, slash) =>
    match fs.entry? place with
    | some (.file content) => if slash then .error .notADirectory else .ok content
    | some .directory => .error .isDirectory
    | none => .error .notFound

/-- Writes the file at a path, which may be new. --/
def write (fs : FileSystem) (path : String) (content : ByteArray) : Except FileFault FileSystem :=
  match fs.locate path with
  | .error fault => .error fault
  | .ok (none, _) => .error .isDirectory
  | .ok (some place, slash) =>
    if slash || (fs.entry? place).any Entry.isDirectory then .error .isDirectory
    else .ok (fs.put place (.file content))

/-- Access to the files of a file system that changes with each file that is written. --/
def files : Files (StateM FileSystem) where
  read path := do return (← get).read path
  write path content := do
    match (← get).write path content with
    | .ok after => set after; return .ok ()
    | .error fault => return .error fault

end FileSystem
end Overlay
