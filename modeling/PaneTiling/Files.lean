/-!
Files and folders by path, as a program with a working folder sees them. A path that starts with a
slash leads from the root, any other from the working folder; whatever no path reaches is missing.
-/

namespace PaneTiling

structure Files where
  /-- The names from the root to the working folder. -/
  folder : List String
  /-- Folders that are there even if nothing lies in them. -/
  folders : List (List String)
  /-- The names from the root to each file, with its contents. -/
  entries : List (List String × ByteArray)
deriving Inhabited

/-- What stands at a path. -/
inductive Files.Entry
  | missing
  | folder
  | file (contents : ByteArray)
deriving Inhabited

/-- A file to be put in its place by way of a draft, so that it is never left half written. -/
structure Replacement where
  draft : String
  path : String
  contents : ByteArray
deriving Inhabited

namespace Files

def empty (folder : List String) : Files := ⟨folder, [], []⟩

/-- The folders that are known to be there: all that is above one of them is a folder, too. -/
def opened (files : Files) : List (List String) :=
  files.folder :: files.folders ++ files.entries.map (·.1.dropLast)

def IsFolder (files : Files) (names : List String) : Prop :=
  ∃ place ∈ files.opened, names <+: place

instance (files : Files) (names : List String) : Decidable (files.IsFolder names) :=
  inferInstanceAs (Decidable (∃ place ∈ files.opened, names <+: place))

def entryAt (files : Files) (names : List String) : Entry :=
  if files.IsFolder names then .folder
  else
    match files.entries.find? (·.1 = names) with
    | some (_, contents) => .file contents
    | none => .missing

/-- A name leads down, and two points lead up, though not beyond the root. -/
def next (names : List String) (step : String) : List String :=
  if step = "" ∨ step = "." then names
  else if step = ".." then names.dropLast
  else names ++ [step]

def follow (files : Files) (names : List String) (step : String) : Option (List String) :=
  if files.IsFolder names then some (next names step) else none

def steps (path : String) : List (List Char) := path.toList.splitOn '/'

/-- The steps of a path, the last one first, from the name at its end on. -/
def namedSteps (path : String) : List (List Char) :=
  (steps path).reverse.dropWhile fun step => step = [] ∨ step = ['.']

def start (files : Files) (path : String) : List String :=
  if path.toList.head? = some '/' then [] else files.folder

def resolve (files : Files) (path : String) : Option (List String) :=
  if path = "" then none
  else ((steps path).map String.ofList).foldlM files.follow (files.start path)

def look (files : Files) (path : String) : Entry :=
  match files.resolve path with
  | some names => files.entryAt names
  | none => .missing

def put (files : Files) (names : List String) (contents : ByteArray) : Files :=
  { files with entries := files.entries.filter (·.1 ≠ names) ++ [(names, contents)] }

def write (files : Files) (path : String) (contents : ByteArray) : Option Files := do
  let names ← files.resolve path
  if files.IsFolder names then none else some (files.put names contents)

/-- Takes away the file at a path. The folder that it was in stays. -/
def remove (files : Files) (path : String) : Files :=
  match files.resolve path with
  | some names =>
    match files.entryAt names with
    | .file _ =>
      { files with
        folders := names.dropLast :: files.folders
        entries := files.entries.filter (·.1 ≠ names) }
    | _ => files
  | none => files

def makeFolder (files : Files) (names : List String) : Option Files :=
  match files.entryAt names with
  | .missing => some { files with folders := names :: files.folders }
  | .folder => some files
  | .file _ => none

/-- Makes the folders along some steps that are not there yet, as far as no file is in the way, and
tells whether it came to the end. -/
def makeFolders (files : Files) (names : List String) : List String → Bool × Files
  | [] => (true, files)
  | step :: rest =>
    match files.makeFolder (next names step) with
    | some made => made.makeFolders (next names step) rest
    | none => (false, files)

def stepsAbove (path : String) : List String := (namedSteps path).tail.reverse.map String.ofList

def above (path : String) : String := "/".intercalate (stepsAbove path)

def makeFoldersAbove (files : Files) (path : String) : Bool × Files :=
  files.makeFolders (files.start path) (stepsAbove path)

def place (files : Files) (path : String) (contents : ByteArray) : Option Files :=
  match files.makeFoldersAbove path with
  | (true, made) => made.write path contents
  | (false, _) => none

/-- Whether a file has been replaced, and the files that are left. A draft that cannot be put in
place stays where it is. -/
def replace (files : Files) (r : Replacement) : Bool × Files :=
  match files.makeFoldersAbove r.path with
  | (false, made) => (false, made)
  | (true, made) =>
    match made.write r.draft r.contents with
    | none => (false, made)
    | some drafted =>
      match (drafted.remove r.draft).write r.path r.contents with
      | none => (false, drafted)
      | some after => (true, after)

/-- A name up to its last point. A name that has no point but in front keeps it all. -/
def stem (name : List Char) : List Char :=
  match (name.reverse.dropWhile (· ≠ '.')).tail.reverse with
  | [] => name
  | front => front

/-- A path whose last name has another ending. Without a name at its end a path stays as it is. -/
def withEnding (path ending : String) : String :=
  match namedSteps path with
  | [] => path
  | last :: before =>
    if last = ['.', '.'] then path
    else String.ofList (['/'].intercalate ((stem last ++ '.' :: ending.toList) :: before).reverse)

def paths (files : Files) : List String :=
  let below := files.entries.filter fun (names, _) => files.folder.isPrefixOf names
  (below.map fun (names, _) =>
    "/".intercalate (names.drop files.folder.length)).mergeSort (· ≤ ·)

end Files

end PaneTiling
