import TenantReports.Storage.Key

/-!
A store of files in a directory that is served at a public URL. Directories are made when a file
needs them and stay when it is deleted.
-/

namespace TenantReports

structure LocalStore where
  publicUrl : String
  files : List (FilePath × String)
  directories : List FilePath
deriving DecidableEq, Repr

namespace LocalStore

def defaultUrl : String := "/exports"

def empty (publicUrl : String) : LocalStore := ⟨withoutTrailingSlashes publicUrl, [], []⟩

def find? (store : LocalStore) (path : FilePath) : Option String := store.files.lookup path

def isFile (store : LocalStore) (path : FilePath) : Bool := (store.find? path).isSome

def isDirectory (store : LocalStore) (path : FilePath) : Bool := store.directories.contains path

def addDirectory (store : LocalStore) (path : FilePath) : LocalStore :=
  if store.isDirectory path then store
  else { store with directories := store.directories ++ [path] }

/-- Makes directories below one that exists, each in the one before it. Those that are made stay
when a later one cannot be. -/
def makeBelow (store : LocalStore) (above : FilePath) :
    FilePath → Except FileFault Unit × LocalStore
  | [] => (.ok (), store)
  | name :: names =>
      let path := above ++ [name]
      if FilePath.isNameTooLong name then (.error .nameTooLong, store)
      else if store.isFile path then
        (.error (if names = [] then .fileExists else .notDirectory), store)
      else makeBelow (store.addDirectory path) path names

/-- Makes the directories above a path. -/
def makeParents (store : LocalStore) (path : FilePath) : Except FileFault Unit × LocalStore :=
  let names := path.dropLast
  if names.any FilePath.hasZero then (.error .zeroInPath, store)
  else if FilePath.isTooLong names then (.error .nameTooLong, store)
  else store.makeBelow [] names

def writeAt (store : LocalStore) (path : FilePath) (content : String) : LocalStore :=
  { store with files := (path, content) :: store.files.filter fun file => file.1 != path }

/-- Writes a file whose directory exists. -/
def write (store : LocalStore) (path : FilePath) (content : String) :
    Except FileFault LocalStore :=
  let name := path.getLastD ""
  if FilePath.hasZero name then .error .zeroInPath
  else if FilePath.isNameTooLong name || FilePath.isTooLong path then .error .nameTooLong
  else if store.isDirectory path then .error .isDirectory
  else .ok (store.writeAt path content)

/-- The URL at which the file under a key is served. -/
def urlOf (store : LocalStore) (key : String) : String := store.publicUrl ++ "/" ++ key

/-- Stores a file under a key; answers its URL. -/
def put (store : LocalStore) (key content : String) : Result String × LocalStore :=
  match FilePath.ofKey? key with
  | .error fault => (.error fault, store)
  | .ok path =>
      match store.makeParents path with
      | (.error fault, made) => (.error (.file fault), made)
      | (.ok (), made) =>
          match made.write path content with
          | .error fault => (.error (.file fault), made)
          | .ok written => (.ok (store.urlOf key), written)

/-- What stands in the way of deleting a file, going down from a directory that exists. Where
something is missing on the way, nothing does. -/
def unlinkFault? (store : LocalStore) (above : FilePath) : FilePath → Option FileFault
  | [] => none
  | name :: names =>
      let path := above ++ [name]
      if FilePath.isNameTooLong name then some .nameTooLong
      else if names = [] then if store.isDirectory path then some .isDirectory else none
      else if store.isFile path then some .notDirectory
      else if store.isDirectory path then unlinkFault? store path names
      else none

def unlink (store : LocalStore) (path : FilePath) : Except FileFault LocalStore :=
  if path.any FilePath.hasZero then .error .zeroInPath
  else if FilePath.isTooLong path then .error .nameTooLong
  else
    match store.unlinkFault? [] path with
    | some fault => .error fault
    | none => .ok { store with files := store.files.filter fun file => file.1 != path }

/-- Deletes the file under a key, if there is one. -/
def delete (store : LocalStore) (key : String) : Result Unit × LocalStore :=
  match FilePath.ofKey? key with
  | .error fault => (.error fault, store)
  | .ok path =>
      match store.unlink path with
      | .error fault => (.error (.file fault), store)
      | .ok store => (.ok (), store)

/-- The files by their keys, in the order of these. -/
def sorted (store : LocalStore) : List (String × String) :=
  (store.files.map fun file => (file.1.toKey, file.2)).mergeSort fun a b => a.1 ≤ b.1

end LocalStore

end TenantReports
