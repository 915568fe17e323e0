import FormWatch.Failure

/-!
Files and folders, and how a path is followed among them. A place is given by the parts of its path
from the top. Paths start in a folder of the disk's own, and can climb out of it.
-/

namespace FormWatch

/-- The parts of a path between slashes; empty parts and dots lead nowhere and are left out. -/
def pathParts (path : Text) : List Text :=
  (Text.splitAt '/' path).filter fun part => part ≠ [] ∧ part ≠ ['.']

/-- The slashes a path begins with, as they are kept: none, two, or one for any other number. -/
def pathRoot (path : Text) : Text :=
  match (path.takeWhile (· = '/')).length with
  | 0 => []
  | 2 => ['/', '/']
  | _ => ['/']

def normalPath (path : Text) : Text :=
  match pathRoot path ++ Text.join ['/'] (pathParts path) with
  | [] => ['.']
  | normal => normal

def maxPartBytes : Nat := 255

def maxPathBytes : Nat := 4095

def byteCount (text : Text) : Nat :=
  (Utf8.encode text).length

structure Disk where
  -- the path from the top of the folder in which paths start
  start : Text
  files : List (List Text × Bytes)
  -- folders beside those that lead to the start or to a file
  folders : List (List Text) := []

namespace Disk

inductive Target where
  | folder
  | file (content : Bytes)

/-- What stands at a place, if anything does. -/
def target? (disk : Disk) (place : List Text) : Option Target :=
  match disk.files.find? (·.1 = place) with
  | some file => some (.file file.2)
  | none =>
    if place.isPrefixOf (pathParts disk.start) || disk.folders.any place.isPrefixOf ||
        disk.files.any fun file => place.isPrefixOf file.1 then
      some .folder
    else none

/-- The place to which parts of a path lead from a place, and what stands there. -/
def follow (disk : Disk) (place : List Text) : List Text → Except SystemFault (List Text × Target)
  | [] =>
    match disk.target? place with
    | some target => .ok (place, target)
    | none => .error .noSuchFile
  | part :: rest =>
    match disk.target? place with
    | none => .error .noSuchFile
    | some (.file _) => .error .notDirectory
    | some .folder =>
      if maxPartBytes < byteCount part then .error .nameTooLong
      else follow disk (if part = "..".toList then place.dropLast else place ++ [part]) rest

/-- The place to which a path leads, and what stands there. -/
def locate (disk : Disk) (path : Text) : Except SystemFault (List Text × Target) :=
  if path.isEmpty then .error .noSuchFile
  else if maxPathBytes < byteCount path then .error .nameTooLong
  else disk.follow (if pathRoot path = [] then pathParts disk.start else []) (pathParts path)

/-- The bytes of the file to which a path leads, with its place. -/
def fileAt (disk : Disk) (path : Text) : Except SystemFault (List Text × Bytes) := do
  match ← disk.locate path with
  | (_, .folder) => .error .isDirectory
  | (place, .file content) => .ok (place, content)

def read (disk : Disk) (path : Text) : Except Failure Bytes :=
  if '\x00' ∈ path then .error .embeddedNul
  else
    match disk.fileAt path with
    | .error fault => .error (.refused fault path)
    | .ok (_, content) => .ok content

/-- The text of a file, its line endings made newlines. -/
def readText (disk : Disk) (path : Text) : Except Failure Text := do
  let content ← disk.read path
  match Utf8.decode content with
  | .ok text => .ok text.unifyNewlines
  | .error fault => .error (.undecodable fault)

end Disk

end FormWatch
