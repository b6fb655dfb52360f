import Mathlib.Data.List.Lex
import Mathlib.Data.List.Sort
import ZeroCpu.Binary.Zbin
import ZeroCpu.Library.Exec
import ZeroCpu.Library.SortedMap

/-!
# The in-memory file system

Reference: `include/zero_cpu/system/ZeroFS.hpp`, `src/system/ZeroFS.cpp`.

Allocation is taken never to fail. The operations that system calls use check before they change a
node, so they are functions to the new file system.
-/

namespace ZeroCpu.Sys

open Library

/-- `ZeroFSNodeType`. -/
inductive ZeroFSNodeType where
  | File
  | Directory
deriving DecidableEq, Repr

/-- `ZeroFSError`. -/
inductive ZeroFSError where
  | InvalidPath
  | NotFound
  | AlreadyExists
  | NotDirectory
  | IsDirectory
  | InvalidOffset
deriving DecidableEq, Repr

/-- `ZeroFSException`. -/
structure ZeroFSException where
  error : ZeroFSError
  message : Str
deriving DecidableEq

/-- `ZeroFSStat`. -/
structure ZeroFSStat where
  type : ZeroFSNodeType
  size : ℕ

/-- A node of the tree. -/
structure ZeroFSNode where
  type : ZeroFSNodeType
  data : List UInt8

/-- `ZeroFS::nodes_`. -/
structure ZeroFS where
  nodes : SortedMap Str ZeroFSNode

namespace ZeroFS

/-- Fail with a ZeroFS error. -/
def fail {α : Type} (error : ZeroFSError) (message : Str) : Except ZeroFSException α :=
  .error ⟨error, message⟩

/-- The count that reads to the end of a file. -/
def kReadToEnd : ℕ := Binary.sizeMax

/-! ## Paths -/

/-- The separator of paths. -/
def kSlash : UInt8 := '/'

/-- The components that the loop of `normalizePath` collects. -/
def collectComponents : List Str → Except ZeroFSException (List Str)
  | [] => .ok []
  | component :: rest =>
      if component = [] ∨ component = Str.ofString "." then collectComponents rest
      else if component = Str.ofString ".." then
        fail .InvalidPath "ZeroFS path traversal '..' is not allowed"
      else do
        let components ← collectComponents rest
        pure (component :: components)

/-- Components with a slash in front of each; the root when there is none. -/
def joinComponents (components : List Str) : Str :=
  if components = [] then Str.ofString "/" else components.flatMap fun component => kSlash :: component

/-- `ZeroFS::normalizePath`. -/
def normalizePath (path : Str) : Except ZeroFSException Str :=
  match path with
  | [] => fail .InvalidPath "ZeroFS path must be an absolute '/' path"
  | first :: rest =>
      if first ≠ kSlash ∨ ('\\' : UInt8) ∈ path ∨ (0 : UInt8) ∈ path then
        fail .InvalidPath "ZeroFS path must be an absolute '/' path"
      else do
        let components ← collectComponents (rest.splitOn kSlash)
        pure (joinComponents components)

/-- The path up to its last slash, without it. -/
def beforeLastSlash (path : Str) : Str := ((path.reverse.dropWhile (· != kSlash)).drop 1).reverse

/-- The directory a normalised path is in. -/
def parentPath (normalizedPath : Str) : Str :=
  if normalizedPath = Str.ofString "/" then Str.ofString "/"
  else if beforeLastSlash normalizedPath = [] then Str.ofString "/"
  else beforeLastSlash normalizedPath

/-- The last component of a normalised path. -/
def baseName (normalizedPath : Str) : Str :=
  if normalizedPath = Str.ofString "/" then Str.ofString "/"
  else (normalizedPath.reverse.takeWhile (· != kSlash)).reverse

/-! ## Nodes -/

/-- The node of a path; a missing one throws. -/
def requireNode (fs : ZeroFS) (normalizedPath : Str) : Except ZeroFSException ZeroFSNode :=
  match fs.nodes.find? normalizedPath with
  | some node => .ok node
  | none => fail .NotFound ("ZeroFS path not found: " ++ normalizedPath)

/-- `ZeroFS::exists`. -/
def «exists» (fs : ZeroFS) (path : Str) : Except ZeroFSException Bool := do
  let normalized ← normalizePath path
  pure (fs.nodes.find? normalized).isSome

/-- `ZeroFS::stat`. -/
def stat (fs : ZeroFS) (path : Str) : Except ZeroFSException ZeroFSStat := do
  let normalized ← normalizePath path
  let node ← fs.requireNode normalized
  pure ⟨node.type, if node.type = .File then node.data.length else 0⟩

/-- `ZeroFS::createDirectory`. -/
def createDirectory (fs : ZeroFS) (path : Str) : Except ZeroFSException ZeroFS := do
  let normalized ← normalizePath path
  if (fs.nodes.find? normalized).isSome then
    fail .AlreadyExists ("ZeroFS path already exists: " ++ normalized)
  else do
    let parent := parentPath normalized
    let parentNode ← fs.requireNode parent
    if parentNode.type ≠ .Directory then
      fail .NotDirectory ("ZeroFS parent is not a directory: " ++ parent)
    else pure ⟨fs.nodes.emplace normalized ⟨.Directory, []⟩⟩

/-- The node of a file, or an error when the path is a directory. -/
def requireFile (fs : ZeroFS) (normalized : Str) : Except ZeroFSException ZeroFSNode := do
  let node ← fs.requireNode normalized
  if node.type = .Directory then
    fail .IsDirectory ("ZeroFS path is a directory: " ++ normalized)
  else pure node

/-- `ZeroFS::readFile`. -/
def readFile (fs : ZeroFS) (path : Str) (offset count : ℕ) :
    Except ZeroFSException (List UInt8) := do
  let normalized ← normalizePath path
  let node ← fs.requireFile normalized
  if offset ≥ node.data.length then pure []
  else
    let available := node.data.length - offset
    let readCount := if count = kReadToEnd then available else min count available
    pure ((node.data.drop offset).take readCount)

/-- `std::vector::resize` with zero bytes, to a larger size. -/
def grow (data : List UInt8) (size : ℕ) : List UInt8 :=
  if size > data.length then data ++ List.replicate (size - data.length) 0 else data

/-- The file after `data` is copied to `offset`. -/
def overwrite (old : List UInt8) (offset : ℕ) (data : List UInt8) : List UInt8 :=
  let grown := grow (grow old offset) (offset + data.length)
  grown.take offset ++ data ++ grown.drop (offset + data.length)

/-- `ZeroFS::writeFile`. -/
def writeFile (fs : ZeroFS) (path : Str) (offset : ℕ) (data : List UInt8) :
    Except ZeroFSException ZeroFS := do
  let normalized ← normalizePath path
  let node ← fs.requireFile normalized
  if data.length > Binary.sizeMax - offset then
    fail .InvalidOffset "ZeroFS write offset overflows size_t"
  else
    pure ⟨fs.nodes.modify normalized fun _ => { node with data := overwrite node.data offset data }⟩

/-- The loop of `createDirectories` over the rest of the path; `before` is the part of the path in
front of the cursor. -/
def createDirectoriesFrom (before : Str) : List Str → Exec ZeroFSException ZeroFS Unit
  | [] => pure ()
  | component :: rest =>
      -- `cursor < normalized.size()`
      if component = [] ∧ rest = [] then pure ()
      else do
        let current := before ++ component
        let fs ← Exec.get
        match fs.nodes.find? current with
        | none => Exec.modify fun fs => ⟨fs.nodes.emplace current ⟨.Directory, []⟩⟩
        | some node =>
            if node.type ≠ .Directory then
              Exec.lift (fail .NotDirectory ("ZeroFS path component is a file: " ++ current))
            else pure ()
        createDirectoriesFrom (current ++ [kSlash]) rest

/-- `ZeroFS::createDirectories`: directories created before a throw stay. -/
def createDirectories (path : Str) : Exec ZeroFSException ZeroFS Unit := do
  let normalized ← Exec.lift (normalizePath path)
  if normalized = Str.ofString "/" then pure ()
  else createDirectoriesFrom (normalized.take 1) ((normalized.drop 1).splitOn kSlash)

/-- `ZeroFS::listDirectory`. -/
def listDirectory (fs : ZeroFS) (path : Str) : Except ZeroFSException (List Str) := do
  let normalized ← normalizePath path
  let node ← fs.requireNode normalized
  if node.type ≠ .Directory then
    fail .NotDirectory ("ZeroFS path is not a directory: " ++ normalized)
  else
    let entries := fs.nodes.keys.filter fun key =>
      key ≠ Str.ofString "/" ∧ parentPath key = normalized
    pure ((entries.map baseName).insertionSort (· ≤ ·))

/-- `ZeroFS::fileCount`. -/
def fileCount (fs : ZeroFS) : ℕ := fs.nodes.entries.countP fun entry => entry.2.type = .File

/-- `ZeroFS::directoryCount`. -/
def directoryCount (fs : ZeroFS) : ℕ :=
  fs.nodes.entries.countP fun entry => entry.2.type = .Directory

/-- `ZeroFS::ZeroFS`. -/
def new : Except ZeroFSException ZeroFS := do
  let fs : ZeroFS := ⟨SortedMap.empty.emplace (Str.ofString "/") ⟨.Directory, []⟩⟩
  let fs ← fs.createDirectory "/bin"
  let fs ← fs.createDirectory "/www"
  fs.createDirectory "/data"

end ZeroFS

end ZeroCpu.Sys
