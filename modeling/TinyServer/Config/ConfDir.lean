/-
`Config::LoadFromConfDir` (config.cpp) and `FSUtil::ListAllFile`
(util.cpp).

# Files

The file system is a tree; its modification times are the seconds that
`lstat` gives. `modify` is any change of it, at any time. A path is a
string; `.` and `..` are resolved in it, and there are no links.
`readdir` gives the entries of a directory as they are when the call
begins. `lstat` of a path that is not there leaves `st` as it is, which
is any value.

# Calls

A thread is in one call at a time. Its steps are the listing, and for
each file `lstat`, the section under `s_mutex`, and the load. Whether
`LoadFile` and `LoadFromYaml` go through for a file that is there is the
input of the load; of a file that is not there they do not.

# Ghost state

`had` is the content that a file had last with a modification time,
`applied` lists what was loaded without an exception, with the time and
the content at the load, and `failed` says of a file that its last load
threw.
-/
import TinyServer.Http.Basic

namespace TinyServer

open Http (Bytes ascii)

-- ======================================================================= files

/-- A directory, a regular file, or something else. -/
inductive FsNode
  | dir (mtime : UInt64) (entries : List (Bytes × FsNode))
  | reg (mtime : UInt64) (content : Bytes)
  | other (mtime : UInt64)

namespace FsNode

/-- `st_mtime`. -/
def mtime : FsNode → UInt64
  | dir m _ => m
  | reg m _ => m
  | other m => m

/-- The names in a path. -/
def names (path : Bytes) : List Bytes :=
  (path.splitOn 47).foldl (fun names name =>
    if name = [] ∨ name = ascii "." then names
    else if name = ascii ".." then names.dropLast
    else names ++ [name]) []

def descend : List Bytes → FsNode → Option FsNode
  | [], node => some node
  | name :: names, dir _ entries => (entries.lookup name).bind (descend names)
  | _ :: _, _ => none

/-- What is at a path. -/
def find (fs : FsNode) (path : Bytes) : Option FsNode :=
  fs.descend (names path)

/-- The test of a file's name. -/
def hasSubfix (subfix filename : Bytes) : Bool :=
  if subfix = [] then true
  else if filename.length < subfix.length then false
  else filename.drop (filename.length - subfix.length) = subfix

mutual

/-- `FSUtil::ListAllFile`, of the directory at `path`. -/
def listAllFile (subfix path : Bytes) : FsNode → List Bytes
  | dir _ entries => listDirents subfix path entries
  | _ => []

/-- The loop over `readdir`. -/
def listDirents (subfix path : Bytes) : List (Bytes × FsNode) → List Bytes
  | [] => []
  | (name, dir m entries) :: dirents =>
      (if name = ascii "." ∨ name = ascii ".." then []
        else listAllFile subfix (path ++ ascii "/" ++ name) (dir m entries))
      ++ listDirents subfix path dirents
  | (name, reg _ _) :: dirents =>
      (if hasSubfix subfix name then [path ++ ascii "/" ++ name] else [])
      ++ listDirents subfix path dirents
  | (_, other _) :: dirents => listDirents subfix path dirents

end

end FsNode

-- ======================================================================= calls

/-- The places of `LoadFromConfDir` in the body of its loop. -/
inductive ConfPlace
  /-- before `lstat` -/
  | next
  /-- before the section under `s_mutex` -/
  | statted (item : Bytes) (mtime : UInt64)
  /-- before `LoadFile` -/
  | loading (item : Bytes) (mtime : UInt64)

/-- A call: the files that are still to come, and the place. -/
structure ConfCall where
  files : List Bytes
  place : ConfPlace

/-- `s_file2modifytime` and the calls in progress, with the files. -/
structure ConfDirs where
  fs : FsNode
  file2modifytime : Bytes → Option UInt64
  calls : Nat → Option ConfCall
  had : Bytes → UInt64 → Option Bytes
  applied : List (Bytes × UInt64 × Bytes)
  failed : Bytes → Bool

/-- A change of the files, or the next step of thread `t`. -/
inductive ConfAct
  | modify (fs : FsNode)
  | call (t : Nat) (path : Bytes)
  | stat (t : Nat) (garbage : UInt64)
  | check (t : Nat)
  | load (t : Nat) (ok : Bool)
  | finish (t : Nat)

namespace ConfDirs

/-- What the files have, over what they had. -/
def look (fs : FsNode) (had : Bytes → UInt64 → Option Bytes) (item : Bytes)
    (m : UInt64) : Option Bytes :=
  match fs.find item with
  | some (.reg m' content) => if m' = m then some content else had item m
  | _ => had item m

/-- Nothing has been loaded. -/
def init (fs : FsNode) : ConfDirs where
  fs := fs
  file2modifytime := fun _ => none
  calls := fun _ => none
  had := look fs fun _ _ => none
  applied := []
  failed := fun _ => false

def setCall (s : ConfDirs) (t : Nat) (c : Option ConfCall) : ConfDirs :=
  { s with calls := fun u => if u = t then c else s.calls u }

/-- `s_file2modifytime[item] = m`. -/
def setTime (s : ConfDirs) (item : Bytes) (m : UInt64) : ConfDirs :=
  { s with
    file2modifytime := fun i =>
      if i = item then some m else s.file2modifytime i }

def setFailed (s : ConfDirs) (item : Bytes) (failed : Bool) : ConfDirs :=
  { s with failed := fun i => if i = item then failed else s.failed i }

/-- `LoadFile` and `LoadFromYaml`, in the `try` block. -/
def loadItem (s : ConfDirs) (item : Bytes) (ok : Bool) : ConfDirs :=
  match s.fs.find item with
  | some (.reg m content) =>
      if ok then
        { s with applied := s.applied ++ [(item, m, content)] }.setFailed item
          false
      else s.setFailed item true
  | some _ => s.setFailed item !ok
  | none => s.setFailed item true

/-- A step, when it can be taken. -/
def step (s : ConfDirs) : ConfAct → Option ConfDirs
  | .modify fs => some { s with fs := fs, had := look fs s.had }
  | .call t path =>
      match s.calls t with
      | some _ => none
      | none =>
          let files := match s.fs.find path with
            | some node => node.listAllFile (ascii ".yml") path
            | none => []
          some (s.setCall t (some ⟨files, .next⟩))
  | .stat t garbage =>
      match s.calls t with
      | some ⟨item :: files, .next⟩ =>
          let mtime := match s.fs.find item with
            | some node => node.mtime
            | none => garbage
          some (s.setCall t (some ⟨files, .statted item mtime⟩))
      | _ => none
  | .check t =>
      match s.calls t with
      | some ⟨files, .statted item mtime⟩ =>
          -- `operator[]` inserts 0 for a file without an entry
          let old := (s.file2modifytime item).getD 0
          let s := s.setTime item old
          if old = mtime then some (s.setCall t (some ⟨files, .next⟩))
          else
            some ((s.setTime item mtime).setCall t
              (some ⟨files, .loading item mtime⟩))
      | _ => none
  | .load t ok =>
      match s.calls t with
      | some ⟨files, .loading item _⟩ =>
          some ((s.loadItem item ok).setCall t (some ⟨files, .next⟩))
      | _ => none
  | .finish t =>
      match s.calls t with
      | some ⟨[], .next⟩ => some (s.setCall t none)
      | _ => none

end ConfDirs

end TinyServer
