import LogMaker.Dialog
import Mathlib.Logic.Function.Basic
import LogMaker.Lib.Ends
/-!
# FileHelper — spdlog's `file_helper` over a disk that may fail

The files a file sink writes: what is on the disk, the stream the helper has open with the characters it has buffered,
and the calls of the operating system in the order they are made.  `Os` says of each call by its number whether it
fails, and how much of its work a failed one has done; nothing else touches these files.  Renaming refuses a target
that exists, as it does on Windows.

Folders and the event handlers are left out, and the waits between two tries.
-/
namespace LogMaker
namespace Spdlog

/-- What a call ends with that does not return: a `spdlog_ex`, or a null stream given to `fwrite`. -/
inductive Fault where
  | thrown (what : CString)
  | undefined
  deriving DecidableEq

inductive OsCall where
  | pathExists
  | remove
  | rename
  | fopen
  | fclose
  | fflush
  | filesize
  | fwrite
  deriving DecidableEq

/-- The operating system, by the number of the call. -/
structure Os where
  fails : OsCall → Nat → Bool
  /-- How many characters a call that fails has still passed on. -/
  part : Nat → Nat
  /-- Whether a call that fails keeps in the buffer what it has not passed on. -/
  keeps : Nat → Bool
  /-- How many characters of its buffer `fwrite` passes on to the file. -/
  spill : Nat → Nat
  /-- The text of `errno`. -/
  error : Nat → CString

/-- An open stream of the C library. -/
structure Stream where
  name : CString
  buffer : CString

/-- `file_helper`, with the disk and the number of calls made. -/
structure FileHelper where
  disk : CString → Option CString
  calls : Nat
  fd : Option Stream
  filename : CString

abbrev FileM := EStateM Fault FileHelper

namespace FileHelper

def called (s : FileHelper) : FileHelper := { s with calls := s.calls + 1 }

def put (s : FileHelper) (f : CString) (text : Option CString) : FileHelper :=
  { s with disk := Function.update s.disk f text }

/-- Characters reach a file. -/
def extend (s : FileHelper) (f text : CString) : FileHelper := s.put f (some ((s.disk f).getD [] ++ text))

end FileHelper

/-! ## The calls of the system -/

namespace Os

variable (os : Os)

def pathExists (filename : CString) : FileM Bool := fun s =>
  .ok (!os.fails .pathExists s.calls && (s.disk filename).isSome) s.called

def remove (filename : CString) : FileM Bool := fun s =>
  if os.fails .remove s.calls || (s.disk filename).isNone then .ok false s.called
  else .ok true (s.called.put filename none)

def rename (src target : CString) : FileM Bool := fun s =>
  match s.disk src, s.disk target, os.fails .rename s.calls with
  | some text, none, false => .ok true ((s.called.put src none).put target (some text))
  | _, _, _ => .ok false s.called

/-- `fopen_s` in the mode `"wb"`, or else `"ab"`. -/
def fopen (filename : CString) (truncate : Bool) : FileM (Option Stream) := fun s =>
  if os.fails .fopen s.calls then .ok none s.called
  else
    .ok (some ⟨filename, []⟩) (s.called.put filename (some (if truncate then [] else (s.disk filename).getD [])))

def fclose (fd : Stream) : FileM Unit := fun s =>
  .ok () (s.called.extend fd.name
    (if os.fails .fclose s.calls then fd.buffer.take (os.part s.calls) else fd.buffer))

/-- `fflush(fd_)`; of a null stream it flushes the streams of others. -/
def fflush : FileM Bool := fun s =>
  match s.fd, os.fails .fflush s.calls with
  | none, failed => .ok (!failed) s.called
  | some fd, false => .ok true { s.called.extend fd.name fd.buffer with fd := some { fd with buffer := [] } }
  | some fd, true =>
    .ok false { s.called.extend fd.name (fd.buffer.take (os.part s.calls)) with
      fd := some { fd with buffer := if os.keeps s.calls then fd.buffer.drop (os.part s.calls) else [] } }

/-- What the file holds, without what is still buffered; `none` is a negative length. -/
def filelength (fd : Stream) : FileM (Option Nat) := fun s =>
  .ok (if os.fails .filesize s.calls then none else some ((s.disk fd.name).getD []).length) s.called

/-- `fwrite(data, 1, size, fd_)`: the number of characters it took.  One that took too few may have lost some of what was
buffered before. -/
def fwrite (data : CString) : FileM Nat := fun s =>
  match s.fd with
  | none => .error .undefined s
  | some fd =>
    let n := os.spill s.calls
    let taken := if os.fails .fwrite s.calls then data.take (os.part s.calls) else data
    let kept := if taken.length < data.length && !os.keeps s.calls then fd.buffer.take n else fd.buffer
    let buffer := kept ++ taken
    .ok taken.length { s.called.extend fd.name (buffer.take n) with fd := some { fd with buffer := buffer.drop n } }

/-- `throw_spdlog_ex(msg, errno)`. -/
def throwErrno {α : Type} (msg : CString) : FileM α := do
  let s ← get
  throw (.thrown (msg ++ ": ".toList ++ os.error s.calls))

def filesize (fd : Stream) : FileM Nat := do
  match ← os.filelength fd with
  | some n => pure n
  | none => os.throwErrno "Failed getting file size from fd".toList

end Os

/-! ## The helper -/

namespace FileHelper

variable (os : Os)

def close : FileM Unit := do
  let s ← get
  match s.fd with
  | none => pure ()
  | some fd => do
    os.fclose fd
    modify fun s => { s with fd := none }

/-- Opening and closing in the mode `"wb"`: whether it succeeded. -/
def truncateFile (fname : CString) : FileM Bool := do
  match ← os.fopen fname true with
  | none => pure false
  | some tmp => do
    os.fclose tmp
    pure true

/-- The loop of `open` with the tries left. -/
def openTries (fname : CString) (truncate : Bool) : Nat → FileM Unit
  | 0 => do
    let s ← get
    os.throwErrno ("Failed opening file ".toList ++ s.filename ++ " for writing".toList)
  | tries + 1 => do
    let cut ← (if truncate then truncateFile os fname else pure true)
    if cut then
      match ← os.fopen fname false with
      | some fd => modify fun s => { s with fd := some fd }
      | none => openTries fname truncate tries
    else openTries fname truncate tries

/-- `open_tries_`. -/
def openTriesMax : Nat := 5

/-- `open(fname, truncate)`. -/
def openFile (fname : CString) (truncate : Bool) : FileM Unit := do
  close os
  modify fun s => { s with filename := fname }
  openTries os fname truncate openTriesMax

def reopen (truncate : Bool) : FileM Unit := do
  let s ← get
  if s.filename = [] then throw (.thrown "Failed re opening file - was not opened before".toList)
  else openFile os s.filename truncate

def flush : FileM Unit := do
  let done ← os.fflush
  if done then pure ()
  else do
    let s ← get
    os.throwErrno ("Failed flush to file ".toList ++ s.filename)

def write (buf : CString) : FileM Unit := do
  let n ← os.fwrite buf
  if n = buf.length then pure ()
  else do
    let s ← get
    os.throwErrno ("Failed writing to file ".toList ++ s.filename)

def size : FileM Nat := do
  let s ← get
  match s.fd with
  | none => throw (.thrown ("Cannot use size() on closed file ".toList ++ s.filename))
  | some fd => os.filesize fd

/-! ## File names -/

/-- `rfind`: where the last such character is. -/
def rfind (p : Char → Bool) (fname : CString) : Option Nat :=
  (fname.reverse.findIdx? p).map (fun i => fname.length - 1 - i)

/-- `folder_seps_filename`. -/
def folderSeps : CString := "\\/".toList

/-- `os::dir_name`. -/
def dirName (path : CString) : CString := match rfind (folderSeps.contains ·) path with
  | some pos => path.take pos
  | none => []

def splitByExtension (fname : CString) : CString × CString :=
  match rfind (· == '.') fname with
  | none => (fname, [])
  | some extIndex =>
    if extIndex = 0 ∨ extIndex = fname.length - 1 then (fname, [])
    else
      match rfind (folderSeps.contains ·) fname with
      | none => (fname.take extIndex, fname.drop extIndex)
      | some folderIndex =>
        if extIndex - 1 ≤ folderIndex then (fname, []) else (fname.take extIndex, fname.drop extIndex)

end FileHelper

end Spdlog
end LogMaker
