import LogMaker.Spdlog.FileHelper
import LogMaker.Spdlog.Logger
import Mathlib.Data.List.Infix
/-!
# RotatingFileSink — spdlog's `rotating_file_sink`

The sink that keeps its file below a size: when a message would take the file over `max_size` the files are renamed,
`log.txt` to `log.1.txt` and so on up to `max_files`, and the file is begun anew.  A message is given here as the text
its formatter makes of it.  The files are all in one folder (`dirName_calcFilename`), and their names differ
(`calcFilename_injective`).
-/
namespace LogMaker
namespace Spdlog

/-- What of `rotating_file_sink` its constructor sets. -/
structure RotatingFileSink where
  baseFilename : CString
  maxSize : Nat
  maxFiles : Nat

/-- What of it changes. -/
structure Rotating where
  currentSize : Nat
  fileHelper : FileHelper

abbrev SinkM := EStateM Fault Rotating

/-- A call of the sink's `file_helper_`, or of the system. -/
def onFile {α : Type} (x : FileM α) : SinkM α := fun s =>
  match x s.fileHelper with
  | .ok a h => .ok a { s with fileHelper := h }
  | .error e h => .error e { s with fileHelper := h }

namespace RotatingFileSink

def calcFilename (filename : CString) (index : Nat) : CString :=
  if index = 0 then filename
  else
    let (basename, ext) := FileHelper.splitByExtension filename
    basename ++ ".".toList ++ Nat.toDigits 10 index ++ ext

variable (os : Os) (k : RotatingFileSink)

def renameFile (src target : CString) : FileM Bool := do
  let _ ← os.remove target
  os.rename src target

/-- What the loop of `rotate_` does for `i + 1`. -/
def rotateAt (i : Nat) : SinkM Unit := do
  let src := calcFilename k.baseFilename i
  let target := calcFilename k.baseFilename (i + 1)
  let found ← onFile (os.pathExists src)
  if found then do
    let renamed ← onFile (renameFile os src target)
    if renamed then pure ()
    else do
      let renamed ← onFile (renameFile os src target)
      if renamed then pure ()
      else do
        onFile (FileHelper.reopen os true)
        modify fun s => { s with currentSize := 0 }
        onFile (os.throwErrno ("rotating_file_sink: failed renaming ".toList ++ src ++ " to ".toList ++ target))
  else pure ()

/-- The loop, from `i` down. -/
def rotateFrom : Nat → SinkM Unit
  | 0 => pure ()
  | i + 1 => do
    rotateAt os k i
    rotateFrom i

/-- `rotate_`. -/
def rotate : SinkM Unit := do
  onFile (FileHelper.close os)
  rotateFrom os k k.maxFiles
  onFile (FileHelper.reopen os true)

/-- What `sink_it_` does before it writes: the new size it ends with. -/
def makeRoom (formatted : CString) : SinkM Nat := do
  let s ← get
  let newSize := (s.currentSize + formatted.length) % 2 ^ 64
  if k.maxSize < newSize then do
    onFile (FileHelper.flush os)
    let size ← onFile (FileHelper.size os)
    if 0 < size then do
      rotate os k
      pure formatted.length
    else pure newSize
  else pure newSize

/-- `sink_it_`. -/
def sinkIt (formatted : CString) : SinkM Unit := do
  let newSize ← makeRoom os k formatted
  onFile (FileHelper.write os formatted)
  modify fun s => { s with currentSize := newSize }

/-- `flush_`. -/
def flush : SinkM Unit := onFile (FileHelper.flush os)

/-- The constructor, over a helper that has opened nothing. -/
def construct (rotateOnOpen : Bool) : SinkM Unit :=
  if k.maxSize = 0 then throw (.thrown "rotating sink constructor: max_size arg cannot be zero".toList)
  else if 200000 < k.maxFiles then
    throw (.thrown "rotating sink constructor: max_files arg cannot exceed 200000".toList)
  else do
    onFile (FileHelper.openFile os (calcFilename k.baseFilename 0) false)
    let size ← onFile (FileHelper.size os)
    modify fun s => { s with currentSize := size }
    if rotateOnOpen && 0 < size then do
      rotate os k
      modify fun s => { s with currentSize := 0 }
    else pure ()

/-! ## Its calls -/

/-- The text a call logs, as the formatter makes it. -/
def logged (format : LogMsg → CString) : SinkCall → List CString
  | .log msg => [format msg]
  | .flush => []

/-- `log(msg)` and `flush()` of `base_sink`. -/
def call (format : LogMsg → CString) : SinkCall → SinkM Unit
  | .log msg => sinkIt os k (format msg)
  | .flush => flush os

/-- A call by one that catches its exceptions: what it throws. -/
def attempt (x : SinkM Unit) : SinkM (Option CString) := fun s =>
  match x s with
  | .ok () s' => .ok none s'
  | .error (.thrown what) s' => .ok (some what) s'
  | .error .undefined s' => .error .undefined s'

/-- Calls one after another: what each throws. -/
def run (format : LogMsg → CString) : List SinkCall → SinkM (List (Option CString))
  | [] => pure []
  | c :: cs => do
    let thrown ← attempt (call os k format c)
    let rest ← run format cs
    pure (thrown :: rest)

/-- A sink from its construction on. -/
def session (rotateOnOpen : Bool) (format : LogMsg → CString) (cs : List SinkCall) : SinkM (List (Option CString)) := do
  construct os k rotateOnOpen
  run os k format cs

end RotatingFileSink

/-! ## The names -/

namespace FileHelper

theorem rfind_lt {p : Char → Bool} {f : CString} {i : Nat} (h : rfind p f = some i) : i < f.length := by
  obtain ⟨j, hj, rfl⟩ := Option.map_eq_some_iff.1 h
  have hlt := List.findIdx?_eq_some_iff_findIdx_eq.1 hj
  rw [List.length_reverse] at hlt
  omega

/-- No such character is behind the last one. -/
theorem not_of_rfind {p : Char → Bool} {f : CString} {i : Nat} (h : rfind p f = some i) {j : Nat} (hj : i < j) :
    ∀ c ∈ f.drop j, p c = false := by
  intro c hc
  obtain ⟨n, hn, rfl⟩ := Option.map_eq_some_iff.1 h
  obtain ⟨hlt, -, hnot⟩ := List.findIdx?_eq_some_iff_getElem.1 hn
  rw [List.length_reverse] at hlt
  rw [← List.mem_reverse, List.reverse_drop] at hc
  obtain ⟨m, hm, rfl⟩ := List.mem_take_iff_getElem.1 hc
  exact Bool.eq_false_iff.2 (hnot m (by omega))

theorem not_of_rfind_none {p : Char → Bool} {f : CString} (h : rfind p f = none) : ∀ c ∈ f, p c = false := by
  intro c hc
  have hnone := List.findIdx?_eq_none_iff.1 (Option.map_eq_none_iff.1 h)
  exact hnone c (List.mem_reverse.2 hc)

theorem rfind_append {p : Char → Bool} (f : CString) {g : CString} (h : ∀ c ∈ g, p c = false) :
    rfind p (f ++ g) = rfind p f := by
  have hnone : g.reverse.findIdx? p = none :=
    List.findIdx?_eq_none_iff.2 (fun c hc => h c (List.mem_reverse.1 hc))
  unfold rfind
  rw [List.reverse_append, List.findIdx?_append, hnone, Option.none_or, Option.map_map]
  congr 1
  funext i
  simp only [Function.comp_apply, List.length_append, List.length_reverse]
  omega

/-- What has no separator in it is not in the name of the folder. -/
theorem dirName_append (f : CString) {g : CString} (h : ∀ c ∈ g, folderSeps.contains c = false) :
    dirName (f ++ g) = dirName f := by
  unfold dirName
  rw [rfind_append f h]
  cases hpos : rfind (folderSeps.contains ·) f with
  | some pos => exact List.take_append_of_le_length (Nat.le_of_lt (rfind_lt hpos))
  | none => rfl

theorem splitByExtension_append (f : CString) : (splitByExtension f).1 ++ (splitByExtension f).2 = f := by
  unfold splitByExtension
  split
  · exact List.append_nil f
  · split
    · exact List.append_nil f
    · split
      · exact List.take_append_drop ..
      · split
        · exact List.append_nil f
        · exact List.take_append_drop ..

/-- An extension has no separator in it. -/
theorem splitByExtension_seps (f : CString) : ∀ c ∈ (splitByExtension f).2, folderSeps.contains c = false := by
  unfold splitByExtension
  split
  · nofun
  · split
    · nofun
    · split
      · rename_i hnone
        exact fun c hc => not_of_rfind_none hnone c (List.mem_of_mem_drop hc)
      · rename_i hsome
        split
        · nofun
        · exact not_of_rfind hsome (by omega)

/-- The starting dot of a hidden file begins no extension. -/
example : splitByExtension "my_folder/.mylog".toList = ("my_folder/.mylog".toList, []) := by decide

example : splitByExtension "my_folder/.mylog.txt".toList = ("my_folder/.mylog".toList, ".txt".toList) := by decide

end FileHelper

namespace RotatingFileSink

open FileHelper (dirName dirName_append folderSeps splitByExtension splitByExtension_append splitByExtension_seps)

/-- **The files are in one folder.** -/
theorem dirName_calcFilename (f : CString) (i : Nat) : dirName (calcFilename f i) = dirName f := by
  unfold calcFilename
  split
  · rfl
  · have hseps : ∀ c ∈ ".".toList ++ (Nat.toDigits 10 i ++ (splitByExtension f).2), folderSeps.contains c = false := by
      intro c hc
      rcases List.mem_append.1 hc with hc | hc
      · obtain rfl := List.mem_singleton.1 hc
        decide
      · rcases List.mem_append.1 hc with hc | hc
        · have hdigit := Nat.isDigit_of_mem_toDigits (by decide) (by decide) hc
          refine Bool.eq_false_iff.2 (fun hsep => ?_)
          have hc : c = '\\' ∨ c = '/' := by simpa [folderSeps] using hsep
          rcases hc with rfl | rfl
          · exact absurd hdigit (by decide)
          · exact absurd hdigit (by decide)
        · exact splitByExtension_seps f c hc
    calc dirName ((splitByExtension f).1 ++ ".".toList ++ Nat.toDigits 10 i ++ (splitByExtension f).2)
      _ = dirName (splitByExtension f).1 := by
        rw [List.append_assoc, List.append_assoc, dirName_append _ hseps]
      _ = dirName ((splitByExtension f).1 ++ (splitByExtension f).2) := (dirName_append _ (splitByExtension_seps f)).symm
      _ = dirName f := by rw [splitByExtension_append]

/-- **No two of the files have one name.** -/
theorem calcFilename_injective (f : CString) : Function.Injective (calcFilename f) := by
  have hlong : ∀ i, i ≠ 0 → calcFilename f i ≠ f := by
    intro i hi h
    have hlen := congrArg List.length h
    have hsplit := congrArg List.length (splitByExtension_append f)
    unfold calcFilename at hlen
    rw [if_neg hi] at hlen
    simp only [List.length_append, String.length_toList] at hlen hsplit
    have hdot : ".".length = 1 := rfl
    omega
  intro i j h
  by_cases hi : i = 0
  · by_cases hj : j = 0
    · rw [hi, hj]
    · exact absurd (h.symm.trans (by rw [hi]; rfl)) (hlong j hj)
  · by_cases hj : j = 0
    · exact absurd (h.trans (by rw [hj]; rfl)) (hlong i hi)
    · unfold calcFilename at h
      rw [if_neg hi, if_neg hj] at h
      have hd := List.append_cancel_left (List.append_cancel_right h)
      calc i = Nat.ofDigitChars 10 (Nat.toDigits 10 i) 0 := Nat.ofDigitChars_ten_toDigits.symm
        _ = Nat.ofDigitChars 10 (Nat.toDigits 10 j) 0 := by rw [hd]
        _ = j := Nat.ofDigitChars_ten_toDigits

end RotatingFileSink

end Spdlog
end LogMaker
