import LogMaker.Spdlog.FileRuns
import LogMaker.Spdlog.FileArchive
/-!
# FileSession — the rotating file sink from its construction on

The constructor opens the file that is there, whatever its size, and may close it at once (`construct_ends`).  What
holds of every run then holds of every session over any disk: what is kept (`session_kept`), the sizes
(`session_sizes`), the stream (`session_opens`) and, where nothing fails, the files that are left (`session_archive`).
-/
namespace LogMaker
namespace Spdlog

open RotatingFileSink (calcFilename calcFilename_injective current counted logged)

section
variable {os : Os} {k : RotatingFileSink} {s s' : Rotating}

/-- How the constructor leaves a sink that it has made. -/
structure Ready (os : Os) (k : RotatingFileSink) (rotateOnOpen : Bool) (s s' : Rotating) : Prop where
  on : s'.On k
  opened : s'.fileHelper.fd.isSome
  size : s'.currentSize = (k.current s'.fileHelper.file).length
  moved : Moved (calcFilename k.baseFilename) k.maxFiles s.fileHelper.file s'.fileHelper.file
  allowed : k.maxSize ≠ 0 ∧ k.maxFiles ≤ 200000
  exact : os.Fails .fclose ∨ os.Fails .pathExists ∨ s'.fileHelper.file =
    let F := k.append s.fileHelper.file []
    if rotateOnOpen = true ∧ k.current F ≠ [] then
      Function.update (upFrom (calcFilename k.baseFilename) k.maxFiles F) k.baseFilename (some [])
    else F

theorem opened_sink (hfd : s.fileHelper.fd = none) :
    Ends (onFile (FileHelper.openFile os (calcFilename k.baseFilename 0) false)) s
      (fun _ s' => s'.On k ∧ s'.fileHelper.fd = some ⟨k.baseFilename, []⟩ ∧
        s'.fileHelper.file = k.append s.fileHelper.file [])
      (fun e s' => os.Fails .fopen ∧ e ≠ .undefined ∧ s'.fileHelper.file = s.fileHelper.file) := by
  refine (onFile_ends (FileHelper.openFile_ends _ false hfd)).mono ?_ ?_
  · rintro - s' ⟨-, hfd', hname, hfile⟩
    have happend : s'.fileHelper.file = k.append s.fileHelper.file [] := by
      unfold RotatingFileSink.append
      rw [List.append_nil]
      exact hfile
    refine ⟨⟨hname, ?_⟩, hfd', happend⟩
    intro fd hsome
    rw [hfd'] at hsome
    cases hsome
    rw [FileHelper.file_of_unbuffered (FileHelper.buffered_of_fresh hfd')] at happend
    refine ⟨rfl, k.current s.fileHelper.file ++ [], ?_⟩
    rw [happend]
    exact Function.update_self ..
  · rintro e s' ⟨-, hfails, he, -, -, hfile⟩
    exact ⟨hfails, he, hfile.resolve_right (fun h => by cases h.1)⟩

theorem moved_append_nil (k : RotatingFileSink) (F : Files) :
    Moved (calcFilename k.baseFilename) k.maxFiles F (k.append F []) := by
  refine .cut (calcFilename_injective _) (Nat.zero_le _) ?_
  show k.current F ++ [] <+: k.current F
  rw [List.append_nil]

/-- A file that is kept as it is. -/
theorem Ready.kept {rotateOnOpen : Bool} (hon : s'.On k) (hopen : s'.fileHelper.fd.isSome)
    (hc : s'.currentSize = (k.current s'.fileHelper.file).length)
    (hfile : s'.fileHelper.file = k.append s.fileHelper.file [])
    (hkeep : ¬(rotateOnOpen = true ∧ 0 < s'.currentSize)) (hallowed : k.maxSize ≠ 0 ∧ k.maxFiles ≤ 200000) :
    Ready os k rotateOnOpen s s' := by
  refine ⟨hon, hopen, hc, hfile ▸ moved_append_nil k _, hallowed, .inr (.inr ?_)⟩
  rw [hc, hfile, List.length_pos_iff] at hkeep
  rw [hfile, if_neg hkeep]

/-- A file that is closed at once. -/
theorem rotate_ready {s₁ : Rotating} (hon : s₁.On k) (hfile : s₁.fileHelper.file = k.append s.fileHelper.file [])
    (hfull : k.current s₁.fileHelper.file ≠ []) (hallowed : k.maxSize ≠ 0 ∧ k.maxFiles ≤ 200000) :
    Ends (do
        RotatingFileSink.rotate os k
        modify fun s => { s with currentSize := 0 } : SinkM Unit) s₁
      (fun _ s' => Ready os k true s s')
      (fun e s' => e ≠ .undefined ∧
        Moved (calcFilename k.baseFilename) k.maxFiles s.fileHelper.file s'.fileHelper.file ∧
        (k.baseFilename = [] ∨ ∃ c, os.Fails c)) := by
  have hmoved₁ : Moved (calcFilename k.baseFilename) k.maxFiles s.fileHelper.file s₁.fileHelper.file :=
    hfile ▸ moved_append_nil k _
  refine Ends.bind ((rotate_ends hon).mono (fun _ _ => id) ?_) ?_
  · intro e s₂ hs₂
    refine ⟨hs₂.thrown, hmoved₁.trans hs₂.moved, ?_⟩
    obtain h | h | h | h := hs₂.fails
    · exact .inr ⟨_, h⟩
    · exact .inr ⟨_, h⟩
    · exact .inr ⟨_, h⟩
    · exact .inl h
  · rintro - s₂ ⟨-, hon₂, hfd₂, htext, hmoved₂, hexact⟩
    refine ends_modify ⟨hon₂, ?_, ?_, hmoved₁.trans hmoved₂, hallowed, ?_⟩
    · show s₂.fileHelper.fd.isSome
      rw [hfd₂]
      rfl
    · show 0 = (k.current s₂.fileHelper.file).length
      rw [RotatingFileSink.current, htext]
      rfl
    · rw [hfile] at hfull hexact
      rw [if_pos ⟨rfl, hfull⟩]
      exact hexact

/-- **The constructor** throws and leaves the files as they were, or moved and cut, or has opened the file. -/
theorem construct_ends (hfd : s.fileHelper.fd = none) (rotateOnOpen : Bool) :
    Ends (RotatingFileSink.construct os k rotateOnOpen) s (fun _ s' => Ready os k rotateOnOpen s s')
      (fun e s' => e ≠ .undefined ∧
        Moved (calcFilename k.baseFilename) k.maxFiles s.fileHelper.file s'.fileHelper.file ∧
        (k.maxSize = 0 ∨ 200000 < k.maxFiles ∨ k.baseFilename = [] ∨ ∃ c, os.Fails c)) := by
  unfold RotatingFileSink.construct
  split
  · exact ends_throw ⟨nofun, .refl, .inl ‹_›⟩
  rename_i hsize
  split
  · exact ends_throw ⟨nofun, .refl, .inr (.inl ‹_›)⟩
  rename_i hfiles
  have hallowed : k.maxSize ≠ 0 ∧ k.maxFiles ≤ 200000 := ⟨hsize, Nat.le_of_not_lt hfiles⟩
  refine Ends.bind ((opened_sink hfd).mono (fun _ _ => id) ?_) ?_
  · rintro e s' ⟨hfails, he, hfile⟩
    exact ⟨he, hfile ▸ .refl, .inr (.inr (.inr ⟨_, hfails⟩))⟩
  rintro - s₁ ⟨hon₁, hfd₁, hfile₁⟩
  refine Ends.bind ((onFile_ends (FileHelper.size_ends hon₁)).mono (fun _ _ => id) ?_) ?_
  · rintro e s₂ ⟨-, hfails, he, -, hfile₂, -⟩
    have hfails := hfails.resolve_left (fun hnone => by rw [hfd₁] at hnone; cases hnone)
    exact ⟨he, by rw [hfile₂, hfile₁]; exact moved_append_nil k _, .inr (.inr (.inr ⟨_, hfails⟩))⟩
  rintro n s₂ ⟨-, hon₂, hfile₂, hfd₂, fd, -, hn⟩
  have hlen : n = (k.current s₂.fileHelper.file).length := by
    rw [hn, hfile₂, FileHelper.file_of_unbuffered (FileHelper.buffered_of_fresh hfd₁)]
    rfl
  rw [hfile₁] at hfile₂
  refine ends_bind (ends_modify ?_)
  split
  · rename_i hrotate
    obtain ⟨rfl, hpos⟩ := Bool.and_eq_true_iff.1 hrotate
    have hfull : k.current s₂.fileHelper.file ≠ [] := by
      rw [← List.length_pos_iff, ← hlen]
      exact of_decide_eq_true hpos
    exact (@rotate_ready os k s { s₂ with currentSize := n } hon₂ hfile₂ hfull hallowed).mono (fun _ _ => id)
      (fun _ _ h => ⟨h.1, h.2.1, .inr (.inr h.2.2)⟩)
  · rename_i hkeep
    rw [Bool.and_eq_true_iff, decide_eq_true_iff] at hkeep
    refine ends_pure (.kept hon₂ ?_ hlen hfile₂ hkeep hallowed)
    show s₂.fileHelper.fd.isSome
    rw [hfd₂, hfd₁]
    rfl

/-! ## Sessions -/

/-- **Whatever fails, the files hold what they held and what was logged**: from the oldest file to the newest, some of
the pieces in their order, each whole or cut and in one file; and no other file is touched, nor any in another
folder. -/
theorem session_kept (os : Os) (k : RotatingFileSink) (rotateOnOpen : Bool) (format : LogMsg → CString)
    (cs : List SinkCall) (s : Rotating) (hfd : s.fileHelper.fd = none) :
    Ends (RotatingFileSink.session os k rotateOnOpen format cs) s
      (fun _ s' => Keeps k (cs.flatMap (logged format)) s.fileHelper.file s'.fileHelper.file ∧
        k.Within s.fileHelper.file s'.fileHelper.file)
      (fun _ s' => Keeps k (cs.flatMap (logged format)) s.fileHelper.file s'.fileHelper.file ∧
        k.Within s.fileHelper.file s'.fileHelper.file) := by
  have hall : ∀ F, Keeps k (cs.flatMap (logged format)) s.fileHelper.file F →
      Keeps k (cs.flatMap (logged format)) s.fileHelper.file F ∧ k.Within s.fileHelper.file F :=
    fun _ h => ⟨h, h.within⟩
  refine Ends.bind ((construct_ends hfd rotateOnOpen).mono (fun _ _ => id) ?_) ?_
  · rintro e s' ⟨-, hmoved, -⟩
    exact hall _ (hmoved.keeps.more _)
  · intro _ s₁ hs₁
    exact (run_kept os k format cs s₁ hs₁.on).mono (fun _ _ h => hall _ (hs₁.moved.keeps.trans h))
      (fun _ _ h => hall _ (hs₁.moved.keeps.trans h))

/-- No file at all. -/
def emptyDisk : Rotating := ⟨0, ⟨fun _ => none, 0, none, []⟩⟩

def threeLines : List SinkCall := [line ['a', 'b'], line ['c', 'd'], line ['e']]

/-- The first message is lost where its file cannot be renamed. -/
theorem session_kept_noRename :
    Ends (RotatingFileSink.session noRename twoFiles false LogMsg.payload threeLines) emptyDisk
      (fun thrown s' => thrown.map Option.isSome = [false, true, false] ∧
        twoFiles.current s'.fileHelper.file = ['e']) (fun _ _ => False) ∧
    Ends (RotatingFileSink.session noRename twoFiles false LogMsg.payload threeLines) emptyDisk
      (fun _ s' => Keeps twoFiles [['a', 'b'], ['c', 'd'], ['e']] emptyDisk.fileHelper.file s'.fileHelper.file ∧
        twoFiles.Within emptyDisk.fileHelper.file s'.fileHelper.file)
      (fun _ s' => Keeps twoFiles [['a', 'b'], ['c', 'd'], ['e']] emptyDisk.fileHelper.file s'.fileHelper.file ∧
        twoFiles.Within emptyDisk.fileHelper.file s'.fileHelper.file) :=
  ⟨by decide +kernel, session_kept _ _ _ _ _ _ rfl⟩

/-- **No file grows over the size that is set, but by one message alone**, whatever is not removed, renamed, opened or
flushed; what was over it before may stay. -/
theorem session_sizes (os : Os) (k : RotatingFileSink) (rotateOnOpen : Bool) (format : LogMsg → CString)
    (cs : List SinkCall) (s : Rotating) (hfd : s.fileHelper.fd = none) (hw : ¬os.Fails .fwrite)
    (hlt : (k.current s.fileHelper.file).length + ((cs.flatMap (logged format)).map List.length).sum < 2 ^ 64) :
    Ends (RotatingFileSink.session os k rotateOnOpen format cs) s
      (fun _ s' => ∀ i ≤ k.maxFiles,
        Sized k (cs.flatMap (logged format)) s.fileHelper.file (k.texts s'.fileHelper.file i))
      (fun _ s' => ∀ i ≤ k.maxFiles,
        Sized k (cs.flatMap (logged format)) s.fileHelper.file (k.texts s'.fileHelper.file i)) := by
  have hsized : ∀ F, Moved (calcFilename k.baseFilename) k.maxFiles s.fileHelper.file F →
      ∀ i ≤ k.maxFiles, Sized k (cs.flatMap (logged format)) s.fileHelper.file (k.texts F i) := fun F hmoved =>
    hmoved.moves.all (.inl (Nat.zero_le _)) (fun _ _ ht => Sized.cut ht)
      (fun i hi => .inr (.inr ⟨i, hi, List.prefix_refl _⟩))
  refine Ends.bind ((construct_ends hfd rotateOnOpen).mono (fun _ _ => id) (fun _ _ h => hsized _ h.2.1)) ?_
  intro _ s₁ hs₁
  have hcur := hs₁.moved.moves.newest.length_le
  have hlater : ∀ t, Sized k (cs.flatMap (logged format)) s₁.fileHelper.file t →
      Sized k (cs.flatMap (logged format)) s.fileHelper.file t := by
    rintro t (h | h | ⟨j, hj, h⟩)
    · exact .inl h
    · exact .inr (.inl h)
    · exact Sized.cut h (hsized _ hs₁.moved j hj)
  refine (run_sizes os k format cs s₁ hs₁.on hw (Nat.le_of_eq hs₁.size.symm) ?_).mono
    (fun _ _ h i hi => hlater _ (h i hi)) (fun _ _ h i hi => hlater _ (h i hi))
  rw [hs₁.size]
  exact Nat.lt_of_le_of_lt (Nat.add_le_add_right hcur _) hlt

/-- One message alone is over the size. -/
theorem session_sizes_noRename :
    Ends (RotatingFileSink.session noRename twoFiles true LogMsg.payload [line ['a', 'b', 'c', 'd'], line ['e']])
      emptyDisk (fun thrown s' => thrown.map Option.isSome = [false, true] ∧
        twoFiles.current s'.fileHelper.file = []) (fun _ _ => False) ∧
    Ends (RotatingFileSink.session noRename twoFiles true LogMsg.payload [line ['a', 'b', 'c', 'd'], line ['e']])
      emptyDisk
      (fun _ s' => ∀ i ≤ 1, Sized twoFiles [['a', 'b', 'c', 'd'], ['e']] emptyDisk.fileHelper.file
        (twoFiles.texts s'.fileHelper.file i))
      (fun _ s' => ∀ i ≤ 1, Sized twoFiles [['a', 'b', 'c', 'd'], ['e']] emptyDisk.fileHelper.file
        (twoFiles.texts s'.fileHelper.file i)) :=
  ⟨by decide +kernel, session_sizes _ _ _ _ _ _ rfl (noRename_fails nofun) (by decide)⟩

/-- **Where every file can be opened, nothing is ever written to a null stream**, whatever else fails. -/
theorem session_opens (os : Os) (k : RotatingFileSink) (rotateOnOpen : Bool) (format : LogMsg → CString)
    (cs : List SinkCall) (s : Rotating) (hfd : s.fileHelper.fd = none) (hbase : k.baseFilename ≠ [])
    (ho : ¬os.Fails .fopen) :
    Ends (RotatingFileSink.session os k rotateOnOpen format cs) s (fun _ s' => s'.fileHelper.fd.isSome)
      (fun e _ => e ≠ .undefined) := by
  refine Ends.bind ((construct_ends hfd rotateOnOpen).mono (fun _ _ => id) (fun _ _ => And.left)) ?_
  intro _ s₁ hs₁
  exact (run_opens os k format cs s₁ hbase ho hs₁.on hs₁.opened).mono (fun _ _ => id) (fun _ _ => False.elim)

theorem session_opens_noRename :
    Ends (RotatingFileSink.session noRename twoFiles false LogMsg.payload threeLines) emptyDisk
      (fun thrown _ => thrown.map Option.isSome = [false, true, false]) (fun _ _ => False) ∧
    Ends (RotatingFileSink.session noRename twoFiles false LogMsg.payload threeLines) emptyDisk
      (fun _ s' => s'.fileHelper.fd.isSome) (fun e _ => e ≠ .undefined) :=
  ⟨by decide +kernel, session_opens _ _ _ _ _ _ rfl (List.cons_ne_nil _ _) (noRename_fails nofun)⟩

theorem Ready.shows {rotateOnOpen : Bool} {closed : Recent CString k.maxFiles} (hos : ∀ c, ¬os.Fails c)
    (h : Ready os k rotateOnOpen s s')
    (hclosed : ∀ i < k.maxFiles, s.fileHelper.file (calcFilename k.baseFilename (i + 1)) = closed.items.reverse[i]?) :
    s'.Shows k (if rotateOnOpen = true ∧ k.current s.fileHelper.file ≠ [] then
      (Archive.mk closed (k.current s.fileHelper.file)).close else ⟨closed, k.current s.fileHelper.file⟩) := by
  have hfiled := filed_append [] hclosed
  have hexact := (h.exact.resolve_left (hos _)).resolve_left (hos _)
  dsimp only at hexact
  rw [hfiled.text, List.append_nil] at hexact
  rw [List.append_nil] at hfiled
  have hfiles : Filed k s'.fileHelper.file (if rotateOnOpen = true ∧ k.current s.fileHelper.file ≠ [] then
      (Archive.mk closed (k.current s.fileHelper.file)).close else ⟨closed, k.current s.fileHelper.file⟩) := by
    rw [hexact]
    split
    · exact hfiled.rotated
    · exact hfiled
  exact ⟨h.on, h.opened, by rw [h.size, hfiles.text], hfiles⟩

/-- **A session is one of the archive it finds**, and nothing is thrown. -/
theorem session_shows (os : Os) (k : RotatingFileSink) (rotateOnOpen : Bool) (format : LogMsg → CString)
    (cs : List SinkCall) (s : Rotating) (closed : Recent CString k.maxFiles) (hfd : s.fileHelper.fd = none)
    (hos : ∀ c, ¬os.Fails c) (hbase : k.baseFilename ≠ []) (hsize : k.maxSize ≠ 0) (hfiles : k.maxFiles ≤ 200000)
    (hclosed : ∀ i < k.maxFiles, s.fileHelper.file (calcFilename k.baseFilename (i + 1)) = closed.items.reverse[i]?)
    (hlt : (k.current s.fileHelper.file).length + ((cs.flatMap (logged format)).map List.length).sum < 2 ^ 64) :
    let a : Archive Char k.maxFiles := ⟨closed, k.current s.fileHelper.file⟩
    let a₀ := if rotateOnOpen = true ∧ a.current ≠ [] then a.close else a
    Ends (RotatingFileSink.session os k rotateOnOpen format cs) s
      (fun thrown s' => thrown = cs.map (fun _ => none) ∧
        s'.Shows k (a₀.logs k.maxSize (cs.flatMap (logged format))))
      (fun _ _ => False) := by
  intro a a₀
  have hle : a₀.current.length ≤ (k.current s.fileHelper.file).length := by
    dsimp only [a₀]
    split
    · exact Nat.zero_le _
    · exact Nat.le_refl _
  refine Ends.bind ((construct_ends hfd rotateOnOpen).mono (fun _ _ => id) ?_) ?_
  · rintro e s' ⟨-, -, h | h | h | ⟨c, h⟩⟩
    · exact hsize h
    · exact absurd h (Nat.not_lt_of_le hfiles)
    · exact hbase h
    · exact hos c h
  · intro _ s₁ hs₁
    exact run_shows os k format cs s₁ a₀ hos hbase (hs₁.shows hos hclosed)
      (Nat.lt_of_le_of_lt (Nat.add_le_add_right hle _) hlt)

/-- **The files are the last of those that packing what is logged makes**, after the ones there were: nothing is thrown,
and the closed files and the one that is being written hold the messages in order, none cut. -/
theorem session_archive (os : Os) (k : RotatingFileSink) (rotateOnOpen : Bool) (format : LogMsg → CString)
    (cs : List SinkCall) (s : Rotating) (closed : Recent CString k.maxFiles) (hfd : s.fileHelper.fd = none)
    (hos : ∀ c, ¬os.Fails c) (hbase : k.baseFilename ≠ []) (hsize : k.maxSize ≠ 0) (hfiles : k.maxFiles ≤ 200000)
    (hclosed : ∀ i < k.maxFiles, s.fileHelper.file (calcFilename k.baseFilename (i + 1)) = closed.items.reverse[i]?)
    (hlt : (k.current s.fileHelper.file).length + ((cs.flatMap (logged format)).map List.length).sum < 2 ^ 64) :
    let a : Archive Char k.maxFiles := ⟨closed, k.current s.fileHelper.file⟩
    let a₀ := if rotateOnOpen = true ∧ a.current ≠ [] then a.close else a
    let files := Archive.pack k.maxSize a₀.current (cs.flatMap (logged format))
    Ends (RotatingFileSink.session os k rotateOnOpen format cs) s
      (fun thrown s' => thrown = cs.map (fun _ => none) ∧ ∃ a' : Archive Char k.maxFiles, s'.Shows k a' ∧
        a'.closed.items = (a₀.closed.items ++ files.1).rtake k.maxFiles ∧ a'.current = files.2)
      (fun _ _ => False) ∧
    files.1.flatten ++ files.2 = a₀.current ++ (cs.flatMap (logged format)).flatten := by
  intro a a₀ files
  refine ⟨?_, Archive.flatten_pack ..⟩
  refine (session_shows os k rotateOnOpen format cs s closed hfd hos hbase hsize hfiles hclosed hlt).mono ?_
    (fun _ _ => id)
  rintro thrown s' ⟨hthrown, hs'⟩
  exact ⟨hthrown, _, hs', Archive.items_logs .., Archive.current_logs ..⟩

/-- Read from the oldest file to the newest, the files hold what the archive holds. -/
theorem Filed.held {F : Files} {a : Archive Char k.maxFiles} (h : Filed k F a) :
    Shelf.stack (k.texts F) k.maxFiles = a.held := by
  have hstack : ∀ n ≤ k.maxFiles,
      Shelf.stack (k.texts F) n = (a.closed.items.reverse.take n).reverse.flatten ++ a.current := by
    intro n hn
    induction n with
    | zero => exact congrArg (Option.getD · []) h.current
    | succ n ih =>
      have htext : k.texts F (n + 1) = (a.closed.items.reverse[n]?).getD [] :=
        congrArg (Option.getD · []) (h.closed n hn)
      rw [Shelf.stack, htext, ih (Nat.le_of_succ_le hn), List.take_add_one, List.reverse_append, List.flatten_append,
        ← List.append_assoc]
      congr 2
      cases a.closed.items.reverse[n]? with
      | none => rfl
      | some text => exact (List.append_nil text).symm
  rw [hstack _ (Nat.le_refl _), List.take_of_length_le (by rw [List.length_reverse]; exact a.closed.length_le),
    List.reverse_reverse]
  rfl

/-- **What is lost is lost for room only**: over one file at most, what the files hold is the end of what was written,
and less than all of it only if that is so much. -/
theorem session_retains (os : Os) (k : RotatingFileSink) (rotateOnOpen : Bool) (format : LogMsg → CString)
    (cs : List SinkCall) (s : Rotating) (hfd : s.fileHelper.fd = none) (hos : ∀ c, ¬os.Fails c)
    (hbase : k.baseFilename ≠ []) (hsize : k.maxSize ≠ 0) (hfiles : k.maxFiles ≤ 200000)
    (hone : ∀ i < k.maxFiles, s.fileHelper.file (calcFilename k.baseFilename (i + 1)) = none)
    (hlt : (k.current s.fileHelper.file).length + ((cs.flatMap (logged format)).map List.length).sum < 2 ^ 64) :
    let written := k.current s.fileHelper.file ++ (cs.flatMap (logged format)).flatten
    Ends (RotatingFileSink.session os k rotateOnOpen format cs) s
      (fun _ s' =>
        let held := Shelf.stack (k.texts s'.fileHelper.file) k.maxFiles
        held <:+ written ∧ (held = written ∨ (k.maxFiles + 1) / 2 * (k.maxSize + 1) ≤ held.length))
      (fun _ _ => False) := by
  intro written
  refine (session_shows os k rotateOnOpen format cs s .empty hfd hos hbase hsize hfiles hone hlt).mono ?_
    (fun _ _ => id)
  rintro - s' ⟨-, hs'⟩
  let a : Archive Char k.maxFiles := ⟨.empty, k.current s.fileHelper.file⟩
  let a₀ := if rotateOnOpen = true ∧ a.current ≠ [] then a.close else a
  have hfound : a₀.closed.items.length ≤ 1 ∧ a₀.held <:+ a.held ∧ (a₀.held = a.held ∨ k.maxFiles = 0) := by
    dsimp only [a₀]
    split
    · refine ⟨?_, Archive.held_close_suffix a, ?_⟩
      · exact (Recent.length_rtake _ _).trans_le (Nat.min_le_right ..)
      · exact (Nat.eq_zero_or_pos k.maxFiles).symm.imp_left Archive.held_close
    · exact ⟨Nat.zero_le 1, List.suffix_refl _, .inl rfl⟩
  obtain ⟨hle, ⟨lost, hlost⟩, hall⟩ := hfound
  obtain ⟨⟨more, hmore⟩, hmuch⟩ := Archive.held_logs k.maxSize a₀ (cs.flatMap (logged format)) hle
  dsimp only
  rw [hs'.files.held]
  refine ⟨⟨lost ++ more, ?_⟩, ?_⟩
  · rw [List.append_assoc, hmore, ← List.append_assoc, hlost]
    rfl
  · obtain hall | hzero := hall
    · exact hmuch.imp_left (fun h => h.trans (by rw [hall]; rfl))
    · right
      rw [hzero]
      exact (Nat.zero_mul _).trans_le (Nat.zero_le _)

end

/-- A system on which no call fails. -/
def steady : Os := ⟨fun _ _ => false, fun _ => 0, fun _ => false, fun _ => 1, fun _ => []⟩

theorem steady_fails (c : OsCall) : ¬steady.Fails c := fun ⟨_, h⟩ => Bool.false_ne_true h

theorem session_archive_steady :
    Ends (RotatingFileSink.session steady twoFiles false LogMsg.payload threeLines) emptyDisk
      (fun _ s' => s'.fileHelper.disk ['f', '.', '1'] = some ['a', 'b']) (fun _ _ => False) ∧
    Ends (RotatingFileSink.session steady twoFiles false LogMsg.payload threeLines) emptyDisk
      (fun thrown s' => thrown = [none, none, none] ∧ ∃ a' : Archive Char 1, s'.Shows twoFiles a' ∧
        a'.closed.items = [['a', 'b']] ∧ a'.current = ['c', 'd', 'e'])
      (fun _ _ => False) :=
  ⟨by decide +kernel, (session_archive steady twoFiles false LogMsg.payload threeLines emptyDisk Recent.empty rfl
    steady_fails (List.cons_ne_nil _ _) (by decide) (by decide) (fun _ _ => rfl) (by decide)).1⟩

def threePairs : List SinkCall := [line ['a', 'b'], line ['c', 'd'], line ['e', 'f']]

/-- The files hold no more than they have to. -/
theorem session_retains_steady :
    Ends (RotatingFileSink.session steady twoFiles false LogMsg.payload threePairs) emptyDisk
      (fun _ s' => Shelf.stack (twoFiles.texts s'.fileHelper.file) 1 = ['c', 'd', 'e', 'f']) (fun _ _ => False) ∧
    Ends (RotatingFileSink.session steady twoFiles false LogMsg.payload threePairs) emptyDisk
      (fun _ s' =>
        let held := Shelf.stack (twoFiles.texts s'.fileHelper.file) 1
        held <:+ ['a', 'b', 'c', 'd', 'e', 'f'] ∧ (held = ['a', 'b', 'c', 'd', 'e', 'f'] ∨ 4 ≤ held.length))
      (fun _ _ => False) :=
  ⟨by decide +kernel, session_retains steady twoFiles false LogMsg.payload _ emptyDisk rfl steady_fails
    (List.cons_ne_nil _ _) (by decide) (by decide) (fun _ _ => rfl) (by decide)⟩

end Spdlog
end LogMaker
