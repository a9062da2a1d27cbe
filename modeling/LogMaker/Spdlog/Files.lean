import LogMaker.Spdlog.RotatingFileSink
import LogMaker.Lib.Shelf
/-!
# Files — what the calls of the file helper do to the files

`FileHelper.file` is what a file holds once the buffer of the open stream is written out.  One lemma for each call of
the helper says what it does to it, however the system's calls end: a call that is not answered as it should be has
failed (`Os.Fails`), and then a file has been moved or cut and nothing else (`Moved`).
-/
namespace LogMaker
namespace Spdlog

/-- Some call of this kind fails. -/
def Os.Fails (os : Os) (c : OsCall) : Prop := ∃ n, os.fails c n = true

abbrev Files := CString → Option CString

/-- The files under the first names have been moved up or cut, and no other file has changed. -/
structure Moved (names : Nat → CString) (n : Nat) (F G : Files) : Prop where
  moves : Shelf.Moves n (fun i => (F (names i)).getD []) (fun i => (G (names i)).getD [])
  others : ∀ f, (∀ i ≤ n, f ≠ names i) → G f = F f

namespace Moved

variable {names : Nat → CString} {n : Nat} {F G H : Files}

theorem refl : Moved names n F F := ⟨.refl, fun _ _ => rfl⟩

theorem trans (h : Moved names n F G) (h' : Moved names n G H) : Moved names n F H :=
  ⟨h.moves.trans h'.moves, fun f hf => (h'.others f hf).trans (h.others f hf)⟩

theorem getD_update (hinj : Function.Injective names) (i : Nat) (t : Option CString) :
    (fun j => (Function.update F (names i) t (names j)).getD []) =
      Function.update (fun j => (F (names j)).getD []) i (t.getD []) := by
  funext j
  rcases eq_or_ne j i with rfl | hne
  · rw [Function.update_self, Function.update_self]
  · rw [Function.update_of_ne (hinj.ne hne), Function.update_of_ne hne]

theorem cut (hinj : Function.Injective names) {i : Nat} (hi : i ≤ n) {t : Option CString}
    (ht : t.getD [] <+: (F (names i)).getD []) : Moved names n F (Function.update F (names i) t) := by
  constructor
  · rw [getD_update hinj]
    exact Shelf.Moves.refl.cut hi ht
  · intro f hf
    exact Function.update_of_ne (hf i hi) ..

theorem up (hinj : Function.Injective names) {i : Nat} (hi : i < n) (he : F (names (i + 1)) = none) :
    Moved names n F (Function.update (Function.update F (names i) none) (names (i + 1)) (F (names i))) := by
  constructor
  · rw [getD_update hinj, getD_update hinj]
    exact Shelf.Moves.refl.up hi (by rw [he]; rfl)
  · intro f hf
    rw [Function.update_of_ne (hf (i + 1) hi), Function.update_of_ne (hf i (Nat.le_of_lt hi))]

end Moved

namespace FileHelper

/-- What is buffered for a file. -/
def buffered (s : FileHelper) (f : CString) : CString := match s.fd with
  | some fd => if fd.name = f then fd.buffer else []
  | none => []

/-- A file, with what is buffered for it. -/
def file (s : FileHelper) : Files := fun f => (s.disk f).map (· ++ s.buffered f)

/-- The helper is on this file: nothing else is open, and the open file is there. -/
structure On (base : CString) (s : FileHelper) : Prop where
  filename : s.filename = base
  stream : ∀ fd, s.fd = some fd → fd.name = base ∧ ∃ text, s.disk base = some text

theorem file_of_unbuffered {s : FileHelper} (h : ∀ f, s.buffered f = []) : s.file = s.disk := by
  funext f
  unfold file
  rw [h]
  cases s.disk f with
  | none => rfl
  | some text => exact congrArg some (List.append_nil text)

theorem buffered_of_closed {s : FileHelper} (h : s.fd = none) (f : CString) : s.buffered f = [] := by
  unfold buffered
  rw [h]

theorem buffered_of_fresh {s : FileHelper} {g : CString} (h : s.fd = some ⟨g, []⟩) (f : CString) :
    s.buffered f = [] := by
  unfold buffered
  rw [h]
  exact ite_self _

theorem On.closed {base : CString} {s s' : FileHelper} (h : s.On base) (hf : s'.filename = s.filename)
    (hfd : s'.fd = none) : s'.On base :=
  ⟨hf.trans h.filename, fun fd h => by rw [hfd] at h; cases h⟩

theorem file_of_open {s : FileHelper} {fd : Stream} {text : CString} (hfd : s.fd = some fd)
    (ht : s.disk fd.name = some text) : s.file fd.name = some (text ++ fd.buffer) := by
  unfold file buffered
  rw [ht, hfd]
  exact congrArg some (congrArg _ (if_pos rfl))

/-- Where some characters have reached the open file and some are buffered for it, it holds both. -/
theorem file_of_written {s s' : FileHelper} {fd : Stream} {text rest : CString} (hfd : s.fd = some fd)
    (hdisk : s'.disk = Function.update s.disk fd.name (some text))
    (hrest : ∀ f, s'.buffered f = if fd.name = f then rest else []) :
    s'.file = Function.update s.file fd.name (some (text ++ rest)) := by
  funext f
  unfold file
  rw [hdisk, hrest]
  rcases eq_or_ne f fd.name with rfl | hne
  · rw [Function.update_self, Function.update_self, if_pos rfl]
    rfl
  · rw [Function.update_of_ne hne, Function.update_of_ne hne, if_neg hne.symm]
    unfold buffered
    rw [hfd]
    simp only [if_neg hne.symm]

theorem extend_disk {s : FileHelper} {f text : CString} (ht : s.disk f = some text) (more : CString) :
    (s.called.extend f more).disk = Function.update s.disk f (some (text ++ more)) := by
  unfold extend
  show Function.update s.disk f (some ((s.disk f).getD [] ++ more)) = _
  rw [ht]
  rfl

section
variable {os : Os} {names : Nat → CString} {n : Nat} {s : FileHelper}

theorem ends_throwErrno {α : Type} {Q : α → FileHelper → Prop} {E : Fault → FileHelper → Prop} (msg : CString)
    (h : E (.thrown (msg ++ ": ".toList ++ os.error s.calls)) s) : Ends (os.throwErrno msg) s Q E :=
  ends_bind (ends_get (ends_throw h))

theorem fclose_ends {fd : Stream} {text : CString} (ht : s.disk fd.name = some text) :
    Ends (os.fclose fd) s
      (fun _ s' => s'.fd = s.fd ∧ s'.filename = s.filename ∧ ∃ passed, passed <+: fd.buffer ∧
        (os.Fails .fclose ∨ passed = fd.buffer) ∧
        s'.disk = Function.update s.disk fd.name (some (text ++ passed)))
      (fun _ _ => False) := by
  unfold Ends Os.fclose
  refine ⟨rfl, rfl, _, ?_, ?_, extend_disk ht _⟩
  · split
    · exact List.take_prefix ..
    · exact List.prefix_refl _
  · split
    · exact .inl ⟨_, ‹_›⟩
    · exact .inr rfl

theorem close_ends (hinj : Function.Injective names) (h : s.On (names 0)) :
    Ends (close os) s
      (fun _ s' => s'.fd = none ∧ s'.On (names 0) ∧ (os.Fails .fclose ∨ s'.file = s.file) ∧
        Moved names n s.file s'.file)
      (fun _ _ => False) := by
  refine ends_bind (ends_get ?_)
  match hfd : s.fd with
  | none => exact ends_pure ⟨hfd, h, .inr rfl, .refl⟩
  | some fd =>
    obtain ⟨hname, text, ht⟩ := h.stream fd hfd
    rw [← hname] at ht
    have hfile := file_of_open hfd ht
    refine (fclose_ends ht).bind (fun _ s₁ hs₁ => ends_modify ?_)
    obtain ⟨-, hname₁, passed, hcut, hfull, hdisk⟩ := hs₁
    let s' : FileHelper := { s₁ with fd := none }
    have hs' : s'.file = Function.update s.file fd.name (some (text ++ passed ++ [])) :=
      file_of_written hfd hdisk (fun f => (ite_self _).symm)
    rw [List.append_nil] at hs'
    refine ⟨rfl, h.closed hname₁ rfl, ?_, ?_⟩
    · refine hfull.imp_right (fun hp => ?_)
      rw [hs', hp, ← hfile, Function.update_eq_self]
    · rw [hs', hname]
      refine .cut hinj (Nat.zero_le n) ?_
      rw [← hname, hfile]
      exact (List.prefix_append_right_inj text).2 hcut

theorem fopen_ends (f : CString) (truncate : Bool) :
    Ends (os.fopen f truncate) s
      (fun r s' => s'.fd = s.fd ∧ s'.filename = s.filename ∧ match r with
        | none => os.Fails .fopen ∧ s'.disk = s.disk
        | some fd => fd = ⟨f, []⟩ ∧
          s'.disk = Function.update s.disk f (some (if truncate then [] else (s.disk f).getD [])))
      (fun _ _ => False) := by
  unfold Ends Os.fopen
  cases hf : os.fails .fopen s.calls with
  | true => exact ⟨rfl, rfl, ⟨_, hf⟩, rfl⟩
  | false => exact ⟨rfl, rfl, rfl, rfl⟩

theorem truncateFile_ends (f : CString) (h : s.fd = none) :
    Ends (truncateFile os f) s
      (fun cut s' => s'.fd = none ∧ s'.filename = s.filename ∧
        if cut then s'.disk = Function.update s.disk f (some []) else os.Fails .fopen ∧ s'.disk = s.disk)
      (fun _ _ => False) := by
  refine (fopen_ends f true).bind ?_
  rintro (_ | fd) s₁ ⟨hfd, hname, hr⟩
  · exact ends_pure ⟨hfd.trans h, hname, hr⟩
  · obtain ⟨rfl, hdisk⟩ := hr
    have ht : s₁.disk f = some [] := by
      rw [hdisk]
      exact Function.update_self ..
    refine Ends.bind (fclose_ends ht) (fun _ s₂ hs₂ => ends_pure ?_)
    obtain ⟨hfd₂, hname₂, passed, hcut, -, hdisk₂⟩ := hs₂
    refine ⟨(hfd₂.trans hfd).trans h, hname₂.trans hname, ?_⟩
    rw [List.prefix_nil.1 hcut, hdisk, Function.update_idem] at hdisk₂
    exact hdisk₂

/-- The file is open, cut before or not. -/
structure Opened (f : CString) (truncate : Bool) (s s' : FileHelper) : Prop where
  fd : s'.fd = some ⟨f, []⟩
  filename : s'.filename = s.filename
  disk : s'.disk = Function.update s.disk f (some (if truncate then [] else (s.disk f).getD []))

/-- It is not, and may have been cut. -/
structure Tried (f : CString) (truncate : Bool) (s s' : FileHelper) : Prop where
  fd : s'.fd = none
  filename : s'.filename = s.filename
  disk : s'.disk = s.disk ∨ truncate = true ∧ s'.disk = Function.update s.disk f (some [])

theorem Tried.trans {f : CString} {truncate : Bool} {s₁ s₂ : FileHelper} (h : Tried f truncate s s₁)
    (h' : Tried f truncate s₁ s₂) : Tried f truncate s s₂ := by
  refine ⟨h'.fd, h'.filename.trans h.filename, ?_⟩
  obtain hdisk' | ⟨ht, hdisk'⟩ := h'.disk
  · rw [hdisk']
    exact h.disk
  · refine .inr ⟨ht, ?_⟩
    obtain hdisk | ⟨-, hdisk⟩ := h.disk
    · rw [hdisk', hdisk]
    · rw [hdisk', hdisk, Function.update_idem]

theorem Tried.opened {f : CString} {truncate : Bool} {s₁ s₂ : FileHelper} (h : Tried f truncate s s₁)
    (h' : Opened f truncate s₁ s₂) : Opened f truncate s s₂ := by
  refine ⟨h'.fd, h'.filename.trans h.filename, ?_⟩
  obtain hdisk | ⟨rfl, hdisk⟩ := h.disk
  · rw [h'.disk, hdisk]
  · rw [h'.disk, hdisk, Function.update_idem]
    rfl

/-- The cut of a file that is then opened for appending. -/
theorem cut_ends (f : CString) (truncate : Bool) (h : s.fd = none) :
    Ends (if truncate then truncateFile os f else pure true) s
      (fun cut s' => Tried f truncate s s' ∧
        if cut then s'.disk = if truncate then Function.update s.disk f (some []) else s.disk else os.Fails .fopen)
      (fun _ _ => False) := by
  cases truncate with
  | true =>
    refine (truncateFile_ends f h).mono ?_ (fun _ _ => id)
    rintro (_ | _) s' ⟨hfd, hname, hr⟩
    · exact ⟨⟨hfd, hname, .inl hr.2⟩, hr.1⟩
    · exact ⟨⟨hfd, hname, .inr ⟨rfl, hr⟩⟩, hr⟩
  | false => exact ends_pure ⟨⟨h, rfl, .inl rfl⟩, rfl⟩

/-- **The tries of `open`**: the first that succeeds opens the file, and between two of them it may only have been
cut. -/
theorem openTries_ends (f : CString) (truncate : Bool) : ∀ (tries : Nat) (s : FileHelper), s.fd = none →
    Ends (openTries os f truncate tries) s (fun _ s' => Opened f truncate s s')
      (fun e s' => (0 < tries → os.Fails .fopen) ∧ e ≠ .undefined ∧ Tried f truncate s s')
  | 0, s, h =>
    ends_bind (ends_get (ends_throwErrno _ ⟨fun h => absurd h (Nat.lt_irrefl 0), nofun, h, rfl, .inl rfl⟩))
  | tries + 1, s, h => by
    have hretry : ∀ s₁, Tried f truncate s s₁ → os.Fails .fopen →
        Ends (openTries os f truncate tries) s₁ (fun _ s' => Opened f truncate s s')
          (fun e s' => (0 < tries + 1 → os.Fails .fopen) ∧ e ≠ .undefined ∧ Tried f truncate s s') := by
      intro s₁ hs₁ hfails
      exact (openTries_ends f truncate tries s₁ hs₁.fd).mono (fun _ _ h => hs₁.opened h)
        (fun _ _ h => ⟨fun _ => hfails, h.2.1, hs₁.trans h.2.2⟩)
    refine (cut_ends f truncate h).next ?_
    rintro (_ | _) s₁ ⟨hs₁, hr₁⟩
    · exact hretry s₁ hs₁ hr₁
    · have hdisk₁ : s₁.disk = if truncate then Function.update s.disk f (some []) else s.disk := hr₁
      refine (fopen_ends f false).next ?_
      rintro (_ | fd) s₂ ⟨hfd₂, hname₂, hr₂⟩
      · exact hretry s₂ (hs₁.trans ⟨hfd₂.trans hs₁.fd, hname₂, .inl hr₂.2⟩) hr₂.1
      · obtain ⟨rfl, hdisk₂⟩ := hr₂
        refine ends_modify ⟨rfl, hname₂.trans hs₁.filename, ?_⟩
        show s₂.disk = _
        rw [hdisk₂, hdisk₁]
        cases truncate with
        | true =>
          simp only [if_true, Function.update_self, Function.update_idem]
          rfl
        | false => rfl

theorem openFile_ends (f : CString) (truncate : Bool) (h : s.fd = none) :
    Ends (openFile os f truncate) s
      (fun _ s' => s'.fd = some ⟨f, []⟩ ∧ s'.filename = f ∧
        s'.file = Function.update s.file f (some (if truncate then [] else (s.file f).getD [])))
      (fun e s' => os.Fails .fopen ∧ e ≠ .undefined ∧ s'.fd = none ∧ s'.filename = f ∧
        (s'.file = s.file ∨ truncate = true ∧ s'.file = Function.update s.file f (some []))) := by
  rw [file_of_unbuffered (buffered_of_closed h)]
  have hclose : Ends (close os) s (fun _ s' => s' = s) (fun _ _ => False) := by
    refine ends_bind (ends_get ?_)
    rw [h]
    exact ends_pure rfl
  refine hclose.next ?_
  rintro - s rfl
  refine ends_bind (ends_modify ((openTries_ends f truncate openTriesMax { s with filename := f } h).mono ?_ ?_))
  · rintro - s' ⟨hfd, hname, hdisk⟩
    exact ⟨hfd, hname, by rw [file_of_unbuffered (buffered_of_fresh hfd), hdisk]⟩
  · rintro e s' ⟨hfails, he, hs'⟩
    rw [file_of_unbuffered (buffered_of_closed hs'.fd)]
    exact ⟨hfails (Nat.succ_pos _), he, hs'.fd, hs'.filename, hs'.disk⟩

theorem reopen_ends {base : CString} (h : s.On base) (hfd : s.fd = none) :
    Ends (reopen os true) s
      (fun _ s' => s'.On base ∧ s'.fd = some ⟨base, []⟩ ∧ s'.file = Function.update s.file base (some []))
      (fun e s' => (base = [] ∨ os.Fails .fopen) ∧ e ≠ .undefined ∧ s'.On base ∧ s'.fd = none ∧
        (s'.file = s.file ∨ s'.file = Function.update s.file base (some []))) := by
  obtain rfl := h.filename
  refine ends_bind (ends_get ?_)
  split
  · exact ends_throw ⟨.inl ‹_›, nofun, h, hfd, .inl rfl⟩
  · refine (openFile_ends s.filename true hfd).mono ?_ ?_
    · rintro - s' ⟨hfd', hname, hfile⟩
      refine ⟨⟨hname, ?_⟩, hfd', hfile⟩
      rintro fd hfd''
      rw [hfd'] at hfd''
      cases hfd''
      rw [file_of_unbuffered (buffered_of_fresh hfd')] at hfile
      exact ⟨rfl, [], by rw [hfile, Function.update_self]; rfl⟩
    · rintro e s' ⟨hfails, he, hfd', hname, hfile⟩
      exact ⟨.inr hfails, he, h.closed hname hfd', hfd', hfile.imp_right And.right⟩

theorem On.written {base : CString} {s' : FileHelper} {fd : Stream} {text rest : CString} (h : s.On base)
    (hfd : s.fd = some fd) (hname : s'.filename = s.filename) (hfd' : s'.fd = some { fd with buffer := rest })
    (hdisk : s'.disk = Function.update s.disk fd.name (some text)) : s'.On base := by
  refine ⟨hname.trans h.filename, ?_⟩
  rintro fd' h'
  rw [hfd'] at h'
  cases h'
  obtain ⟨hbase, -⟩ := h.stream fd hfd
  exact ⟨hbase, text, by rw [hdisk, ← hbase, Function.update_self]⟩

theorem fflush_ends (hinj : Function.Injective names) (h : s.On (names 0)) :
    Ends os.fflush s
      (fun done s' => s'.On (names 0) ∧ s'.fd.isSome = s.fd.isSome ∧
        if done then s'.file = s.file ∧ s'.fd = s.fd.map (fun fd => { fd with buffer := [] })
        else os.Fails .fflush ∧ (s.fd = none → s'.file = s.file) ∧ Moved names n s.file s'.file)
      (fun _ _ => False) := by
  unfold Ends Os.fflush
  match hfd : s.fd, hf : os.fails .fflush s.calls with
  | none, false => exact ⟨h.closed rfl hfd, congrArg Option.isSome hfd, rfl, hfd⟩
  | none, true => exact ⟨h.closed rfl hfd, congrArg Option.isSome hfd, ⟨_, hf⟩, fun _ => rfl, .refl⟩
  | some fd, failed =>
    obtain ⟨hname, text, ht⟩ := h.stream fd hfd
    rw [← hname] at ht
    have hfile := file_of_open hfd ht
    match failed, hf with
    | false, _ =>
      have hdisk := extend_disk ht fd.buffer
      let s' : FileHelper := { s.called.extend fd.name fd.buffer with fd := some { fd with buffer := [] } }
      have hs' : s'.file = Function.update s.file fd.name (some (text ++ fd.buffer ++ [])) :=
        file_of_written hfd hdisk (fun _ => rfl)
      rw [List.append_nil, ← hfile, Function.update_eq_self] at hs'
      exact ⟨h.written hfd rfl rfl hdisk, rfl, hs', rfl⟩
    | true, hf =>
      have hdisk := extend_disk ht (fd.buffer.take (os.part s.calls))
      let rest := if os.keeps s.calls then fd.buffer.drop (os.part s.calls) else []
      let s' : FileHelper :=
        { s.called.extend fd.name (fd.buffer.take (os.part s.calls)) with fd := some { fd with buffer := rest } }
      have hs' : s'.file = Function.update s.file fd.name (some (text ++ fd.buffer.take (os.part s.calls) ++ rest)) :=
        file_of_written hfd hdisk (fun _ => rfl)
      have hcut : fd.buffer.take (os.part s.calls) ++ rest <+: fd.buffer := by
        dsimp only [rest]
        split
        · rw [List.take_append_drop]
        · rw [List.append_nil]
          exact List.take_prefix ..
      rw [List.append_assoc, hname] at hs'
      refine ⟨h.written hfd rfl rfl hdisk, rfl, ⟨_, hf⟩, nofun, ?_⟩
      show Moved names n s.file s'.file
      rw [hs']
      refine .cut hinj (Nat.zero_le n) ?_
      rw [← hname, hfile]
      exact (List.prefix_append_right_inj text).2 hcut

/-- A flush that returns has passed on all that is buffered; one that throws may have lost some of it. -/
theorem flush_ends (hinj : Function.Injective names) (h : s.On (names 0)) :
    Ends (flush os) s
      (fun _ s' => s'.On (names 0) ∧ s'.file = s.file ∧ s'.fd = s.fd.map (fun fd => { fd with buffer := [] }))
      (fun e s' => os.Fails .fflush ∧ e ≠ .undefined ∧ s'.On (names 0) ∧ s'.fd.isSome = s.fd.isSome ∧
        (s.fd = none → s'.file = s.file) ∧ Moved names n s.file s'.file) := by
  refine (fflush_ends (n := n) hinj h).next ?_
  rintro (_ | _) s' ⟨hon, hsome, hr⟩
  · exact ends_bind (ends_get (ends_throwErrno _ ⟨hr.1, nofun, hon, hsome, hr.2⟩))
  · exact ends_pure ⟨hon, hr⟩

theorem size_ends {base : CString} (h : s.On base) :
    Ends (size os) s
      (fun m s' => s'.On base ∧ s'.file = s.file ∧ s'.fd = s.fd ∧
        ∃ fd, s.fd = some fd ∧ m = ((s.disk base).getD []).length)
      (fun e s' => (s.fd = none ∨ os.Fails .filesize) ∧ e ≠ .undefined ∧ s'.On base ∧ s'.file = s.file ∧
        s'.fd = s.fd) := by
  refine ends_bind (ends_get ?_)
  match hfd : s.fd with
  | none => exact ends_throw ⟨.inl rfl, nofun, h, rfl, hfd⟩
  | some fd =>
    obtain rfl := (h.stream fd hfd).1
    refine ends_bind ?_
    unfold Ends Os.filelength
    cases hf : os.fails .filesize s.calls with
    | false => exact ⟨⟨h.filename, h.stream⟩, rfl, hfd, fd, rfl, rfl⟩
    | true => exact ⟨.inr ⟨_, hf⟩, nofun, ⟨h.filename, h.stream⟩, rfl, hfd⟩

theorem fwrite_ends {base : CString} (h : s.On base) (buf : CString) :
    Ends (os.fwrite buf) s
      (fun n s' => s'.On base ∧ s.fd.isSome ∧ s'.fd.isSome ∧
        ∃ t p, t <+: (s.file base).getD [] ∧ p <+: buf ∧ n = p.length ∧ (os.Fails .fwrite ∨ p = buf) ∧
          (n = buf.length → t = (s.file base).getD []) ∧ s'.file = Function.update s.file base (some (t ++ p)))
      (fun e s' => s.fd = none ∧ e = .undefined ∧ s' = s) := by
  unfold Ends Os.fwrite
  match hfd : s.fd with
  | none => exact ⟨rfl, rfl, rfl⟩
  | some fd =>
    obtain ⟨hname, text, ht⟩ := h.stream fd hfd
    rw [← hname] at ht
    have hold : (s.file base).getD [] = text ++ fd.buffer := by
      rw [← hname, file_of_open hfd ht]
      rfl
    let j := os.spill s.calls
    let taken := if os.fails .fwrite s.calls then buf.take (os.part s.calls) else buf
    have htaken : taken <+: buf := by
      dsimp only [taken]
      split
      · exact List.take_prefix ..
      · exact List.prefix_refl _
    have hfull : os.Fails .fwrite ∨ taken = buf := by
      dsimp only [taken]
      split
      · exact .inl ⟨_, ‹_›⟩
      · exact .inr rfl
    let kept := if taken.length < buf.length && !os.keeps s.calls then fd.buffer.take j else fd.buffer
    have hkept : kept <+: fd.buffer := by
      dsimp only [kept]
      split
      · exact List.take_prefix ..
      · exact List.prefix_refl _
    have hwhole : taken.length = buf.length → kept = fd.buffer := by
      intro hlen
      dsimp only [kept]
      rw [hlen, decide_eq_false (Nat.lt_irrefl _)]
      rfl
    have hdisk := extend_disk ht ((kept ++ taken).take j)
    let s' : FileHelper := { s.called.extend fd.name ((kept ++ taken).take j) with
      fd := some { fd with buffer := (kept ++ taken).drop j } }
    have hs' : s'.file = Function.update s.file fd.name
        (some (text ++ (kept ++ taken).take j ++ (kept ++ taken).drop j)) :=
      file_of_written hfd hdisk (fun _ => rfl)
    rw [List.append_assoc, List.take_append_drop, ← List.append_assoc, hname] at hs'
    rw [hold]
    exact ⟨h.written hfd rfl rfl hdisk, rfl, rfl, text ++ kept, taken, (List.prefix_append_right_inj text).2 hkept,
      htaken, rfl, hfull, fun hlen => congrArg (text ++ ·) (hwhole hlen), hs'⟩

/-- **What is written is at the end of the file**; or a beginning of it is, at the end of a beginning of the file. -/
theorem write_ends {base : CString} (h : s.On base) (buf : CString) :
    Ends (write os buf) s
      (fun _ s' => s'.On base ∧ s.fd.isSome ∧ s'.fd.isSome ∧
        s'.file = Function.update s.file base (some ((s.file base).getD [] ++ buf)))
      (fun e s' => s'.On base ∧
        (s.fd = none ∧ e = .undefined ∧ s' = s ∨
        s.fd.isSome ∧ os.Fails .fwrite ∧ e ≠ .undefined ∧ s'.fd.isSome ∧
          ∃ t p, t <+: (s.file base).getD [] ∧ p <+: buf ∧ s'.file = Function.update s.file base (some (t ++ p)))) := by
  refine Ends.bind ((fwrite_ends h buf).mono (fun _ _ => id) ?_) ?_
  · rintro e s' ⟨hfd, he, rfl⟩
    exact ⟨h, .inl ⟨hfd, he, rfl⟩⟩
  · rintro n s' ⟨hon, hfd, hfd', t, p, ht, hp, rfl, hfull, hwhole, hs'⟩
    split
    · rename_i hlen
      rw [hwhole hlen, hp.eq_of_length hlen] at hs'
      exact ends_pure ⟨hon, hfd, hfd', hs'⟩
    · rename_i hlen
      have hfails := hfull.resolve_right (fun h => hlen (congrArg List.length h))
      exact ends_bind (ends_get (ends_throwErrno _ ⟨hon, .inr ⟨hfd, hfails, nofun, hfd', t, p, ht, hp, hs'⟩⟩))

theorem pathExists_ends (f : CString) :
    Ends (os.pathExists f) s
      (fun found s' => s'.disk = s.disk ∧ s'.fd = s.fd ∧ s'.filename = s.filename ∧
        (found = true → (s.disk f).isSome) ∧ (os.Fails .pathExists ∨ found = (s.disk f).isSome))
      (fun _ _ => False) := by
  unfold Ends Os.pathExists
  refine ⟨rfl, rfl, rfl, fun h => (Bool.and_eq_true_iff.1 h).2, ?_⟩
  cases hf : os.fails .pathExists s.calls with
  | true => exact .inl ⟨_, hf⟩
  | false => exact .inr (Bool.true_and _)

theorem remove_ends (f : CString) :
    Ends (os.remove f) s
      (fun _ s' => s'.fd = s.fd ∧ s'.filename = s.filename ∧
        (s'.disk = Function.update s.disk f none ∨ os.Fails .remove ∧ s'.disk = s.disk))
      (fun _ _ => False) := by
  unfold Ends Os.remove
  cases hf : os.fails .remove s.calls with
  | true => exact ⟨rfl, rfl, .inr ⟨⟨_, hf⟩, rfl⟩⟩
  | false =>
    cases hd : s.disk f with
    | none => exact ⟨rfl, rfl, .inl (by rw [← hd, Function.update_eq_self]; rfl)⟩
    | some text => exact ⟨rfl, rfl, .inl rfl⟩

theorem rename_ends (src target : CString) :
    Ends (os.rename src target) s
      (fun renamed s' => s'.fd = s.fd ∧ s'.filename = s.filename ∧
        if renamed then (s.disk src).isSome ∧ s.disk target = none ∧
          s'.disk = Function.update (Function.update s.disk src none) target (s.disk src)
        else (os.Fails .rename ∨ s.disk src = none ∨ (s.disk target).isSome) ∧ s'.disk = s.disk)
      (fun _ _ => False) := by
  unfold Ends Os.rename
  match hs : s.disk src, ht : s.disk target, hf : os.fails .rename s.calls with
  | some text, none, false => exact ⟨rfl, rfl, rfl, rfl, rfl⟩
  | some text, none, true => exact ⟨rfl, rfl, .inl ⟨_, hf⟩, rfl⟩
  | some text, some text', _ => exact ⟨rfl, rfl, .inr (.inr rfl), rfl⟩
  | none, _, _ => exact ⟨rfl, rfl, .inr (.inl rfl), rfl⟩

end

end FileHelper

/-- **The file is renamed over its target, or nothing but the target is gone.** -/
theorem RotatingFileSink.renameFile_ends {os : Os} {s : FileHelper} {src target : CString} (hne : src ≠ target) :
    Ends (renameFile os src target) s
      (fun renamed s' => s'.fd = s.fd ∧ s'.filename = s.filename ∧
        if renamed then (s.disk src).isSome ∧
          s'.disk = Function.update (Function.update s.disk src none) target (s.disk src)
        else (os.Fails .remove ∨ os.Fails .rename ∨ s.disk src = none) ∧
          (s'.disk = s.disk ∨ s'.disk = Function.update s.disk target none))
      (fun _ _ => False) := by
  refine (FileHelper.remove_ends target).next ?_
  rintro - s₁ ⟨hfd₁, hname₁, hdisk₁⟩
  have hsrc : s₁.disk src = s.disk src := by
    obtain hdisk₁ | ⟨-, hdisk₁⟩ := hdisk₁
    · rw [hdisk₁, Function.update_of_ne hne]
    · rw [hdisk₁]
  refine (FileHelper.rename_ends src target).mono ?_ (fun _ _ => id)
  rintro (_ | _) s₂ ⟨hfd₂, hname₂, hr⟩
  · obtain ⟨hfails, hdisk₂⟩ := hr
    refine ⟨hfd₂.trans hfd₁, hname₂.trans hname₁, ?_, ?_⟩
    · obtain hfails | hnone | hsome := hfails
      · exact .inr (.inl hfails)
      · exact .inr (.inr (hsrc ▸ hnone))
      · obtain hdisk₁ | ⟨hfails, -⟩ := hdisk₁
        · rw [hdisk₁, Function.update_self] at hsome
          cases hsome
        · exact .inl hfails
    · rw [hdisk₂]
      exact hdisk₁.elim .inr (fun h => .inl h.2)
  · obtain ⟨hsome, -, hdisk₂⟩ := hr
    rw [hsrc] at hsome hdisk₂
    refine ⟨hfd₂.trans hfd₁, hname₂.trans hname₁, hsome, ?_⟩
    obtain hdisk₁ | ⟨-, hdisk₁⟩ := hdisk₁
    · rw [hdisk₂, hdisk₁, Function.update_comm hne.symm, Function.update_idem]
    · rw [hdisk₂, hdisk₁]

end Spdlog
end LogMaker
