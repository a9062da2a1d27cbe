import LogMaker.Spdlog.FileSink
/-!
# FileRuns — every run of the rotating file sink, on a system that may fail anywhere

What is logged is in the files as it was logged, in its order and in one place: each message whole or cut, or gone
(`run_kept`).  No file grows over `max_size` but by one message alone (`run_sizes`).  The file is closed only where it
could not be opened again (`run_opens`), and a sink that has closed it never opens it again: it refuses what would not
fit and hands the first message that fits to a null stream (`run_closed`).
-/
namespace LogMaker
namespace Spdlog

open RotatingFileSink (calcFilename calcFilename_injective current counted logged)

/-- The texts of the sink's files by their numbers. -/
def RotatingFileSink.texts (k : RotatingFileSink) (F : Files) : Nat → CString :=
  fun i => (F (calcFilename k.baseFilename i)).getD []

/-- The names of the files it keeps. -/
def RotatingFileSink.Owns (k : RotatingFileSink) (f : CString) : Prop :=
  ∃ i ≤ k.maxFiles, f = calcFilename k.baseFilename i

/-- What is logged meanwhile is at the end of what is kept, and no other file has changed. -/
structure Keeps (k : RotatingFileSink) (logged : List CString) (F G : Files) : Prop where
  kept : ∀ S, Shelf.Made (k.texts F) S → ∃ R, Shelf.Made (k.texts G) R ∧
    Shelf.Kept (Shelf.stack R k.maxFiles) (Shelf.stack S k.maxFiles ++ logged)
  others : ∀ f, ¬k.Owns f → G f = F f

section
variable {os : Os} {k : RotatingFileSink} {s s' : Rotating} {F G H : Files} {formatted : CString}
  {ms ms' : List CString}

theorem Moved.keeps (h : Moved (calcFilename k.baseFilename) k.maxFiles F G) : Keeps k [] F G where
  kept := by
    intro S hS
    rw [List.append_nil]
    exact h.moves.kept hS
  others := fun f hf => h.others f (fun i hi he => hf ⟨i, hi, he⟩)

theorem Keeps.trans (h : Keeps k ms F G) (h' : Keeps k ms' G H) : Keeps k (ms ++ ms') F H where
  kept := by
    intro S hS
    obtain ⟨R, hR, hk⟩ := h.kept S hS
    obtain ⟨T, hT, hk'⟩ := h'.kept R hR
    refine ⟨T, hT, hk'.trans ?_⟩
    rw [← List.append_assoc]
    exact hk.append (Shelf.Kept.refl ms')
  others := fun f hf => (h'.others f hf).trans (h.others f hf)

theorem Keeps.more (h : Keeps k ms F G) (ms' : List CString) : Keeps k (ms ++ ms') F G where
  kept := by
    intro S hS
    obtain ⟨R, hR, hk⟩ := h.kept S hS
    exact ⟨R, hR, List.append_assoc .. ▸ hk.more ms'⟩
  others := h.others

/-- No file in another folder has changed. -/
def RotatingFileSink.Within (k : RotatingFileSink) (F G : Files) : Prop :=
  ∀ f, FileHelper.dirName f ≠ FileHelper.dirName k.baseFilename → G f = F f

theorem Keeps.within (h : Keeps k ms F G) : k.Within F G := by
  intro f hf
  refine h.others f ?_
  rintro ⟨i, -, rfl⟩
  exact hf (RotatingFileSink.dirName_calcFilename k.baseFilename i)

theorem texts_append (F : Files) (p : CString) :
    k.texts (k.append F p) = Function.update (k.texts F) 0 (k.texts F 0 ++ p) :=
  Moved.getD_update (calcFilename_injective k.baseFilename) 0 _

/-- A message is written, or a beginning of it. -/
theorem keeps_append {p : CString} (hp : p <+: formatted) (F : Files) : Keeps k [formatted] F (k.append F p) where
  kept := by
    intro S hS
    refine ⟨_, texts_append F p ▸ hS.write p, ?_⟩
    rw [Shelf.stack_write]
    exact (Shelf.Kept.refl _).append (.cons hp .nil)
  others := fun f hf => Function.update_of_ne (fun he => hf ⟨0, Nat.zero_le _, he⟩) ..

theorem Room.moved {n : Nat} {t : Rotating} (h : Room os k s formatted n t) :
    Moved (calcFilename k.baseFilename) k.maxFiles s.fileHelper.file t.fileHelper.file := by
  cases h with
  | fits => exact .refl
  | empty _ _ hfile => exact hfile ▸ .refl
  | rotated _ _ _ _ _ _ hmoved => exact hmoved

theorem Wrote.keeps (h : Wrote os k s formatted s') : Keeps k [formatted] s.fileHelper.file s'.fileHelper.file := by
  obtain ⟨t, hroom, -, hfile⟩ := h.room
  rw [hfile]
  exact hroom.moved.keeps.trans (keeps_append (List.prefix_refl _) _)

theorem Failed.keeps {e : Fault} (h : Failed os k s formatted e s') :
    Keeps k [formatted] s.fileHelper.file s'.fileHelper.file := by
  cases h with
  | refused h => exact h.moved.keeps.more [formatted]
  | closed => exact Moved.refl.keeps.more [formatted]
  | torn hroom _ _ _ _ _ htext hp hfile =>
    have hcut := Moved.cut (n := k.maxFiles) (calcFilename_injective k.baseFilename) (Nat.zero_le _)
      (t := some _) htext
    rw [hfile]
    exact (hroom.moved.trans hcut).keeps.trans (keeps_append hp _)

theorem Failed.on {e : Fault} (h : Failed os k s formatted e s') (hs : s.On k) : s'.On k := by
  cases h with
  | refused h => exact h.on
  | closed => exact hs
  | torn _ _ _ hon => exact hon

theorem call_keeps (format : LogMsg → CString) (c : SinkCall) (h : s.On k) :
    Ends (RotatingFileSink.call os k format c) s
      (fun _ s' => s'.On k ∧ Keeps k (logged format c) s.fileHelper.file s'.fileHelper.file)
      (fun _ s' => s'.On k ∧ Keeps k (logged format c) s.fileHelper.file s'.fileHelper.file) := by
  cases c with
  | log msg =>
    exact (sinkIt_ends h (format msg)).mono (fun _ _ h => ⟨h.on, h.keeps⟩) (fun _ _ hf => ⟨hf.on h, hf.keeps⟩)
  | flush =>
    refine (onFile_ends (FileHelper.flush_ends (n := k.maxFiles) (calcFilename_injective _) h)).mono ?_ ?_
    · rintro - s' ⟨-, hon, hfile, -⟩
      exact ⟨hon, hfile ▸ Moved.refl.keeps⟩
    · rintro e s' ⟨-, -, -, hon, -, -, hmoved⟩
      exact ⟨hon, hmoved.keeps⟩

/-- **Whatever fails, the files hold what they held and what was logged**: from the oldest file to the newest, some of
the pieces in their order, each whole or cut and in one file; and no other file is touched. -/
theorem run_kept (os : Os) (k : RotatingFileSink) (format : LogMsg → CString) (cs : List SinkCall) (s : Rotating)
    (h : s.On k) :
    Ends (RotatingFileSink.run os k format cs) s
      (fun _ s' => Keeps k (cs.flatMap (logged format)) s.fileHelper.file s'.fileHelper.file)
      (fun _ s' => Keeps k (cs.flatMap (logged format)) s.fileHelper.file s'.fileHelper.file) := by
  let I : List SinkCall → Rotating → Prop := fun rest s' => s'.On k ∧ ∃ done, done ++ rest = cs ∧
    Keeps k (done.flatMap (logged format)) s.fileHelper.file s'.fileHelper.file
  have hall : ∀ rest s', I rest s' → Keeps k (cs.flatMap (logged format)) s.fileHelper.file s'.fileHelper.file := by
    rintro rest s' ⟨-, done, rfl, hk⟩
    rw [List.flatMap_append]
    exact hk.more _
  have hnext : ∀ c rest s₁ s', I (c :: rest) s₁ →
      s'.On k ∧ Keeps k (logged format c) s₁.fileHelper.file s'.fileHelper.file → I rest s' := by
    rintro c rest s₁ s' ⟨-, done, hdone, hk⟩ ⟨hon', hk'⟩
    refine ⟨hon', done ++ [c], by rw [← hdone, List.append_assoc]; rfl, ?_⟩
    rw [List.flatMap_append, List.flatMap_singleton]
    exact hk.trans hk'
  refine (run_ends (I := I) (U := fun s' => Keeps k _ _ s'.fileHelper.file) (R := fun _ _ => True) ?_ cs s
    ⟨h, [], rfl, Moved.refl.keeps⟩).mono (fun _ s' h => hall [] s' h.1) (fun _ _ => And.right)
  intro c rest s₁ h₁
  refine (call_keeps format c h₁.1).mono (fun _ s' h => ⟨hnext c rest s₁ s' h₁ h, trivial⟩) ?_
  rintro (what | _) s' h
  · exact ⟨hnext c rest s₁ s' h₁ h, trivial⟩
  · exact hall rest s' (hnext c rest s₁ s' h₁ h)

/-! ## Sizes -/

/-- A text of an allowed size, or a beginning of one message or of a file there was. -/
def Sized (k : RotatingFileSink) (ms : List CString) (F₀ : Files) (t : CString) : Prop :=
  t.length ≤ k.maxSize ∨ (∃ m ∈ ms, t <+: m) ∨ ∃ j ≤ k.maxFiles, t <+: k.texts F₀ j

theorem Sized.cut {F₀ : Files} {t u : CString} (ht : t <+: u) (h : Sized k ms F₀ u) : Sized k ms F₀ t := by
  obtain h | ⟨m, hm, h⟩ | ⟨j, hj, h⟩ := h
  · exact .inl (ht.length_le.trans h)
  · exact .inr (.inl ⟨m, hm, ht.trans h⟩)
  · exact .inr (.inr ⟨j, hj, ht.trans h⟩)

/-- The counter is not below the first file, and every file has a size that is allowed. -/
structure Fits (k : RotatingFileSink) (ms : List CString) (F₀ : Files) (s : Rotating) : Prop where
  current : (k.current s.fileHelper.file).length ≤ s.currentSize
  sized : ∀ i ≤ k.maxFiles, Sized k ms F₀ (k.texts s.fileHelper.file i)

theorem Fits.moved {F₀ : Files} (h : Fits k ms F₀ s)
    (hm : Moved (calcFilename k.baseFilename) k.maxFiles s.fileHelper.file s'.fileHelper.file)
    (hc : s'.currentSize = s.currentSize ∨ k.current s'.fileHelper.file = []) : Fits k ms F₀ s' where
  current := by
    obtain hc | hc := hc
    · rw [hc]
      exact hm.moves.newest.length_le.trans h.current
    · rw [hc]
      exact Nat.zero_le _
  sized := hm.moves.all (.inl (Nat.zero_le _)) (fun _ _ ht => Sized.cut ht) h.sized

/-- What is written where room was found has a size that is allowed. -/
theorem Room.sized {F₀ : Files} {n : Nat} {t : Rotating} (h : Room os k s formatted n t) (hf : Fits k ms F₀ s)
    (hm : formatted ∈ ms) (hlt : s.currentSize + formatted.length < 2 ^ 64) :
    (k.current t.fileHelper.file ++ formatted).length ≤ n ∧ n ≤ s.currentSize + formatted.length ∧
      Sized k ms F₀ (k.current t.fileHelper.file ++ formatted) := by
  have hcounted : counted s formatted = s.currentSize + formatted.length := Nat.mod_eq_of_lt hlt
  have halone : Sized k ms F₀ formatted := .inr (.inl ⟨formatted, hm, List.prefix_refl _⟩)
  cases h with
  | fits hle =>
    have hlen := hf.current
    rw [hcounted] at hle ⊢
    rw [List.length_append]
    exact ⟨Nat.add_le_add_right hlen _, Nat.le_refl _, .inl (by rw [List.length_append]; omega)⟩
  | empty _ hcur hfile =>
    rw [hfile, hcur, hcounted]
    exact ⟨Nat.le_add_left .., Nat.le_refl _, halone⟩
  | rotated _ _ hempty =>
    rw [hempty]
    exact ⟨Nat.le_refl _, Nat.le_add_left .., halone⟩

theorem Wrote.fits {F₀ : Files} (h : Wrote os k s formatted s') (hf : Fits k ms F₀ s) (hm : formatted ∈ ms)
    (hlt : s.currentSize + formatted.length < 2 ^ 64) :
    Fits k ms F₀ s' ∧ s'.currentSize ≤ s.currentSize + formatted.length := by
  obtain ⟨t, hroom, -, hfile⟩ := h.room
  obtain ⟨hlen, hle, hsized⟩ := hroom.sized hf hm hlt
  refine ⟨⟨?_, ?_⟩, hle⟩
  · rw [hfile, current_append]
    exact hlen
  · intro i hi
    rw [hfile, texts_append]
    rcases eq_or_ne i 0 with rfl | hne
    · rw [Function.update_self]
      exact hsized
    · rw [Function.update_of_ne hne]
      exact hroom.moved.moves.all (.inl (Nat.zero_le _)) (fun _ _ ht => Sized.cut ht) hf.sized i hi

/-- **No file grows over the size that is set, but by one message alone**, whatever is not removed, renamed, opened or
flushed; what was over it before may stay. -/
theorem run_sizes (os : Os) (k : RotatingFileSink) (format : LogMsg → CString) (cs : List SinkCall) (s : Rotating)
    (h : s.On k) (hw : ¬os.Fails .fwrite) (hcur : (k.current s.fileHelper.file).length ≤ s.currentSize)
    (hlt : s.currentSize + ((cs.flatMap (logged format)).map List.length).sum < 2 ^ 64) :
    Ends (RotatingFileSink.run os k format cs) s
      (fun _ s' => ∀ i ≤ k.maxFiles,
        Sized k (cs.flatMap (logged format)) s.fileHelper.file (k.texts s'.fileHelper.file i))
      (fun _ s' => ∀ i ≤ k.maxFiles,
        Sized k (cs.flatMap (logged format)) s.fileHelper.file (k.texts s'.fileHelper.file i)) := by
  let I : List SinkCall → Rotating → Prop := fun rest s' => s'.On k ∧
    Fits k (cs.flatMap (logged format)) s.fileHelper.file s' ∧
    (∀ m ∈ rest.flatMap (logged format), m ∈ cs.flatMap (logged format)) ∧
    s'.currentSize + ((rest.flatMap (logged format)).map List.length).sum < 2 ^ 64
  have h₀ : I cs s :=
    ⟨h, ⟨hcur, fun i hi => .inr (.inr ⟨i, hi, List.prefix_refl _⟩)⟩, fun _ => id, hlt⟩
  refine (run_ends (I := I) (U := fun s' => ∀ i ≤ k.maxFiles, Sized k _ _ (k.texts s'.fileHelper.file i))
    (R := fun _ _ => True) ?_ cs s h₀).mono (fun _ s' h => h.1.2.1.sized) (fun _ _ => And.right)
  rintro c rest s₁ ⟨hon, hf, hmem, hsum⟩
  cases c with
  | log msg =>
    rw [List.flatMap_cons, logged, List.singleton_append] at hmem hsum
    rw [List.map_cons, List.sum_cons] at hsum
    have hrest : ∀ m ∈ rest.flatMap (logged format), m ∈ cs.flatMap (logged format) :=
      fun m hm => hmem m (List.mem_cons_of_mem _ hm)
    refine (sinkIt_ends hon (format msg)).mono ?_ ?_
    · intro _ s₂ hs₂
      obtain ⟨hf₂, hle⟩ := hs₂.fits hf (hmem _ List.mem_cons_self) (by omega)
      exact ⟨⟨hs₂.on, hf₂, hrest, by omega⟩, trivial⟩
    · intro e s₂ hs₂
      cases hs₂ with
      | refused hr =>
        cases e with
        | thrown what =>
          refine ⟨⟨hr.on, hf.moved hr.moved (hr.size.imp_right And.left), hrest, ?_⟩, trivial⟩
          obtain hc | ⟨-, hc⟩ := hr.size
          · omega
          · omega
        | undefined => exact absurd rfl hr.thrown
      | closed => exact hf.sized
      | torn _ hfails => exact absurd hfails hw
  | flush =>
    refine (onFile_ends (FileHelper.flush_ends (n := k.maxFiles) (calcFilename_injective _) hon)).mono ?_ ?_
    · rintro - s₂ ⟨hc, hon₂, hfile, -⟩
      exact ⟨⟨hon₂, hf.moved (hfile ▸ .refl) (.inl hc), hmem, hc ▸ hsum⟩, trivial⟩
    · rintro (what | _) s₂ ⟨hc, -, he, hon₂, -, -, hmoved⟩
      · exact ⟨⟨hon₂, hf.moved hmoved (.inl hc), hmem, hc ▸ hsum⟩, trivial⟩
      · exact absurd rfl he

/-! ## The closed file -/

theorem call_opens {format : LogMsg → CString} (hbase : k.baseFilename ≠ []) (ho : ¬os.Fails .fopen) (h : s.On k)
    (hopen : s.fileHelper.fd.isSome) (c : SinkCall) :
    Ends (RotatingFileSink.call os k format c) s (fun _ s' => s'.On k ∧ s'.fileHelper.fd.isSome)
      (fun e s' => e ≠ .undefined ∧ s'.On k ∧ s'.fileHelper.fd.isSome) := by
  have hsome : s.fileHelper.fd ≠ none := Option.isSome_iff_ne_none.1 hopen
  cases c with
  | log msg =>
    refine (sinkIt_ends h (format msg)).mono (fun _ _ h => ⟨h.on, h.opened⟩) ?_
    intro e s' hs'
    cases hs' with
    | refused hr =>
      refine ⟨hr.thrown, hr.on, Option.isSome_iff_ne_none.2 (fun hnone => ?_)⟩
      obtain hnone | hnil | hfails := hr.closed hnone
      · exact hsome hnone
      · exact hbase hnil
      · exact ho hfails
    | closed _ hnone => exact absurd hnone hsome
    | torn _ _ he hon hfd => exact ⟨he, hon, hfd⟩
  | flush =>
    refine (onFile_ends (FileHelper.flush_ends (n := k.maxFiles) (calcFilename_injective _) h)).mono ?_ ?_
    · rintro - s' ⟨-, hon, -, hfd⟩
      exact ⟨hon, by rw [hfd, Option.isSome_map]; exact hopen⟩
    · rintro e s' ⟨-, -, he, hon, hfd, -⟩
      exact ⟨he, hon, hfd.trans hopen⟩

/-- **Where every file can be opened, nothing is ever written to a null stream** and the file stays open, whatever else
fails. -/
theorem run_opens (os : Os) (k : RotatingFileSink) (format : LogMsg → CString) (cs : List SinkCall) (s : Rotating)
    (hbase : k.baseFilename ≠ []) (ho : ¬os.Fails .fopen) (h : s.On k) (hopen : s.fileHelper.fd.isSome) :
    Ends (RotatingFileSink.run os k format cs) s (fun _ s' => s'.fileHelper.fd.isSome) (fun _ _ => False) := by
  refine (run_ends (I := fun _ s' => s'.On k ∧ s'.fileHelper.fd.isSome) (U := fun _ => False) (R := fun _ _ => True)
    ?_ cs s ⟨h, hopen⟩).mono (fun _ _ h => h.1.2) (fun _ _ => And.right)
  rintro c - s₁ ⟨hon, hfd⟩
  refine (call_opens hbase ho hon hfd c).mono (fun _ _ h => ⟨h, trivial⟩) ?_
  rintro (what | _) s₂ ⟨he, hs₂⟩
  · exact ⟨hs₂, trivial⟩
  · exact absurd rfl he

/-- Nothing of the sink has changed that its file is closed. -/
structure Shut (k : RotatingFileSink) (s s' : Rotating) : Prop where
  on : s'.On k
  fd : s'.fileHelper.fd = none
  file : s'.fileHelper.file = s.fileHelper.file
  size : s'.currentSize = s.currentSize

theorem flush_shut (h : s.On k) (hfd : s.fileHelper.fd = none) :
    Ends (onFile (FileHelper.flush os)) s (fun _ s' => Shut k s s') (fun e s' => e ≠ .undefined ∧ Shut k s s') := by
  refine (onFile_ends (FileHelper.flush_ends (n := k.maxFiles) (calcFilename_injective _) h)).mono ?_ ?_
  · rintro - s' ⟨hc, hon, hfile, hfd'⟩
    rw [hfd] at hfd'
    exact ⟨hon, hfd', hfile, hc⟩
  · rintro e s' ⟨hc, -, he, hon, hsome, hfile, -⟩
    rw [hfd] at hsome
    exact ⟨he, hon, Option.not_isSome_iff_eq_none.1 (hsome ▸ Bool.false_ne_true), hfile hfd, hc⟩

theorem makeRoom_shut (h : s.On k) (hfd : s.fileHelper.fd = none) (formatted : CString) :
    Ends (RotatingFileSink.makeRoom os k formatted) s (fun _ s' => counted s formatted ≤ k.maxSize ∧ s' = s)
      (fun e s' => k.maxSize < counted s formatted ∧ e ≠ .undefined ∧ Shut k s s') := by
  refine ends_bind (ends_get ?_)
  show Ends (if k.maxSize < counted s formatted then _ else _) s _ _
  split
  · rename_i hlt
    refine Ends.bind ((flush_shut h hfd).mono (fun _ _ => id) (fun _ _ h => ⟨hlt, h⟩)) ?_
    rintro - s₁ hs₁
    refine Ends.bind ((onFile_ends (FileHelper.size_ends hs₁.on)).mono (fun _ _ => id) ?_) ?_
    · rintro e s₂ ⟨hc, -, he, hon, hfile, hfd₂⟩
      exact ⟨hlt, he, hon, hfd₂.trans hs₁.fd, hfile.trans hs₁.file, hc.trans hs₁.size⟩
    · rintro n s₂ ⟨-, -, -, -, fd, hopen, -⟩
      rw [hs₁.fd] at hopen
      cases hopen
  · rename_i hle
    exact ends_pure ⟨Nat.le_of_not_lt hle, rfl⟩

theorem sinkIt_shut (h : s.On k) (hfd : s.fileHelper.fd = none) (formatted : CString) :
    Ends (RotatingFileSink.sinkIt os k formatted) s (fun _ _ => False) (fun e s' => Shut k s s' ∧
      if counted s formatted ≤ k.maxSize then e = .undefined else e ≠ .undefined) := by
  refine Ends.bind ((makeRoom_shut h hfd formatted).mono (fun _ _ => id) ?_) ?_
  · rintro e s' ⟨hlt, he, hs'⟩
    rw [if_neg (Nat.not_le_of_lt hlt)]
    exact ⟨hs', he⟩
  · rintro n s' ⟨hle, rfl⟩
    simp only [if_pos hle]
    refine Ends.bind ((onFile_ends (FileHelper.write_ends h formatted)).mono (fun _ _ => id) ?_) ?_
    · rintro e s₁ ⟨hc, hon, ⟨-, he, hs₁⟩ | ⟨hsome, -⟩⟩
      · exact ⟨⟨hon, hs₁ ▸ hfd, hs₁ ▸ rfl, hc⟩, he⟩
      · rw [hfd] at hsome
        cases hsome
    · rintro - s₁ ⟨-, -, hsome, -⟩
      rw [hfd] at hsome
      cases hsome

/-- **A closed file is never opened again**: the messages that would not fit are refused, each with an exception, and the
first that fits is handed to a null stream. -/
theorem run_closed (os : Os) (k : RotatingFileSink) (format : LogMsg → CString) (cs : List SinkCall) (s : Rotating)
    (h : s.On k) (hfd : s.fileHelper.fd = none) :
    Ends (RotatingFileSink.run os k format cs) s
      (fun thrown s' => s'.fileHelper.fd = none ∧ s'.fileHelper.file = s.fileHelper.file ∧
        List.Forall₂ (fun c r => ∀ m ∈ logged format c, k.maxSize < counted s m ∧ r.isSome) cs thrown)
      (fun e s' => e = .undefined ∧ s'.fileHelper.fd = none ∧ s'.fileHelper.file = s.fileHelper.file ∧
        ∃ m ∈ cs.flatMap (logged format), counted s m ≤ k.maxSize) := by
  let I : List SinkCall → Rotating → Prop := fun rest s' => Shut k s s' ∧
    ∀ m ∈ rest.flatMap (logged format), m ∈ cs.flatMap (logged format)
  have hnext : ∀ c rest s₁ s', I (c :: rest) s₁ → Shut k s₁ s' → I rest s' := by
    rintro c rest s₁ s' ⟨hs₁, hmem⟩ hs'
    refine ⟨⟨hs'.on, hs'.fd, hs'.file.trans hs₁.file, hs'.size.trans hs₁.size⟩, fun m hm => hmem m ?_⟩
    rw [List.flatMap_cons]
    exact List.mem_append_right _ hm
  refine (run_ends (I := I) (R := fun c r => ∀ m ∈ logged format c, k.maxSize < counted s m ∧ r.isSome)
    (U := fun s' => s'.fileHelper.fd = none ∧ s'.fileHelper.file = s.fileHelper.file ∧
      ∃ m ∈ cs.flatMap (logged format), counted s m ≤ k.maxSize) ?_ cs s
    ⟨⟨h, hfd, rfl, rfl⟩, fun _ => id⟩).mono (fun _ _ h => ⟨h.1.1.fd, h.1.1.file, h.2⟩) (fun _ _ => id)
  intro c rest s₁ h₁
  have hcounted : ∀ m, counted s₁ m = counted s m := fun m => by
    unfold RotatingFileSink.counted
    rw [h₁.1.size]
  cases c with
  | log msg =>
    refine (sinkIt_shut h₁.1.on h₁.1.fd (format msg)).mono (fun _ _ => False.elim) ?_
    rintro e s' ⟨hs', he⟩
    rw [hcounted] at he
    split at he
    · rename_i hle
      rw [he]
      refine ⟨hs'.fd, hs'.file.trans h₁.1.file, format msg, h₁.2 _ ?_, hle⟩
      exact List.mem_flatMap.2 ⟨.log msg, List.mem_cons_self, List.mem_singleton_self _⟩
    · rename_i hlt
      cases e with
      | thrown what =>
        refine ⟨hnext _ rest s₁ s' h₁ hs', fun m hm => ⟨?_, rfl⟩⟩
        obtain rfl := List.mem_singleton.1 hm
        exact Nat.lt_of_not_le hlt
      | undefined => exact absurd rfl he
  | flush =>
    refine (flush_shut h₁.1.on h₁.1.fd).mono (fun _ s' hs' => ⟨hnext _ rest s₁ s' h₁ hs', nofun⟩) ?_
    rintro (what | _) s' ⟨he, hs'⟩
    · exact ⟨hnext _ rest s₁ s' h₁ hs', nofun⟩
    · exact absurd rfl he

end

/-- A system on which no call fails but the renaming of files. -/
def noRename : Os := ⟨fun c _ => c = .rename, fun _ => 0, fun _ => false, fun _ => 0, fun _ => []⟩

theorem noRename_fails {c : OsCall} (hc : c ≠ .rename) : ¬noRename.Fails c := fun ⟨_, h⟩ => hc (of_decide_eq_true h)

/-- Two files of three characters. -/
def twoFiles : RotatingFileSink := ⟨['f'], 3, 1⟩

def line (text : CString) : SinkCall := .log ⟨[], .info, {}, text⟩

/-- A sink of two files that has counted two characters and lost its file. -/
def lostFile : Rotating := ⟨2, ⟨fun _ => none, 0, none, ['f']⟩⟩

theorem run_closed_lostFile :
    Ends (RotatingFileSink.run noRename twoFiles LogMsg.payload [line ['a', 'b'], line ['a']]) lostFile
      (fun _ _ => False) (fun e _ => e = .undefined) ∧
    Ends (RotatingFileSink.run noRename twoFiles LogMsg.payload [line ['a', 'b'], line ['a']]) lostFile
      (fun thrown s' => s'.fileHelper.fd = none ∧ s'.fileHelper.file = lostFile.fileHelper.file ∧
        List.Forall₂ (fun c r => ∀ m ∈ logged LogMsg.payload c, 3 < counted lostFile m ∧ r.isSome)
          [line ['a', 'b'], line ['a']] thrown)
      (fun e s' => e = .undefined ∧ s'.fileHelper.fd = none ∧ s'.fileHelper.file = lostFile.fileHelper.file ∧
        ∃ m ∈ [['a', 'b'], ['a']], counted lostFile m ≤ 3) :=
  ⟨by decide +kernel, run_closed noRename twoFiles LogMsg.payload _ lostFile ⟨rfl, nofun⟩ rfl⟩

end Spdlog
end LogMaker
