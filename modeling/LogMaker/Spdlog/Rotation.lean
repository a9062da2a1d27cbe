import LogMaker.Spdlog.Files
/-!
# Rotation — what `rotate_` does to the files

`rotate_` moves every file up one number, from the last one down, and begins the first one anew.  Where a call of the
system fails it throws: the files have still only been moved up or cut, and the first file is empty, or it is closed
(`rotate_ends`).
-/
namespace LogMaker
namespace Spdlog

open RotatingFileSink (calcFilename calcFilename_injective)

/-- The sink writes to its first file or to none. -/
abbrev Rotating.On (k : RotatingFileSink) (s : Rotating) : Prop := s.fileHelper.On (calcFilename k.baseFilename 0)

theorem onFile_ends {α : Type} {x : FileM α} {s : Rotating} {Q : α → FileHelper → Prop} {E : Fault → FileHelper → Prop}
    (h : Ends x s.fileHelper Q E) :
    Ends (onFile x) s (fun a s' => s'.currentSize = s.currentSize ∧ Q a s'.fileHelper)
      (fun e s' => s'.currentSize = s.currentSize ∧ E e s'.fileHelper) := by
  unfold Ends at h ⊢
  unfold onFile
  match x s.fileHelper, h with
  | .ok a t, h => exact ⟨rfl, h⟩
  | .error e t, h => exact ⟨rfl, h⟩

theorem onFile_returns {α : Type} {x : FileM α} {s : Rotating} {Q : α → FileHelper → Prop}
    (h : Ends x s.fileHelper Q (fun _ _ => False)) :
    Ends (onFile x) s (fun a s' => s'.currentSize = s.currentSize ∧ Q a s'.fileHelper) (fun _ _ => False) :=
  (onFile_ends h).mono (fun _ _ => id) (fun _ _ => And.right)

theorem ends_onFile_throwErrno {α : Type} {os : Os} {s : Rotating} {Q : α → Rotating → Prop}
    {E : Fault → Rotating → Prop} (msg : CString) (h : ∀ what, E (.thrown what) s) :
    Ends (onFile (os.throwErrno msg)) s Q E := by
  unfold Ends
  exact h _

/-- The files when the file of this number, if there is one, is renamed to the next number. -/
def upAt (names : Nat → CString) (F : Files) (i : Nat) : Files := match F (names i) with
  | none => F
  | some text => Function.update (Function.update F (names i) none) (names (i + 1)) (some text)

/-- The same for the numbers below `i`, from the last one down. -/
def upFrom (names : Nat → CString) : Nat → Files → Files
  | 0, F => F
  | i + 1, F => upFrom names i (upAt names F i)

theorem upAt_of_isSome {names : Nat → CString} {F : Files} {i : Nat} (h : (F (names i)).isSome) :
    upAt names F i = Function.update (Function.update F (names i) none) (names (i + 1)) (F (names i)) := by
  unfold upAt
  obtain ⟨text, htext⟩ := Option.isSome_iff_exists.1 h
  rw [htext]

theorem ne_succ {names : Nat → CString} (hinj : Function.Injective names) (i : Nat) : names i ≠ names (i + 1) :=
  hinj.ne (Nat.ne_of_lt (Nat.lt_succ_self i))

/-- It makes no difference that the target is gone before. -/
theorem upAt_update_next {names : Nat → CString} (hinj : Function.Injective names) {F : Files} {i : Nat}
    (h : (F (names i)).isSome) : upAt names (Function.update F (names (i + 1)) none) i = upAt names F i := by
  have hsrc : Function.update F (names (i + 1)) none (names i) = F (names i) :=
    Function.update_of_ne (ne_succ hinj i) ..
  rw [upAt_of_isSome h, upAt_of_isSome (hsrc ▸ h), hsrc, Function.update_comm (ne_succ hinj i).symm,
    Function.update_idem]

theorem Moved.over {names : Nat → CString} {n : Nat} {F : Files} (hinj : Function.Injective names) {i : Nat}
    (hi : i < n) :
    Moved names n F (Function.update (Function.update F (names i) none) (names (i + 1)) (F (names i))) := by
  have hne := ne_succ hinj i
  have hcut : Moved names n F (Function.update F (names (i + 1)) none) := .cut hinj hi List.nil_prefix
  have hup := hcut.trans (.up hinj hi (Function.update_self ..))
  rwa [Function.update_comm hne.symm, Function.update_idem, Function.update_of_ne hne] at hup

/-- How a rotation is left that throws. -/
structure Spoiled (os : Os) (k : RotatingFileSink) (s : Rotating) (e : Fault) (s' : Rotating) : Prop where
  thrown : e ≠ .undefined
  on : s'.On k
  moved : Moved (calcFilename k.baseFilename) k.maxFiles s.fileHelper.file s'.fileHelper.file
  fails : os.Fails .remove ∨ os.Fails .rename ∨ os.Fails .fopen ∨ k.baseFilename = []
  left : s'.fileHelper.fd = none ∧ s'.currentSize = s.currentSize ∧ (k.baseFilename = [] ∨ os.Fails .fopen) ∨
    s'.fileHelper.fd = some ⟨k.baseFilename, []⟩ ∧ s'.fileHelper.file k.baseFilename = some [] ∧ s'.currentSize = 0

section
variable {os : Os} {k : RotatingFileSink} {s : Rotating}

theorem reopen_sink (h : s.On k) (hfd : s.fileHelper.fd = none) :
    Ends (onFile (FileHelper.reopen os true)) s
      (fun _ s' => s'.currentSize = s.currentSize ∧ s'.On k ∧ s'.fileHelper.fd = some ⟨k.baseFilename, []⟩ ∧
        s'.fileHelper.file = Function.update s.fileHelper.file k.baseFilename (some []))
      (fun e s' => s'.currentSize = s.currentSize ∧ (k.baseFilename = [] ∨ os.Fails .fopen) ∧ e ≠ .undefined ∧ s'.On k ∧
        s'.fileHelper.fd = none ∧
        Moved (calcFilename k.baseFilename) k.maxFiles s.fileHelper.file s'.fileHelper.file) := by
  refine (onFile_ends (FileHelper.reopen_ends h hfd)).mono (fun _ _ => id) ?_
  rintro e s' ⟨hc, hfails, he, hon, hfd', hfile⟩
  refine ⟨hc, hfails, he, hon, hfd', ?_⟩
  obtain hfile | hfile := hfile
  · rw [hfile]
    exact .refl
  · rw [hfile]
    exact .cut (calcFilename_injective _) (Nat.zero_le _) List.nil_prefix

theorem renameFile_sink {i : Nat} (hi : i < k.maxFiles) (h : s.On k) (hfd : s.fileHelper.fd = none)
    (hsome : (s.fileHelper.file (calcFilename k.baseFilename i)).isSome) :
    Ends
      (onFile (RotatingFileSink.renameFile os (calcFilename k.baseFilename i) (calcFilename k.baseFilename (i + 1)))) s
      (fun renamed s' => s'.currentSize = s.currentSize ∧ s'.On k ∧ s'.fileHelper.fd = none ∧
        Moved (calcFilename k.baseFilename) k.maxFiles s.fileHelper.file s'.fileHelper.file ∧
        if renamed then s'.fileHelper.file = upAt (calcFilename k.baseFilename) s.fileHelper.file i
        else (os.Fails .remove ∨ os.Fails .rename) ∧ (s'.fileHelper.file = s.fileHelper.file ∨
          s'.fileHelper.file = Function.update s.fileHelper.file (calcFilename k.baseFilename (i + 1)) none))
      (fun _ _ => False) := by
  have hinj := calcFilename_injective k.baseFilename
  have hfile := FileHelper.file_of_unbuffered (FileHelper.buffered_of_closed hfd)
  rw [hfile] at hsome ⊢
  refine (onFile_returns (RotatingFileSink.renameFile_ends (ne_succ hinj i))).mono ?_ (fun _ _ => id)
  rintro renamed s' ⟨hc, hfd', hname, hr⟩
  rw [hfd] at hfd'
  rw [FileHelper.file_of_unbuffered (FileHelper.buffered_of_closed hfd')]
  refine ⟨hc, h.closed hname hfd', hfd', ?_⟩
  cases renamed with
  | false =>
    obtain ⟨hfails, hdisk⟩ := hr
    have hnot : s.fileHelper.disk (calcFilename k.baseFilename i) ≠ none := fun h => by
      rw [h] at hsome
      cases hsome
    refine ⟨?_, hfails.imp_right (fun h => h.resolve_right hnot), hdisk⟩
    obtain hdisk | hdisk := hdisk
    · rw [hdisk]
      exact .refl
    · rw [hdisk]
      exact .cut hinj hi List.nil_prefix
  | true =>
    obtain ⟨-, hdisk⟩ := hr
    rw [hdisk]
    exact ⟨.over hinj hi, (upAt_of_isSome hsome).symm⟩

/-- A file that cannot be renamed spoils the rotation: the first file is cut, so that it does not grow. -/
theorem giveUp_ends {s₁ : Rotating} (h : s₁.On k) (hfd : s₁.fileHelper.fd = none)
    (hc : s₁.currentSize = s.currentSize)
    (hmoved : Moved (calcFilename k.baseFilename) k.maxFiles s.fileHelper.file s₁.fileHelper.file)
    (hfails : os.Fails .remove ∨ os.Fails .rename) (msg : CString) :
    Ends (do
        onFile (FileHelper.reopen os true)
        modify fun s => { s with currentSize := 0 }
        onFile (os.throwErrno msg) : SinkM Unit) s₁
      (fun _ _ => False) (Spoiled os k s) := by
  have hspoils : os.Fails .remove ∨ os.Fails .rename ∨ os.Fails .fopen ∨ k.baseFilename = [] :=
    hfails.imp_right .inl
  refine Ends.bind ((reopen_sink h hfd).mono (fun _ _ => id) ?_) ?_
  · rintro e s₂ ⟨hc₂, hfails₂, he₂, hon₂, hfd₂, hmoved₂⟩
    exact ⟨he₂, hon₂, hmoved.trans hmoved₂, hspoils, .inl ⟨hfd₂, hc₂.trans hc, hfails₂⟩⟩
  · rintro - s₂ ⟨-, hon₂, hfd₂, hfile₂⟩
    refine ends_bind (ends_modify (ends_onFile_throwErrno _ (fun what => ?_)))
    refine ⟨nofun, hon₂, ?_, hspoils, .inr ⟨hfd₂, ?_, rfl⟩⟩
    · refine hmoved.trans ?_
      show Moved _ _ _ s₂.fileHelper.file
      rw [hfile₂]
      exact .cut (calcFilename_injective _) (Nat.zero_le _) List.nil_prefix
    · show s₂.fileHelper.file _ = _
      rw [hfile₂, Function.update_self]

/-- **One number of the loop**: the file is moved up, or the rotation ends here. -/
theorem rotateAt_ends {i : Nat} (hi : i < k.maxFiles) (h : s.On k) (hfd : s.fileHelper.fd = none) :
    Ends (RotatingFileSink.rotateAt os k i) s
      (fun _ s' => s'.currentSize = s.currentSize ∧ s'.On k ∧ s'.fileHelper.fd = none ∧
        Moved (calcFilename k.baseFilename) k.maxFiles s.fileHelper.file s'.fileHelper.file ∧
        (os.Fails .pathExists ∨ s'.fileHelper.file = upAt (calcFilename k.baseFilename) s.fileHelper.file i))
      (Spoiled os k s) := by
  have hfile := FileHelper.file_of_unbuffered (FileHelper.buffered_of_closed hfd)
  refine (onFile_returns (FileHelper.pathExists_ends _)).next ?_
  rintro found s₁ ⟨hc₁, hdisk₁, hfd₁, hname₁, hsome, hexact⟩
  rw [hfd] at hfd₁
  have hon₁ : s₁.On k := h.closed hname₁ hfd₁
  have hfile₁ : s₁.fileHelper.file = s.fileHelper.file := by
    rw [FileHelper.file_of_unbuffered (FileHelper.buffered_of_closed hfd₁), hfile, hdisk₁]
  cases found with
  | false =>
    refine ends_pure ⟨hc₁, hon₁, hfd₁, hfile₁ ▸ .refl, hexact.imp_right (fun hnone => ?_)⟩
    have hnone : s.fileHelper.file (calcFilename k.baseFilename i) = none := by
      rw [hfile]
      exact Option.not_isSome_iff_eq_none.1 (hnone ▸ Bool.false_ne_true)
    unfold upAt
    rw [hnone, hfile₁]
  | true =>
    have hsome₁ : (s₁.fileHelper.file (calcFilename k.baseFilename i)).isSome := by
      rw [hfile₁, hfile]
      exact hsome rfl
    refine (renameFile_sink hi hon₁ hfd₁ hsome₁).next ?_
    rintro (_ | _) s₂ ⟨hc₂, hon₂, hfd₂, hmoved₂, hr₂⟩
    · obtain ⟨hfails, hfile₂⟩ := hr₂
      have hsrc : s₂.fileHelper.file (calcFilename k.baseFilename i) =
          s₁.fileHelper.file (calcFilename k.baseFilename i) := by
        obtain hfile₂ | hfile₂ := hfile₂
        · rw [hfile₂]
        · rw [hfile₂, Function.update_of_ne (ne_succ (calcFilename_injective _) i)]
      have hup : upAt (calcFilename k.baseFilename) s₂.fileHelper.file i =
          upAt (calcFilename k.baseFilename) s₁.fileHelper.file i := by
        obtain hfile₂ | hfile₂ := hfile₂
        · rw [hfile₂]
        · rw [hfile₂, upAt_update_next (calcFilename_injective _) hsome₁]
      refine (renameFile_sink hi hon₂ hfd₂ (by rw [hsrc]; exact hsome₁)).next ?_
      rintro (_ | _) s₃ ⟨hc₃, hon₃, hfd₃, hmoved₃, hr₃⟩
      · refine (giveUp_ends hon₃ hfd₃ (hc₃.trans (hc₂.trans hc₁)) ?_ hfails _).mono (fun _ _ => False.elim)
          (fun _ _ => id)
        exact hfile₁ ▸ hmoved₂.trans hmoved₃
      · refine ends_pure ⟨hc₃.trans (hc₂.trans hc₁), hon₃, hfd₃, hfile₁ ▸ hmoved₂.trans hmoved₃, .inr ?_⟩
        exact hr₃.trans (hup.trans (hfile₁ ▸ rfl))
    · exact ends_pure ⟨hc₂.trans hc₁, hon₂, hfd₂, hfile₁ ▸ hmoved₂, .inr (hfile₁ ▸ hr₂)⟩

theorem Spoiled.after {s₁ s' : Rotating} {e : Fault} (h : Spoiled os k s₁ e s') (hc : s₁.currentSize = s.currentSize)
    (hm : Moved (calcFilename k.baseFilename) k.maxFiles s.fileHelper.file s₁.fileHelper.file) : Spoiled os k s e s' :=
  ⟨h.thrown, h.on, hm.trans h.moved, h.fails, hc ▸ h.left⟩

theorem rotateFrom_ends : ∀ (i : Nat) (s : Rotating), i ≤ k.maxFiles → s.On k → s.fileHelper.fd = none →
    Ends (RotatingFileSink.rotateFrom os k i) s
      (fun _ s' => s'.currentSize = s.currentSize ∧ s'.On k ∧ s'.fileHelper.fd = none ∧
        Moved (calcFilename k.baseFilename) k.maxFiles s.fileHelper.file s'.fileHelper.file ∧
        (os.Fails .pathExists ∨ s'.fileHelper.file = upFrom (calcFilename k.baseFilename) i s.fileHelper.file))
      (Spoiled os k s)
  | 0, s, _, h, hfd => ends_pure ⟨rfl, h, hfd, .refl, .inr rfl⟩
  | i + 1, s, hi, h, hfd => by
    refine (rotateAt_ends hi h hfd).bind ?_
    rintro - s₁ ⟨hc₁, hon₁, hfd₁, hmoved₁, hfile₁⟩
    refine (rotateFrom_ends i s₁ (Nat.le_of_succ_le hi) hon₁ hfd₁).mono ?_ (fun e s' h => h.after hc₁ hmoved₁)
    rintro - s₂ ⟨hc₂, hon₂, hfd₂, hmoved₂, hfile₂⟩
    refine ⟨hc₂.trans hc₁, hon₂, hfd₂, hmoved₁.trans hmoved₂, hfile₁.elim .inl (fun hfile₁ => ?_)⟩
    exact hfile₂.imp_right (fun hfile₂ => hfile₂.trans (by rw [hfile₁]; rfl))

/-- **A rotation that returns has moved every file up one number and begun the first one anew**; one that throws is
left spoiled. -/
theorem rotate_ends (h : s.On k) :
    Ends (RotatingFileSink.rotate os k) s
      (fun _ s' => s'.currentSize = s.currentSize ∧ s'.On k ∧ s'.fileHelper.fd = some ⟨k.baseFilename, []⟩ ∧
        s'.fileHelper.file k.baseFilename = some [] ∧
        Moved (calcFilename k.baseFilename) k.maxFiles s.fileHelper.file s'.fileHelper.file ∧
        (os.Fails .fclose ∨ os.Fails .pathExists ∨ s'.fileHelper.file =
          Function.update (upFrom (calcFilename k.baseFilename) k.maxFiles s.fileHelper.file) k.baseFilename (some [])))
      (Spoiled os k s) := by
  have hinj := calcFilename_injective k.baseFilename
  refine (onFile_returns (FileHelper.close_ends (n := k.maxFiles) hinj h)).next ?_
  rintro - s₁ ⟨hc₁, hfd₁, hon₁, hfile₁, hmoved₁⟩
  refine Ends.bind ((rotateFrom_ends k.maxFiles s₁ (Nat.le_refl _) hon₁ hfd₁).mono (fun _ _ => id)
    (fun e s' h => h.after hc₁ hmoved₁)) ?_
  rintro - s₂ ⟨hc₂, hon₂, hfd₂, hmoved₂, hfile₂⟩
  refine (reopen_sink hon₂ hfd₂).mono ?_ ?_
  · rintro - s₃ ⟨hc₃, hon₃, hfd₃, hfile₃⟩
    refine ⟨hc₃.trans (hc₂.trans hc₁), hon₃, hfd₃, ?_, ?_, ?_⟩
    · rw [hfile₃, Function.update_self]
    · rw [hfile₃]
      exact (hmoved₁.trans hmoved₂).trans (.cut hinj (Nat.zero_le _) List.nil_prefix)
    · refine hfile₁.imp_right (fun hfile₁ => hfile₂.imp_right (fun hfile₂ => ?_))
      rw [hfile₃, hfile₂, hfile₁]
  · rintro e s₃ ⟨hc₃, hfails, he, hon₃, hfd₃, hmoved₃⟩
    exact ⟨he, hon₃, (hmoved₁.trans hmoved₂).trans hmoved₃, .inr (.inr hfails.symm),
      .inl ⟨hfd₃, hc₃.trans (hc₂.trans hc₁), hfails⟩⟩

end

end Spdlog
end LogMaker
