import LogMaker.Spdlog.FileSink
import LogMaker.Lib.Archive
/-!
# FileArchive — the rotating file sink is an archive, where no call of the system fails

The file numbered 0 is the one that is being written and the others are the closed ones, the newest first.  A call that
logs is one of the archive (`sinkIt_shows`), so after any run the files are those of the archive that has logged the same
(`run_shows`), and nothing is thrown.
-/
namespace LogMaker
namespace Spdlog

open RotatingFileSink (calcFilename calcFilename_injective current counted logged)

/-- The files are those of the archive. -/
structure Filed (k : RotatingFileSink) (F : Files) (a : Archive Char k.maxFiles) : Prop where
  current : F k.baseFilename = some a.current
  closed : ∀ i < k.maxFiles, F (calcFilename k.baseFilename (i + 1)) = a.closed.items.reverse[i]?

/-- The sink writes this archive. -/
structure Rotating.Shows (k : RotatingFileSink) (s : Rotating) (a : Archive Char k.maxFiles) : Prop where
  on : s.On k
  opened : s.fileHelper.fd.isSome
  size : s.currentSize = a.current.length
  files : Filed k s.fileHelper.file a

/-! ## Moving up -/

section
variable {names : Nat → CString} {F : Files}

/-- No file below the number `n` is missing under one that is there. -/
def NoGap (names : Nat → CString) (n : Nat) (F : Files) : Prop := ∀ i < n, F (names i) = none → F (names (i + 1)) = none

theorem upAt_of_ne (hinj : Function.Injective names) {i j : Nat} (hi : j ≠ i) (hs : j ≠ i + 1) :
    upAt names F i (names j) = F (names j) := by
  unfold upAt
  cases F (names i) with
  | none => rfl
  | some text => exact (Function.update_of_ne (hinj.ne hs) ..).trans (Function.update_of_ne (hinj.ne hi) ..)

theorem upAt_self (hinj : Function.Injective names) (i : Nat) : upAt names F i (names i) = none := by
  unfold upAt
  cases hn : F (names i) with
  | none => exact hn
  | some text => exact (Function.update_of_ne (ne_succ hinj i) ..).trans (Function.update_self ..)

theorem upAt_next {i : Nat} (h : F (names i) = none → F (names (i + 1)) = none) :
    upAt names F i (names (i + 1)) = F (names i) := by
  unfold upAt
  cases hn : F (names i) with
  | none => exact h hn
  | some text => exact Function.update_self ..

/-- **Without a gap every file moves up one number**, the last one over the one that is lost. -/
theorem upFrom_succ (hinj : Function.Injective names) : ∀ (n : Nat) (F : Files), NoGap names n F →
    (∀ i < n, upFrom names n F (names (i + 1)) = F (names i)) ∧
    ∀ j, n < j → upFrom names n F (names j) = F (names j)
  | 0, _, _ => ⟨nofun, fun _ _ => rfl⟩
  | n + 1, F, h => by
    have hgap : NoGap names n (upAt names F n) := by
      intro i hi hnone
      rw [upAt_of_ne hinj (by omega) (by omega)] at hnone
      rcases eq_or_ne (i + 1) n with rfl | hne
      · exact upAt_self hinj _
      · rw [upAt_of_ne hinj hne (by omega)]
        exact h i (by omega) hnone
    obtain ⟨hup, hstay⟩ := upFrom_succ hinj n (upAt names F n) hgap
    constructor
    · intro i hi
      rcases Nat.lt_succ_iff_lt_or_eq.1 hi with hi | rfl
      · exact (hup i hi).trans (upAt_of_ne hinj (by omega) (by omega))
      · exact (hstay _ (Nat.lt_succ_self _)).trans (upAt_next (h _ hi))
    · intro j hj
      exact (hstay j (by omega)).trans (upAt_of_ne hinj (by omega) (by omega))

end

/-! ## A call -/

section
variable {os : Os} {k : RotatingFileSink} {s s' : Rotating} {F G : Files} {a : Archive Char k.maxFiles}

theorem Filed.noGap (h : Filed k F a) : NoGap (calcFilename k.baseFilename) k.maxFiles F := by
  intro i hi hnone
  cases i with
  | zero =>
    have hcur := h.current
    rw [show k.baseFilename = calcFilename k.baseFilename 0 from rfl, hnone] at hcur
    cases hcur
  | succ i =>
    rw [h.closed i (Nat.lt_of_succ_lt hi), List.getElem?_eq_none_iff] at hnone
    rw [h.closed (i + 1) hi, List.getElem?_eq_none_iff]
    exact Nat.le_succ_of_le hnone

theorem Filed.text (h : Filed k F a) : k.current F = a.current := by
  unfold RotatingFileSink.current
  rw [h.current]
  rfl

/-- The first file is begun anew: the archive has closed one. -/
theorem Filed.rotated (h : Filed k F a) :
    Filed k (Function.update (upFrom (calcFilename k.baseFilename) k.maxFiles F) k.baseFilename (some [])) a.close where
  current := Function.update_self ..
  closed := by
    intro i hi
    have hne : calcFilename k.baseFilename (i + 1) ≠ k.baseFilename :=
      (calcFilename_injective k.baseFilename).ne (Nat.succ_ne_zero i)
    rw [Function.update_of_ne hne, (upFrom_succ (calcFilename_injective _) _ _ h.noGap).1 i hi]
    show _ = ((a.closed.items ++ [a.current]).rtake k.maxFiles).reverse[i]?
    rw [List.rtake_eq_reverse_take_reverse, List.reverse_reverse, List.reverse_append, List.getElem?_take_of_lt hi]
    cases i with
    | zero => exact h.current
    | succ i => exact h.closed i (Nat.lt_of_succ_lt hi)

theorem filed_append {closed : Recent CString k.maxFiles} (text : CString)
    (h : ∀ i < k.maxFiles, F (calcFilename k.baseFilename (i + 1)) = closed.items.reverse[i]?) :
    Filed k (k.append F text) ⟨closed, k.current F ++ text⟩ where
  current := Function.update_self ..
  closed := by
    intro i hi
    have hne : calcFilename k.baseFilename (i + 1) ≠ k.baseFilename :=
      (calcFilename_injective k.baseFilename).ne (Nat.succ_ne_zero i)
    exact (Function.update_of_ne hne ..).trans (h i hi)

theorem Wrote.shows {formatted : CString} (hos : ∀ c, ¬os.Fails c) (h : s.Shows k a)
    (hlt : a.current.length + formatted.length < 2 ^ 64) (hw : Wrote os k s formatted s') :
    s'.Shows k (a.log k.maxSize formatted) := by
  have hcounted : counted s formatted = a.current.length + formatted.length := by
    unfold RotatingFileSink.counted
    rw [h.size]
    exact Nat.mod_eq_of_lt hlt
  obtain ⟨t, hroom, -, hfile⟩ := hw.room
  generalize hn : s'.currentSize = n at hroom
  unfold Archive.log
  cases hroom with
  | fits hle =>
    rw [if_neg (fun hfull => absurd hfull.1 (by omega))]
    refine ⟨hw.on, hw.opened, by rw [hn, hcounted, List.length_append], ?_⟩
    rw [hfile, ← h.files.text]
    exact filed_append formatted h.files.closed
  | empty _ hcur hsame =>
    rw [h.files.text] at hcur
    rw [if_neg (fun hfull => hfull.2 hcur)]
    refine ⟨hw.on, hw.opened, by rw [hn, hcounted, List.length_append], ?_⟩
    rw [hfile, hsame, ← h.files.text]
    exact filed_append formatted h.files.closed
  | rotated hover hcur hempty _ _ _ _ hexact =>
    rw [h.files.text] at hcur
    rw [if_pos ⟨hcounted ▸ hover, hcur⟩]
    refine ⟨hw.on, hw.opened, hn, ?_⟩
    rw [hfile]
    have hfiled := h.files.rotated
    rw [← (hexact.resolve_left (hos _)).resolve_left (hos _)] at hfiled
    have happend := filed_append formatted hfiled.closed
    rwa [hempty] at happend

/-- **A call that logs is one of the archive.** -/
theorem sinkIt_shows (hos : ∀ c, ¬os.Fails c) (hbase : k.baseFilename ≠ []) (h : s.Shows k a) (formatted : CString)
    (hlt : a.current.length + formatted.length < 2 ^ 64) :
    Ends (RotatingFileSink.sinkIt os k formatted) s (fun _ s' => s'.Shows k (a.log k.maxSize formatted))
      (fun _ _ => False) := by
  have hopen : s.fileHelper.fd ≠ none := Option.isSome_iff_ne_none.1 h.opened
  refine (sinkIt_ends h.on formatted).mono (fun _ _ hw => hw.shows hos h hlt) ?_
  intro e s' hf
  cases hf with
  | refused hr =>
    obtain hnone | hnil | ⟨c, hc⟩ := hr.fails
    · exact hopen hnone
    · exact hbase hnil
    · exact hos c hc
  | closed _ hnone => exact hopen hnone
  | torn _ hfails => exact hos _ hfails

theorem flush_shows (hos : ∀ c, ¬os.Fails c) (h : s.Shows k a) :
    Ends (RotatingFileSink.flush os) s (fun _ s' => s'.Shows k a) (fun _ _ => False) := by
  refine (onFile_ends (FileHelper.flush_ends (n := k.maxFiles) (calcFilename_injective _) h.on)).mono ?_ ?_
  · rintro - s' ⟨hc, hon, hfile, hfd⟩
    exact ⟨hon, by rw [hfd, Option.isSome_map]; exact h.opened, hc.trans h.size, hfile ▸ h.files⟩
  · rintro e s' ⟨-, hfails, -⟩
    exact hos _ hfails

/-- **A run is one of the archive**, and nothing is thrown. -/
theorem run_shows (os : Os) (k : RotatingFileSink) (format : LogMsg → CString) (cs : List SinkCall) (s : Rotating)
    (a : Archive Char k.maxFiles) (hos : ∀ c, ¬os.Fails c) (hbase : k.baseFilename ≠ []) (h : s.Shows k a)
    (hlt : a.current.length + ((cs.flatMap (logged format)).map List.length).sum < 2 ^ 64) :
    Ends (RotatingFileSink.run os k format cs) s
      (fun thrown s' => thrown = cs.map (fun _ => none) ∧
        s'.Shows k (a.logs k.maxSize (cs.flatMap (logged format))))
      (fun _ _ => False) := by
  let archive : List SinkCall → Archive Char k.maxFiles := fun done => a.logs k.maxSize (done.flatMap (logged format))
  have hsnoc : ∀ done c, archive (done ++ [c]) = (archive done).logs k.maxSize (logged format c) := by
    intro done c
    show a.logs _ _ = _
    rw [List.flatMap_append, List.flatMap_singleton]
    exact List.foldl_append
  let I : List SinkCall → Rotating → Prop := fun rest s' => ∃ done, done ++ rest = cs ∧ s'.Shows k (archive done) ∧
    (archive done).current.length + ((rest.flatMap (logged format)).map List.length).sum < 2 ^ 64
  have hstep : ∀ c rest s₁, I (c :: rest) s₁ →
      Ends (RotatingFileSink.call os k format c) s₁ (fun _ s' => I rest s') (fun _ _ => False) := by
    rintro c rest s₁ ⟨done, hdone, hs₁, hsum⟩
    have hcs : (done ++ [c]) ++ rest = cs := by
      rw [List.append_assoc]
      exact hdone
    cases c with
    | log msg =>
      rw [List.flatMap_cons, logged, List.singleton_append, List.map_cons, List.sum_cons] at hsum
      refine (sinkIt_shows hos hbase hs₁ (format msg) (by omega)).mono (fun _ s' hs' => ?_) (fun _ _ => id)
      refine ⟨done ++ [.log msg], hcs, (hsnoc done (.log msg)).symm ▸ hs', ?_⟩
      rw [hsnoc]
      have hle := Archive.length_log_le k.maxSize (archive done) (format msg)
      show ((archive done).log k.maxSize (format msg)).current.length + _ < _
      omega
    | flush =>
      refine (flush_shows hos hs₁).mono (fun _ s' hs' => ?_) (fun _ _ => id)
      exact ⟨done ++ [.flush], hcs, (hsnoc done .flush).symm ▸ hs', (hsnoc done .flush).symm ▸ hsum⟩
  refine (run_ends (I := I) (R := fun _ r => r = none) (U := fun _ => False) ?_ cs s ⟨[], rfl, h, hlt⟩).mono ?_
    (fun _ _ => And.right)
  · exact fun c rest s₁ h₁ => (hstep c rest s₁ h₁).mono (fun _ _ h => ⟨h, rfl⟩) (fun _ _ => False.elim)
  · rintro thrown s' ⟨⟨done, hdone, hs', -⟩, hthrown⟩
    rw [List.append_nil] at hdone
    obtain rfl := hdone
    have hnone := List.forall₂_map_left_iff.2 (hthrown.imp (fun _ _ => Eq.symm))
    rw [List.forall₂_eq_eq_eq] at hnone
    exact ⟨hnone.symm, hs'⟩

end

end Spdlog
end LogMaker
