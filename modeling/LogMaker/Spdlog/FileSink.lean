import LogMaker.Spdlog.Rotation
/-!
# FileSink — a run of the rotating file sink, whatever the system's calls do

One lemma says what `sink_it_` may do (`sinkIt_ends`): find room (`Room`) and write, or refuse.
-/
namespace LogMaker
namespace Spdlog

open RotatingFileSink (calcFilename calcFilename_injective)

namespace RotatingFileSink

/-- The first file, with what is buffered for it. -/
def current (k : RotatingFileSink) (F : Files) : CString := (F k.baseFilename).getD []

/-- The files when something is written at the end of the first one. -/
def append (k : RotatingFileSink) (F : Files) (text : CString) : Files :=
  Function.update F k.baseFilename (some (k.current F ++ text))

/-- The new size by the counter, which wraps. -/
def counted (s : Rotating) (formatted : CString) : Nat := (s.currentSize + formatted.length) % 2 ^ 64

end RotatingFileSink

open RotatingFileSink (current counted)

/-- How `sink_it_` finds room for a message: it fits, or the file is empty, or it is begun anew. -/
inductive Room (os : Os) (k : RotatingFileSink) (s : Rotating) (formatted : CString) : Nat → Rotating → Prop
  | fits (hle : counted s formatted ≤ k.maxSize) : Room os k s formatted (counted s formatted) s
  | empty {s' : Rotating} (hlt : k.maxSize < counted s formatted) (hcur : k.current s.fileHelper.file = [])
    (hfile : s'.fileHelper.file = s.fileHelper.file) (hon : s'.On k) (hfd : s'.fileHelper.fd.isSome)
    (hc : s'.currentSize = s.currentSize) : Room os k s formatted (counted s formatted) s'
  | rotated {s' : Rotating} (hlt : k.maxSize < counted s formatted) (hcur : k.current s.fileHelper.file ≠ [])
    (hempty : k.current s'.fileHelper.file = []) (hon : s'.On k) (hfd : s'.fileHelper.fd.isSome)
    (hc : s'.currentSize = s.currentSize)
    (hmoved : Moved (calcFilename k.baseFilename) k.maxFiles s.fileHelper.file s'.fileHelper.file)
    (hexact : os.Fails .fclose ∨ os.Fails .pathExists ∨ s'.fileHelper.file =
      Function.update (upFrom (calcFilename k.baseFilename) k.maxFiles s.fileHelper.file) k.baseFilename (some [])) :
    Room os k s formatted formatted.length s'

/-- How the sink is left by a call that throws before it writes. -/
structure Refused (os : Os) (k : RotatingFileSink) (s : Rotating) (e : Fault) (s' : Rotating) : Prop where
  thrown : e ≠ .undefined
  on : s'.On k
  moved : Moved (calcFilename k.baseFilename) k.maxFiles s.fileHelper.file s'.fileHelper.file
  size : s'.currentSize = s.currentSize ∨ k.current s'.fileHelper.file = [] ∧ s'.currentSize = 0
  fails : s.fileHelper.fd = none ∨ k.baseFilename = [] ∨ ∃ c, os.Fails c
  closed : s'.fileHelper.fd = none → s.fileHelper.fd = none ∨ k.baseFilename = [] ∨ os.Fails .fopen

/-- The message is in the first file. -/
structure Wrote (os : Os) (k : RotatingFileSink) (s : Rotating) (formatted : CString) (s' : Rotating) : Prop where
  room : ∃ t, Room os k s formatted s'.currentSize t ∧ t.fileHelper.fd.isSome ∧
    s'.fileHelper.file = k.append t.fileHelper.file formatted
  on : s'.On k
  opened : s'.fileHelper.fd.isSome

/-- How a call that logs fails: it is refused, or meets a closed file, or writes less than it should, which may also
cut what was there. -/
inductive Failed (os : Os) (k : RotatingFileSink) (s : Rotating) (formatted : CString) : Fault → Rotating → Prop
  | refused {e : Fault} {s' : Rotating} (h : Refused os k s e s') : Failed os k s formatted e s'
  | closed (hle : counted s formatted ≤ k.maxSize) (hfd : s.fileHelper.fd = none) :
    Failed os k s formatted .undefined s
  | torn {e : Fault} {s' t : Rotating} {n : Nat} {text p : CString} (hroom : Room os k s formatted n t)
    (hfails : os.Fails .fwrite) (he : e ≠ .undefined) (hon : s'.On k) (hfd : s'.fileHelper.fd.isSome)
    (hc : s'.currentSize = t.currentSize) (htext : text <+: k.current t.fileHelper.file) (hp : p <+: formatted)
    (hfile : s'.fileHelper.file = k.append (Function.update t.fileHelper.file k.baseFilename (some text)) p) :
    Failed os k s formatted e s'

section
variable {os : Os} {k : RotatingFileSink} {s : Rotating}

theorem current_append (F : Files) (text : CString) : k.current (k.append F text) = k.current F ++ text := by
  unfold RotatingFileSink.append
  rw [current, Function.update_self]
  rfl

theorem append_update (F : Files) (text p : CString) :
    k.append (Function.update F k.baseFilename (some text)) p =
      Function.update F k.baseFilename (some (text ++ p)) := by
  unfold RotatingFileSink.append RotatingFileSink.current
  rw [Function.update_self, Function.update_idem]
  rfl

theorem Spoiled.refused {e : Fault} {s' : Rotating} (h : Spoiled os k s e s') : Refused os k s e s' where
  thrown := h.thrown
  on := h.on
  moved := h.moved
  size := h.left.imp (fun h => h.2.1) (fun h => ⟨by rw [RotatingFileSink.current, h.2.1]; rfl, h.2.2⟩)
  fails := .inr (by
    obtain h | h | h | h := h.fails
    · exact .inr ⟨_, h⟩
    · exact .inr ⟨_, h⟩
    · exact .inr ⟨_, h⟩
    · exact .inl h)
  closed := by
    intro hnone
    obtain ⟨-, -, h⟩ | ⟨hfd, -⟩ := h.left
    · exact .inr h
    · rw [hnone] at hfd
      cases hfd

theorem FileHelper.buffered_of_flushed {h h' : FileHelper}
    (hfd : h'.fd = h.fd.map (fun fd => { fd with buffer := [] })) (f : CString) : h'.buffered f = [] := by
  unfold FileHelper.buffered
  rw [hfd]
  cases h.fd with
  | none => rfl
  | some fd => exact ite_self _

theorem makeRoom_ends (h : s.On k) (formatted : CString) :
    Ends (RotatingFileSink.makeRoom os k formatted) s (Room os k s formatted) (Refused os k s) := by
  have hinj := calcFilename_injective k.baseFilename
  refine ends_bind (ends_get ?_)
  show Ends (if k.maxSize < counted s formatted then _ else _) s _ _
  split
  · rename_i hlt
    refine Ends.bind ((onFile_ends (FileHelper.flush_ends (n := k.maxFiles) hinj h)).mono (fun _ _ => id) ?_) ?_
    · rintro e s₁ ⟨hc, hfails, he, hon, hsome, -, hmoved⟩
      refine ⟨he, hon, hmoved, .inl hc, .inr (.inr ⟨_, hfails⟩), fun hnone => .inl ?_⟩
      rw [hnone] at hsome
      exact Option.not_isSome_iff_eq_none.1 (hsome ▸ Bool.false_ne_true)
    · rintro - s₁ ⟨hc₁, hon₁, hfile₁, hfd₁⟩
      have hbuffered := FileHelper.file_of_unbuffered (FileHelper.buffered_of_flushed hfd₁)
      have hclosed : s₁.fileHelper.fd = none → s.fileHelper.fd = none := by
        intro hnone
        rw [hnone] at hfd₁
        exact Option.map_eq_none_iff.1 hfd₁.symm
      refine Ends.bind ((onFile_ends (FileHelper.size_ends hon₁)).mono (fun _ _ => id) ?_) ?_
      · rintro e s₂ ⟨hc₂, hfails, he, hon₂, hfile₂, hfd₂⟩
        refine ⟨he, hon₂, ?_, .inl (hc₂.trans hc₁), ?_, fun hnone => .inl (hclosed (hfd₂ ▸ hnone))⟩
        · rw [hfile₂, hfile₁]
          exact .refl
        · exact hfails.imp hclosed (fun h => .inr ⟨_, h⟩)
      · rintro size s₂ ⟨hc₂, hon₂, hfile₂, hfd₂, fd, hopen, hsize⟩
        have hcur : size = (k.current s.fileHelper.file).length := by
          rw [hsize, ← hfile₁, hbuffered]
          rfl
        have hsome : s₂.fileHelper.fd.isSome := by
          rw [hfd₂, hopen]
          rfl
        split
        · rename_i hpos
          refine Ends.bind ((rotate_ends hon₂).mono (fun _ _ => id) ?_) ?_
          · intro e s₃ hs₃
            refine (hs₃.after (hc₂.trans hc₁) ?_).refused
            rw [hfile₂, hfile₁]
            exact .refl
          · rintro - s₃ ⟨hc₃, hon₃, hfd₃, htext, hmoved, hexact⟩
            rw [hfile₂, hfile₁] at hmoved hexact
            refine ends_pure (.rotated hlt ?_ ?_ hon₃ (by rw [hfd₃]; rfl) (hc₃.trans (hc₂.trans hc₁)) hmoved hexact)
            · rw [← List.length_pos_iff, ← hcur]
              exact hpos
            · unfold RotatingFileSink.current
              rw [htext]
              rfl
        · rename_i hpos
          refine ends_pure (.empty hlt ?_ (hfile₂.trans hfile₁) hon₂ hsome (hc₂.trans hc₁))
          rw [← List.length_eq_zero_iff, ← hcur]
          exact Nat.eq_zero_of_not_pos hpos
  · rename_i hle
    exact ends_pure (.fits (Nat.le_of_not_lt hle))

theorem Room.on {formatted : CString} {n : Nat} {t : Rotating} (hr : Room os k s formatted n t) (h : s.On k) :
    t.On k := by
  cases hr with
  | fits => exact h
  | empty _ _ _ hon => exact hon
  | rotated _ _ _ hon => exact hon

/-- Only a message that fits is ever written to a closed file. -/
theorem Room.closed {formatted : CString} {n : Nat} {t : Rotating} (hr : Room os k s formatted n t)
    (hfd : t.fileHelper.fd = none) : counted s formatted ≤ k.maxSize ∧ t = s := by
  cases hr with
  | fits hle => exact ⟨hle, rfl⟩
  | empty _ _ _ _ hsome => rw [hfd] at hsome; cases hsome
  | rotated _ _ _ _ hsome => rw [hfd] at hsome; cases hsome

/-- **What a call that logs may do.** -/
theorem sinkIt_ends (h : s.On k) (formatted : CString) :
    Ends (RotatingFileSink.sinkIt os k formatted) s (fun _ s' => Wrote os k s formatted s')
      (Failed os k s formatted) := by
  refine Ends.bind ((makeRoom_ends h formatted).mono (fun _ _ => id) (fun _ _ => .refused)) ?_
  intro n t hroom
  refine Ends.bind ((onFile_ends (FileHelper.write_ends (hroom.on h) formatted)).mono (fun _ _ => id) ?_) ?_
  · rintro e s' ⟨hc, hon, ⟨hfd, rfl, hs⟩ | ⟨-, hfails, he, hsome, text, p, htext, hp, hfile⟩⟩
    · obtain ⟨hle, rfl⟩ := hroom.closed hfd
      obtain rfl : s' = t := by
        cases s'
        cases t
        cases hc
        cases hs
        rfl
      exact .closed hle hfd
    · exact .torn hroom hfails he hon hsome hc htext hp (hfile.trans (append_update ..).symm)
  · rintro - s' ⟨-, hon, hopen, hsome, hfile⟩
    exact ends_modify ⟨⟨t, hroom, hopen, hfile⟩, hon, hsome⟩

theorem attempt_ends {x : SinkM Unit} {Q : Rotating → Prop} {E : Fault → Rotating → Prop}
    (h : Ends x s (fun _ => Q) E) :
    Ends (RotatingFileSink.attempt x) s
      (fun thrown s' => match thrown with
        | none => Q s'
        | some what => E (.thrown what) s')
      (fun e s' => e = .undefined ∧ E .undefined s') := by
  unfold Ends at h ⊢
  unfold RotatingFileSink.attempt
  match x s, h with
  | .ok () s', h => exact h
  | .error (.thrown what) s', h => exact h
  | .error .undefined s', h => exact ⟨rfl, h⟩

/-- **The induction over a run**: what every call keeps, whether it returns or throws, holds at the end, and of every
call and its result what holds of each. -/
theorem run_ends {format : LogMsg → CString} {I : List SinkCall → Rotating → Prop} {U : Rotating → Prop}
    {R : SinkCall → Option CString → Prop}
    (hstep : ∀ c cs s, I (c :: cs) s → Ends (RotatingFileSink.call os k format c) s (fun _ s' => I cs s' ∧ R c none)
      (fun e s' => match e with
        | .thrown what => I cs s' ∧ R c (some what)
        | .undefined => U s')) :
    ∀ (cs : List SinkCall) (s : Rotating), I cs s →
      Ends (RotatingFileSink.run os k format cs) s (fun thrown s' => I [] s' ∧ List.Forall₂ R cs thrown)
        (fun e s' => e = .undefined ∧ U s')
  | [], s, h => ends_pure ⟨h, .nil⟩
  | c :: cs, s, h => by
    refine Ends.bind (attempt_ends (hstep c cs s h)) ?_
    intro thrown s₁ h₁
    have hone : I cs s₁ ∧ R c thrown := by
      cases thrown with
      | none => exact h₁
      | some what => exact h₁
    refine (run_ends hstep cs s₁ hone.1).bind ?_
    rintro rest s₂ ⟨h₂, hrest⟩
    exact ends_pure ⟨h₂, .cons hone.2 hrest⟩

end

end Spdlog
end LogMaker
