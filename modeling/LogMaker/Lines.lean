import LogMaker.Dialog
/-!
# Lines — the records of one run

Sends made one after another, each with the level and text its row has at that moment, hand the logger one record each
(`sends_logged`).  The number is appended to free text without a separator, so two records of one run can be the same;
`sends_record_eq_iff` says exactly when.
-/
namespace LogMaker

/-- A level text and a message text, as a send finds them. -/
abbrev Setting := CString × CString

def sends (l : List Setting) (s : Sent) : Sent := l.foldl (fun s p => sendLogMsg1 p.1 p.2 s) s

def recordOf (cnt : UINT) (p : Setting) : Record := ⟨severity p.1, makeMsgBuf p.2 cnt⟩

theorem sends_logged : ∀ (l : List Setting) (s : Sent),
    (sends l s).logged = s.logged ++ l.mapIdx (fun j p => recordOf (s.cnt + BitVec.ofNat 32 j) p)
  | [], s => by simp [sends]
  | p :: l, s => by
    have ih := sends_logged l (sendLogMsg1 p.1 p.2 s)
    have hcnt : ∀ j : Nat, s.cnt + 1 + BitVec.ofNat 32 j = s.cnt + BitVec.ofNat 32 (j + 1) := by
      intro j
      rw [BitVec.ofNat_add, BitVec.add_assoc, BitVec.add_comm 1]
      rfl
    unfold sends at ih ⊢
    rw [List.foldl_cons, ih, List.mapIdx_cons]
    simp only [sendLogMsg1, toSpdLog_eq, hcnt, List.append_assoc, List.cons_append, List.nil_append, recordOf]
    simp

theorem makeMsgBuf_eq_iff (t₁ t₂ : CString) {n₁ n₂ : UINT} (hn : n₁ ≠ n₂) :
    makeMsgBuf t₁ n₁ = makeMsgBuf t₂ n₂ ↔
      Decimal.Absorbs t₁ n₁.toInt t₂ n₂.toInt ∨ Decimal.Absorbs t₂ n₂.toInt t₁ n₁.toInt :=
  Decimal.append_signed_eq_iff t₁ t₂ (fun h => hn (BitVec.eq_of_toInt_eq h))

theorem number_ne {i j : Nat} (cnt : UINT) (hi : i < 2 ^ 32) (hj : j < 2 ^ 32) (hij : i ≠ j) :
    cnt + BitVec.ofNat 32 i ≠ cnt + BitVec.ofNat 32 j := by
  intro h
  have h' := congrArg BitVec.toNat ((BitVec.add_right_inj cnt).1 h)
  rw [BitVec.toNat_ofNat, BitVec.toNat_ofNat, Nat.mod_eq_of_lt hi, Nat.mod_eq_of_lt hj] at h'
  exact hij h'

/-- **When two sends of a run hand the logger the same record**: at one severity, with one text the other one followed
by characters that lead the other one's number. -/
theorem sends_record_eq_iff (cnt : UINT) (l : List Setting) (hl : l.length ≤ 2 ^ 32) (i j : Fin l.length) (hij : i ≠ j) :
    (sends l ⟨cnt, []⟩).logged[i.val]? = (sends l ⟨cnt, []⟩).logged[j.val]? ↔
      severity l[i].1 = severity l[j].1 ∧
      (Decimal.Absorbs l[i].2 (cnt + BitVec.ofNat 32 i).toInt l[j].2 (cnt + BitVec.ofNat 32 j).toInt ∨
       Decimal.Absorbs l[j].2 (cnt + BitVec.ofNat 32 j).toInt l[i].2 (cnt + BitVec.ofNat 32 i).toInt) := by
  have hn := number_ne cnt (Nat.lt_of_lt_of_le i.isLt hl) (Nat.lt_of_lt_of_le j.isLt hl) (fun h => hij (Fin.ext h))
  rw [sends_logged, List.nil_append, List.getElem?_mapIdx, List.getElem?_mapIdx, List.getElem?_eq_getElem i.isLt,
    List.getElem?_eq_getElem j.isLt, Option.map_some, Option.map_some, Option.some_inj]
  simp only [recordOf, Record.mk.injEq, makeMsgBuf_eq_iff _ _ hn]
  rfl

/-- Twelve sends of a row with the text `x`, the second of them while it read `x1`. -/
def editedRow : List Setting :=
  ("Info".toList, "x".toList) :: ("Info".toList, "x1".toList) :: List.replicate 10 ("Info".toList, "x".toList)

theorem sends_record_eq_iff_editedRow :
    (sends editedRow ⟨0, []⟩).logged[1]? = (sends editedRow ⟨0, []⟩).logged[11]? :=
  (sends_record_eq_iff 0 editedRow (by decide) ⟨1, by decide⟩ ⟨11, by decide⟩ (by decide)).2
    ⟨rfl, .inl ⟨"1".toList, by decide, by decide, by decide⟩⟩

/-- The second and the last of them log `x11`. -/
theorem not_nodup_editedRow : editedRow.length ≤ 2 ^ 32 ∧ ¬ (sends editedRow ⟨0, []⟩).logged.Nodup := by
  decide +kernel

end LogMaker
