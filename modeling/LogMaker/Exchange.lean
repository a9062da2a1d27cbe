import LogMaker.Dialog
/-!
# Exchange — what an aborted `DoDataExchange` leaves, and what a Send button then does

The exchange fills the level and text members first, so they always hold the controls' contents; the counts are stored
one by one until a box fails (`doDataExchange_nCnt`).  A Send button ignores the outcome, so a click with a bad box
still sends whatever count its row was left with (`onBnClickedButtonSend_gated_iff`).
-/
namespace LogMaker

variable (E : Env) (b : Boxes)

/-! ## The exchange -/

/-- The box of a count that `DDX_Text` or `DDV_MinMaxInt` aborts at. -/
def badBox (r : Row) : Bool := match E.scan (b.editCnt r) with
  | none => true
  | some n => !minMaxInt n

/-- What `DDX_Text` leaves in a count it reaches: the box's number, or the old one where the box does not parse. -/
def storedCnt (m : Members) (r : Row) : UINT := (E.scan (b.editCnt r)).getD (m.nCnt r)

theorem exchangeFields_append (fs gs : List Field) : ∀ (m : Members), (exchangeFields E b m fs).2 = none →
    exchangeFields E b m (fs ++ gs) = exchangeFields E b (exchangeFields E b m fs).1 gs := by
  induction fs with
  | nil => intro m _; rfl
  | cons f fs ih =>
    intro m h
    simp only [List.cons_append, exchangeFields] at h ⊢
    rcases hf : exchangeField E b m f with ⟨m', _ | e⟩
    · rw [hf] at h
      exact ih m' h
    · rw [hf] at h
      cases h

theorem exchangeFields_level (rs : List Row) : ∀ (m : Members), exchangeFields E b m (rs.map .level) =
    ({ m with strLevel := fun r => if r ∈ rs then b.comboLevel r else m.strLevel r }, none) := by
  induction rs with
  | nil => intro m; simp [exchangeFields]
  | cons k rs ih =>
    intro m
    simp only [List.map_cons, exchangeFields, exchangeField, ih]
    congr 2
    funext r
    by_cases hk : r = k
    · subst hk; simp
    · simp [hk]

theorem exchangeFields_msg (rs : List Row) : ∀ (m : Members), exchangeFields E b m (rs.map .msg) =
    ({ m with strMsg := fun r => if r ∈ rs then b.editMsg r else m.strMsg r }, none) := by
  induction rs with
  | nil => intro m; simp [exchangeFields]
  | cons k rs ih =>
    intro m
    simp only [List.map_cons, exchangeFields, exchangeField, ih]
    congr 2
    funext r
    by_cases hk : r = k
    · subst hk; simp
    · simp [hk]

theorem exchangeField_cnt (m : Members) (r : Row) : exchangeField E b m (.cnt r) =
    ({ m with nCnt := Function.update m.nCnt r (storedCnt E b m r) },
      if badBox E b r then some (match E.scan (b.editCnt r) with | none => .parse r | some _ => .range r) else none) := by
  cases hs : E.scan (b.editCnt r) with
  | none => simp [exchangeField, badBox, storedCnt, hs]
  | some n => cases hn : minMaxInt n <;> simp [exchangeField, badBox, storedCnt, hs, hn]

theorem mem_rows (r : Row) : r ∈ rows := by
  revert r; decide

theorem sorted_rows : rows.Pairwise (· < ·) := by decide

def textsExchanged (m : Members) : Members :=
  { m with strLevel := b.comboLevel, strDevName := b.editDevName, strMsg := b.editMsg }

theorem doDataExchange_eq (m : Members) :
    doDataExchange E b m = exchangeFields E b (textsExchanged b m) (rows.map .cnt) := by
  have hl := exchangeFields_level E b rows m
  have hd : exchangeFields E b m (rows.map .level ++ [.devName]) =
      ({ m with strLevel := b.comboLevel, strDevName := b.editDevName }, none) := by
    rw [exchangeFields_append E b _ _ m (by rw [hl]), hl]
    simp [exchangeFields, exchangeField, mem_rows]
  have hm : exchangeFields E b m (rows.map .level ++ [.devName] ++ rows.map .msg) = (textsExchanged b m, none) := by
    rw [exchangeFields_append E b _ _ m (by rw [hd]), hd, exchangeFields_msg]
    simp [textsExchanged, mem_rows]
  unfold doDataExchange fields
  rw [exchangeFields_append E b _ _ m (by rw [hm]), hm]

theorem not_lt_head {r : Row} {rs : List Row} (hlt : ∀ j ∈ rs, r < j) (j : Row) (hj : j ∈ r :: rs) : ¬ j < r := by
  rcases List.mem_cons.1 hj with rfl | hj
  · exact lt_irrefl _
  · exact lt_asymm (hlt j hj)

/-- The counts in a strictly ascending list of rows: only counts change, and a row's count is stored when it is in the
list and no box before it is bad. -/
theorem exchangeFields_cnt : ∀ (rs : List Row) (m : Members), rs.Pairwise (· < ·) →
    (exchangeFields E b m (rs.map .cnt)).1.strLevel = m.strLevel ∧
    (exchangeFields E b m (rs.map .cnt)).1.strMsg = m.strMsg ∧
    ∀ k, (exchangeFields E b m (rs.map .cnt)).1.nCnt k =
      if k ∈ rs ∧ ∀ j ∈ rs, j < k → badBox E b j = false then storedCnt E b m k else m.nCnt k
  | [], m, _ => by simp [exchangeFields]
  | r :: rs, m, hs => by
    have hlt : ∀ j ∈ rs, r < j := fun j hj => List.rel_of_pairwise_cons hs hj
    simp only [List.map_cons, exchangeFields, exchangeField_cnt]
    by_cases hb : badBox E b r = true
    · simp only [hb, ↓reduceIte, true_and]
      intro k
      by_cases hk : k = r
      · subst hk
        have hfree : ∀ j ∈ k :: rs, j < k → badBox E b j = false := fun j hj hjk => absurd hjk (not_lt_head hlt j hj)
        rw [Function.update_self, if_pos ⟨List.mem_cons_self, hfree⟩]
      · rw [Function.update_of_ne hk, if_neg]
        rintro ⟨hmem, hfree⟩
        have hrk := hlt k ((List.mem_cons.1 hmem).resolve_left hk)
        rw [hfree r List.mem_cons_self hrk] at hb
        cases hb
    · have hb' : badBox E b r = false := by simpa using hb
      obtain ⟨h1, h2, h3⟩ := exchangeFields_cnt rs
        { m with nCnt := Function.update m.nCnt r (storedCnt E b m r) } hs.of_cons
      simp only [hb', Bool.false_eq_true, ↓reduceIte]
      refine ⟨h1, h2, fun k => ?_⟩
      rw [h3 k]
      by_cases hk : k = r
      · subst hk
        have hnot : k ∉ rs := fun h => lt_irrefl _ (hlt k h)
        have hfree : ∀ j ∈ k :: rs, j < k → badBox E b j = false := fun j hj hjk => absurd hjk (not_lt_head hlt j hj)
        rw [if_neg (fun h => hnot h.1), if_pos ⟨List.mem_cons_self, hfree⟩]
        exact Function.update_self ..
      · have hst : storedCnt E b { m with nCnt := Function.update m.nCnt r (storedCnt E b m r) } k = storedCnt E b m k := by
          simp [storedCnt, Function.update_of_ne hk]
        simp only [hst, Function.update_of_ne hk, List.mem_cons, hk, false_or, forall_eq_or_imp, hb', implies_true,
          true_and]

theorem doDataExchange_strLevel (m : Members) : (doDataExchange E b m).1.strLevel = b.comboLevel := by
  rw [doDataExchange_eq]
  exact (exchangeFields_cnt E b rows (textsExchanged b m) sorted_rows).1

theorem doDataExchange_strMsg (m : Members) : (doDataExchange E b m).1.strMsg = b.editMsg := by
  rw [doDataExchange_eq]
  exact (exchangeFields_cnt E b rows (textsExchanged b m) sorted_rows).2.1

/-- **A count after the exchange**: stored when no box before it is bad, else the old one. -/
theorem doDataExchange_nCnt (m : Members) (k : Row) : (doDataExchange E b m).1.nCnt k =
    if ∀ j < k, badBox E b j = false then storedCnt E b m k else m.nCnt k := by
  rw [doDataExchange_eq, (exchangeFields_cnt E b rows (textsExchanged b m) sorted_rows).2.2 k]
  simp [mem_rows, storedCnt, textsExchanged]

/-! ## The Send buttons -/

/-- The calls of one loop: a row's text with the numbers from `cnt` on. -/
def records (strLvl strMsg : CString) (cnt : UINT) (n : Nat) : List Record :=
  (List.range n).map (fun j => ⟨severity strLvl, makeMsgBuf strMsg (cnt + BitVec.ofNat 32 j)⟩)

theorem records_succ (strLvl strMsg : CString) (cnt : UINT) (n : Nat) : records strLvl strMsg cnt (n + 1) =
    ⟨severity strLvl, makeMsgBuf strMsg cnt⟩ :: records strLvl strMsg (cnt + 1) n := by
  unfold records
  rw [List.range_succ_eq_map, List.map_cons, List.map_map]
  congr 1
  · simp
  · apply List.map_congr_left
    intro j _
    simp only [Function.comp_apply, Nat.succ_eq_add_one, BitVec.ofNat_add]
    rw [BitVec.add_comm (BitVec.ofNat 32 j), BitVec.add_assoc]
    rfl

/-- **The loop logs the rest of its count and advances the counter by as much.** -/
theorem sendLoop_eq (strLvl strMsg : CString) (nCnt : UINT) : ∀ (n : Nat) (i : UINT) (s : Sent),
    i.toNat + n = nCnt.toNat → sendLoop strLvl strMsg i nCnt s =
      ⟨s.cnt + BitVec.ofNat 32 n, s.logged ++ records strLvl strMsg s.cnt n⟩
  | 0, i, s, h => by
    have hi : ¬ i < nCnt := by rw [BitVec.lt_def]; omega
    rw [sendLoop, dif_neg hi]
    simp [records]
  | n + 1, i, s, h => by
    have hi : i < nCnt := by rw [BitVec.lt_def]; omega
    have hn := nCnt.isLt
    have hi1 : (i + 1).toNat + n = nCnt.toNat := by
      rw [BitVec.toNat_add, show (1 : UINT).toNat = 1 from rfl]
      omega
    rw [sendLoop, dif_pos hi, sendLoop_eq strLvl strMsg nCnt n (i + 1) _ hi1, records_succ]
    simp only [sendLogMsg1, toSpdLog_eq, List.append_assoc, List.cons_append, List.nil_append, Sent.mk.injEq, and_true]
    rw [BitVec.add_assoc, Nat.add_comm n 1, BitVec.ofNat_add]
    rfl

theorem sendLogMsgCnt_eq (strLvl strMsg : CString) (nCnt : UINT) (s : Sent) : sendLogMsgCnt strLvl strMsg nCnt s =
    ⟨s.cnt + nCnt, s.logged ++ records strLvl strMsg s.cnt nCnt.toNat⟩ := by
  unfold sendLogMsgCnt
  rw [sendLoop_eq strLvl strMsg nCnt nCnt.toNat 0 s (by simp)]
  simp

theorem onBnClickedButtonSend_sent (k : Row) (m : Members) (s : Sent) : (onBnClickedButtonSend k E b m s).2 =
    ⟨s.cnt + (doDataExchange E b m).1.nCnt k,
      s.logged ++ records (b.comboLevel k) (b.editMsg k) s.cnt ((doDataExchange E b m).1.nCnt k).toNat⟩ := by
  unfold onBnClickedButtonSend
  simp only [sendLogMsgCnt_eq, doDataExchange_strLevel, doDataExchange_strMsg]

/-- All ten count boxes parse as integers in `[0, 999999]`. -/
def CountsValid : Prop := ∀ r, badBox E b r = false

instance : Decidable (CountsValid E b) := by unfold CountsValid; infer_instance

theorem exchangeField_valid {E : Env} {b : Boxes} (hv : CountsValid E b) (m : Members) (f : Field) :
    (exchangeField E b m f).2 = none := by
  cases f with
  | cnt r => rw [exchangeField_cnt, hv r]; rfl
  | _ => rfl

/-- **Validation gates sending**: with every box good, row `k`'s count of messages is logged at its level with its text
and the numbers from the old counter on; with a bad box nothing is; and never more than 999999 messages are. -/
def SendGated (k : Row) (m : Members) (s : Sent) : Prop :=
  (CountsValid E b → ∃ n, E.scan (b.editCnt k) = some n ∧
    (onBnClickedButtonSend k E b m s).2.logged = s.logged ++ records (b.comboLevel k) (b.editMsg k) s.cnt n.toNat ∧
    (onBnClickedButtonSend k E b m s).2.cnt = s.cnt + n) ∧
  (¬ CountsValid E b → (onBnClickedButtonSend k E b m s).2.logged = s.logged ∧
    (onBnClickedButtonSend k E b m s).2.cnt = s.cnt) ∧
  (onBnClickedButtonSend k E b m s).2.logged.length ≤ s.logged.length + 999999

theorem scan_of_badBox_false {r : Row} (h : badBox E b r = false) :
    ∃ n, E.scan (b.editCnt r) = some n ∧ n.toNat ≤ 999999 := by
  unfold badBox at h
  split at h
  · cases h
  · rename_i n hn
    refine ⟨n, hn, ?_⟩
    simp only [minMaxInt, Bool.not_eq_false', Bool.and_eq_true, decide_eq_true_eq] at h
    have := BitVec.toInt_eq_toNat_cond n
    have hlt := n.isLt
    split at this <;> omega

theorem length_records (strLvl strMsg : CString) (cnt : UINT) (n : Nat) : (records strLvl strMsg cnt n).length = n := by
  simp [records]

/-- **When a click on Send-k is gated**: no box is bad, or row `k`'s count is left at zero, which is where its own box
reads 0 (or does not parse, the old count being 0) with no bad box before it, or where a box before it is bad and the
old count is 0. -/
theorem onBnClickedButtonSend_gated_iff (k : Row) (m : Members) (s : Sent) : SendGated E b k m s ↔
    CountsValid E b ∨ (if ∀ j < k, badBox E b j = false then (E.scan (b.editCnt k)).getD (m.nCnt k) else m.nCnt k) = 0 := by
  have hcnt := doDataExchange_nCnt E b m k
  unfold storedCnt at hcnt
  rw [← hcnt]
  unfold SendGated
  rw [onBnClickedButtonSend_sent]
  constructor
  · rintro ⟨-, hbad, -⟩
    by_cases hv : CountsValid E b
    · exact .inl hv
    · right
      have hlen := congrArg List.length (hbad hv).1
      rw [List.length_append, length_records] at hlen
      exact BitVec.eq_of_toNat_eq (by simpa using hlen)
  · rintro (hv | h0)
    · obtain ⟨n, hn, hle⟩ := scan_of_badBox_false E b (hv k)
      have hk : (doDataExchange E b m).1.nCnt k = n := by
        rw [hcnt, if_pos (fun j _ => hv j), hn, Option.getD_some]
      rw [hk]
      exact ⟨fun _ => ⟨n, hn, rfl, rfl⟩, fun h => absurd hv h, by simp [length_records, hle]⟩
    · rw [h0]
      refine ⟨fun hv => ⟨0, ?_, rfl, rfl⟩, fun _ => by simp [records], by simp [records]⟩
      obtain ⟨n, hn, -⟩ := scan_of_badBox_false E b (hv k)
      rw [hcnt, if_pos (fun j _ => hv j), hn, Option.getD_some] at h0
      rw [hn, h0]

/-- The boxes as `initMsgs` shows them, with `1000000` typed into the first count. -/
def millionBoxes : Boxes :=
  { (initMsgs 41).shown with editCnt := Function.update (initMsgs 41).shown.editCnt 0 "1000000".toList }

/-- The first button sends the million messages its check has just refused. -/
theorem onBnClickedButtonSend1_sends_million :
    (onBnClickedButtonSend1 spdEnv millionBoxes (initMsgs 41) ⟨0, []⟩).2.logged.length = 1000000 := by
  have hn : (doDataExchange spdEnv millionBoxes (initMsgs 41)).1.nCnt 0 = 1000000#32 := by decide +kernel
  unfold onBnClickedButtonSend1
  rw [onBnClickedButtonSend_sent, hn, List.length_append, length_records]
  rfl

theorem not_sendGated_million : ¬ SendGated spdEnv millionBoxes 0 (initMsgs 41) ⟨0, []⟩ := by
  rintro ⟨-, -, hle⟩
  have hlen : (onBnClickedButtonSend 0 spdEnv millionBoxes (initMsgs 41) ⟨0, []⟩).2.logged.length = 1000000 :=
    onBnClickedButtonSend1_sends_million
  rw [hlen] at hle
  exact absurd hle (by decide)

end LogMaker
