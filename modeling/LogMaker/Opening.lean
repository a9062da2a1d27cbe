import LogMaker.Exchange
/-!
# Opening — `UpdateData` both ways, and what the dialog opens with

`UpdateData(FALSE)` shows the members: a text or a count box shows its member, and a level box, a list of items that
nothing else can be typed into, the item that begins with it.  `UpdateData` reads them back exactly if every level is an
item and every count in range (`doDataExchange_shown`), and after a first `UpdateData`, accepted or not, a second one
changes nothing (`doDataExchange_twice`).  So `OnInitDialog` leaves the setting of `initMsgs` in the members and in the
controls, whatever these showed before (`onInitDialog_opens`).
-/
namespace LogMaker

variable {E : Env}

/-! ## The whole exchange -/

/-- Why a bad box aborts the exchange. -/
def abortAt (E : Env) (b : Boxes) (r : Row) : Abort := match E.scan (b.editCnt r) with
  | none => .parse r
  | some _ => .range r

/-- The members after an exchange. -/
def exchanged (E : Env) (b : Boxes) (m : Members) : Members where
  strLevel := b.comboLevel
  strDevName := b.editDevName
  strMsg := b.editMsg
  nCnt := fun k => if ∀ j < k, badBox E b j = false then storedCnt E b m k else m.nCnt k

theorem exchangeFields_cnt_rest (b : Boxes) : ∀ (rs : List Row) (m : Members),
    (exchangeFields E b m (rs.map .cnt)).1.strDevName = m.strDevName ∧
    (exchangeFields E b m (rs.map .cnt)).2 = (rs.find? (badBox E b)).map (abortAt E b)
  | [], _ => ⟨rfl, rfl⟩
  | r :: rs, m => by
    have ih := exchangeFields_cnt_rest b rs { m with nCnt := Function.update m.nCnt r (storedCnt E b m r) }
    simp only [List.map_cons, exchangeFields, exchangeField_cnt, List.find?_cons]
    cases badBox E b r with
    | true => exact ⟨rfl, rfl⟩
    | false => exact ih

/-- **The exchange**: the levels and the texts are the controls', the counts are those up to the first bad box, and that
box aborts it. -/
theorem doDataExchange_exchanged (b : Boxes) (m : Members) :
    doDataExchange E b m = (exchanged E b m, (rows.find? (badBox E b)).map (abortAt E b)) := by
  have hl := doDataExchange_strLevel E b m
  have hm := doDataExchange_strMsg E b m
  have hn : (doDataExchange E b m).1.nCnt = (exchanged E b m).nCnt := funext (doDataExchange_nCnt E b m)
  obtain ⟨hd, habort⟩ := exchangeFields_cnt_rest (E := E) b rows (textsExchanged b m)
  rw [← doDataExchange_eq] at hd habort
  rcases hx : doDataExchange E b m with ⟨⟨lvl, dev, msg, cnt⟩, e⟩
  rw [hx] at hl hm hn hd habort
  dsimp only at hl hm hn hd habort
  rw [habort, hl, hm, hn, hd]
  rfl

/-- **A second exchange changes nothing**, and is accepted or rejected as the first was. -/
theorem doDataExchange_twice (E : Env) (b : Boxes) (m : Members) :
    doDataExchange E b (doDataExchange E b m).1 = doDataExchange E b m := by
  rw [doDataExchange_exchanged, doDataExchange_exchanged]
  refine Prod.ext ?_ rfl
  have hcnt : (exchanged E b (exchanged E b m)).nCnt = (exchanged E b m).nCnt := by
    funext k
    simp only [exchanged, storedCnt]
    split
    · cases E.scan (b.editCnt k) <;> rfl
    · rfl
  exact congrArg (Members.mk b.comboLevel b.editDevName b.editMsg) hcnt

/-! ## `UpdateData(FALSE)` -/

/-- The items of a level box, as the dialog's resource lists them. -/
def comboItems (r : Row) : List CString :=
  ["Trace".toList, "Debug".toList, "Info".toList, "Warning".toList, "Error".toList, "Critical".toList] ++
    if r = 0 then [] else ["Off".toList]

/-- `UpdateData(FALSE)`: `select` is what a row's level box shows after `CB_SELECTSTRING` of a level, from what it
showed. -/
def updateDataFalse (select : Row → CString → CString → CString) (m : Members) (b : Boxes) : Boxes where
  comboLevel := fun r => select r (m.strLevel r) (b.comboLevel r)
  editDevName := m.strDevName
  editMsg := m.strMsg
  editCnt := fun r => formatD (m.nCnt r)

/-- The level boxes are drop-down lists of their items: an item is selected by its own text, and what is shown is an
item, or what was shown before. -/
structure DropDown (select : Row → CString → CString → CString) : Prop where
  item : ∀ r, ∀ lvl ∈ comboItems r, ∀ str, select r lvl str = lvl
  shows : ∀ r lvl str, select r lvl str ∈ comboItems r ∨ select r lvl str = str

/-- `CB_SELECTSTRING`: the first item that begins with the text, in either case, is selected, if there is one. -/
def selectString (items : List CString) (lvl str : CString) : CString :=
  (items.find? (fun item => (lvl.map Char.toLower).isPrefixOf (item.map Char.toLower))).getD str

theorem dropDown_selectString : DropDown (fun r => selectString (comboItems r)) where
  item := by
    have hfind : ∀ r : Row, ∀ lvl ∈ comboItems r, (comboItems r).find?
        (fun item => (lvl.map Char.toLower).isPrefixOf (item.map Char.toLower)) = some lvl := by decide +kernel
    intro r lvl hlvl str
    unfold selectString
    rw [hfind r lvl hlvl, Option.getD_some]
  shows := by
    intro r lvl str
    unfold selectString
    match hfind : (comboItems r).find? _ with
    | some item => exact .inl (List.mem_of_find?_eq_some hfind)
    | none => exact .inr rfl

/-- The first row has no item `Off`: its box goes on to show what it showed. -/
example : [selectString (comboItems 0) "Off".toList "Info".toList, selectString (comboItems 1) "Off".toList "Info".toList,
    selectString (comboItems 0) "e".toList "Info".toList] = ["Info".toList, "Off".toList, "Error".toList] := by
  decide +kernel

variable {select : Row → CString → CString → CString}

/-- Where every level is an item, every control shows its member. -/
theorem updateDataFalse_shown (hd : DropDown select) {m : Members} (hlvl : ∀ r, m.strLevel r ∈ comboItems r)
    (b : Boxes) : updateDataFalse select m b = m.shown := by
  have hcombo : (fun r => select r (m.strLevel r) (b.comboLevel r)) = m.strLevel :=
    funext (fun r => hd.item r _ (hlvl r) _)
  unfold updateDataFalse
  rw [hcombo]
  rfl

/-! ## What is shown is read back -/

/-- `DDX_Text` reads back the count it has shown. -/
def ScansShown (E : Env) : Prop := ∀ n : UINT, minMaxInt n = true → E.scan (formatD n) = some n

theorem scansShown_spdEnv : ScansShown spdEnv := by
  intro n hn
  have h0 : 0 ≤ n.toInt := of_decide_eq_true (Bool.and_eq_true_iff.1 hn).1
  obtain ⟨k, hk⟩ := Int.eq_ofNat_of_zero_le h0
  have hfmt : formatD n = Nat.toDigits 10 k := by unfold formatD; rw [hk]; rfl
  have hdigits : (Nat.toDigits 10 k).all Char.isDigit = true := by
    rw [List.all_eq_true]
    intro c hc
    exact Nat.isDigit_of_mem_toDigits (by decide) (by decide) hc
  show scanD (formatD n) = some n
  rw [hfmt]
  unfold scanD
  rw [if_pos ⟨Nat.toDigits_ne_nil, hdigits⟩, Nat.ofDigitChars_ten_toDigits]
  congr 1
  rw [← BitVec.ofInt_toInt (x := n), hk]
  rfl

def Members.CountsInRange (m : Members) : Prop := ∀ r, minMaxInt (m.nCnt r) = true

theorem badBox_shown (hs : ScansShown E) {m : Members} (hm : m.CountsInRange) {b : Boxes}
    (hb : b.editCnt = m.shown.editCnt) (r : Row) : badBox E b r = false := by
  have hscan : E.scan (b.editCnt r) = some (m.nCnt r) := by rw [hb]; exact hs _ (hm r)
  unfold badBox
  rw [hscan]
  show (!minMaxInt (m.nCnt r)) = false
  rw [hm r]
  rfl

/-- Counts that are shown are read back, whatever the other controls show. -/
theorem doDataExchange_counts (hs : ScansShown E) {m : Members} (hm : m.CountsInRange) {b : Boxes}
    (hb : b.editCnt = m.shown.editCnt) (m₀ : Members) :
    doDataExchange E b m₀ = (⟨b.comboLevel, b.editDevName, b.editMsg, m.nCnt⟩, none) := by
  have hgood := badBox_shown hs hm hb
  have hnone : rows.find? (badBox E b) = none := List.find?_eq_none.2 (fun r _ => by simp [hgood r])
  have hcnt : (exchanged E b m₀).nCnt = m.nCnt := by
    funext k
    have hscan : E.scan (b.editCnt k) = some (m.nCnt k) := by rw [hb]; exact hs _ (hm k)
    simp only [exchanged, storedCnt, hscan, Option.getD_some]
    exact if_pos (fun j _ => hgood j)
  rw [doDataExchange_exchanged, hnone]
  exact Prod.ext (congrArg (Members.mk b.comboLevel b.editDevName b.editMsg) hcnt) rfl

/-- A count that is shown and read back is in range. -/
theorem minMaxInt_of_read {b : Boxes} {m m₀ : Members} (h : doDataExchange E b m₀ = (m, none)) (r : Row) :
    minMaxInt (m.nCnt r) = true := by
  rw [doDataExchange_exchanged] at h
  have hnone : rows.find? (badBox E b) = none := Option.map_eq_none_iff.1 (congrArg Prod.snd h)
  have hgood : ∀ j, badBox E b j = false := fun j => by
    simpa using List.find?_eq_none.1 hnone j (mem_rows j)
  have hcnt : (exchanged E b m₀).nCnt r = m.nCnt r := congrFun (congrArg Members.nCnt (congrArg Prod.fst h)) r
  have hr := hgood r
  unfold badBox at hr
  cases hscan : E.scan (b.editCnt r) with
  | none => rw [hscan] at hr; cases hr
  | some n =>
    rw [hscan] at hr
    have hn : n = m.nCnt r := by
      rw [← hcnt]
      simp only [exchanged, storedCnt, hscan, Option.getD_some]
      exact (if_pos (fun j _ => hgood j)).symm
    rw [← hn]
    simpa using hr

/-- **What `UpdateData(FALSE)` shows, `UpdateData` reads back**, whatever the members were meanwhile, exactly if every
count is in range and every level an item of its box. -/
theorem doDataExchange_shown (hs : ScansShown E) (hd : DropDown select) {b : Boxes}
    (hb : ∀ r, b.comboLevel r ∈ comboItems r) (m m₀ : Members) :
    doDataExchange E (updateDataFalse select m b) m₀ = (m, none) ↔
      m.CountsInRange ∧ ∀ r, m.strLevel r ∈ comboItems r := by
  constructor
  · intro h
    refine ⟨minMaxInt_of_read h, fun r => ?_⟩
    have hread : select r (m.strLevel r) (b.comboLevel r) = m.strLevel r := by
      rw [doDataExchange_exchanged] at h
      exact congrFun (congrArg Members.strLevel (congrArg Prod.fst h)) r
    rcases hd.shows r (m.strLevel r) (b.comboLevel r) with hitem | hkept
    · rwa [hread] at hitem
    · rw [← hread, hkept]
      exact hb r
  · rintro ⟨hm, hlvl⟩
    rw [updateDataFalse_shown hd hlvl]
    exact doDataExchange_counts hs hm rfl m₀

theorem initMsgs_item (dev : UINT) : ∀ r, (initMsgs dev).strLevel r ∈ comboItems r := by
  show ∀ r, (initMsgs 0).strLevel r ∈ comboItems r
  decide

/-- The initial setting, shown over the first items and read back over the constructor's members. -/
theorem doDataExchange_shown_initMsgs :
    doDataExchange spdEnv (updateDataFalse (fun r => selectString (comboItems r)) (initMsgs 41)
      { cLogMakerDlg.shown with comboLevel := fun _ => "Trace".toList }) cLogMakerDlg = (initMsgs 41, none) :=
  (doDataExchange_shown scansShown_spdEnv dropDown_selectString
    (by show ∀ r : Row, "Trace".toList ∈ comboItems r; decide) (initMsgs 41) cLogMakerDlg).2
    ⟨by unfold Members.CountsInRange; decide, initMsgs_item 41⟩

/-! ## `OnInitDialog` -/

/-- The body of `CLogMakerDlg::initMsgs`. -/
def initMsgsFrom (E : Env) (select : Row → CString → CString → CString) (dev : UINT) (m : Members) (b : Boxes) :
    Members × Boxes :=
  let m' := (doDataExchange E b m).1.setMsgs dev
  (m', updateDataFalse select m' b)

/-- `OnInitDialog`: `CDialogEx::OnInitDialog` shows the constructor's members in the controls of the resource. -/
def onInitDialog (E : Env) (select : Row → CString → CString → CString) (dev : UINT) (b : Boxes) : Members × Boxes :=
  initMsgsFrom E select dev cLogMakerDlg (updateDataFalse select cLogMakerDlg b)

theorem countsInRange_cLogMakerDlg : cLogMakerDlg.CountsInRange := by
  unfold Members.CountsInRange
  decide

/-- **The dialog opens with the setting of `initMsgs`** in its members and in its controls, whatever these showed
before; the exchange on the way is accepted, and so is the next, which reads the setting back. -/
theorem onInitDialog_opens (hs : ScansShown E) (hd : DropDown select) (dev : UINT) (b : Boxes) :
    onInitDialog E select dev b = (initMsgs dev, (initMsgs dev).shown) ∧
    (doDataExchange E (updateDataFalse select cLogMakerDlg b) cLogMakerDlg).2 = none ∧
    ∀ m₀, doDataExchange E (onInitDialog E select dev b).2 m₀ = (initMsgs dev, none) := by
  have hread := doDataExchange_counts hs countsInRange_cLogMakerDlg (b := updateDataFalse select cLogMakerDlg b) rfl
    cLogMakerDlg
  have hopen : onInitDialog E select dev b = (initMsgs dev, (initMsgs dev).shown) := by
    unfold onInitDialog initMsgsFrom
    rw [hread]
    exact Prod.ext rfl (updateDataFalse_shown hd (initMsgs_item dev) _)
  refine ⟨hopen, congrArg Prod.snd hread, fun m₀ => ?_⟩
  have hrange : (initMsgs dev).CountsInRange := countsInRange_cLogMakerDlg
  rw [hopen]
  exact doDataExchange_counts hs hrange rfl m₀

/-- Opened with level boxes that have no item selected yet. -/
theorem onInitDialog_opens_empty :
    onInitDialog spdEnv (fun r => selectString (comboItems r)) 41 ⟨fun _ => [], [], fun _ => [], fun _ => []⟩ =
      (initMsgs 41, (initMsgs 41).shown) :=
  (onInitDialog_opens scansShown_spdEnv dropDown_selectString 41 _).1

end LogMaker
