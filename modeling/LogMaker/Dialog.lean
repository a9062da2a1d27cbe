import LogMaker.Lib.Decimal
import Mathlib.Algebra.Ring.Nat
import Mathlib.Data.Fin.VecNotation
import Mathlib.Data.Fintype.Fin
/-!
# Dialog — the dialog's rows, `DoDataExchange`, and one message on its way to the logger

`LogMakerDlg.cpp` without its threads: the ten rows of `CLogMakerDlg`, the exchange between its controls and its
members, and the functions that make a message of a row and hand it to `CleLogger`.  A `CString` is its list of
characters, `UINT` and `int` are 32-bit words; the rows 1..10 of the source are `0..9` here.

`DDX_Text` on an `int` is MFC's: its scan is the field `scan` of `Env`.  So are the sinks of the logger that SpdLogDll
builds, and the text its callback sink passes on.  A line is a `CString` up to `toSpdLog`, which hands it to `CleLogger`
through `CT2CA`.
-/
namespace LogMaker

abbrev CString := List Char
abbrev UINT := BitVec 32
abbrev Row := Fin 10

-- one proof for the literals of `Row` in every module
instance neZero_rows : NeZero 10 := ⟨by decide⟩

/-- spdlog's `level_enum`. -/
inductive Level where
  | trace | debug | info | warn | err | critical | off
  deriving DecidableEq, Repr

/-- The sinks `setOnOffSink` switches. -/
inductive Sink where
  | console | file | qtUi | callback | sql
  deriving DecidableEq, Repr

/-- What the code relies on and does not define: the sinks of the logger in the order it calls them, the text
`callbackLog` shows of a record, past `CT2CA`, the callback sink and `CA2CT`, and the scan `DDX_Text` reads an `int`
with. -/
structure Env where
  sinks : List Sink
  payload : Level → CString → CString
  scan : CString → Option UINT

def scanD (str : CString) : Option UINT :=
  if str ≠ [] ∧ str.all Char.isDigit then some (BitVec.ofNat 32 (Nat.ofDigitChars 10 str 0)) else none

/-- The logger as `setOnOffSink` switches it on, its sinks in the order of the switches, handing lines on as they are. -/
def spdEnv : Env := ⟨[.console, .file, .callback, .sql], fun _ line => line, scanD⟩

/-! ## The members and the controls -/

/-- The members `DoDataExchange` fills. -/
structure Members where
  strLevel : Row → CString
  strDevName : CString
  strMsg : Row → CString
  nCnt : Row → UINT

structure Boxes where
  comboLevel : Row → CString
  editDevName : CString
  editMsg : Row → CString
  editCnt : Row → CString

/-- One statement of `DoDataExchange`: a `DDX_CBString`, a `DDX_Text` on a text, or a `DDX_Text` on a count with the
`DDV_MinMaxInt` that follows it. -/
inductive Field where
  | level (r : Row)
  | devName
  | msg (r : Row)
  | cnt (r : Row)
  deriving DecidableEq, Repr

def rows : List Row := [0, 1, 2, 3, 4, 5, 6, 7, 8, 9]

def fields : List Field := rows.map .level ++ [.devName] ++ rows.map .msg ++ rows.map .cnt

/-- `DDV_MinMaxInt(pDX, nCnt, 0, 999999)`. -/
def minMaxInt (n : UINT) : Bool := decide (0 ≤ n.toInt) && decide (n.toInt ≤ 999999)

/-- Why an exchange was aborted: a count box that does not parse, or a count out of range. -/
inductive Abort where
  | parse (r : Row)
  | range (r : Row)
  deriving DecidableEq, Repr

/-- One statement of the exchange from the controls to the members.  A count is stored before it is checked. -/
def exchangeField (E : Env) (b : Boxes) (m : Members) : Field → Members × Option Abort
  | .level r => ({ m with strLevel := Function.update m.strLevel r (b.comboLevel r) }, none)
  | .devName => ({ m with strDevName := b.editDevName }, none)
  | .msg r => ({ m with strMsg := Function.update m.strMsg r (b.editMsg r) }, none)
  | .cnt r => match E.scan (b.editCnt r) with
    | none => (m, some (.parse r))
    | some n => ({ m with nCnt := Function.update m.nCnt r n }, if minMaxInt n then none else some (.range r))

/-- The statements of the exchange one after another; the first that aborts throws past the rest. -/
def exchangeFields (E : Env) (b : Boxes) : Members → List Field → Members × Option Abort
  | m, [] => (m, none)
  | m, f :: fs => match exchangeField E b m f with
    | (m', none) => exchangeFields E b m' fs
    | (m', some e) => (m', some e)

def doDataExchange (E : Env) (b : Boxes) (m : Members) : Members × Option Abort := exchangeFields E b m fields

/-! ## A message -/

/-- `Format(_T("%d"), n)` of an unsigned value: it is printed as a signed one. -/
def formatD (n : UINT) : CString := Decimal.signed n.toInt

def makeMsgBuf (strMsg : CString) (nPlusNo : UINT) : CString := strMsg ++ formatD nPlusNo

/-- One call of `CleLogger`: its severity, and the line before `CT2CA`. -/
structure Record where
  level : Level
  line : CString
  deriving DecidableEq, Repr

def toSpdLog (strLvl strMsg : CString) : Record :=
  if strLvl = "Debug".toList then ⟨.debug, strMsg⟩
  else if strLvl = "Info".toList then ⟨.info, strMsg⟩
  else if strLvl = "Warning".toList then ⟨.warn, strMsg⟩
  else if strLvl = "Error".toList then ⟨.err, strMsg⟩
  else if strLvl = "Critical".toList then ⟨.critical, strMsg⟩
  else ⟨.trace, strMsg⟩

def severity (strLvl : CString) : Level := (toSpdLog strLvl []).level

theorem toSpdLog_eq (strLvl strMsg : CString) : toSpdLog strLvl strMsg = ⟨severity strLvl, strMsg⟩ := by
  unfold severity toSpdLog
  split_ifs <;> rfl

/-- The number that a text shows, if it is one that `formatD` printed. -/
def readD (str : CString) : UINT := BitVec.ofInt 32 (Decimal.parse str)

theorem readD_formatD (n : UINT) : readD (formatD n) = n := by
  unfold readD formatD
  rw [Decimal.parse_signed, BitVec.ofInt_toInt]

theorem formatD_injective : Function.Injective formatD := Function.LeftInverse.injective readD_formatD

/-! ## One thread sending: `sendLogMsg1`, `sendLogMsgCnt` and the Send buttons -/

/-- What a sender changes: `g_nSendCnt` and the calls made to the logger, in order. -/
structure Sent where
  cnt : UINT
  logged : List Record

def sendLogMsg1 (strLvl strMsg : CString) (s : Sent) : Sent :=
  ⟨s.cnt + 1, s.logged ++ [toSpdLog strLvl (makeMsgBuf strMsg s.cnt)]⟩

def sendLoop (strLvl strMsg : CString) (i nCnt : UINT) (s : Sent) : Sent :=
  if h : i < nCnt then sendLoop strLvl strMsg (i + 1) nCnt (sendLogMsg1 strLvl strMsg s) else s
termination_by nCnt.toNat - i.toNat
decreasing_by
  have hi : i.toNat < nCnt.toNat := h
  have _hn := nCnt.isLt
  rw [BitVec.toNat_add, show (1 : UINT).toNat = 1 from rfl]
  omega

def sendLogMsgCnt (strLvl strMsg : CString) (nCnt : UINT) (s : Sent) : Sent := sendLoop strLvl strMsg 0 nCnt s

/-- `OnBnClickedButtonSend1` .. `Send10`: the exchange, whose outcome is ignored, then the loop on the row's members. -/
def onBnClickedButtonSend (k : Row) (E : Env) (b : Boxes) (m : Members) (s : Sent) : Members × Sent :=
  let m' := (doDataExchange E b m).1
  (m', sendLogMsgCnt (m'.strLevel k) (m'.strMsg k) (m'.nCnt k) s)

def onBnClickedButtonSend1 := onBnClickedButtonSend 0
def onBnClickedButtonSend2 := onBnClickedButtonSend 1
def onBnClickedButtonSend3 := onBnClickedButtonSend 2
def onBnClickedButtonSend4 := onBnClickedButtonSend 3
def onBnClickedButtonSend5 := onBnClickedButtonSend 4
def onBnClickedButtonSend6 := onBnClickedButtonSend 5
def onBnClickedButtonSend7 := onBnClickedButtonSend 6
def onBnClickedButtonSend8 := onBnClickedButtonSend 7
def onBnClickedButtonSend9 := onBnClickedButtonSend 8
def onBnClickedButtonSend10 := onBnClickedButtonSend 9

/-! ## The initial setting -/

/-- The members as the constructor leaves them. -/
def cLogMakerDlg : Members where
  strLevel := fun _ => []
  strDevName := []
  strMsg := fun _ => []
  nCnt := ![10, 100, 500, 1000, 5000, 10000, 50000, 100000, 30, 5]

/-- The assignments of `initMsgs`; `dev` is the number `std::rand` gave the device. -/
def Members.setMsgs (m : Members) (dev : UINT) : Members := { m with
  strLevel := ![
    "Error".toList, "Info".toList, "Warning".toList, "Error".toList, "Critical".toList,
    "Info".toList, "Critical".toList, "Error".toList, "Warning".toList, "Info".toList]
  strDevName := "dev-".toList ++ formatD dev
  strMsg := ![
    "0-InfoVehicleScanPose called (from InfoVehicleScanPose)".toList,
    "1-다음 차체 촬영지점에서의 현재 로봇 포즈 1:  1447.75 -1956.92  721.496 -177.722 -30.9631  -2.1694 (from InfoVehicleScanPose)".toList,
    "2-계산된 차체 보정값: 0.839, 1.174, -1.844, -0.058, -0.103, -0.019 (from UpdateInstallPosesToRobotAsync)".toList,
    "3-장착 포즈를 로봇에 업데이트 하였습니다. (from UpdateInstallPosesToRobotAsync)".toList,
    "4-Current ROI 1 glass_edge.back(): (140.000, 2.000) (from MeasureGap)".toList,
    "5-갭 체크 용 글라스 데이터 준비 소요시간 [ms]: 17 (from MeasureGap)".toList,
    "6-ROI 1 지점 갭 체크 측정 총 소요시간 [ms]: 55 ms (from MeasureGap)".toList,
    "7-다음 글라스 촬영지점에서의 레퍼런스 로봇 포즈:  2045.08  275.316   1140.5 -178.798 -11.5987  -0.7857        0 (from InfoGlassScanPose)".toList,
    "8-계산된 글라스 보정값: -0.585, -0.022, 0.000, 0.000, 0.000, 0.043 (from UpdateGlassPoseAsync)".toList,
    "9-!@ElapsedTimeForTempScanSaving [ms]: 900 (from SaveTempScanFilesGlassCheck)".toList] }

/-- The members after the constructor and the assignments of `initMsgs`. -/
def initMsgs (dev : UINT) : Members := cLogMakerDlg.setMsgs dev

/-- The controls where each shows its member. -/
def Members.shown (m : Members) : Boxes where
  comboLevel := m.strLevel
  editDevName := m.strDevName
  editMsg := m.strMsg
  editCnt := fun r => formatD (m.nCnt r)

end LogMaker
