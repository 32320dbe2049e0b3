import MenuFirmware.Config.Device

/-!
# FPGA registers (`Set_FPGA_Reg_Config`)

The settings that the FPGA works with are sent to it register by register.  A call of
`Set_FPGA_Reg_Config` names a group by its flash address (a menu choice) or by a register (the
replay after power-on); one chain of branches serves both.

* `regConfigSends`     the register writes of one call;
* `setFpgaRegConfig`   the call, with every SPI transfer successful;
* `Encodes c f`        the seven registers of `f` are the encoding of the arrays `c`;
* `regConfigSends_*`   the branch that a call takes.
-/

set_option linter.unusedSectionVars false
set_option linter.unusedVariables false

namespace MenuFirmware

/-! ## register writes -/

/-- the registers after a list of writes -/
def applySends (f : UInt8 → UInt8) (ws : List (UInt8 × UInt8)) : UInt8 → UInt8 :=
  ws.foldl (fun f w => Function.update f w.1 w.2) f

theorem applySends_append (f : UInt8 → UInt8) (a b : List (UInt8 × UInt8)) :
    applySends f (a ++ b) = applySends (applySends f a) b := by
  simp [applySends, List.foldl_append]

/-! ## codes -/

def srcModeCode : Fin (Group.num .configSrcMode) → UInt8 := ![0x80, 0x00]
def srcClockTypeCode : Fin (Group.num .configSrcClockType) → UInt8 := ![0x00, 0x40, 0x80]
def srcSyncTypeCode : Fin (Group.num .configSrcSyncType) → UInt8 :=
  ![0x00, 0x10, 0x20, 0x30, 0x40, 0x50, 0x60, 0x00, 0x70, 0x80, 0x90, 0xa0]
def srcSyncFrameCode : Fin (Group.num .configSrcSyncFrame) → UInt8 :=
  ![0x00, 0x20, 0x40, 0x60, 0x80, 0xa0]
/-- the format is split over two registers -/
def formatCode05 : Fin (Group.num .configFormat) → UInt8 :=
  ![0x38, 0x00, 0x38, 0x38, 0x18, 0x10, 0x10, 0x30, 0x30, 0x28, 0x20, 0x20, 0x2c, 0x24, 0x24,
    0x08, 0x08]
def formatCode11 : Fin (Group.num .configFormat) → UInt8 :=
  ![0x00, 0x00, 0x80, 0x00, 0x00, 0x80, 0x00, 0x80, 0x00, 0x00, 0x80, 0x00, 0x00, 0x80, 0x00,
    0x80, 0x00]

def testPatternCode (c : Config) : UInt8 :=
  if c Group.configVideoInput (Fin.last 2) = menuSet then 0x80 else 0x00

/-! ## the call -/

/-- the else-if chain over a group: the writes that belong to its first set element -/
def chainSends {n : Nat} (f : Fin n → UInt8) (sends : Fin n → List (UInt8 × UInt8)) :
    List (UInt8 × UInt8) :=
  match firstSet f with
  | some k => sends k
  | none => []

def regConfigSends (c : Config) (sectorAddr regAddr : Nat) : List (UInt8 × UInt8) :=
  if sectorAddr = inputNumAddr ∨ regAddr = 0x01 then [(0x01, testPatternCode c)]
  else if sectorAddr = srcModeNumAddr ∨ regAddr = 0x04 then
    chainSends (c Group.configSrcMode) fun k => [(0x04, srcModeCode k)]
  else if sectorAddr = srcClockTypeNumAddr ∨ regAddr = 0x0D then
    -- a new clock type puts the sync type back to its first choice
    chainSends (c Group.configSrcClockType) (fun k => [(0x0D, srcClockTypeCode k)]) ++ [(0x06, 0)]
  else if sectorAddr = srcSyncTypeNumAddr ∨ regAddr = 0x06 then
    chainSends (c Group.configSrcSyncType) fun k => [(0x06, srcSyncTypeCode k)]
  else if sectorAddr = srcSyncFrameNumAddr ∨ regAddr = 0x10 then
    chainSends (c Group.configSrcSyncFrame) fun k => [(0x10, srcSyncFrameCode k)]
  else if sectorAddr = configFormatNumAddr ∨ regAddr = 0x05 then
    chainSends (c Group.configFormat) fun k => [(0x05, formatCode05 k), (0x11, formatCode11 k)]
  else []

def setFpgaRegConfig (d : Dev) (sectorAddr regAddr : Nat) : Dev :=
  { d with fpga := applySends d.fpga (regConfigSends d.arr sectorAddr regAddr) }

theorem chainSends_of_isChoice {n : Nat} {f : Fin n → UInt8} {k : Fin n} (h : IsChoice f k)
    (sends : Fin n → List (UInt8 × UInt8)) : chainSends f sends = sends k := by
  unfold chainSends
  rw [firstSet_of_isChoice h]

/-! ## the encoding of a configuration -/

/-- a choice in every group -/
abbrev Choices := (g : Group) → Fin g.num

/-- the groups that are encoded by their choice (the video input needs none) -/
def encodedGroups : List Group :=
  [.configSrcMode, .configSrcClockType, .configSrcSyncType, .configSrcSyncFrame, .configFormat]

/-- each encoded group has exactly one `MENU_SET`, at the choice of `k` -/
def Chosen (c : Config) (k : Choices) : Prop := ∀ g ∈ encodedGroups, IsChoice (c g) (k g)

/-- six registers encode the test pattern switch `t` and the choices `k` -/
structure EncodesOffSync (t : UInt8) (k : Choices) (f : UInt8 → UInt8) : Prop where
  testPattern : f 0x01 = t
  srcMode : f 0x04 = srcModeCode (k .configSrcMode)
  format05 : f 0x05 = formatCode05 (k .configFormat)
  clockType : f 0x0D = srcClockTypeCode (k .configSrcClockType)
  syncFrame : f 0x10 = srcSyncFrameCode (k .configSrcSyncFrame)
  format11 : f 0x11 = formatCode11 (k .configFormat)

/-- all seven do, the sync type register among them -/
structure Encodes (t : UInt8) (k : Choices) (f : UInt8 → UInt8) : Prop
    extends EncodesOffSync t k f where
  syncType : f 0x06 = srcSyncTypeCode (k .configSrcSyncType)

/-- the registers are the encoding of the arrays -/
def RegsMatch (c : Config) (f : UInt8 → UInt8) : Prop :=
  ∃ k, Chosen c k ∧ Encodes (testPatternCode c) k f

theorem Chosen.unique {c : Config} {k l : Choices} (hk : Chosen c k) (hl : Chosen c l) (g : Group)
    (hg : g ∈ encodedGroups) : k g = l g :=
  (hl g hg (k g)).1 ((hk g hg (k g)).2 rfl)

/-- a new choice in one group -/
theorem Chosen.setGroup {c : Config} {k : Choices} (h : Chosen c k) (g : Group) (w : Fin g.num) :
    Chosen (c.setGroup g (oneHot w)) (Function.update k g w) := by
  intro g' hg'
  by_cases e : g' = g
  · subst e
    rw [Config.setGroup_self, Function.update_self]
    exact isChoice_oneHot w
  · rw [Config.setGroup_grp_of_ne _ _ _ _ e, Function.update_of_ne e]
    exact h g' hg'

/-- a group that is not encoded by its choice does not matter -/
theorem Chosen.setGroup_other {c : Config} {k : Choices} (h : Chosen c k) (g : Group)
    (st : Fin g.num → UInt8) (hg : g ∉ encodedGroups) : Chosen (c.setGroup g st) k := by
  intro g' hg'
  have e : g' ≠ g := fun e => hg (e ▸ hg')
  rw [Config.setGroup_grp_of_ne _ _ _ _ e]
  exact h g' hg'

theorem testPatternCode_setGroup (c : Config) (g : Group) (st : Fin g.num → UInt8)
    (hg : g ≠ .configVideoInput) : testPatternCode (c.setGroup g st) = testPatternCode c := by
  unfold testPatternCode
  rw [Config.setGroup_grp_of_ne _ _ _ _ hg.symm]

end MenuFirmware
