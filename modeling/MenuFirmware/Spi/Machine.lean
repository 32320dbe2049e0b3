import MenuFirmware.Fpga.Replay

/-!
# The SPI link to the FPGA (`spi4.c`, `pollint_spi_transmit`)

One request at a time runs in the main loop, cut into micro-operations; the completion interrupt
may fall between any two of them.  All requests share one buffer, `Write_Data`, and one lock.

* `Frame`, `Micro`     a frame of three bytes, the steps that a request is made of;
* `sendToFpga`, …      the steps of each request, in the order of the source;
* `txRxCplt`           `SPI4_TxRxCpltCallback`;
* `exec`, `spiStep`    one step of the main loop, one event of the whole machine;
* `spiInit`            the state after reset.
-/

set_option linter.unusedSectionVars false
set_option linter.unusedVariables false

namespace MenuFirmware

/-! ## frames and steps -/

structure Frame where
  cmd : UInt8
  addr : UInt8
  data : UInt8
  deriving DecidableEq, Repr

def readFlag : UInt8 := 0x00
def writeFlag : UInt8 := 0x01

inductive Micro where
  /-- the three bytes of `Write_Data` are assigned one by one -/
  | storeCmd (v : UInt8)
  | storeAddr (v : UInt8)
  | storeData (v : UInt8)
  | nss (level : Bool)
  /-- `while (spi_lock == 1)` -/
  | wait
  | takeLock
  /-- `HAL_SPI_Transmit_IT`, of a buffer of the caller or (`none`) of `Write_Data` -/
  | transmit (src : Option Frame)
  /-- `HAL_SPI_TransmitReceive_IT` into `Read_Data` -/
  | transmitReceive
  | clearRetry
  | setStatus (status : UInt8)
  /-- the end of a tick that sent something -/
  | replayEnd
  deriving DecidableEq

/-! ## requests -/

def fill (f : Frame) : List Micro := [.storeCmd f.cmd, .storeAddr f.addr, .storeData f.data]

/-- start both transfers; a failure is only printed -/
def transfer (src : Option Frame) : List Micro := [.takeLock, .transmit src, .transmitReceive]

def testSendToFpga : List Micro := .nss false :: .wait :: transfer none

def sendToFpga (f : Frame) : List Micro := fill f ++ .nss false :: .wait :: transfer (some f)

/-- `Send_To_Fpga(Write_Data, 3)` assigns each byte of `Write_Data` to itself -/
def sendToFpgaSelf : List Micro := .nss false :: .wait :: transfer none

def retrySpi4 : List Micro := .clearRetry :: .wait :: sendToFpgaSelf

/-- the addresses of `Get_Jit_Reg_1`, `Get_Jit_Reg_2`, `Get_Reg_0x82` … `Get_Reg_0x8e` -/
def getterAddrs : List UInt8 :=
  [0x80, 0x81, 0x82, 0x83, 0x84, 0x87, 0x88, 0x89, 0x8a, 0x8b, 0x8c, 0x8d, 0x8e]

theorem jitReg1_mem : 0x80 ∈ getterAddrs := List.mem_cons_self

def getReg (addr : UInt8) : List Micro := .wait :: sendToFpga ⟨readFlag, addr, 0x00⟩

/-- the setters that select the slave before they wait -/
def sendSelectFirst (addr ch : UInt8) : List Micro :=
  fill ⟨writeFlag, addr, ch⟩ ++ .nss false :: .wait :: transfer none

/-- the setters that wait first -/
def sendWaitFirst (addr ch : UInt8) : List Micro :=
  fill ⟨writeFlag, addr, ch⟩ ++ .wait :: .nss false :: transfer none

def sendSrcMode (ch : UInt8) : List Micro := sendSelectFirst 0x04 ch
def sendClockSyncMode (ch : UInt8) : List Micro := sendSelectFirst 0x0D ch
def sendSyncTypeMode (ch : UInt8) : List Micro := sendSelectFirst 0x06 ch
def sendSyncFrameMode (ch : UInt8) : List Micro := sendSelectFirst 0x10 ch
def sendFpgaRestart (ch : UInt8) : List Micro := sendWaitFirst 0x00 ch
def sendTestPattern (ch : UInt8) : List Micro := sendWaitFirst 0x01 ch
def sendGpsSecNum (sec : UInt8) : List Micro := sendWaitFirst 0x11 sec
def sendGpsSecPulse (pulse : UInt8) : List Micro := sendWaitFirst 0x0f pulse
def sendGpsDirft (addr data : UInt8) : List Micro := sendWaitFirst addr data
def sendFormat05 (ch : UInt8) : List Micro := sendWaitFirst 0x05 ch
def sendFormat11 (ch : UInt8) : List Micro := sendWaitFirst 0x11 ch

/-- the setter that `Set_FPGA_Reg_Config` uses for a register -/
def regSend (w : UInt8 × UInt8) : List Micro :=
  if w.1 = 0x01 then sendTestPattern w.2
  else if w.1 = 0x04 then sendSrcMode w.2
  else if w.1 = 0x0D then sendClockSyncMode w.2
  else if w.1 = 0x06 then sendSyncTypeMode w.2
  else if w.1 = 0x10 then sendSyncFrameMode w.2
  else if w.1 = 0x05 then sendFormat05 w.2
  else sendFormat11 w.2

/-- the steps of a tick; the buffer is filled on every tick, also after the last address -/
def replaySteps (v : ReplayVars) (c : Config) : List Micro :=
  fill ⟨readFlag, UInt8.ofNat v.addr, 0x00⟩ ++
    if v.addr ≤ 0xB8 then
      if 500 ≤ v.timeout then
        (if v.addr ≤ 0x80 then (addrSends c v.addr).flatMap regSend else sendToFpgaSelf) ++ [.replayEnd]
      else [.setStatus 2]
    else []

/-! ## the state -/

structure Spi where
  writeData : Frame
  readData : Frame
  lock : Bool
  retryFlag : Bool
  nss : Bool
  /-- `jit_reg_num_1`, `jit_reg_num_2`, `config_r82_num` …, by the address of the register -/
  regs : UInt8 → UInt8
  ethLink : Bool
  ethOut : List Frame
  /-- `Spi_Trans_Count` -/
  transCount : Nat
  retryTimes : Nat
  replay : ReplayVars
  dev : Dev
  /-- what the main loop still has to do for the current request -/
  fg : List Micro
  /-- a `TransmitReceive` accepted by the HAL is outstanding -/
  busy : Bool
  /-- the frame that the FPGA received last, `none` when it was not accepted by the HAL -/
  flying : Option Frame
  /-- ghost: the frame whose completion was taken as a failure -/
  failed : Option Frame

def spiInit (d : Dev) (link : Bool) : Spi where
  writeData := ⟨0x00, 0x5a, 0x5a⟩
  readData := ⟨0, 0, 0⟩
  lock := false
  retryFlag := false
  nss := true
  regs _ := 0
  ethLink := link
  ethOut := []
  transCount := 0
  retryTimes := 0
  replay := replayStart
  dev := d
  fg := []
  busy := false
  flying := none
  failed := none

/-! ## the completion interrupt -/

def fwRegAddr : Fin 5 → UInt8 := ![0x94, 0x95, 0x96, 0x97, 0x98]

def fwIndex (addr : UInt8) : Option (Fin 5) := (List.finRange 5).find? fun i => fwRegAddr i == addr

def Spi.storeReg (s : Spi) (addr data : UInt8) : Spi :=
  if addr ∈ getterAddrs then { s with regs := Function.update s.regs addr data }
  else match fwIndex addr with
    | some i => { s with dev := { s.dev with fwRegNum := Function.update s.dev.fwRegNum i data } }
    | none => s

/-- the stored value of a register -/
def Spi.value (s : Spi) (addr : UInt8) : UInt8 :=
  match fwIndex addr with
  | some i => s.dev.fwRegNum i
  | none => s.regs addr

/-- the answer `rx` belongs to the request -/
def Spi.accept (s : Spi) (rx : Frame) : Spi :=
  let s := if rx.addr = 0xff then { s with dev := setStatus s.dev 0 } else s
  let s := if rx.cmd = readFlag then s.storeReg rx.addr rx.data else s
  { s with
    retryFlag := false
    failed := none
    ethOut := if s.ethLink then rx :: s.ethOut else s.ethOut }

def Spi.reject (s : Spi) : Spi := { s with retryFlag := true, failed := s.flying }

def txRxCplt (s : Spi) (rx : Frame) : Spi :=
  let s := { s with nss := true, readData := rx }
  { (if s.writeData.addr = rx.addr then s.accept rx else s.reject) with lock := false, busy := false }

/-! ## the main loop -/

/-- the FPGA receives a frame -/
def fpgaReceive (d : Dev) (f : Frame) : Dev :=
  if f.cmd = writeFlag then { d with fpga := applySends d.fpga [(f.addr, f.data)] } else d

/-- the step `m` of the current request, `rest` being left; a HAL call in it returns `r` -/
def exec (s : Spi) (m : Micro) (rest : List Micro) (r : HalStatus) : Spi :=
  match m with
  | .storeCmd v => { s with writeData := { s.writeData with cmd := v }, fg := rest }
  | .storeAddr v => { s with writeData := { s.writeData with addr := v }, fg := rest }
  | .storeData v => { s with writeData := { s.writeData with data := v }, fg := rest }
  | .nss level => { s with nss := level, fg := rest }
  | .wait => if s.lock then s else { s with fg := rest }
  | .takeLock => { s with lock := true, fg := rest }
  | .transmit src =>
    let f := src.getD s.writeData
    if r = .ok then { s with flying := some f, dev := fpgaReceive s.dev f, fg := rest }
    else { s with flying := none, fg := rest }
  | .transmitReceive => { s with busy := s.busy || decide (r = .ok), fg := rest }
  | .clearRetry => { s with retryFlag := false, fg := rest }
  | .setStatus status => { s with dev := setStatus s.dev status, fg := rest }
  | .replayEnd => { s with dev := (replayEnd s.replay s.dev).2, fg := rest }

inductive Request where
  | getReg (addr : UInt8) (h : addr ∈ getterAddrs)
  /-- a frame from the network queue -/
  | sendToFpga (f : Frame)
  | testSendToFpga
  | retrySpi4
  | sendSrcMode (ch : UInt8)
  | sendClockSyncMode (ch : UInt8)
  | sendSyncTypeMode (ch : UInt8)
  | sendSyncFrameMode (ch : UInt8)
  | sendFpgaRestart (ch : UInt8)
  | sendTestPattern (ch : UInt8)
  | sendGpsSecNum (sec : UInt8)
  | sendGpsSecPulse (pulse : UInt8)
  | sendGpsDirft (addr data : UInt8)
  | sendFormat05 (ch : UInt8)
  | sendFormat11 (ch : UInt8)
  /-- `Set_FPGA_Reg_Config` of a menu choice -/
  | setFpgaRegConfig (sectorAddr : Nat)
  | powerOnReadRegOnce
  /-- `pollint_spi_transmit`, with the bytes received on UART2 since the last poll -/
  | poll (bytes : List UInt8)

/-- a byte for `Write_Data[i]`; no frame reaches beyond the third -/
def storeAt (i : Nat) (b : UInt8) : List Micro :=
  match i with
  | 0 => [.storeCmd b]
  | 1 => [.storeAddr b]
  | 2 => [.storeData b]
  | _ => []

/-- the bytes of the UART go straight into `Write_Data` -/
def copyBytes (i : Nat) : List UInt8 → List Micro
  | [] => []
  | b :: bs => storeAt i b ++ copyBytes (i + 1) bs

/-- count the bytes: the new count, and whether a frame is complete -/
def transLoop : Nat → Nat → Nat × Bool
  | 0, count => (count, false)
  | len + 1, count => if count + 1 = 3 then (0, true) else transLoop len (count + 1)

def pollintSpiTransmit (s : Spi) (bytes : List UInt8) : Spi :=
  if bytes.length ≠ 0 then
    let t := transLoop bytes.length s.transCount
    { s with
      transCount := t.1
      retryTimes := 0
      fg := copyBytes s.transCount bytes ++ if t.2 then testSendToFpga else [] }
  else if s.retryFlag then
    { s with
      retryTimes := 1
      fg := if s.retryTimes = 0 then retrySpi4 else [] }
  else s

/-- the main loop begins a request -/
def Spi.start (s : Spi) : Request → Spi
  | .getReg addr _ => { s with fg := getReg addr }
  | .sendToFpga f => { s with fg := sendToFpga f }
  | .testSendToFpga => { s with fg := testSendToFpga }
  | .retrySpi4 => { s with fg := retrySpi4 }
  | .sendSrcMode ch => { s with fg := sendSrcMode ch }
  | .sendClockSyncMode ch => { s with fg := sendClockSyncMode ch }
  | .sendSyncTypeMode ch => { s with fg := sendSyncTypeMode ch }
  | .sendSyncFrameMode ch => { s with fg := sendSyncFrameMode ch }
  | .sendFpgaRestart ch => { s with fg := sendFpgaRestart ch }
  | .sendTestPattern ch => { s with fg := sendTestPattern ch }
  | .sendGpsSecNum sec => { s with fg := sendGpsSecNum sec }
  | .sendGpsSecPulse pulse => { s with fg := sendGpsSecPulse pulse }
  | .sendGpsDirft addr data => { s with fg := sendGpsDirft addr data }
  | .sendFormat05 ch => { s with fg := sendFormat05 ch }
  | .sendFormat11 ch => { s with fg := sendFormat11 ch }
  | .setFpgaRegConfig sectorAddr =>
    { s with fg := (regConfigSends s.dev.arr sectorAddr 0).flatMap regSend }
  | .powerOnReadRegOnce =>
    { s with
      replay := (powerOnReadRegOnce (s.replay, s.dev)).1
      fg := replaySteps s.replay s.dev.arr }
  | .poll bytes => pollintSpiTransmit s bytes

inductive SpiEvent where
  /-- the main loop calls a request -/
  | call (q : Request)
  /-- the main loop goes on by one step -/
  | step (r : HalStatus)
  /-- the outstanding transfer completes with the answer `rx` -/
  | irq (rx : Frame)
  | link (up : Bool)

def spiStep (s : Spi) : SpiEvent → Spi
  | .call q => match s.fg with
    | [] => s.start q
    | _ :: _ => s
  | .step r => match s.fg with
    | [] => s
    | m :: rest => exec s m rest r
  | .irq rx => if s.busy then txRxCplt s rx else s
  | .link up => { s with ethLink := up }

theorem spiStep_call_nil {s : Spi} (q : Request) (h : s.fg = []) :
    spiStep s (.call q) = s.start q := by
  unfold spiStep
  rw [h]
theorem spiStep_call_cons {s : Spi} (q : Request) {m : Micro} {rest : List Micro}
    (h : s.fg = m :: rest) : spiStep s (.call q) = s := by
  unfold spiStep
  rw [h]
theorem spiStep_step_nil {s : Spi} (r : HalStatus) (h : s.fg = []) : spiStep s (.step r) = s := by
  unfold spiStep
  rw [h]
theorem spiStep_step_cons {s : Spi} (r : HalStatus) {m : Micro} {rest : List Micro}
    (h : s.fg = m :: rest) : spiStep s (.step r) = exec s m rest r := by
  unfold spiStep
  rw [h]
theorem spiStep_irq {s : Spi} (rx : Frame) (h : s.busy = true) :
    spiStep s (.irq rx) = txRxCplt s rx := if_pos h
theorem spiStep_irq_idle {s : Spi} (rx : Frame) (h : ¬ s.busy = true) :
    spiStep s (.irq rx) = s := if_neg h

end MenuFirmware
