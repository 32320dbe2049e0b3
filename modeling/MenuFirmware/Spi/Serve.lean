import MenuFirmware.Spi.Lock

/-!
# What a request writes to the FPGA

Whenever the completions come, a request whose transfers are all accepted leaves the FPGA
registers as the one-step functions say.

* `framesOf`     the frames that the steps of a request transmit;
* `Serving`      what has been written and what is still to be written make up the writes of the
                 request;
* `serving_step` kept by every event but a new request;
* `setFpgaRegConfig_served`, `powerOnReadRegOnce_served`  a menu choice and a tick of the replay
                 carry out `setFpgaRegConfig` and `powerOnReadRegOnce`.
-/

set_option linter.unusedSectionVars false
set_option linter.unusedVariables false

namespace MenuFirmware
open Runs

/-! ## the frames of a request -/

def sentBy (w : Frame) : Micro → List Frame
  | .transmit src => [src.getD w]
  | _ => []

/-- what the steps `l` transmit, `w` being in `Write_Data` -/
def framesOf : Frame → List Micro → List Frame
  | _, [] => []
  | w, m :: l => sentBy w m ++ framesOf (stored w m) l

def writeOf (f : Frame) : Option (UInt8 × UInt8) :=
  if f.cmd = writeFlag then some (f.addr, f.data) else none

/-- the register writes among the frames -/
def writesOf (fs : List Frame) : List (UInt8 × UInt8) := fs.filterMap writeOf

theorem framesOf_cons (w : Frame) (m : Micro) (l : List Micro) :
    framesOf w (m :: l) = sentBy w m ++ framesOf (stored w m) l := rfl
theorem writesOf_append (fs gs : List Frame) :
    writesOf (fs ++ gs) = writesOf fs ++ writesOf gs := List.filterMap_append

/-- the buffer after the steps `l` -/
def storedAll (w : Frame) (l : List Micro) : Frame := l.foldl stored w

theorem framesOf_append (w : Frame) (l l' : List Micro) :
    framesOf w (l ++ l') = framesOf w l ++ framesOf (storedAll w l) l' := by
  induction l generalizing w with
  | nil => rfl
  | cons m l ih =>
    rw [List.cons_append, framesOf_cons, ih, framesOf_cons, List.append_assoc]
    rfl

theorem fpgaReceive_fpga (d : Dev) (f : Frame) :
    (fpgaReceive d f).fpga = applySends d.fpga (writesOf [f]) := by
  unfold fpgaReceive writesOf
  rw [List.filterMap_cons]
  unfold writeOf
  by_cases h : f.cmd = writeFlag
  · rw [if_pos h, if_pos h]
    rfl
  · rw [if_neg h, if_neg h]
    rfl

theorem Ticked_fpgaReceive (d : Dev) (f : Frame) : Ticked d (fpgaReceive d f) (writesOf [f]) := by
  have hfpga := fpgaReceive_fpga d f
  unfold fpgaReceive at hfpga ⊢
  by_cases h : f.cmd = writeFlag
  · rw [if_pos h] at hfpga ⊢
    exact ⟨rfl, rfl, rfl, hfpga⟩
  · rw [if_neg h] at hfpga ⊢
    exact ⟨rfl, rfl, rfl, hfpga⟩

/-- one step of the main loop, its transfer accepted -/
theorem exec_ticked (s : Spi) (m : Micro) (rest : List Micro) :
    Ticked s.dev (exec s m rest .ok).dev (writesOf (sentBy s.writeData m)) := by
  cases m with
  | transmit src => exact Ticked_fpgaReceive s.dev _
  | setStatus status => exact Ticked_setStatus s.dev status
  | replayEnd => exact Ticked_replayEnd _ _ _ _ (Ticked_refl _)
  | wait =>
    show Ticked s.dev (if s.lock then s else { s with fg := rest }).dev []
    by_cases h : s.lock = true
    · rw [if_pos h]
      exact Ticked_refl _
    · rw [if_neg h]
      exact Ticked_refl _
  | storeCmd v => exact Ticked_refl _
  | storeAddr v => exact Ticked_refl _
  | storeData v => exact Ticked_refl _
  | nss level => exact Ticked_refl _
  | takeLock => exact Ticked_refl _
  | transmitReceive => exact Ticked_refl _
  | clearRetry => exact Ticked_refl _

/-! ## while a request is served -/

/-- no new request; the HAL accepts every transfer -/
def Serves : SpiEvent → Prop
  | .call _ => False
  | .step r => r = .ok
  | _ => True

/-- `ws` are the writes since the device was `d`, those still to come included -/
def Serving (d : Dev) (ws : List (UInt8 × UInt8)) (s : Spi) : Prop :=
  ∃ done, Ticked d s.dev done ∧ done ++ writesOf (framesOf s.writeData s.fg) = ws

theorem serving_step {d : Dev} {ws : List (UInt8 × UInt8)} {s : Spi} {e : SpiEvent}
    (h : Serving d ws s) (he : Serves e) : Serving d ws (spiStep s e) := by
  obtain ⟨done, hd, hw⟩ := h
  cases e with
  | call q => exact he.elim
  | link up => exact ⟨done, hd, hw⟩
  | irq rx =>
    by_cases hb : s.busy = true
    · rw [spiStep_irq rx hb]
      rcases txRxCplt_cases s rx with ⟨_, regs, dev, out, ht, e⟩ | ⟨_, e⟩
      · rw [e]
        have h2 := hd.trans ht
        rw [List.append_nil] at h2
        exact ⟨done, h2, hw⟩
      · rw [e]
        exact ⟨done, hd, hw⟩
    · rw [spiStep_irq_idle rx hb]
      exact ⟨done, hd, hw⟩
  | step r =>
    obtain rfl : r = .ok := he
    cases hfg : s.fg with
    | nil =>
      rw [spiStep_step_nil _ hfg]
      exact ⟨done, hd, hw⟩
    | cons m rest =>
      have ht := exec_ticked s m rest
      rw [spiStep_step_cons _ hfg]
      rw [hfg, framesOf_cons, writesOf_append] at hw
      rcases exec_cases s m rest .ok with ⟨_, _, hs⟩ | ⟨rfl, _, hs⟩ | ⟨_, hst⟩
      · rw [hs]
        refine ⟨done, hd, ?_⟩
        rw [hfg, framesOf_cons, writesOf_append]
        exact hw
      · rw [hs]
        exact ⟨done, hd, hw⟩
      · refine ⟨done ++ writesOf (sentBy s.writeData m), hd.trans ht, ?_⟩
        rw [hst.fg, hst.writeData, List.append_assoc]
        exact hw

/-- at its end the request has written what its steps transmit -/
theorem served {s t : Spi} (hd : t.dev = s.dev) (es : List SpiEvent) (he : ∀ e ∈ es, Serves e)
    (hend : (run spiStep t es).fg = []) :
    Ticked s.dev (run spiStep t es).dev (writesOf (framesOf t.writeData t.fg)) := by
  have h0 : Serving s.dev (writesOf (framesOf t.writeData t.fg)) t :=
    ⟨[], hd ▸ Ticked_refl _, rfl⟩
  have hrun : Serving s.dev (writesOf (framesOf t.writeData t.fg)) (run spiStep t es) :=
    run_invariant_mem (fun r e h hr => serving_step hr (he e h)) h0
  obtain ⟨done, hdone, hw⟩ := hrun
  rw [hend] at hw
  have hnil : done = writesOf (framesOf t.writeData t.fg) := by
    rw [← hw]
    exact (List.append_nil done).symm
  rw [hnil] at hdone
  exact hdone

/-! ## settings -/

/-- the registers that have a setter of their own -/
def setterAddrs : List UInt8 := [0x01, 0x04, 0x0D, 0x06, 0x10, 0x05, 0x11]

theorem framesOf_regSend (w : Frame) (v : UInt8 × UInt8) (h : v.1 ∈ setterAddrs) :
    framesOf w (regSend v) = [⟨writeFlag, v.1, v.2⟩] := by
  obtain ⟨a, x⟩ := v
  simp only [setterAddrs, List.mem_cons, List.not_mem_nil, or_false] at h
  rcases h with rfl | rfl | rfl | rfl | rfl | rfl | rfl <;> rfl

theorem writesOf_regSends (w : Frame) (ws : List (UInt8 × UInt8))
    (h : ∀ v ∈ ws, v.1 ∈ setterAddrs) : writesOf (framesOf w (ws.flatMap regSend)) = ws := by
  induction ws generalizing w with
  | nil => rfl
  | cons v ws ih =>
    rw [List.flatMap_cons, framesOf_append, writesOf_append,
      framesOf_regSend w v (h v List.mem_cons_self),
      ih _ fun v' h' => h v' (List.mem_cons_of_mem v h')]
    rfl

theorem chainSends_mem {n : Nat} (f : Fin n → UInt8) (sends : Fin n → List (UInt8 × UInt8))
    (h : ∀ k, ∀ v ∈ sends k, v.1 ∈ setterAddrs) : ∀ v ∈ chainSends f sends, v.1 ∈ setterAddrs := by
  unfold chainSends
  cases firstSet f with
  | none => exact fun v hv => absurd hv List.not_mem_nil
  | some k => exact h k

theorem regConfigSends_mem (c : Config) (sectorAddr regAddr : Nat) :
    ∀ v ∈ regConfigSends c sectorAddr regAddr, v.1 ∈ setterAddrs := by
  have hone (a x : UInt8) (h : a ∈ setterAddrs) : ∀ v ∈ [(a, x)], v.1 ∈ setterAddrs := by
    intro v hv
    rw [List.mem_singleton.1 hv]
    exact h
  unfold regConfigSends
  by_cases h01 : sectorAddr = inputNumAddr ∨ regAddr = 0x01
  · rw [if_pos h01]
    exact hone _ _ (by decide)
  rw [if_neg h01]
  by_cases h04 : sectorAddr = srcModeNumAddr ∨ regAddr = 0x04
  · rw [if_pos h04]
    exact chainSends_mem _ _ fun k => hone _ _ (by decide)
  rw [if_neg h04]
  by_cases h0D : sectorAddr = srcClockTypeNumAddr ∨ regAddr = 0x0D
  · rw [if_pos h0D]
    intro v hv
    rcases List.mem_append.1 hv with hv | hv
    · exact chainSends_mem _ _ (fun k => hone _ _ (by decide)) v hv
    · exact hone _ _ (by decide) v hv
  rw [if_neg h0D]
  by_cases h06 : sectorAddr = srcSyncTypeNumAddr ∨ regAddr = 0x06
  · rw [if_pos h06]
    exact chainSends_mem _ _ fun k => hone _ _ (by decide)
  rw [if_neg h06]
  by_cases h10 : sectorAddr = srcSyncFrameNumAddr ∨ regAddr = 0x10
  · rw [if_pos h10]
    exact chainSends_mem _ _ fun k => hone _ _ (by decide)
  rw [if_neg h10]
  by_cases h05 : sectorAddr = configFormatNumAddr ∨ regAddr = 0x05
  · rw [if_pos h05]
    refine chainSends_mem _ _ fun k v hv => ?_
    rcases List.mem_cons.1 hv with rfl | hv
    · show (0x05 : UInt8) ∈ setterAddrs
      decide
    · exact hone _ _ (by decide) v hv
  rw [if_neg h05]
  exact fun v hv => absurd hv List.not_mem_nil

/-- **A menu choice** writes the registers as `setFpgaRegConfig` does, whenever its completions
come. -/
theorem setFpgaRegConfig_served (s : Spi) (sectorAddr : Nat) (es : List SpiEvent)
    (he : ∀ e ∈ es, Serves e)
    (hend : (run spiStep (s.start (.setFpgaRegConfig sectorAddr)) es).fg = []) :
    Ticked s.dev (run spiStep (s.start (.setFpgaRegConfig sectorAddr)) es).dev
      (regConfigSends s.dev.arr sectorAddr 0) := by
  have hw : writesOf (framesOf s.writeData ((regConfigSends s.dev.arr sectorAddr 0).flatMap regSend))
      = regConfigSends s.dev.arr sectorAddr 0 :=
    writesOf_regSends _ _ (regConfigSends_mem s.dev.arr sectorAddr 0)
  have h := served (t := s.start (.setFpgaRegConfig sectorAddr)) rfl es he hend
  change Ticked s.dev _ (writesOf (framesOf s.writeData _)) at h
  exact hw ▸ h

/-- the mode is a single register -/
theorem setFpgaRegConfig_served_mode :
    Ticked blankDev (run spiStep ((spiInit blankDev true).start (.setFpgaRegConfig srcModeNumAddr))
      (List.replicate 9 (.step .ok) ++ [.irq ⟨writeFlag, 0x04, 0x80⟩])).dev
      (regConfigSends defaultArr srcModeNumAddr 0) :=
  setFpgaRegConfig_served (spiInit blankDev true) srcModeNumAddr _ (by simp [Serves]) rfl

/-! ## the replay -/

theorem writesOf_fill (w f : Frame) (l : List Micro) :
    writesOf (framesOf w (fill f ++ l)) = writesOf (framesOf (storedAll w (fill f)) l) := by
  rw [framesOf_append, writesOf_append]
  rfl

theorem addrSends_mem (c : Config) (a : Nat) : ∀ v ∈ addrSends c a, v.1 ∈ setterAddrs := by
  unfold addrSends
  by_cases h : 1 ≤ a ∧ a ≤ 0x80
  · rw [if_pos h]
    exact regConfigSends_mem c 0 a
  · rw [if_neg h]
    exact fun v hv => absurd hv List.not_mem_nil

/-- the writes of a tick are those of the address it passes -/
theorem replaySteps_writes (w : Frame) (v : ReplayVars) (c : Config) :
    writesOf (framesOf w (replaySteps v c)) =
      if v.addr ≤ 0xB8 ∧ 500 ≤ v.timeout then addrSends c v.addr else [] := by
  unfold replaySteps
  rw [writesOf_fill]
  by_cases ha : v.addr ≤ 0xB8
  · rw [if_pos ha]
    by_cases ht : 500 ≤ v.timeout
    · have hif : v.addr ≤ 0xB8 ∧ 500 ≤ v.timeout := ⟨ha, ht⟩
      rw [if_pos ht, if_pos hif, framesOf_append, writesOf_append]
      by_cases h80 : v.addr ≤ 0x80
      · rw [if_pos h80, writesOf_regSends _ _ (addrSends_mem c v.addr)]
        exact List.append_nil _
      · -- above `0x80` the register is read
        rw [if_neg h80, show addrSends c v.addr = [] from if_neg (by omega)]
        rfl
    · rw [if_neg ht, if_neg fun h => ht h.2]
      rfl
  · rw [if_neg ha, if_neg fun h => ha h.1]
    rfl

/-- **A tick** of the replay writes the registers as `powerOnReadRegOnce` does. -/
theorem powerOnReadRegOnce_served (s : Spi) (es : List SpiEvent) (he : ∀ e ∈ es, Serves e)
    (hend : (run spiStep (s.start .powerOnReadRegOnce) es).fg = []) :
    (run spiStep (s.start .powerOnReadRegOnce) es).dev.fpga =
      (powerOnReadRegOnce (s.replay, s.dev)).2.fpga := by
  have h := (served (t := s.start .powerOnReadRegOnce) rfl es he hend).fpga
  change _ = applySends s.dev.fpga (writesOf (framesOf s.writeData (replaySteps s.replay s.dev.arr))) at h
  rw [h, replaySteps_writes]
  rcases powerOnReadRegOnce_cases s.replay s.dev with ⟨hd, e⟩ | ⟨hd, hw, _, hk⟩ |
    ⟨hd, hw, _, _, hk⟩ | ⟨hd, hw, _, _, hk⟩
  · rw [e, if_neg (by omega)]
    rfl
  · rw [hk.fpga, if_neg (by omega)]
  · rw [hk.fpga, if_pos (by omega), show addrSends s.dev.arr s.replay.addr = [] from if_neg (by omega)]
  · rw [hk.fpga, if_pos ⟨hd, hw⟩]

/-- the tick that writes the mode -/
theorem powerOnReadRegOnce_served_mode :
    (run spiStep (({ spiInit blankDev true with replay := ⟨500, 4, true⟩ } : Spi).start
      .powerOnReadRegOnce) (List.replicate 16 (.step .ok))).dev.fpga 0x04 = 0x80 :=
  (congrFun (powerOnReadRegOnce_served _ _ (by simp [Serves]) rfl) 0x04).trans (by decide +kernel)

end MenuFirmware
