import MenuFirmware.Spi.Lock

/-!
# Retries

A transfer whose answer has the wrong address sets the retry flag.  The poll calls `Retry_SPI4`
when it finds the flag and no bytes from the UART, but only once: a static counter remembers the
call until the next bytes arrive.

* `SilentPoll`, `BytesPoll`  a poll that finds the flag and no bytes, a poll that finds bytes;
* `FailureRetried`      every failed transfer is followed by a call at the next silent poll;
* `retryTimes_iff`      the counter is set iff a silent poll has come since the last bytes;
* `failureRetried_iff`  all failures of a run are retried iff there are bytes between any two of
                        its silent polls.
-/

set_option linter.unusedSectionVars false
set_option linter.unusedVariables false

namespace MenuFirmware
open Runs

/-! ## polls and failures -/

/-- a poll that finds no bytes, and the flag set -/
def SilentPoll (s : Spi) (e : SpiEvent) : Prop :=
  s.fg = [] ∧ e = .call (.poll []) ∧ s.retryFlag = true

/-- a poll that finds bytes -/
def BytesPoll (s : Spi) (e : SpiEvent) : Prop :=
  s.fg = [] ∧ ∃ b bs, e = .call (.poll (b :: bs))

/-- a transfer completes with the wrong address -/
def Failure (s : Spi) (e : SpiEvent) : Prop :=
  s.busy = true ∧ ∃ rx, e = .irq rx ∧ s.writeData.addr ≠ rx.addr

/-- `Retry_SPI4` is called by a silent poll -/
def RetryCalled (s : Spi) (e : SpiEvent) : Prop := SilentPoll s e → (spiStep s e).fg = retrySpi4

/-- the next silent poll after a failure calls `Retry_SPI4` -/
def FailureRetried (s : Spi) (es : List SpiEvent) : Prop :=
  ∀ pre e post, es = pre ++ e :: post → Since spiStep Failure SilentPoll s pre →
    RetryCalled (run spiStep s pre) e

/-- no silent poll has another one before it without bytes in between -/
def BytesBetween (s : Spi) (es : List SpiEvent) : Prop :=
  ∀ pre e post, es = pre ++ e :: post → SilentPoll (run spiStep s pre) e →
    ¬ Since spiStep SilentPoll BytesPoll s pre

/-! ## the counter -/

theorem no_bytes : ¬ ([] : List UInt8).length ≠ 0 := not_not.2 rfl

theorem silentPoll_step {s : Spi} {e : SpiEvent} (h : SilentPoll s e) :
    spiStep s e = { s with retryTimes := 1, fg := if s.retryTimes = 0 then retrySpi4 else [] } := by
  obtain ⟨hfg, rfl, hf⟩ := h
  rw [spiStep_call_nil _ hfg]
  show pollintSpiTransmit s [] = _
  unfold pollintSpiTransmit
  rw [if_neg no_bytes, if_pos hf]

theorem bytesPoll_step {s : Spi} {e : SpiEvent} (h : BytesPoll s e) :
    (spiStep s e).retryTimes = 0 := by
  obtain ⟨hfg, b, bs, rfl⟩ := h
  rw [spiStep_call_nil _ hfg]
  show (pollintSpiTransmit s (b :: bs)).retryTimes = 0
  unfold pollintSpiTransmit
  rw [if_pos (show (b :: bs).length ≠ 0 from Nat.succ_ne_zero _)]

/-- only polls count -/
theorem other_step {s : Spi} {e : SpiEvent} (hs : ¬ SilentPoll s e) (hb : ¬ BytesPoll s e) :
    (spiStep s e).retryTimes = s.retryTimes := by
  cases e with
  | call q =>
    cases hfg : s.fg with
    | cons m rest => rw [spiStep_call_cons q hfg]
    | nil =>
      rw [spiStep_call_nil q hfg]
      cases q with
      | poll bytes =>
        cases bytes with
        | cons b bs => exact absurd ⟨hfg, b, bs, rfl⟩ hb
        | nil =>
          have hf : ¬ s.retryFlag = true := fun hf => hs ⟨hfg, rfl, hf⟩
          show (pollintSpiTransmit s []).retryTimes = _
          unfold pollintSpiTransmit
          rw [if_neg no_bytes, if_neg hf]
      | _ => rfl
  | step r =>
    cases hfg : s.fg with
    | nil => rw [spiStep_step_nil r hfg]
    | cons m rest => rw [spiStep_step_cons r hfg, (exec_counts s m rest r).2]
  | irq rx =>
    by_cases hbusy : s.busy = true
    · rw [spiStep_irq rx hbusy]
      rcases txRxCplt_cases s rx with ⟨_, regs, dev, out, -, e⟩ | ⟨_, e⟩
      · rw [e]
      · rw [e]
    · rw [spiStep_irq_idle rx hbusy]
  | link up => rfl

/-- **The counter** is set iff a silent poll has come since the last bytes. -/
theorem retryTimes_iff (d : Dev) (link : Bool) (es : List SpiEvent) :
    (run spiStep (spiInit d link) es).retryTimes ≠ 0 ↔
      Since spiStep SilentPoll BytesPoll (spiInit d link) es := by
  induction es using List.reverseRecOn with
  | nil => exact iff_of_false (not_not.2 rfl) (not_Since_nil _)
  | append_singleton es e ih =>
    rw [Since_snoc, run_append]
    show (spiStep (run spiStep (spiInit d link) es) e).retryTimes ≠ 0 ↔ _
    by_cases hs : SilentPoll (run spiStep (spiInit d link) es) e
    · refine iff_of_true ?_ (Or.inl hs)
      rw [silentPoll_step hs]
      exact Nat.one_ne_zero
    · by_cases hb : BytesPoll (run spiStep (spiInit d link) es) e
      · rw [bytesPoll_step hb]
        refine iff_of_false (not_not.2 rfl) ?_
        rintro (h | ⟨_, h⟩)
        · exact hs h
        · exact h hb
      · rw [other_step hs hb, ih]
        constructor
        · exact fun h => Or.inr ⟨h, hb⟩
        · exact fun h => (h.resolve_left hs).1

theorem retryCalled_iff {s : Spi} {e : SpiEvent} :
    RetryCalled s e ↔ (SilentPoll s e → s.retryTimes = 0) := by
  unfold RetryCalled
  refine ⟨fun h hs => ?_, fun h hs => ?_⟩
  · have hc := h hs
    rw [silentPoll_step hs] at hc
    by_contra hne
    have hnil : (if s.retryTimes = 0 then retrySpi4 else []) = retrySpi4 := hc
    rw [if_neg hne] at hnil
    exact absurd hnil nofun
  · rw [silentPoll_step hs]
    show (if s.retryTimes = 0 then retrySpi4 else []) = retrySpi4
    rw [if_pos (h hs)]

/-! ## the flag -/

/-- the flag is set: a call of `Retry_SPI4` is about to clear it, or a failure has come since the
last silent poll -/
def FlagPending (s : Spi) (es : List SpiEvent) : Prop :=
  (run spiStep s es).retryFlag = true →
    (∃ rest, (run spiStep s es).fg = .clearRetry :: rest) ∨ Since spiStep Failure SilentPoll s es

/-- what an event that is neither a silent poll nor a failure does to the flag -/
theorem flag_step {s : Spi} {e : SpiEvent} (h : (spiStep s e).retryFlag = true)
    (hs : ¬ SilentPoll s e) (hf : ¬ Failure s e) :
    s.retryFlag = true ∧ ∀ rest, s.fg = .clearRetry :: rest → (spiStep s e).fg = s.fg := by
  rcases spiStep_cases s e with hi | ⟨hfg, hb⟩ | ⟨r, m, rest, rfl, hfg, hw, he, hst⟩ | ⟨rx, rfl, hb, he⟩
  · exact ⟨hi.retryFlag.symm.trans h, fun _ _ => hi.fg⟩
  · refine ⟨hb.retryFlag.symm.trans h, fun rest hc => ?_⟩
    rw [hfg] at hc
    exact absurd hc nofun
  · rw [he] at h ⊢
    refine ⟨hst.retryFlag h, fun rest' hc => ?_⟩
    -- the step would be the one that clears the flag
    rw [hfg] at hc
    rw [(List.cons.inj hc).1] at h
    exact absurd h nofun
  · rw [he] at h ⊢
    rcases txRxCplt_cases s rx with ⟨_, regs, dev, out, -, e⟩ | ⟨hne, e⟩
    · rw [e] at h
      exact absurd h nofun
    · exact absurd ⟨hb, rx, rfl, hne⟩ hf

theorem flagPending {s : Spi} (h0 : s.retryFlag = false) (es : List SpiEvent)
    (h : Along spiStep RetryCalled s es) : FlagPending s es := by
  induction es using List.reverseRecOn with
  | nil =>
    intro hf
    exact absurd (h0.symm.trans hf) Bool.false_ne_true
  | append_singleton es e ih =>
    obtain ⟨h1, hc, -⟩ := (Along_append _ _ _).1 h
    intro hf
    rw [Since_snoc]
    rw [run_append] at hf ⊢
    by_cases hs : SilentPoll (run spiStep s es) e
    · exact Or.inl ⟨_, hc hs⟩
    · by_cases hfail : Failure (run spiStep s es) e
      · exact Or.inr (Or.inl hfail)
      · obtain ⟨hflag, hfg⟩ := flag_step hf hs hfail
        rcases ih h1 hflag with ⟨rest, hr⟩ | hsince
        · exact Or.inl ⟨rest, (hfg rest hr).trans hr⟩
        · exact Or.inr (Or.inr ⟨hsince, hs⟩)

/-! ## all failures of a run -/

/-- where every failure is retried, every silent poll calls `Retry_SPI4` -/
theorem along_retryCalled {s : Spi} (h0 : s.retryFlag = false) (es : List SpiEvent)
    (h : FailureRetried s es) : Along spiStep RetryCalled s es := by
  induction es using List.reverseRecOn with
  | nil => trivial
  | append_singleton es e ih =>
    have h1 : Along spiStep RetryCalled s es := by
      apply ih
      rintro pre a post rfl
      exact h pre a (post ++ [e]) (by rw [List.append_assoc, List.cons_append])
    refine (Along_append _ _ _).2 ⟨h1, fun hs => ?_, trivial⟩
    rcases flagPending h0 es h1 hs.2.2 with ⟨rest, hr⟩ | hsince
    · rw [hs.1] at hr
      exact absurd hr nofun
    · exact h es e [] rfl hsince hs

/-- **Retries.**  Every failed transfer of a run is followed by a call of `Retry_SPI4` at the next
silent poll iff there are bytes from the UART between any two silent polls. -/
theorem failureRetried_iff (d : Dev) (link : Bool) (es : List SpiEvent) :
    FailureRetried (spiInit d link) es ↔ BytesBetween (spiInit d link) es := by
  constructor
  · intro h pre e post he hs
    have hc := (Along_iff_split _ _).1 (along_retryCalled rfl es h) pre e post he
    rw [← retryTimes_iff, not_not]
    exact retryCalled_iff.1 hc hs
  · intro h pre e post he _
    refine retryCalled_iff.2 fun hs => ?_
    have hn := h pre e post he hs
    rw [← retryTimes_iff, not_not] at hn
    exact hn

/-- a read that the FPGA answers with the wrong address, and so does it the retry -/
def failTwice : List SpiEvent :=
  .call (.sendToFpga ⟨0x00, 0x80, 0x00⟩) :: (List.replicate 8 (.step .ok) ++
    .irq ⟨0x00, 0x00, 0x00⟩ :: .call (.poll []) :: (List.replicate 7 (.step .ok) ++
    [.irq ⟨0x00, 0x00, 0x00⟩]))

/-- the second failure is not retried, by this poll or any later one without bytes -/
theorem second_failure_not_retried :
    (run spiStep (spiInit blankDev true) failTwice).retryFlag = true ∧
    (run spiStep (spiInit blankDev true) (failTwice ++ [.call (.poll [])])).fg = [] ∧
    ¬ FailureRetried (spiInit blankDev true) (failTwice ++ [.call (.poll [])]) := by
  have hflag : (run spiStep (spiInit blankDev true) failTwice).retryFlag = true := rfl
  have hidle : (run spiStep (spiInit blankDev true) failTwice).fg = [] := rfl
  have hfg : (run spiStep (spiInit blankDev true) (failTwice ++ [.call (.poll [])])).fg = [] := rfl
  refine ⟨hflag, hfg, fun h => ?_⟩
  have hfail : Since spiStep Failure SilentPoll (spiInit blankDev true) failTwice := by
    refine ⟨failTwice.take 18, .irq ⟨0x00, 0x00, 0x00⟩, [], rfl, ?_, trivial⟩
    exact ⟨rfl, ⟨0x00, 0x00, 0x00⟩, rfl, by decide⟩
  have hc := h failTwice (.call (.poll [])) [] rfl hfail ⟨hidle, rfl, hflag⟩
  rw [run_append] at hfg
  exact absurd (hfg.symm.trans hc) nofun

end MenuFirmware
