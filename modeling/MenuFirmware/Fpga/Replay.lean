import MenuFirmware.Lib.Run
import MenuFirmware.Menu.Select
import Mathlib.Logic.Function.Iterate

/-!
# The replay after power-on (`Power_On_Read_Reg_Once`)

Five seconds after power-on a 10 ms tick walks the register addresses upwards: below `0x81` it
sends the saved setting that belongs to the address, above it reads the register.

* `powerOnReadRegOnce`     one tick;
* `replayTicks_inv`        after any number of ticks exactly the addresses passed have been sent;
* `replayDone_iff`         the replay is complete after 686 ticks;
* `replayDone_regInv`      the writes of a complete replay, in order.  The clock type (`0x0D`) also
                           clears the sync type register (`0x06`) that was written before it;
* `RegsMatch`              the registers are the encoding of the arrays;
* `replay_select_iff`      when they are, after a replay and any later menu choices.
-/

set_option linter.unusedSectionVars false
set_option linter.unusedVariables false

namespace MenuFirmware
open Runs

/-! ## the tick -/

/-- the static variables of the tick -/
structure ReplayVars where
  timeout : Nat
  addr : Nat
  fpgaFlag : Bool

def setStatus (d : Dev) (status : UInt8) : Dev :=
  if status = 0 then { d with statusFlag := 0, userArr := setUser d.userArr 0x11 0 }
  else if status = 1 then { d with statusFlag := 1, userArr := setUser d.userArr 0x11 1 }
  else if status = 2 then { d with statusFlag := 2 }
  else d

/-- end of a tick that sent something: with the last address the device is ready -/
def replayEnd (v : ReplayVars) (d : Dev) : ReplayVars × Dev :=
  if 0xB8 < v.addr then (v, setStatus (updateUserArr d) 0) else (v, d)

def powerOnReadRegOnce (p : ReplayVars × Dev) : ReplayVars × Dev :=
  let v := p.1
  let d := p.2
  if v.addr ≤ 0xB8 then
    if 500 ≤ v.timeout then
      if v.addr ≤ 0x80 then
        if v.addr = 0x00 then
          if v.fpgaFlag = false then replayEnd { v with fpgaFlag := true } d
          else replayEnd { v with addr := v.addr + 1 } d
        else replayEnd { v with addr := v.addr + 1 } (setFpgaRegConfig d 0 v.addr)
      else replayEnd { v with addr := v.addr + 1 } d
    else ({ v with timeout := v.timeout + 1 }, setStatus d 2)
  else (v, d)

def replayStart : ReplayVars := ⟨0, 0, false⟩

/-- the statics and the device after `n` ticks -/
def replayTicks (d : Dev) (n : Nat) : ReplayVars × Dev := powerOnReadRegOnce^[n] (replayStart, d)

theorem replayTicks_succ (d : Dev) (n : Nat) :
    replayTicks d (n + 1) = powerOnReadRegOnce (replayTicks d n) :=
  Function.iterate_succ_apply' ..

/-! ## what one tick does -/

/-- the register writes that belong to the address `a` of the walk -/
def addrSends (c : Config) (a : Nat) : List (UInt8 × UInt8) :=
  if 1 ≤ a ∧ a ≤ 0x80 then regConfigSends c 0 a else []

/-- the device after a tick: the arrays are as before, and the registers have received `ws` -/
structure Ticked (d d' : Dev) (ws : List (UInt8 × UInt8)) : Prop where
  arr : d'.arr = d.arr
  menu : d'.menu = d.menu
  flash : d'.flash = d.flash
  fpga : d'.fpga = applySends d.fpga ws

theorem Ticked_setStatus (d : Dev) (status : UInt8) : Ticked d (setStatus d status) [] := by
  unfold setStatus
  by_cases h0 : status = 0
  · rw [if_pos h0]
    exact ⟨rfl, rfl, rfl, rfl⟩
  · by_cases h1 : status = 1
    · rw [if_neg h0, if_pos h1]
      exact ⟨rfl, rfl, rfl, rfl⟩
    · by_cases h2 : status = 2
      · rw [if_neg h0, if_neg h1, if_pos h2]
        exact ⟨rfl, rfl, rfl, rfl⟩
      · rw [if_neg h0, if_neg h1, if_neg h2]
        exact ⟨rfl, rfl, rfl, rfl⟩

theorem replayEnd_fst (v : ReplayVars) (d : Dev) : (replayEnd v d).1 = v := by
  unfold replayEnd
  by_cases h : 0xB8 < v.addr
  · rw [if_pos h]
  · rw [if_neg h]

theorem Ticked_replayEnd (v : ReplayVars) (d d' : Dev) (ws : List (UInt8 × UInt8))
    (h : Ticked d d' ws) : Ticked d (replayEnd v d').2 ws := by
  unfold replayEnd
  by_cases hv : 0xB8 < v.addr
  · rw [if_pos hv]
    have h1 := Ticked_setStatus (updateUserArr d') 0
    exact ⟨h1.arr.trans h.arr, h1.menu.trans h.menu, h1.flash.trans h.flash, h1.fpga.trans h.fpga⟩
  · rw [if_neg hv]
    exact h

theorem Ticked_refl (d : Dev) : Ticked d d [] := ⟨rfl, rfl, rfl, rfl⟩

/-- the four things a tick can do: nothing more, wait, note the first tick, pass an address -/
theorem powerOnReadRegOnce_cases (v : ReplayVars) (d : Dev) :
    (0xB8 < v.addr ∧ powerOnReadRegOnce (v, d) = (v, d)) ∨
    (v.addr ≤ 0xB8 ∧ v.timeout < 500 ∧
      (powerOnReadRegOnce (v, d)).1 = { v with timeout := v.timeout + 1 } ∧
      Ticked d (powerOnReadRegOnce (v, d)).2 []) ∨
    (v.addr = 0 ∧ 500 ≤ v.timeout ∧ v.fpgaFlag = false ∧
      (powerOnReadRegOnce (v, d)).1 = { v with fpgaFlag := true } ∧
      Ticked d (powerOnReadRegOnce (v, d)).2 []) ∨
    (v.addr ≤ 0xB8 ∧ 500 ≤ v.timeout ∧ (v.addr = 0 → v.fpgaFlag = true) ∧
      (powerOnReadRegOnce (v, d)).1 = { v with addr := v.addr + 1 } ∧
      Ticked d (powerOnReadRegOnce (v, d)).2 (addrSends d.arr v.addr)) := by
  unfold powerOnReadRegOnce
  by_cases ha : v.addr ≤ 0xB8
  · right
    by_cases ht : 500 ≤ v.timeout
    · right
      simp only [if_pos ha, if_pos ht]
      by_cases h80 : v.addr ≤ 0x80
      · rw [if_pos h80]
        by_cases h0 : v.addr = 0
        · rw [if_pos h0]
          by_cases hf : v.fpgaFlag = false
          · rw [if_pos hf]
            exact Or.inl ⟨h0, ht, hf, replayEnd_fst _ _, Ticked_replayEnd _ _ _ _ (Ticked_refl d)⟩
          · rw [if_neg hf]
            have hs : addrSends d.arr v.addr = [] := if_neg (by omega)
            rw [hs]
            exact Or.inr ⟨ha, ht, fun _ => eq_true_of_ne_false hf, replayEnd_fst _ _,
              Ticked_replayEnd _ _ _ _ (Ticked_refl d)⟩
        · rw [if_neg h0]
          have hs : addrSends d.arr v.addr = regConfigSends d.arr 0 v.addr := if_pos (by omega)
          rw [hs]
          exact Or.inr ⟨ha, ht, fun h => absurd h h0, replayEnd_fst _ _,
            Ticked_replayEnd _ _ _ _ ⟨rfl, rfl, rfl, rfl⟩⟩
      · rw [if_neg h80]
        have hs : addrSends d.arr v.addr = [] := if_neg (by omega)
        rw [hs]
        exact Or.inr ⟨ha, ht, fun h => by omega, replayEnd_fst _ _,
          Ticked_replayEnd _ _ _ _ (Ticked_refl d)⟩
    · left
      simp only [if_pos ha, if_neg ht]
      exact ⟨ha, by omega, trivial, Ticked_setStatus d 2⟩
  · left
    simp only [if_neg ha]
    exact ⟨by omega, trivial⟩

/-! ## what any number of ticks does -/

/-- the register writes of all addresses below `n` -/
def replaySends (c : Config) (n : Nat) : List (UInt8 × UInt8) := (List.range n).flatMap (addrSends c)

theorem replaySends_succ (c : Config) (n : Nat) :
    replaySends c (n + 1) = replaySends c n ++ addrSends c n := by
  unfold replaySends
  rw [List.range_succ, List.flatMap_append, List.flatMap_singleton]

/-- the ticks a replay still needs -/
def remaining (v : ReplayVars) : Nat :=
  (500 - v.timeout) + (if v.fpgaFlag then 0 else 1) + (0xB9 - v.addr)

/-- the addresses passed have been sent, and nothing else has; the phases come in order -/
structure ReplayInv (d : Dev) (p : ReplayVars × Dev) : Prop where
  sent : Ticked d p.2 (replaySends d.arr p.1.addr)
  timeout : p.1.timeout ≤ 500
  addr : p.1.addr ≤ 0xB9
  flag : p.1.fpgaFlag = true → p.1.timeout = 500
  late : 0 < p.1.addr → p.1.fpgaFlag = true

theorem Ticked.trans {d d' d'' : Dev} {ws ws' : List (UInt8 × UInt8)} (h : Ticked d d' ws)
    (h' : Ticked d' d'' ws') : Ticked d d'' (ws ++ ws') := by
  refine ⟨h'.arr.trans h.arr, h'.menu.trans h.menu, h'.flash.trans h.flash, ?_⟩
  rw [h'.fpga, h.fpga, applySends_append]

theorem replayInv_step (d : Dev) (p : ReplayVars × Dev) (h : ReplayInv d p) :
    ReplayInv d (powerOnReadRegOnce p) ∧
      remaining (powerOnReadRegOnce p).1 = remaining p.1 - 1 := by
  obtain ⟨v, e⟩ := p
  obtain ⟨hs, ht, ha, hf, hl⟩ := h
  change v.timeout ≤ 500 at ht
  change v.addr ≤ 0xB9 at ha
  change v.fpgaFlag = true → v.timeout = 500 at hf
  change 0 < v.addr → v.fpgaFlag = true at hl
  rcases powerOnReadRegOnce_cases v e with ⟨hd, he⟩ | ⟨hd, hw, hv, hk⟩ | ⟨hd, hw, hfl, hv, hk⟩ |
    ⟨hd, hw, hfl, hv, hk⟩
  · rw [he]
    refine ⟨⟨hs, ht, ha, hf, hl⟩, ?_⟩
    have hfl := hl (by omega)
    have h5 := hf hfl
    show remaining v = remaining v - 1
    unfold remaining
    rw [hfl, if_pos rfl]
    omega
  · have hnf : v.fpgaFlag = false := by
      by_contra h
      have := hf (eq_true_of_ne_false h)
      omega
    have ht' := hs.trans hk
    rw [List.append_nil] at ht'
    refine ⟨⟨?_, ?_, ?_, ?_, ?_⟩, ?_⟩
    · rw [hv]; exact ht'
    · rw [hv]; show v.timeout + 1 ≤ 500; omega
    · rw [hv]; exact ha
    · rw [hv]; intro h; exact absurd (hnf.symm.trans h) Bool.false_ne_true
    · rw [hv]; exact hl
    · rw [hv]
      unfold remaining
      simp only [hnf]
      have hza : v.addr = 0 := by
        by_contra h
        have := hl (Nat.pos_of_ne_zero h)
        rw [hnf] at this
        exact Bool.false_ne_true this
      omega
  · have ht' := hs.trans hk
    rw [List.append_nil] at ht'
    refine ⟨⟨?_, ?_, ?_, ?_, ?_⟩, ?_⟩
    · rw [hv]; exact ht'
    · rw [hv]; exact ht
    · rw [hv]; exact ha
    · rw [hv]; intro _; show v.timeout = 500; omega
    · rw [hv]; exact fun _ => rfl
    · rw [hv]
      unfold remaining
      simp only [hfl, if_true]
      rw [if_neg Bool.false_ne_true]
      omega
  · have ht' := hs.trans hk
    rw [hs.arr, ← replaySends_succ] at ht'
    have hfl' : v.fpgaFlag = true := by
      by_cases h : v.addr = 0
      · exact hfl h
      · exact hl (Nat.pos_of_ne_zero h)
    refine ⟨⟨?_, ?_, ?_, ?_, ?_⟩, ?_⟩
    · rw [hv]; exact ht'
    · rw [hv]; exact ht
    · rw [hv]; show v.addr + 1 ≤ 0xB9; omega
    · rw [hv]; exact hf
    · rw [hv]; exact fun _ => hfl'
    · rw [hv]
      unfold remaining
      simp only [hfl', if_true]
      omega

theorem replayTicks_inv (d : Dev) (n : Nat) :
    ReplayInv d (replayTicks d n) ∧ remaining (replayTicks d n).1 = 686 - n := by
  induction n with
  | zero => exact ⟨⟨Ticked_refl d, Nat.zero_le _, Nat.zero_le _, nofun, nofun⟩, rfl⟩
  | succ n ih =>
    rw [replayTicks_succ]
    obtain ⟨h, hr⟩ := replayInv_step d _ ih.1
    exact ⟨h, by omega⟩

/-- the walk is over -/
def ReplayDone (v : ReplayVars) : Prop := 0xB8 < v.addr

/-- the replay completes, after 686 ticks -/
theorem replayDone_iff (d : Dev) (n : Nat) : ReplayDone (replayTicks d n).1 ↔ 686 ≤ n := by
  obtain ⟨h, hr⟩ := replayTicks_inv d n
  have ha := h.addr
  unfold ReplayDone
  unfold remaining at hr
  constructor
  · intro hd
    have hf := h.late (by omega)
    have ht := h.flag hf
    rw [hf, if_pos rfl] at hr
    omega
  · intro hn
    omega

/-! ## the writes of a complete replay -/

theorem flatMap_filter_of_nil {α β : Type*} (l : List α) (f : α → List β) (p : α → Bool)
    (h : ∀ a ∈ l, p a = false → f a = []) : l.flatMap f = (l.filter p).flatMap f := by
  induction l with
  | nil => rfl
  | cons a l ih =>
    have ih' := ih fun b hb => h b (List.mem_cons_of_mem _ hb)
    by_cases hp : p a = true
    · rw [List.filter_cons_of_pos hp, List.flatMap_cons, List.flatMap_cons, ih']
    · rw [List.filter_cons_of_neg hp, List.flatMap_cons, ih',
        h a List.mem_cons_self (Bool.eq_false_of_not_eq_true hp), List.nil_append]

/-- the addresses with a branch of their own -/
def branchAddrs : List Nat := [0x01, 0x04, 0x05, 0x06, 0x0D, 0x10]

theorem addrSends_of_not_branch (c : Config) (a : Nat) (h : a ∉ branchAddrs) :
    addrSends c a = [] := by
  simp only [branchAddrs, List.mem_cons, List.not_mem_nil, or_false, not_or] at h
  unfold addrSends regConfigSends
  by_cases ha : 1 ≤ a ∧ a ≤ 0x80
  · rw [if_pos ha, if_neg, if_neg, if_neg, if_neg, if_neg, if_neg]
    · exact fun e => e.elim (by decide) h.2.2.1
    · exact fun e => e.elim (by decide) h.2.2.2.2.2
    · exact fun e => e.elim (by decide) h.2.2.2.1
    · exact fun e => e.elim (by decide) h.2.2.2.2.1
    · exact fun e => e.elim (by decide) h.2.1
    · exact fun e => e.elim (by decide) h.1
  · rw [if_neg ha]

theorem replaySends_all (c : Config) :
    replaySends c 0xB9 = branchAddrs.flatMap (addrSends c) := by
  have hf : (List.range 0xB9).filter (fun a => decide (a ∈ branchAddrs)) = branchAddrs := by
    decide +kernel
  unfold replaySends
  rw [flatMap_filter_of_nil _ _ (fun a => decide (a ∈ branchAddrs)), hf]
  intro a _ ha
  exact addrSends_of_not_branch c a (of_decide_eq_false ha)

theorem replaySends_chosen (c : Config) (k : Choices) (h : Chosen c k) :
    replaySends c 0xB9 =
      [(0x01, testPatternCode c), (0x04, srcModeCode (k .configSrcMode)),
        (0x05, formatCode05 (k .configFormat)), (0x11, formatCode11 (k .configFormat)),
        (0x06, srcSyncTypeCode (k .configSrcSyncType)),
        (0x0D, srcClockTypeCode (k .configSrcClockType)), (0x06, 0),
        (0x10, srcSyncFrameCode (k .configSrcSyncFrame))] := by
  have h04 : addrSends c 0x04 = [(0x04, srcModeCode (k .configSrcMode))] :=
    chainSends_of_isChoice (h .configSrcMode (by decide)) _
  have h05 : addrSends c 0x05
      = [(0x05, formatCode05 (k .configFormat)), (0x11, formatCode11 (k .configFormat))] :=
    chainSends_of_isChoice (h .configFormat (by decide)) _
  have h06 : addrSends c 0x06 = [(0x06, srcSyncTypeCode (k .configSrcSyncType))] :=
    chainSends_of_isChoice (h .configSrcSyncType (by decide)) _
  have h0D : addrSends c 0x0D = [(0x0D, srcClockTypeCode (k .configSrcClockType))] ++ [(0x06, 0)] :=
    congrArg (· ++ [(0x06, 0)]) (chainSends_of_isChoice (h .configSrcClockType (by decide)) _)
  have h10 : addrSends c 0x10 = [(0x10, srcSyncFrameCode (k .configSrcSyncFrame))] :=
    chainSends_of_isChoice (h .configSrcSyncFrame (by decide)) _
  have h01 : addrSends c 0x01 = [(0x01, testPatternCode c)] := rfl
  rw [replaySends_all, branchAddrs]
  simp only [List.flatMap_cons, List.flatMap_nil, h01, h04, h05, h06, h0D, h10]
  rfl

/-- the arrays hold the choices `k`, in the menu fields too; the registers encode them, but for
the sync type register, which holds `v` -/
structure RegInv (d : Dev) (k : Choices) (v : UInt8) : Prop where
  menu : ∀ g : Group, d.menu g = d.arr g
  chosen : Chosen d.arr k
  regs : EncodesOffSync (testPatternCode d.arr) k d.fpga
  sync : d.fpga 0x06 = v

theorem RegInv.regsMatch_iff {d : Dev} {k : Choices} {v : UInt8} (h : RegInv d k v) :
    RegsMatch d.arr d.fpga ↔ v = srcSyncTypeCode (k .configSrcSyncType) := by
  obtain ⟨hm, hc, hr, hs⟩ := h
  constructor
  · rintro ⟨k', hc', hr'⟩
    rw [← hs, hr'.syncType, hc'.unique hc .configSrcSyncType (by decide)]
  · intro e
    exact ⟨k, hc, hr, hs.trans e⟩

/-- a complete replay leaves the sync type register at `0` -/
theorem replayDone_regInv (d : Dev) (k : Choices) (n : Nat) (h : Chosen d.arr k)
    (hm : ∀ g : Group, d.menu g = d.arr g) (hd : ReplayDone (replayTicks d n).1) :
    RegInv (replayTicks d n).2 k 0 := by
  obtain ⟨⟨hs, _, ha, _, _⟩, _⟩ := replayTicks_inv d n
  have h9 : (replayTicks d n).1.addr = 0xB9 := by
    unfold ReplayDone at hd
    omega
  have hf := hs.fpga
  rw [h9, replaySends_chosen d.arr k h] at hf
  refine ⟨?_, ?_, ?_, ?_⟩
  · intro g
    rw [hs.menu, hs.arr]
    exact hm g
  · rw [hs.arr]
    exact h
  · rw [hs.arr, hf]
    exact ⟨rfl, rfl, rfl, rfl, rfl, rfl⟩
  · rw [hf]
    rfl

/-! ## menu choices after the replay -/

/-- the menu choices that write a register, other than the clock type -/
inductive FpgaChoice where
  | format (which : Fin (Group.num .configFormat))
  | videoInput (which : Fin (Group.num .configVideoInput))
  | srcMode (which : Fin (Group.num .configSrcMode))
  | syncType (which : Fin (Group.num .configSrcSyncType))
  | syncFrame (which : Fin (Group.num .configSrcSyncFrame))

def choose (d : Dev) : FpgaChoice → Dev
  | .format w => selectRender d .configFormat w
  | .videoInput w => selectRender d .configVideoInput w
  | .srcMode w => selectRender d .configSrcMode w
  | .syncType w => selectRender d .configSrcSyncType w
  | .syncFrame w => selectRender d .configSrcSyncFrame w

/-- the choices after a choice -/
def FpgaChoice.next (k : Choices) : FpgaChoice → Choices
  | .format w => Function.update k .configFormat w
  | .videoInput _ => k
  | .srcMode w => Function.update k .configSrcMode w
  | .syncType w => Function.update k .configSrcSyncType w
  | .syncFrame w => Function.update k .configSrcSyncFrame w

/-- the sync type register after a choice -/
def FpgaChoice.nextSync (v : UInt8) : FpgaChoice → UInt8
  | .syncType w => srcSyncTypeCode w
  | _ => v

def FpgaChoice.isSyncType : FpgaChoice → Bool
  | .syncType _ => true
  | _ => false

/-- a choice in an encoded group whose writes are `ws` -/
theorem select_regInv {d : Dev} {k : Choices} {v : UInt8} (h : RegInv d k v) (g : Group)
    (w : Fin g.num) (ws : List (UInt8 × UInt8))
    (hst : menuRadio g (d.menu g) w = some (oneHot w)) (hf : toFpga g = true)
    (hv : g ≠ .configVideoInput)
    (hws : ∀ c : Config, IsChoice (c g) w → regConfigSends c (Arr.addr g) 0 = ws)
    (hr : EncodesOffSync (testPatternCode d.arr) (Function.update k g w) (applySends d.fpga ws)) :
    RegInv (selectRender d g w) (Function.update k g w) (applySends d.fpga ws 0x06) := by
  obtain ⟨harr, hmenu, hfpga⟩ := selectRender_spec d h.menu g w _ hst hf
  have hc : IsChoice (d.arr.setGroup g (oneHot w) g) w := by
    rw [Config.setGroup_self]
    exact isChoice_oneHot w
  rw [hws _ hc] at hfpga
  refine ⟨hmenu, ?_, ?_, ?_⟩
  · rw [harr]
    exact h.chosen.setGroup g w
  · rw [harr, hfpga, testPatternCode_setGroup _ _ _ hv]
    exact hr
  · rw [hfpga]

theorem videoInput_regInv {d : Dev} {k : Choices} {v : UInt8} (h : RegInv d k v)
    (w : Fin (Group.num .configVideoInput)) :
    RegInv (selectRender d .configVideoInput w) k v := by
  obtain ⟨hm, hc, hr, hs⟩ := h
  cases hst : menuRadio .configVideoInput (d.menu .configVideoInput) w with
  | none =>
    have hd : selectRender d .configVideoInput w = d := by rw [selectRender_eq, hst]
    rw [hd]
    exact ⟨hm, hc, hr, hs⟩
  | some st =>
    obtain ⟨harr, hmenu, hfpga⟩ := selectRender_spec d hm .configVideoInput w st hst rfl
    have hws : regConfigSends (d.arr.setGroup .configVideoInput st)
        (Arr.addr Group.configVideoInput) 0
        = [(0x01, testPatternCode (d.arr.setGroup .configVideoInput st))] := rfl
    rw [hws] at hfpga
    refine ⟨hmenu, ?_, ?_, ?_⟩
    · rw [harr]
      exact hc.setGroup_other .configVideoInput st (by decide)
    · rw [harr, hfpga]
      obtain ⟨_, h04, h05, h0D, h10, h11⟩ := hr
      exact ⟨rfl, h04, h05, h0D, h10, h11⟩
    · rw [hfpga]
      exact hs

/-- **One choice** keeps the registers right and moves the sync type register along. -/
theorem choose_regInv {d : Dev} {k : Choices} {v : UInt8} (h : RegInv d k v) (a : FpgaChoice) :
    RegInv (choose d a) (a.next k) (a.nextSync v) := by
  obtain ⟨h01, h04, h05, h0D, h10, h11⟩ := h.regs
  have hs := h.sync
  cases a with
  | videoInput w => exact videoInput_regInv h w
  | format w =>
    have hr := select_regInv h .configFormat w [(0x05, formatCode05 w), (0x11, formatCode11 w)]
      rfl rfl (by decide) (fun c hc => chainSends_of_isChoice hc _) ⟨h01, h04, rfl, h0D, h10, rfl⟩
    exact ⟨hr.menu, hr.chosen, hr.regs, hr.sync.trans hs⟩
  | srcMode w =>
    have hr := select_regInv h .configSrcMode w [(0x04, srcModeCode w)]
      rfl rfl (by decide) (fun c hc => chainSends_of_isChoice hc _) ⟨h01, rfl, h05, h0D, h10, h11⟩
    exact ⟨hr.menu, hr.chosen, hr.regs, hr.sync.trans hs⟩
  | syncType w =>
    have hr := select_regInv h .configSrcSyncType w [(0x06, srcSyncTypeCode w)]
      rfl rfl (by decide) (fun c hc => chainSends_of_isChoice hc _) ⟨h01, h04, h05, h0D, h10, h11⟩
    exact ⟨hr.menu, hr.chosen, hr.regs, hr.sync⟩
  | syncFrame w =>
    have hr := select_regInv h .configSrcSyncFrame w [(0x10, srcSyncFrameCode w)]
      rfl rfl (by decide) (fun c hc => chainSends_of_isChoice hc _) ⟨h01, h04, h05, h0D, rfl, h11⟩
    exact ⟨hr.menu, hr.chosen, hr.regs, hr.sync.trans hs⟩

theorem choices_regInv (l : List FpgaChoice) {d : Dev} {k : Choices} {v : UInt8}
    (h : RegInv d k v) :
    RegInv (run choose d l) (l.foldl FpgaChoice.next k) (l.foldl FpgaChoice.nextSync v) := by
  induction l generalizing d k v with
  | nil => exact h
  | cons a l ih => exact ih (choose_regInv h a)

/-! ## the sync type register along the choices -/

/-- once right, the sync type register stays right -/
theorem sync_foldl (l : List FpgaChoice) (k : Choices) (v : UInt8)
    (h : v = srcSyncTypeCode (k .configSrcSyncType)) :
    l.foldl FpgaChoice.nextSync v
      = srcSyncTypeCode ((l.foldl FpgaChoice.next k) .configSrcSyncType) := by
  induction l generalizing k v with
  | nil => exact h
  | cons a l ih => cases a <;> exact ih _ _ (by first | exact h | rfl)

/-- a sync type choice sets it right -/
theorem sync_foldl_any (l : List FpgaChoice) (k : Choices) (v : UInt8)
    (h : l.any FpgaChoice.isSyncType = true) :
    l.foldl FpgaChoice.nextSync v
      = srcSyncTypeCode ((l.foldl FpgaChoice.next k) .configSrcSyncType) := by
  induction l generalizing k v with
  | nil => exact absurd h Bool.false_ne_true
  | cons a l ih =>
    cases a with
    | syncType w => exact sync_foldl l (Function.update k .configSrcSyncType w) _ rfl
    | format w => exact ih _ _ h
    | videoInput w => exact ih _ _ h
    | srcMode w => exact ih _ _ h
    | syncFrame w => exact ih _ _ h

/-- without one, register and choice stay as they are -/
theorem sync_foldl_none (l : List FpgaChoice) (k : Choices) (v : UInt8)
    (h : l.any FpgaChoice.isSyncType = false) :
    l.foldl FpgaChoice.nextSync v = v ∧
      (l.foldl FpgaChoice.next k) .configSrcSyncType = k .configSrcSyncType := by
  induction l generalizing k v with
  | nil => exact ⟨rfl, rfl⟩
  | cons a l ih =>
    cases a with
    | syncType w => exact absurd h nofun
    | format w => exact ih (Function.update k .configFormat w) v h
    | videoInput w => exact ih k v h
    | srcMode w => exact ih (Function.update k .configSrcMode w) v h
    | syncFrame w => exact ih (Function.update k .configSrcSyncFrame w) v h

theorem srcSyncTypeCode_eq_zero (w : Fin (Group.num .configSrcSyncType)) :
    srcSyncTypeCode w = 0 ↔ w.val = 0 ∨ w.val = 7 := by
  have h : ∀ i, (hi : i < Group.num .configSrcSyncType) →
      (srcSyncTypeCode ⟨i, hi⟩ = 0 ↔ i = 0 ∨ i = 7) := by decide
  exact h w.1 w.2

/-! ## from power-on -/

/-- `HardWare_Init` down to `menuInit`, which fills the menu fields -/
def startUp (d : Dev) : Dev := arrInit (boot (powerOn d))

theorem startUp_holds (d : Dev) (c : Config) (h : Holds d.flash.mem c 0x01) :
    (startUp d).arr = c ∧ ∀ g : Group, (startUp d).menu g = c g := by
  have hb := (boot_one (powerOn d) c h).1
  exact ⟨hb, fun g => congrFun hb g⟩

/-- the device after `n` ticks from power-on and the menu choices `l` -/
def replayThenChoose (d : Dev) (n : Nat) (l : List FpgaChoice) : Dev :=
  run choose (replayTicks (startUp d) n).2 l

theorem replayThenChoose_regInv (d : Dev) (c : Config) (k : Choices) (n : Nat)
    (l : List FpgaChoice) (h : Holds d.flash.mem c 0x01) (hk : Chosen c k)
    (hd : ReplayDone (replayTicks (startUp d) n).1) :
    RegInv (replayThenChoose d n l) (l.foldl FpgaChoice.next k)
      (l.foldl FpgaChoice.nextSync 0) := by
  obtain ⟨harr, hmenu⟩ := startUp_holds d c h
  apply choices_regInv
  apply replayDone_regInv _ k n _ _ hd
  · rw [harr]
    exact hk
  · intro g
    rw [hmenu g, harr]

/-- **The registers after power-on.**  After a complete replay and any later choices they are the
encoding of the arrays exactly when the saved sync type is one of the two whose code is `0x00`, or
one of the choices is a sync type. -/
theorem replay_select_iff (d : Dev) (c : Config) (k : Choices) (n : Nat) (l : List FpgaChoice)
    (h : Holds d.flash.mem c 0x01) (hk : Chosen c k)
    (hd : ReplayDone (replayTicks (startUp d) n).1) :
    RegsMatch (replayThenChoose d n l).arr (replayThenChoose d n l).fpga ↔
      ((k .configSrcSyncType).val = 0 ∨ (k .configSrcSyncType).val = 7) ∨
        l.any FpgaChoice.isSyncType = true := by
  rw [(replayThenChoose_regInv d c k n l h hk hd).regsMatch_iff, ← srcSyncTypeCode_eq_zero]
  by_cases ha : l.any FpgaChoice.isSyncType = true
  · exact iff_of_true (sync_foldl_any l k 0 ha) (Or.inr ha)
  · obtain ⟨hv, hs⟩ := sync_foldl_none l k 0 (Bool.eq_false_of_not_eq_true ha)
    rw [hv, hs]
    constructor
    · exact fun e => Or.inl e.symm
    · rintro (e | e)
      · exact e.symm
      · exact absurd e ha

/-- the first choice in every group -/
def firstChoices : Choices := fun g => ⟨0, g.num_pos⟩

theorem chosen_default : Chosen defaultArr firstChoices := by
  intro g hg
  simp only [encodedGroups, List.mem_cons, List.not_mem_nil, or_false] at hg
  rcases hg with rfl | rfl | rfl | rfl | rfl <;> exact isChoice_oneHot _

/-- the defaults with the second sync type -/
def storedSync : Config := defaultArr.setGroup .configSrcSyncType (oneHot ⟨1, by decide⟩)

/-- the second sync type is saved, and after the replay another one is chosen, and a format -/
theorem replay_select_iff_chosen :
    RegsMatch
      (replayThenChoose (savedDev storedSync) 686 [.syncType ⟨2, by decide⟩, .format ⟨3, by decide⟩]).arr
      (replayThenChoose (savedDev storedSync) 686
        [.syncType ⟨2, by decide⟩, .format ⟨3, by decide⟩]).fpga :=
  (replay_select_iff (savedDev storedSync) storedSync _ 686 _ (savedDev_holds _)
    (chosen_default.setGroup .configSrcSyncType ⟨1, by decide⟩)
    ((replayDone_iff _ 686).2 (by decide))).2 (Or.inr rfl)

/-- the second sync type is saved as `0x10` in register `0x06`; the replay leaves `0x00` there -/
theorem replay_clears_syncType :
    Holds (savedDev storedSync).flash.mem storedSync 0x01 ∧
    ReplayDone (replayTicks (startUp (savedDev storedSync)) 686).1 ∧
    (replayThenChoose (savedDev storedSync) 686 []).fpga 0x06 = 0x00 ∧
    ¬ RegsMatch (replayThenChoose (savedDev storedSync) 686 []).arr
      (replayThenChoose (savedDev storedSync) 686 []).fpga := by
  have hk := chosen_default.setGroup .configSrcSyncType ⟨1, by decide⟩
  have hd : ReplayDone (replayTicks (startUp (savedDev storedSync)) 686).1 :=
    (replayDone_iff _ 686).2 (by decide)
  have h := replayThenChoose_regInv (savedDev storedSync) storedSync _ 686 [] (savedDev_holds _)
    hk hd
  refine ⟨savedDev_holds _, hd, h.sync, ?_⟩
  rw [h.regsMatch_iff]
  decide

end MenuFirmware
